-- The laws of the binary form. A head is read back with its number, a text with its
-- characters, and a mapping with its entries, whatever follows. A head holds numbers below
-- 2^64 only; no text in a memory has more bytes than that.
import Mathlib.Algebra.Group.Nat.Defs
import Attestation.Cbor
import Attestation.Proofs.TextBytes

namespace Attestation.Cbor

/-! ## Numbers in bytes -/

theorem bigEndian_length (count n : Nat) : (bigEndian count n).length = count := by
  induction count generalizing n with
  | zero => rfl
  | succ count ih => simp [bigEndian, ih]

theorem ofBigEndian_concat (bs : List UInt8) (b : UInt8) :
    ofBigEndian (bs ++ [b]) = 256 * ofBigEndian bs + b.toNat := by
  simp [ofBigEndian, List.foldl_append]

/-- As many bytes as a number needs give it back. -/
theorem ofBigEndian_bigEndian {count n : Nat} (h : n < 256 ^ count) :
    ofBigEndian (bigEndian count n) = n := by
  induction count generalizing n with
  | zero =>
    have hzero : n = 0 := by simpa using h
    rw [hzero]
    rfl
  | succ count ih =>
    have hhigh : n / 256 < 256 ^ count := by
      rw [Nat.pow_succ] at h
      exact Nat.div_lt_of_lt_mul (by omega)
    have hlow : (UInt8.ofNat (n % 256)).toNat = n % 256 :=
      UInt8.toNat_ofNat_of_lt' (Nat.mod_lt n (by decide))
    rw [bigEndian, ofBigEndian_concat, ih hhigh, hlow]
    omega

theorem takeBytes_append {count : Nat} {bs : List UInt8} (h : bs.length = count)
    (rest : List UInt8) : takeBytes count (bs ++ rest) = some (bs, rest) := by
  subst h
  simp [takeBytes]

/-! ## Heads -/

/-- The first byte of a head holds its type and five more bits. -/
theorem toNat_first {type low : Nat} (htype : type < 8) (hlow : low < 32) :
    (UInt8.ofNat (32 * type + low)).toNat = 32 * type + low :=
  UInt8.toNat_ofNat_of_lt' (show 32 * type + low < 256 by omega)

theorem readHead_short {type n : Nat} (htype : type < 8) (hn : n < 24) (rest : List UInt8) :
    readHead (UInt8.ofNat (32 * type + n) :: rest) = some ((type, n, .known n), rest) := by
  have hdiv : (32 * type + n) / 32 = type := by omega
  have hmod : (32 * type + n) % 32 = n := by omega
  unfold readHead
  simp only [toNat_first htype (show n < 32 by omega), hdiv, hmod, if_pos hn]

/-- A head with its number behind it, in one of the four widths. -/
theorem readHead_wide {type low count n : Nat} (htype : type < 8)
    (hwidth : (low, count) ∈ [(24, 1), (25, 2), (26, 4), (27, 8)]) (hn : n < 256 ^ count)
    (rest : List UInt8) :
    readHead (UInt8.ofNat (32 * type + low) :: (bigEndian count n ++ rest)) =
      some ((type, low, .known n), rest) := by
  have hlow : low < 32 := by
    simp only [List.mem_cons, Prod.mk.injEq, List.not_mem_nil, or_false] at hwidth
    omega
  have hdiv : (32 * type + low) / 32 = type := by omega
  have hmod : (32 * type + low) % 32 = low := by omega
  have htake := takeBytes_append (bigEndian_length count n) rest
  unfold readHead
  simp only [toNat_first htype hlow, hdiv, hmod]
  simp only [List.mem_cons, Prod.mk.injEq, List.not_mem_nil, or_false] at hwidth
  rcases hwidth with ⟨rfl, rfl⟩ | ⟨rfl, rfl⟩ | ⟨rfl, rfl⟩ | ⟨rfl, rfl⟩ <;>
    simp [htake, ofBigEndian_bigEndian hn]

theorem length_head_pos (type n : Nat) : 0 < (head type n).length := by
  unfold head
  repeat' split
  all_goals simp

/-- A head is read back with its type and its number. -/
theorem exists_readHead_head (type : Nat) {n : Nat} (htype : type < 8) (hn : n < 2 ^ 64)
    (rest : List UInt8) :
    ∃ low, readHead (head type n ++ rest) = some ((type, low, .known n), rest) := by
  unfold head
  split
  · rename_i h
    exact ⟨n, readHead_short htype h rest⟩
  split
  · rename_i h
    exact ⟨24, readHead_wide htype (by decide) h rest⟩
  split
  · rename_i h
    exact ⟨25, readHead_wide htype (by decide) h rest⟩
  split
  · rename_i h
    exact ⟨26, readHead_wide htype (by decide) h rest⟩
  · exact ⟨27, readHead_wide htype (by decide) hn rest⟩

/-! ## Single items -/

/-- The bytes are what a value is written as, and what it is read from, whatever follows. -/
def Carries (bytes : List UInt8) (v : Value) : Prop :=
  write v = .ok bytes ∧ ∀ fuel depth rest,
    readItem (fuel + 1) (depth + 1) (bytes ++ rest) = some (v, rest)

/-- A text whose count of bytes a head can hold, which is every text that fits into 64 bits of
memory. -/
def Fits (s : String) : Prop := (Utf8.ofString s).length < 2 ^ 64

theorem fits_of_length_lt {s : String} (h : s.length < 2 ^ 62) : Fits s := by
  have hbytes : (Utf8.ofString s).length ≤ 4 * s.length := Utf8.length_encode_le s.toList
  unfold Fits
  omega

theorem carries_text {s : String} (h : Fits s) : Carries (writeText s) (.text s) := by
  refine ⟨rfl, ?_⟩
  intro fuel depth rest
  obtain ⟨low, hhead⟩ := exists_readHead_head 3 (by decide) h (Utf8.ofString s ++ rest)
  have htake := takeBytes_append (rfl : (Utf8.ofString s).length = _) rest
  have hbytes : writeText s ++ rest =
      head 3 (Utf8.ofString s).length ++ (Utf8.ofString s ++ rest) := List.append_assoc _ _ _
  rw [hbytes, readItem, hhead]
  simp [readString, htake, Utf8.decode_ofString]

theorem carries_none : Carries [0xF6] .none := ⟨rfl, fun _ _ _ => rfl⟩

theorem carries_int {n : Nat} (h : n < 2 ^ 64) : Carries (head 0 n) (.int n) := by
  constructor
  · have hsign : ¬ (n : Int) < 0 := by omega
    have hbound : n < 18446744073709551616 := h
    simp only [write, writeInt, if_neg hsign, Int.toNat_natCast, if_pos hbound]
  · intro fuel depth rest
    obtain ⟨low, hhead⟩ := exists_readHead_head 0 (by decide) h rest
    simp [readItem, hhead]

/-! ## Mappings with text keys -/

/-- Entries under text keys are read one after another, each put behind those before. -/
theorem exists_readEntries (entries : List (String × Value))
    (h : ∀ e ∈ entries, Fits e.1 ∧ ∃ bytes, Carries bytes e.2) :
    ∃ bytes, writeEntries (entries.map fun e => (.text e.1, e.2)) = .ok bytes ∧
      entries.length ≤ bytes.length ∧ ∀ fuel depth done rest, entries.length < fuel →
        readEntries fuel (depth + 1) (.known entries.length) done (bytes ++ rest) =
          some (.mapping (entries.foldl (fun acc e => Value.insert (.text e.1) e.2 acc) done),
            rest) := by
  induction entries with
  | nil =>
    refine ⟨[], rfl, Nat.le_refl _, ?_⟩
    intro fuel depth done rest hfuel
    obtain ⟨fuel, rfl⟩ := Nat.exists_eq_add_one_of_ne_zero (Nat.ne_of_gt hfuel)
    rfl
  | cons e entries ih =>
    obtain ⟨hkey, part, hpart⟩ := h e List.mem_cons_self
    obtain ⟨parts, hwrite, hlength, hread⟩ := ih fun e he => h e (List.mem_cons_of_mem _ he)
    refine ⟨writeText e.1 ++ part ++ parts, ?_, ?_, ?_⟩
    · simp [writeEntries, (carries_text hkey).1, hpart.1, hwrite, bind, Except.bind]
    · have hhead := length_head_pos 3 (Utf8.ofString e.1).length
      simp only [writeText, List.length_append, List.length_cons]
      omega
    · intro fuel depth done rest hfuel
      obtain ⟨fuel, rfl⟩ := Nat.exists_eq_add_one_of_ne_zero
        (Nat.ne_of_gt (Nat.zero_lt_of_lt hfuel))
      obtain ⟨fuel, rfl⟩ := Nat.exists_eq_add_one_of_ne_zero
        (Nat.ne_of_gt (Nat.zero_lt_of_lt (Nat.lt_of_succ_lt_succ hfuel)))
      rw [List.append_assoc, List.append_assoc, List.length_cons, readEntries]
      simp only [(carries_text hkey).2, hpart.2, asKey]
      exact hread _ depth _ rest (Nat.lt_of_succ_lt_succ hfuel)

/-- The first item of the bytes is the given value, and reaches to the last byte. -/
def Fills (bytes : List UInt8) (v : Value) : Prop :=
  readItem (2 * bytes.length + 2) (maxDepth + 1) bytes = some (v, [])

theorem parse_of_fills {bytes : List UInt8} {v : Value} (h : Fills bytes v) :
    parse bytes = some v := by
  unfold parse
  rw [h]
  rfl

/-- A mapping under text keys is read back entry by entry. -/
theorem exists_fills_mapping {entries : List (String × Value)} (hcount : entries.length < 2 ^ 64)
    (h : ∀ e ∈ entries, Fits e.1 ∧ ∃ bytes, Carries bytes e.2) :
    ∃ bytes, write (.mapping (entries.map fun e => (.text e.1, e.2))) = .ok bytes ∧
      Fills bytes
        (.mapping (entries.foldl (fun acc e => Value.insert (.text e.1) e.2 acc) [])) := by
  obtain ⟨parts, hwrite, hlength, hread⟩ := exists_readEntries entries h
  refine ⟨head 5 entries.length ++ parts, ?_, ?_⟩
  · simp [write, hwrite, Except.map]
  · obtain ⟨low, hhead⟩ := exists_readHead_head 5 (by decide) hcount parts
    have hfuel : entries.length < 2 * (head 5 entries.length ++ parts).length + 1 := by
      rw [List.length_append]
      omega
    have hitems := hread _ (maxDepth - 1) [] [] hfuel
    rw [List.append_nil] at hitems
    unfold Fills
    rw [readItem, hhead]
    exact hitems

end Attestation.Cbor
