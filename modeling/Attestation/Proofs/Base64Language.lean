-- The language of strict Base64. A text is read just when it is characters of the alphabet and
-- then padding, and the padding is what the last group lacks; after whole groups it may be of
-- any length. How many bytes there are depends on the count of the characters alone.
import Attestation.Proofs.SaltText

namespace Attestation.Base64

/-! ## The alphabet -/

def alphabet : List Char :=
  "ABCDEFGHIJKLMNOPQRSTUVWXYZabcdefghijklmnopqrstuvwxyz0123456789+/".toList

theorem toNat_lt_of_digitValue? {c : Char} (h : digitValue? c ≠ none) : c.toNat < 128 := by
  unfold digitValue? at h
  split at h
  · rename_i hupper
    have hle : c.toNat ≤ 'Z'.toNat := hupper.2
    exact Nat.lt_of_le_of_lt hle (by decide)
  · split at h
    · rename_i hlower
      have hle : c.toNat ≤ 'z'.toNat := hlower.2
      exact Nat.lt_of_le_of_lt hle (by decide)
    · split at h
      · rename_i hdecimal
        have hle : c.toNat ≤ '9'.toNat := hdecimal.2
        exact Nat.lt_of_le_of_lt hle (by decide)
      · split at h
        · rename_i hplus
          rw [hplus]
          decide
        · split at h
          · rename_i hslash
            rw [hslash]
            decide
          · exact absurd rfl h

/-- The alphabet is all that has a value. -/
theorem mem_alphabet_iff {c : Char} : c ∈ alphabet ↔ digitValue? c ≠ none := by
  constructor
  · intro hc
    have hall : (alphabet.all fun c => (digitValue? c).isSome) = true := by decide +kernel
    exact Option.isSome_iff_ne_none.1 (List.all_eq_true.1 hall c hc)
  · intro h
    have hall : ∀ n < 128, digitValue? (Char.ofNat n) ≠ none → Char.ofNat n ∈ alphabet := by
      decide +kernel
    have hmem := hall c.toNat (toNat_lt_of_digitValue? h)
    rw [Char.ofNat_toNat] at hmem
    exact hmem h

theorem pad_notMem_alphabet : '=' ∉ alphabet := by
  decide +kernel

/-! ## Where the reader stands -/

/-- After so many characters of the alphabet the reader stands so far in its group, and it has
this many bytes. -/
def Stands (count : Nat) (place : Place) (done : List UInt8) : Prop :=
  place.index = count % 4 ∧ done.length = count * 3 / 4

theorem Stands.push {count : Nat} {place : Place} {done : List UInt8} (h : Stands count place done)
    (bits : Nat) : Stands (count + 1) (place.push bits).1 ((place.push bits).2.toList ++ done) := by
  obtain ⟨hindex, hlength⟩ := h
  cases place with
  | first | second held | third held | fourth held =>
    simp only [Place.index] at hindex
    refine ⟨?_, ?_⟩
    · simp only [Place.push, Place.index]
      omega
    · simp only [Place.push, Option.toList_some, Option.toList_none, List.length_append,
        List.length_cons, List.length_nil, hlength]
      omega

/-- Characters of the alphabet are all read, and the reader stands after them. -/
theorem exists_stands {ds : List Char} (hds : ∀ c ∈ ds, c ∈ alphabet) {count : Nat} {place : Place}
    {done : List UInt8} (h : Stands count place done) :
    ∃ place' done', Stands (count + ds.length) place' done' ∧
      ∀ rest, decodeFrom place 0 done (ds ++ rest) = decodeFrom place' 0 done' rest := by
  induction ds generalizing count place done with
  | nil => exact ⟨place, done, h, fun _ => rfl⟩
  | cons c ds ih =>
    obtain ⟨hc, hds⟩ := List.forall_mem_cons.1 hds
    obtain ⟨bits, hbits⟩ := Option.ne_none_iff_exists'.1 (mem_alphabet_iff.1 hc)
    have hpad : c ≠ '=' := by
      rintro rfl
      exact pad_notMem_alphabet hc
    obtain ⟨place', done', hstands, hread⟩ := ih hds (h.push bits)
    refine ⟨place', done', ?_, fun rest => ?_⟩
    · rw [List.length_cons, Nat.add_comm ds.length, ← Nat.add_assoc]
      exact hstands
    · rw [← hread rest, List.cons_append, decodeFrom]
      simp [hpad, hbits]

/-! ## Padding -/

/-- Where nothing but padding follows, it must fill the group up, or follow a whole one. -/
theorem decodeFrom_pads {place : Place} {pads : Nat} (h : 2 ≤ place.index → place.index + pads < 4)
    (done : List UInt8) (k : Nat) :
    decodeFrom place pads done (List.replicate k '=') =
      if place.index = 0 ∨ 2 ≤ place.index ∧ place.index + pads + k = 4 then some done.reverse
      else none := by
  induction k generalizing pads with
  | zero =>
    have hopen : ¬ (2 ≤ place.index ∧ place.index + pads + 0 = 4) := by omega
    simp only [List.replicate_zero, decodeFrom, hopen, or_false]
  | succ k ih =>
    rw [List.replicate_succ, decodeFrom, if_pos rfl]
    by_cases hfull : 2 ≤ place.index ∧ 4 ≤ place.index + (pads + 1)
    · -- the group is full, so this character has to be the last one
      rw [if_pos hfull]
      have hlast : (place.index = 0 ∨ 2 ≤ place.index ∧ place.index + pads + (k + 1) = 4) ↔
          k = 0 := by omega
      cases k with
      | zero =>
        rw [if_pos (hlast.2 rfl)]
        rfl
      | succ k =>
        have hmore := mt hlast.1 (Nat.succ_ne_zero k)
        rw [if_neg hmore]
        rfl
    · rw [if_neg hfull, ih (by omega)]
      have hshift : place.index + (pads + 1) + k = place.index + pads + (k + 1) := by omega
      rw [hshift]

/-- So many characters of the alphabet want so much padding. -/
def Padded (count pads : Nat) : Prop :=
  (count % 4 = 0 ∧ (count = 0 → pads = 0)) ∨ (count % 4 = 2 ∧ pads = 2) ∨
    (count % 4 = 3 ∧ pads = 1)

instance (count pads : Nat) : Decidable (Padded count pads) := by
  unfold Padded
  infer_instance

/-! ## The language -/

/-- What is read is characters of the alphabet and then padding. -/
theorem exists_eq_append_pads_of_decodeFrom {place : Place} {pads : Nat} {done bs : List UInt8}
    {cs : List Char} (h : decodeFrom place pads done cs = some bs) :
    ∃ ds k, cs = ds ++ List.replicate k '=' ∧ (∀ c ∈ ds, c ∈ alphabet) ∧ (0 < pads → ds = []) := by
  fun_induction decodeFrom place pads done cs with
  | case1 => exact ⟨[], 0, rfl, by simp, fun _ => rfl⟩
  | case2 => cases h
  | case3 place pads done rest hfull hlast =>
    rw [List.isEmpty_iff] at hlast
    exact ⟨[], 1, by rw [hlast]; rfl, by simp, fun _ => rfl⟩
  | case4 => cases h
  | case5 place pads done rest hmore ih =>
    obtain ⟨ds, k, hrest, _, hnone⟩ := ih h
    rw [hnone (Nat.succ_pos pads)] at hrest
    exact ⟨[], k + 1, by rw [hrest]; rfl, by simp, fun _ => rfl⟩
  | case6 => cases h
  | case7 place done c rest hc bits hbits next byte hpush ih =>
    obtain ⟨ds, k, hrest, hds, _⟩ := ih h
    refine ⟨c :: ds, k, by rw [hrest, List.cons_append], ?_, fun hpads => ?_⟩
    · exact List.forall_mem_cons.2 ⟨mem_alphabet_iff.2 (by simp [hbits]), hds⟩
    · exact absurd hpads (Nat.lt_irrefl 0)
  | case8 => cases h

theorem exists_eq_append_pads_of_decode {cs : List Char} {bs : List UInt8}
    (h : decode cs = some bs) :
    ∃ ds k, cs = ds ++ List.replicate k '=' ∧ ∀ c ∈ ds, c ∈ alphabet := by
  unfold decode at h
  split at h
  · cases h
  · obtain ⟨ds, k, hcs, hds, _⟩ := exists_eq_append_pads_of_decodeFrom h
    exact ⟨ds, k, hcs, hds⟩

/-- Characters of the alphabet are read with the padding that they want, and with no other. -/
theorem exists_decode_append_pads {ds : List Char} (hds : ∀ c ∈ ds, c ∈ alphabet) (k : Nat) :
    ∃ bs, bs.length = ds.length * 3 / 4 ∧
      decode (ds ++ List.replicate k '=') = if Padded ds.length k then some bs else none := by
  cases ds with
  | nil =>
    refine ⟨[], rfl, ?_⟩
    cases k with
    | zero => rfl
    | succ k => rfl
  | cons c ds =>
    have hfirst : Stands 0 .first [] := ⟨rfl, rfl⟩
    obtain ⟨place, done, ⟨hindex, hlength⟩, hread⟩ := exists_stands hds hfirst
    have hpad : c ≠ '=' := by
      rintro rfl
      exact pad_notMem_alphabet (hds _ List.mem_cons_self)
    have hwants : (place.index = 0 ∨ 2 ≤ place.index ∧ place.index + 0 + k = 4) ↔
        Padded (c :: ds).length k := by
      rw [hindex, List.length_cons]
      unfold Padded
      omega
    refine ⟨done.reverse, by simpa using hlength, ?_⟩
    rw [decode, List.cons_append, List.head?_cons, if_neg (by simpa using hpad),
      ← List.cons_append, hread, decodeFrom_pads (by rw [hindex]; omega)]
    simp only [hwants]

/-- The texts that are read, and the count of the bytes in them. -/
theorem exists_decode_iff {cs : List Char} {size : Nat} :
    (∃ bs, decode cs = some bs ∧ bs.length = size) ↔
      ∃ ds k, cs = ds ++ List.replicate k '=' ∧ (∀ c ∈ ds, c ∈ alphabet) ∧ Padded ds.length k ∧
        ds.length * 3 / 4 = size := by
  constructor
  · rintro ⟨bs, hread, rfl⟩
    obtain ⟨ds, k, rfl, hds⟩ := exists_eq_append_pads_of_decode hread
    obtain ⟨bs', hlength, hdecode⟩ := exists_decode_append_pads hds k
    rw [hread] at hdecode
    split at hdecode
    · rename_i hpadded
      cases hdecode
      exact ⟨ds, k, rfl, hds, hpadded, hlength.symm⟩
    · cases hdecode
  · rintro ⟨ds, k, rfl, hds, hpadded, rfl⟩
    obtain ⟨bs, hlength, hdecode⟩ := exists_decode_append_pads hds k
    rw [if_pos hpadded] at hdecode
    exact ⟨bs, hdecode, hlength⟩

end Attestation.Base64
