-- The laws of salts as text. What Base64 writes it reads again, so two runs of bytes
-- with one text are one, and every salt that the office draws passes a verifier's gate.
import Attestation.Notary

namespace Attestation.Base64

/-! ## One group of characters -/

theorem digitValue?_digit_of_lt {n : Nat} (h : n < 64) : digitValue? (digit n) = some n :=
  digitValue?_digit ⟨n, h⟩

theorem digit_ne_pad {n : Nat} (h : n < 64) : digit n ≠ '=' := by
  intro hpad
  have hread := digitValue?_digit_of_lt h
  rw [hpad] at hread
  cases hread

/-- A character of the alphabet adds its six bits to those that are held. -/
theorem decodeFrom_digit {n : Nat} (h : n < 64) (place : Place) (done : List UInt8)
    (rest : List Char) :
    decodeFrom place 0 done (digit n :: rest) =
      decodeFrom (place.push n).1 0 ((place.push n).2.toList ++ done) rest := by
  simp [decodeFrom, digit_ne_pad h, digitValue?_digit_of_lt h]

/-- Four characters hold the three bytes that they were made from. -/
theorem decodeFrom_group (a b c : UInt8) (done : List UInt8) (rest : List Char) :
    let n := (a.toNat * 256 + b.toNat) * 256 + c.toNat
    decodeFrom .first 0 done (digit (n / 262144) :: digit (n / 4096 % 64) :: digit (n / 64 % 64)
      :: digit (n % 64) :: rest) = decodeFrom .first 0 (c :: b :: a :: done) rest := by
  intro n
  have ha := a.toNat_lt
  have hb := b.toNat_lt
  have hc := c.toNat_lt
  have h1 : n / 262144 * 4 + n / 4096 % 64 / 16 = a.toNat := by omega
  have h2 : n / 4096 % 64 % 16 * 16 + n / 64 % 64 / 4 = b.toNat := by omega
  have h3 : n / 64 % 64 % 4 * 64 + n % 64 = c.toNat := by omega
  rw [decodeFrom_digit (by omega), decodeFrom_digit (by omega), decodeFrom_digit (by omega),
    decodeFrom_digit (by omega)]
  simp only [Place.push, h1, h2, h3, UInt8.ofNat_toNat, Option.toList_some, Option.toList_none,
    List.cons_append, List.nil_append]

/-! ## Whole texts -/

theorem decodeFrom_encode (bs done : List UInt8) :
    decodeFrom .first 0 done (encode bs) = some (done.reverse ++ bs) := by
  fun_induction encode bs generalizing done with
  | case1 => simp [decodeFrom, Place.index]
  | case2 a n =>
    have ha := a.toNat_lt
    have h1 : n / 64 * 4 + n % 64 / 16 = a.toNat := by omega
    rw [decodeFrom_digit (by omega), decodeFrom_digit (by omega)]
    simp only [Place.push, h1, UInt8.ofNat_toNat]
    simp [decodeFrom, Place.index]
  | case3 a b n =>
    have ha := a.toNat_lt
    have hb := b.toNat_lt
    have h1 : n / 4096 * 4 + n / 64 % 64 / 16 = a.toNat := by omega
    have h2 : n / 64 % 64 % 16 * 16 + n % 64 / 4 = b.toNat := by omega
    rw [decodeFrom_digit (by omega), decodeFrom_digit (by omega), decodeFrom_digit (by omega)]
    simp only [Place.push, h1, h2, UInt8.ofNat_toNat]
    simp [decodeFrom, Place.index]
  | case4 a b c rest n ih =>
    rw [decodeFrom_group a b c done, ih]
    simp

/-- A written text never starts with padding. -/
theorem head?_encode_ne_pad (bs : List UInt8) : (encode bs).head? ≠ some '=' := by
  cases bs using encode.fun_cases with
  | case1 => simp [encode]
  | case2 a =>
    have ha := a.toNat_lt
    simpa [encode] using digit_ne_pad (by omega)
  | case3 a b =>
    have ha := a.toNat_lt
    have hb := b.toNat_lt
    simpa [encode] using digit_ne_pad (by omega)
  | case4 a b c rest =>
    have ha := a.toNat_lt
    have hb := b.toNat_lt
    have hc := c.toNat_lt
    simpa [encode] using digit_ne_pad (by omega)

theorem decode_encode (bs : List UInt8) : decode (encode bs) = some bs := by
  simp [decode, head?_encode_ne_pad, decodeFrom_encode]

theorem toList_text (bs : List UInt8) : (text bs).toList = encode bs := by
  simp [text]

/-- Two runs of bytes with the same text are the same. -/
theorem text_inj {bs cs : List UInt8} : text bs = text cs ↔ bs = cs := by
  constructor
  · intro h
    have hread := congrArg (fun s => decode s.toList) h
    simpa [toList_text, decode_encode] using hread
  · exact congrArg text

theorem length_text (bs : List UInt8) : (text bs).length = (bs.length + 2) / 3 * 4 := by
  rw [← String.length_toList, toList_text, encode_length]

/-- A text that is read has nothing in it but the alphabet and padding. -/
theorem mem_of_decodeFrom {place : Place} {pads : Nat} {done bs : List UInt8} {cs : List Char}
    (h : decodeFrom place pads done cs = some bs) : ∀ c ∈ cs, c = '=' ∨ digitValue? c ≠ none := by
  fun_induction decodeFrom place pads done cs with
  | case1 => simp
  | case2 => simp
  | case3 place pads done rest hfull hlast =>
    rw [List.isEmpty_iff] at hlast
    simp [hlast]
  | case4 => cases h
  | case5 place pads done rest hmore ih =>
    exact List.forall_mem_cons.2 ⟨Or.inl rfl, ih h⟩
  | case6 => cases h
  | case7 place done c rest hc bits hbits next byte hpush ih =>
    exact List.forall_mem_cons.2 ⟨Or.inr (by simp [hbits]), ih h⟩
  | case8 => cases h

theorem mem_of_decode {cs : List Char} {bs : List UInt8} (h : decode cs = some bs) :
    ∀ c ∈ cs, c = '=' ∨ digitValue? c ≠ none := by
  unfold decode at h
  split at h
  · cases h
  · exact mem_of_decodeFrom h

end Attestation.Base64

namespace Attestation

/-! ## The gates -/

theorem proofText?_eq_some_iff {v : Value} {t : Text} :
    proofText? v = some t ↔ v = .ofText t ∧ t ≠ .whole "" := by
  rw [proofText?, Option.filter_eq_some_iff, Value.toText?_eq_some_iff, Bool.not_eq_true',
    ← Bool.not_eq_true, Text.isEmpty_iff]

/-- What the salt gate asks of a text: strict Base64, and enough bytes behind it. -/
theorem saltText?_text_eq_some_iff {s t : String} :
    saltText? (.text s) = some t ↔
      t = s ∧ ∃ bs, Base64.decode s.toList = some bs ∧ Limits.minSaltSize ≤ bs.length := by
  unfold saltText?
  cases hread : Base64.decode s.toList with
  | none => simp [hread]
  | some bs =>
    by_cases hsize : Limits.minSaltSize ≤ bs.length
    · simp [hread, hsize, eq_comm]
    · simp [hread, hsize]

/-- The text of enough bytes passes the gate. -/
theorem saltText?_text_of_le {bs : List UInt8} (h : Limits.minSaltSize ≤ bs.length) :
    saltText? (.text (Base64.text bs)) = some (Base64.text bs) := by
  rw [saltText?_text_eq_some_iff, Base64.toList_text, Base64.decode_encode]
  exact ⟨rfl, bs, rfl, h⟩

/-- The text of some bytes passes as a proof. -/
theorem proofText?_text_of_ne_nil {bs : List UInt8} (h : bs ≠ []) :
    proofText? (.text (Base64.text bs)) = some (.whole (Base64.text bs)) := by
  refine proofText?_eq_some_iff.2 ⟨rfl, ?_⟩
  intro hblank
  rw [Text.whole.injEq] at hblank
  have hlength := Base64.length_text bs
  have hpos := List.length_pos_iff.2 h
  rw [hblank] at hlength
  simp at hlength
  omega

namespace Office

/-! ## Drawn salts -/

theorem drawSalt_fst (o : Office) :
    o.drawSalt.1 = Base64.text (o.entropy.block o.entropy.drawn Limits.saltSize) := rfl

theorem keys_drawSalt (o : Office) : o.drawSalt.2.keys = o.keys := rfl

/-- A drawn salt passes the gate of every verifier. -/
theorem saltText?_drawSalt (o : Office) :
    saltText? (.text o.drawSalt.1) = some o.drawSalt.1 := by
  rw [drawSalt_fst]
  apply saltText?_text_of_le
  rw [Entropy.block_length]
  decide

end Office

end Attestation
