-- The laws of text in bytes. A character has one form of one to four bytes, and every reader that
-- takes the numbers of characters takes this form to its end, whatever follows. So every text comes
-- back from its bytes.
import Attestation.Text.Utf8

namespace Attestation.Utf8

/-! ## Characters and their numbers -/

/-- No character has the number of a half. -/
theorem toNat_valid (c : Char) :
    c.toNat < 0xD800 ∨ (0xDFFF < c.toNat ∧ c.toNat < 0x110000) := c.valid

theorem toNat_lt (c : Char) : c.toNat < 0x110000 := by
  rcases toNat_valid c with h | h
  · exact Nat.lt_trans h (by decide)
  · exact h.2

theorem scalar?_toNat (c : Char) : scalar? c.toNat = some c := by
  unfold scalar?
  rw [if_pos (toNat_valid c), Char.ofNat_toNat]

/-! ## The bytes of one character -/

theorem continuation?_ofNat {bits : Nat} (h : bits < 64) :
    continuation? (UInt8.ofNat (0x80 + bits)) = some bits := by
  unfold continuation?
  rw [UInt8.toNat_ofNat_of_lt' (show 0x80 + bits < 256 by omega), if_pos (by omega),
    Nat.add_sub_cancel_left]

theorem lead?_one {n : Nat} (h : n < 0x80) : lead? (UInt8.ofNat n) = some (.inl n) := by
  unfold lead?
  simp only [UInt8.toNat_ofNat_of_lt' (show n < 256 by omega), if_pos h]

theorem lead?_two {high : Nat} (h : high < 32) :
    lead? (UInt8.ofNat (0xC0 + high)) = some (.inr (.more 1 high 0x80)) := by
  unfold lead?
  simp only [UInt8.toNat_ofNat_of_lt' (show 0xC0 + high < 256 by omega)]
  rw [if_neg (by omega), if_neg (by omega), if_pos (by omega), Nat.add_sub_cancel_left]

theorem lead?_three {high : Nat} (h : high < 16) :
    lead? (UInt8.ofNat (0xE0 + high)) = some (.inr (.more 2 high 0x800)) := by
  unfold lead?
  simp only [UInt8.toNat_ofNat_of_lt' (show 0xE0 + high < 256 by omega)]
  rw [if_neg (by omega), if_neg (by omega), if_neg (by omega), if_pos (by omega),
    Nat.add_sub_cancel_left]

theorem lead?_four {high : Nat} (h : high < 8) :
    lead? (UInt8.ofNat (0xF0 + high)) = some (.inr (.more 3 high 0x10000)) := by
  unfold lead?
  simp only [UInt8.toNat_ofNat_of_lt' (show 0xF0 + high < 256 by omega)]
  rw [if_neg (by omega), if_neg (by omega), if_neg (by omega), if_neg (by omega),
    if_pos (by omega), Nat.add_sub_cancel_left]

section Readers

variable {α : Type} {read? : Nat → Option α} {embed : Char → α}

/-- A byte in the middle of a character adds its six bits to those that are held. -/
theorem decodeFrom_more {bits : Nat} (h : bits < 64) {left : Nat} (hleft : 1 < left)
    (value least : Nat) (done : List α) (rest : List UInt8) :
    decodeFrom read? (.more left value least) done (UInt8.ofNat (0x80 + bits) :: rest) =
      decodeFrom read? (.more (left - 1) (64 * value + bits) least) done rest := by
  have hmore : ¬ left ≤ 1 := by omega
  simp only [decodeFrom, continuation?_ofNat h, if_neg hmore]

/-- A first byte tells how many are due. -/
theorem decodeFrom_lead {n : Nat} {due : Due} (hlead : lead? (UInt8.ofNat n) = some (.inr due))
    (done : List α) (rest : List UInt8) :
    decodeFrom read? .start done (UInt8.ofNat n :: rest) = decodeFrom read? due done rest := by
  simp only [decodeFrom, hlead]

variable (hread : ∀ c : Char, read? c.toNat = some (embed c))
include hread

/-- The last byte of a character completes it. -/
theorem decodeFrom_last (c : Char) {bits value least : Nat} (h : bits < 64)
    (hvalue : 64 * value + bits = c.toNat) (hleast : least ≤ c.toNat) (done : List α)
    (rest : List UInt8) :
    decodeFrom read? (.more 1 value least) done (UInt8.ofNat (0x80 + bits) :: rest) =
      decodeFrom read? .start (embed c :: done) rest := by
  simp only [decodeFrom, continuation?_ofNat h, hvalue, hread, Nat.le_refl, if_true,
    if_neg (Nat.not_lt.2 hleast)]

/-- The bytes of a character give the character, and what follows is left. -/
theorem decodeFrom_encodeChar (c : Char) (done : List α) (rest : List UInt8) :
    decodeFrom read? .start done (encodeChar c ++ rest) =
      decodeFrom read? .start (embed c :: done) rest := by
  have htop := toNat_lt c
  unfold encodeChar
  simp only
  split
  · rename_i h1
    simp only [List.cons_append, List.nil_append, decodeFrom, lead?_one h1, hread]
  split
  · rename_i h1 h2
    rw [List.cons_append, List.cons_append, List.nil_append, decodeFrom_lead (lead?_two (by omega)),
      decodeFrom_last hread c (Nat.mod_lt _ (by decide)) (by omega) (by omega)]
  split
  · rename_i h1 h2 h3
    rw [List.cons_append, List.cons_append, List.cons_append, List.nil_append,
      decodeFrom_lead (lead?_three (by omega)),
      decodeFrom_more (Nat.mod_lt _ (by decide)) (by decide),
      decodeFrom_last hread c (Nat.mod_lt _ (by decide)) (by omega) (by omega)]
  · rename_i h1 h2 h3
    rw [List.cons_append, List.cons_append, List.cons_append, List.cons_append, List.nil_append,
      decodeFrom_lead (lead?_four (by omega)),
      decodeFrom_more (Nat.mod_lt _ (by decide)) (by decide),
      decodeFrom_more (Nat.mod_lt _ (by decide)) (by decide),
      decodeFrom_last hread c (Nat.mod_lt _ (by decide)) (by omega) (by omega)]

/-- What is written is read again. -/
theorem decodeFrom_encode (cs : List Char) (done : List α) :
    decodeFrom read? .start done (encode cs) = some (done.reverse ++ cs.map embed) := by
  induction cs generalizing done with
  | nil => simp [encode, decodeFrom]
  | cons c cs ih =>
    have hbytes : encode (c :: cs) = encodeChar c ++ encode cs := by
      simp [encode]
    rw [hbytes, decodeFrom_encodeChar hread, ih]
    simp

end Readers

theorem decode_encode (cs : List Char) : decode (encode cs) = some cs := by
  simp [decode, decodeFrom_encode scalar?_toNat]

theorem decode_ofString (s : String) : decode (ofString s) = some s.toList := decode_encode _

/-- Characters are code points. -/
theorem decodePoints_encode (cs : List Char) :
    decodePoints (encode cs) = some (Point.ofChars cs) := by
  have hread : ∀ c : Char, Point.ofNat? c.toNat = some (.char c) := fun c =>
    Point.ofNat?_toNat (.char c)
  simp [decodePoints, decodeFrom_encode hread, Point.ofChars]

/-- No character has more than four bytes. -/
theorem length_encode_le (cs : List Char) : (encode cs).length ≤ 4 * cs.length := by
  induction cs with
  | nil => exact Nat.le_refl _
  | cons c cs ih =>
    have hchar : (encodeChar c).length ≤ 4 := by
      unfold encodeChar
      simp only
      repeat' split
      all_goals simp
    have hsplit : encode (c :: cs) = encodeChar c ++ encode cs := List.flatMap_cons
    rw [hsplit, List.length_append, List.length_cons]
    omega

end Attestation.Utf8
