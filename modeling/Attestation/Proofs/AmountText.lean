-- The laws of canonical amounts. Every number has one canonical text, which writes it to
-- the last digit, is short enough to be read again, and reads as the same number.
import Attestation.Proofs.AmountGrammar

namespace Attestation.Decimal

open DecimalDigit

/-! ## Lowest terms -/

/-- A number as a count of units behind the point, with no more places than it needs.
Zero has no sign. -/
structure Lowest where
  negative : Bool
  count : Nat
  places : Nat
  tight : places = 0 ∨ count % 10 ≠ 0
  unsigned : count = 0 → negative = false

namespace Lowest

def decimal (a : Lowest) : Decimal := ⟨a.negative, a.count, -a.places⟩

/-- The count with its sign. -/
def signed (a : Lowest) : ℤ := if a.negative then -(a.count : ℤ) else a.count

theorem value_decimal (a : Lowest) : a.decimal.value = a.signed * 10 ^ (-(a.places : ℤ)) := by
  unfold value decimal signed
  cases a.negative <;> simp

theorem natAbs_signed (a : Lowest) : a.signed.natAbs = a.count := by
  unfold signed
  split <;> simp

theorem negative_iff_signed_neg (a : Lowest) : a.negative = true ↔ a.signed < 0 := by
  have hzero := a.unsigned
  unfold signed
  cases hn : a.negative
  · simp
  · have hpos : a.count ≠ 0 := fun h => by simp [hn] at hzero; exact hzero h
    simp
    omega

/-- With more places than another form of the number, the count would be a multiple of
ten, and the last place would be needless. -/
theorem places_le_of_value_eq {a b : Lowest} (h : a.decimal.value = b.decimal.value) :
    a.places ≤ b.places := by
  by_contra hlt
  obtain ⟨k, hk⟩ : ∃ k, a.places = b.places + k + 1 := ⟨a.places - b.places - 1, by omega⟩
  have hpow : (10 : ℚ) ^ (-(b.places : ℤ)) = 10 ^ (k + 1) * 10 ^ (-(a.places : ℤ)) := by
    rw [← zpow_natCast, ← zpow_add₀ (by norm_num), hk]
    congr 1
    push_cast
    ring
  have hsigned : a.signed = b.signed * 10 ^ (k + 1) := by
    rw [value_decimal, value_decimal, hpow, ← mul_assoc] at h
    exact_mod_cast mul_right_cancel₀ (ten_zpow_pos _).ne' h
  have hdvd : (10 : ℤ) ∣ a.signed := by
    rw [hsigned]
    exact Dvd.dvd.mul_left (dvd_pow_self 10 (by omega)) _
  have hcount := a.natAbs_signed
  rcases a.tight with hplaces | hdigit
  · omega
  · omega

/-- A number has one form in lowest terms. -/
theorem eq_of_value_eq {a b : Lowest} (h : a.decimal.value = b.decimal.value) : a = b := by
  have hplaces : a.places = b.places :=
    le_antisymm (places_le_of_value_eq h) (places_le_of_value_eq h.symm)
  have hsigned : a.signed = b.signed := by
    rw [value_decimal, value_decimal, hplaces] at h
    exact_mod_cast mul_right_cancel₀ (ten_zpow_pos _).ne' h
  have hcount : a.count = b.count := by rw [← natAbs_signed, hsigned, natAbs_signed]
  have hnegative : a.negative = b.negative := by
    rw [Bool.eq_iff_iff, negative_iff_signed_neg, negative_iff_signed_neg, hsigned]
  cases a
  cases b
  simp_all

end Lowest

/-! ## The text of lowest terms -/

namespace Lowest

/-- The digits behind the point. -/
def fraction (a : Lowest) : List Char := writeFixed a.places a.count

/-- The digits before the point. -/
def whole (a : Lowest) : List Char := write (a.count / 10 ^ a.places)

/-- Sign and digits, with a point only where digits follow it. -/
def chars (a : Lowest) : List Char :=
  sign a.decimal ++ (a.whole ++ (if a.fraction = [] then [] else '.' :: a.fraction))

theorem isAscii_whole (a : Lowest) : ∀ c ∈ a.whole, isAscii c = true := isAscii_write _

theorem isAscii_fraction (a : Lowest) : ∀ c ∈ a.fraction, isAscii c = true :=
  isAscii_writeFixed _ _

theorem length_fraction (a : Lowest) : a.fraction.length = a.places := writeFixed_length _ _

/-- The text of lowest terms is an amount with the very same sign, digits and places. -/
theorem amountForm_chars (a : Lowest) : AmountForm a.chars a.decimal := by
  have hmantissa := mantissaForm_append (areDigits_iff.2 a.isAscii_whole) (write_ne_nil _)
    (areDigits_iff.2 a.isAscii_fraction)
  have hcount : Nat.ofDigitChars 10 (a.whole ++ a.fraction) 0 = a.count :=
    ofAscii_write_append_writeFixed _ _
  have hform := AmountForm.mk (signForm_minus a.negative) hmantissa .absent
  rw [List.append_nil, hcount, length_fraction, zero_sub] at hform
  exact hform

theorem ofChars?_chars (a : Lowest) : ofChars? a.chars = some a.decimal :=
  ofChars?_eq_some_iff.2 a.amountForm_chars

end Lowest

/-! ## Dropping zeros at the end -/

theorem trimFraction_append_zero (cs : List Char) :
    trimFraction (cs ++ ['0']) = trimFraction cs := by
  simp [trimFraction]

theorem trimFraction_append_point (cs : List Char) : trimFraction (cs ++ ['.']) = cs := by
  simp [trimFraction]

theorem trimFraction_append_of_ne {c : Char} (hzero : c ≠ '0') (hpoint : c ≠ '.')
    (cs : List Char) : trimFraction (cs ++ [c]) = cs ++ [c] := by
  simp [trimFraction, hzero, hpoint]

/-- Drops zeros at the end of a count, at most as many as there are places. -/
def tighten : Nat → Nat → Nat × Nat
  | 0, n => (0, n)
  | places + 1, n => if n % 10 = 0 then tighten places (n / 10) else (places + 1, n)

theorem tighten_tight (places n : Nat) :
    (tighten places n).1 = 0 ∨ (tighten places n).2 % 10 ≠ 0 := by
  fun_induction tighten places n with
  | case1 n => exact Or.inl rfl
  | case2 places n hdigit ih => exact ih
  | case3 places n hdigit => exact Or.inr hdigit

theorem tighten_le (places n : Nat) : (tighten places n).1 ≤ places := by
  fun_induction tighten places n with
  | case1 n => exact le_rfl
  | case2 places n hdigit ih => omega
  | case3 places n hdigit => exact le_rfl

/-- What is dropped are powers of ten. -/
theorem tighten_count (places n : Nat) :
    (tighten places n).2 * 10 ^ (places - (tighten places n).1) = n := by
  fun_induction tighten places n with
  | case1 n => simp
  | case2 places n hdigit ih =>
    have hle := tighten_le places (n / 10)
    rw [show places + 1 - (tighten places (n / 10)).1 = places - (tighten places (n / 10)).1 + 1
      by omega, Nat.pow_succ, ← Nat.mul_assoc, ih]
    omega
  | case3 places n hdigit => simp

/-- The text of a count with all its places, trimmed, is the text of the tightened count. -/
theorem trimFraction_pointed (places n : Nat) :
    trimFraction (write (n / 10 ^ places) ++ '.' :: writeFixed places n) =
      write ((tighten places n).2 / 10 ^ (tighten places n).1) ++
        (if writeFixed (tighten places n).1 (tighten places n).2 = [] then []
          else '.' :: writeFixed (tighten places n).1 (tighten places n).2) := by
  fun_induction tighten places n with
  | case1 n => simpa [writeFixed] using trimFraction_append_point (write n)
  | case2 places n hdigit ih =>
    have hdiv : n / 10 ^ (places + 1) = n / 10 / 10 ^ places := by
      rw [Nat.pow_succ', Nat.div_div_eq_div_mul]
    have hlast := (digit_eq_zero_iff n).2 hdigit
    have hdrop := trimFraction_append_zero
      (write (n / 10 / 10 ^ places) ++ '.' :: writeFixed places (n / 10))
    rw [List.append_assoc, List.cons_append] at hdrop
    rw [hdiv, writeFixed, hlast, hdrop, ih]
  | case3 places n hdigit =>
    have hzero := (digit_eq_zero_iff n).not.2 hdigit
    have hpoint : Char.ofNat (48 + n % 10) ≠ '.' := fun h => by
      have hdigit := isAscii_digit n
      rw [h] at hdigit
      cases hdigit
    have hkeep := trimFraction_append_of_ne hzero hpoint
      (write (n / 10 ^ (places + 1)) ++ '.' :: writeFixed places (n / 10))
    rw [List.append_assoc, List.cons_append] at hkeep
    rw [writeFixed, hkeep, if_neg (by simp)]

/-! ## Every number in lowest terms -/

theorem tighten_ne_zero {n : Nat} (h : n ≠ 0) (places : Nat) : (tighten places n).2 ≠ 0 := by
  intro hzero
  have hcount := tighten_count places n
  rw [hzero, Nat.zero_mul] at hcount
  exact h hcount.symm

/-- A decimal in lowest terms. -/
def lowest (d : Decimal) : Lowest :=
  if h : d.coefficient = 0 then ⟨false, 0, 0, Or.inl rfl, fun _ => rfl⟩
  else if 0 ≤ d.exponent then
    ⟨d.negative, d.coefficient * 10 ^ d.exponent.toNat, 0, Or.inl rfl, by simp [h]⟩
  else
    ⟨d.negative, (tighten (-d.exponent).toNat d.coefficient).2,
      (tighten (-d.exponent).toNat d.coefficient).1, tighten_tight _ _,
      fun hzero => absurd hzero (tighten_ne_zero h _)⟩

theorem lowest_of_zero {d : Decimal} (h : d.coefficient = 0) :
    d.lowest = ⟨false, 0, 0, Or.inl rfl, fun _ => rfl⟩ := by
  simp [lowest, h]

theorem lowest_of_nonneg {d : Decimal} (h : d.coefficient ≠ 0) (he : 0 ≤ d.exponent) :
    d.lowest.negative = d.negative ∧ d.lowest.places = 0 ∧
      d.lowest.count = d.coefficient * 10 ^ d.exponent.toNat := by
  simp [lowest, h, he]

theorem lowest_of_neg {d : Decimal} (h : d.coefficient ≠ 0) (he : ¬ 0 ≤ d.exponent) :
    d.lowest.negative = d.negative ∧
      d.lowest.places = (tighten (-d.exponent).toNat d.coefficient).1 ∧
      d.lowest.count = (tighten (-d.exponent).toNat d.coefficient).2 := by
  simp [lowest, h, he]

theorem value_lowest (d : Decimal) : d.lowest.decimal.value = d.value := by
  by_cases h : d.coefficient = 0
  · rw [(value_eq_zero_iff d).2 h, value_eq_zero_iff, lowest_of_zero h]
    rfl
  by_cases he : 0 ≤ d.exponent
  · obtain ⟨hnegative, hplaces, hcount⟩ := lowest_of_nonneg h he
    have hpow : (10 : ℚ) ^ d.exponent = 10 ^ d.exponent.toNat := by
      rw [← zpow_natCast, Int.toNat_of_nonneg he]
    rw [Lowest.value_decimal, Lowest.signed, hnegative, hplaces, hcount, value, hpow]
    cases d.negative <;> simp
  · obtain ⟨hnegative, hplaces, hcount⟩ := lowest_of_neg h he
    have hle := tighten_le (-d.exponent).toNat d.coefficient
    have hsplit := tighten_count (-d.exponent).toNat d.coefficient
    rw [Lowest.value_decimal, Lowest.signed, hnegative, hplaces, hcount, value]
    generalize tighten (-d.exponent).toNat d.coefficient = t at hle hsplit ⊢
    have hpow : (10 : ℚ) ^ (-(t.1 : ℤ)) = 10 ^ ((-d.exponent).toNat - t.1) * 10 ^ d.exponent := by
      rw [← zpow_natCast, ← zpow_add₀ (by norm_num)]
      congr 1
      omega
    rw [hpow, ← hsplit]
    cases d.negative
    · push_cast
      ring
    · push_cast
      simp only [if_true]
      ring

/-- The leading digit keeps its place. -/
theorem adjusted_lowest {d : Decimal} (h : d.coefficient ≠ 0) :
    d.lowest.decimal.adjusted = d.adjusted := by
  simp only [adjusted, digits, Lowest.decimal]
  by_cases he : 0 ≤ d.exponent
  · obtain ⟨_, hplaces, hcount⟩ := lowest_of_nonneg h he
    rw [hplaces, hcount, length_write_mul_pow h]
    omega
  · obtain ⟨_, hplaces, hcount⟩ := lowest_of_neg h he
    have hle := tighten_le (-d.exponent).toNat d.coefficient
    have hlength := length_write_mul_pow (tighten_ne_zero h (-d.exponent).toNat)
      ((-d.exponent).toNat - (tighten (-d.exponent).toNat d.coefficient).1)
    rw [tighten_count] at hlength
    rw [hplaces, hcount]
    omega

theorem places_lowest_le (d : Decimal) : d.lowest.places ≤ (-d.exponent).toNat := by
  by_cases h : d.coefficient = 0
  · simp [lowest_of_zero h]
  by_cases he : 0 ≤ d.exponent
  · simp [(lowest_of_nonneg h he).2.1]
  · rw [(lowest_of_neg h he).2.1]
    exact tighten_le _ _

/-- Lowest terms keep to the bounds on amounts. -/
theorem isBounded_lowest {d : Decimal} (h : d.isBounded = true) :
    d.lowest.decimal.isBounded = true := by
  have hplaces := places_lowest_le d
  rw [isBounded_iff] at h ⊢
  refine ⟨?_, ?_⟩
  · by_cases hzero : d.coefficient = 0
    · rw [lowest_of_zero hzero]
      decide
    · rw [adjusted_lowest hzero]
      exact h.1
  · simp only [Lowest.decimal]
    omega

/-! ## The canonical text -/

theorem pointed_write (places n : Nat) :
    pointed (write n) places = write (n / 10 ^ places) ++ '.' :: writeFixed places n := by
  have hlength := writeFixed_length places n
  simp only [pointed, replicate_append_write, List.length_append, hlength, Nat.add_sub_cancel]
  rw [List.take_left', List.drop_left'] <;> rfl

/-- The canonical text is the text of lowest terms. -/
theorem canonicalChars_eq (d : Decimal) : d.canonicalChars = d.lowest.chars := by
  unfold canonicalChars
  by_cases h : d.coefficient = 0
  · rw [if_pos (by simp [isZero, h]), lowest_of_zero h]
    rfl
  rw [if_neg (by simp [isZero, h])]
  unfold Lowest.chars Lowest.whole Lowest.fraction Lowest.decimal sign plain
  by_cases he : 0 ≤ d.exponent
  · obtain ⟨hnegative, hplaces, hcount⟩ := lowest_of_nonneg h he
    simp [he, hnegative, hplaces, hcount, writeFixed, digits, write_mul_pow h]
  · obtain ⟨hnegative, hplaces, hcount⟩ := lowest_of_neg h he
    rw [if_neg he, if_neg he, hnegative, hplaces, hcount, digits, pointed_write,
      trimFraction_pointed]

theorem ofChars?_canonicalChars (d : Decimal) :
    ofChars? d.canonicalChars = some d.lowest.decimal := by
  rw [canonicalChars_eq, Lowest.ofChars?_chars]

/-- Two numbers have the same canonical text just when they are equal. -/
theorem canonical_eq_iff (d e : Decimal) : d.canonical = e.canonical ↔ d.value = e.value := by
  unfold canonical
  constructor
  · intro h
    have hread := congrArg ofChars? (String.ofList_injective h)
    rw [ofChars?_canonicalChars, ofChars?_canonicalChars, Option.some.injEq] at hread
    rw [← value_lowest d, hread, value_lowest]
  · intro h
    rw [← value_lowest d, ← value_lowest e] at h
    rw [canonicalChars_eq, canonicalChars_eq, Lowest.eq_of_value_eq h]

/-! ## The form of a canonical text -/

/-- The parts of a canonical text: a minus or none, the digits before the point and those
behind it. A zero stands first only if it stands alone, and never last behind a point. Zero
has no minus. -/
structure Spelled (minus : Bool) (whole fraction : List Char) : Prop where
  filled : whole ≠ []
  whole_digits : ∀ c ∈ whole, isAscii c = true
  no_leading_zero : whole.head? = some '0' → whole = ['0']
  fraction_digits : ∀ c ∈ fraction, isAscii c = true
  no_trailing_zero : fraction.getLast? ≠ some '0'
  no_negative_zero : minus = true → whole = ['0'] → fraction ≠ []

/-- A text that is made of such parts, with a point only where digits follow it. -/
def IsCanonical (cs : List Char) : Prop :=
  ∃ minus whole fraction, Spelled minus whole fraction ∧
    cs = (if minus then ['-'] else []) ++
      (whole ++ (if fraction = [] then [] else '.' :: fraction))

namespace Lowest

theorem getLast?_fraction_ne_zero (a : Lowest) : a.fraction.getLast? ≠ some '0' := by
  unfold fraction
  rcases a.tight with hplaces | hdigit
  · simp [hplaces, writeFixed]
  · have hlast := (digit_eq_zero_iff a.count).not.2 hdigit
    cases a.places with
    | zero => simp [writeFixed]
    | succ p => simpa [writeFixed] using hlast

theorem spelled (a : Lowest) : Spelled a.negative a.whole a.fraction where
  filled := write_ne_nil _
  whole_digits := a.isAscii_whole
  no_leading_zero := by
    intro hhead
    by_cases h : a.count / 10 ^ a.places = 0
    · rw [whole, h]
      rfl
    · exact absurd hhead (head?_write_ne_zero h)
  fraction_digits := a.isAscii_fraction
  no_trailing_zero := a.getLast?_fraction_ne_zero
  no_negative_zero := by
    intro hminus hwhole hnil
    have hplaces : a.places = 0 := by rw [← a.length_fraction, hnil, List.length_nil]
    have hcount := ofAscii_write (a.count / 10 ^ a.places)
    rw [show write _ = a.whole from rfl, hwhole, hplaces, Nat.pow_zero, Nat.div_one] at hcount
    have hnegative := a.unsigned hcount.symm
    simp [hminus] at hnegative

theorem isCanonical_chars (a : Lowest) : IsCanonical a.chars :=
  ⟨a.negative, a.whole, a.fraction, a.spelled, rfl⟩

/-- A minus before a zero would be read as a zero with a sign. -/
theorem chars_ne_negative_zero (a : Lowest) : a.chars ≠ ['-', '0'] := by
  intro h
  have hread := a.ofChars?_chars
  rw [h, show ofChars? ['-', '0'] = some ⟨true, 0, 0⟩ by decide, Option.some.injEq, decimal,
    Decimal.mk.injEq] at hread
  have hnegative := a.unsigned hread.2.1.symm
  rw [← hread.1] at hnegative
  cases hnegative

/-- Within the bounds the text has a sign, 401 digits, a point and 400 digits at most. -/
theorem length_chars_le {a : Lowest} (h : a.decimal.isBounded = true) : a.chars.length ≤ 803 := by
  have hsplit := congrArg List.length (replicate_append_write a.places a.count)
  have hfraction := a.length_fraction
  have hsign : (sign a.decimal).length ≤ 1 := by
    unfold sign
    split <;> simp
  have hpoint : (if a.fraction = [] then [] else '.' :: a.fraction).length ≤ a.places + 1 := by
    split <;> simp [hfraction]
  simp only [isBounded_iff, adjusted, digits, decimal] at h
  simp only [List.length_append, List.length_replicate, writeFixed_length] at hsplit
  simp only [chars, whole, List.length_append]
  omega

end Lowest

end Attestation.Decimal

namespace Attestation.Reading

/-! ## Amounts that callers hand in -/

/-- The amount that a canonical text is read as, where the number itself is in bounds. -/
theorem amount_canonical (field : String) {d : Decimal} (h : d.isBounded = true) :
    amount field (.text d.canonical) = .ok d.lowest.decimal := by
  have hread := Decimal.ofChars?_canonicalChars d
  have hbounded := Decimal.isBounded_lowest h
  simp [amount, Value.amount, Value.writtenAmount, Decimal.canonical, hread, hbounded,
    Except.mapError]

theorem isBounded_of_amount {field : String} {x : Value} {d : Decimal}
    (h : amount field x = .ok d) : d.isBounded = true := by
  unfold amount Value.amount at h
  cases hw : x.writtenAmount with
  | error why => simp [hw, Except.mapError] at h
  | ok e =>
    by_cases hbounded : e.isBounded = true
    · simp only [hw, hbounded, if_true, Except.mapError, Except.ok.injEq] at h
      rwa [← h]
    · simp [hw, hbounded, Except.mapError] at h

theorem amountText_of_amount {field : String} {x : Value} {d : Decimal}
    (h : amount field x = .ok d) : amountText field x = .ok d.canonical := by
  simp [amountText, h, Except.map]

/-- The text of an amount that was read is canonical and at most 803 characters long. It is
read as the same number, to the last digit, and written again it stays as it is. Two amounts
have the same text just when they are the same number. -/
theorem an_amount_has_one_exact_and_stable_text (field other : String) (x y : Value)
    (d e : Decimal) (hx : amount field x = .ok d) (hy : amount other y = .ok e) :
    ∃ s t, amountText field x = .ok s ∧ amountText other y = .ok t ∧
      (Decimal.IsCanonical s.toList ∧ s ≠ "-0" ∧ s.length ≤ 803) ∧
      (∃ d', amount field (.text s) = .ok d' ∧ d'.value = d.value) ∧
      amountText field (.text s) = .ok s ∧
      (s = t ↔ d.value = e.value) := by
  have hread := amount_canonical field (isBounded_of_amount hx)
  have hchars : d.canonical.toList = d.lowest.chars := by
    rw [Decimal.canonical, String.toList_ofList, Decimal.canonicalChars_eq]
  have hlength := Decimal.Lowest.length_chars_le (Decimal.isBounded_lowest (isBounded_of_amount hx))
  refine ⟨d.canonical, e.canonical, amountText_of_amount hx, amountText_of_amount hy,
    ⟨?_, ?_, ?_⟩, ⟨_, hread, d.value_lowest⟩, ?_, Decimal.canonical_eq_iff d e⟩
  · rw [hchars]
    exact d.lowest.isCanonical_chars
  · intro hzero
    rw [hzero] at hchars
    exact d.lowest.chars_ne_negative_zero hchars.symm
  · rw [← String.length_toList, hchars]
    exact hlength
  · rw [amountText_of_amount hread, Except.ok.injEq, Decimal.canonical_eq_iff]
    exact d.value_lowest

/-- Zeros on either side do not show. -/
theorem minus_twelve_and_a_half_has_one_text :
    ∃ s, amountText "value" (.text "-012.5000") = .ok s ∧
      amountText "value" (.decimal (.finite ⟨true, 125, -1⟩)) = .ok s ∧ s.length ≤ 803 := by
  obtain ⟨s, t, hs, ht, ⟨_, _, hlength⟩, _, _, hsame⟩ :=
    an_amount_has_one_exact_and_stable_text "value" "value" (.text "-012.5000")
      (.decimal (.finite ⟨true, 125, -1⟩)) ⟨true, 125000, -4⟩ ⟨true, 125, -1⟩ rfl rfl
  have hst : s = t := hsame.2 (by norm_num [Decimal.value])
  rw [← hst] at ht
  exact ⟨s, hs, ht, hlength⟩

end Attestation.Reading
