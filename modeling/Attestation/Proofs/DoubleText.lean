-- The laws of the texts of doubles. In whatever layout, the text of a finite double is an amount
-- within bounds that reads as the double, so no two doubles share an amount but the two zeros.
import Attestation.Proofs.AmountText
import Attestation.Proofs.ShortestDecimal

namespace Attestation.Binary64

open Decimal DecimalDigit

/-! ## Layouts -/

/-- The power of ten behind the digits has at least two digits of its own, and here at most six. -/
theorem powerForm_exponentText {e : ℤ} (h : e.natAbs < 1000000) : PowerForm (exponentText e) e := by
  have hlength : (write e.natAbs).length ≤ 6 := length_write_le (by decide) h
  have hmark : 'e' = 'e' ∨ 'e' = 'E' := Or.inl rfl
  refine powerForm_signed hmark (2 - (write e.natAbs).length) ?_
  omega

/-- The text is an amount with this sign and this size, and no digit stands behind the given
place. -/
def Spells (cs : List Char) (negative : Bool) (size : ℚ) (finest : ℤ) : Prop :=
  ∃ d, AmountForm cs d ∧ d.negative = negative ∧
    (d.coefficient : ℚ) * 10 ^ d.exponent = size ∧ finest ≤ d.exponent

section
variable {sign ds : List Char} {negative : Bool} {leading : ℤ} (hsign : SignForm sign negative)
  (hds : AreDigits ds) (hfilled : ds ≠ [])
include hsign hds

/-- Zeros between the point and the digits. -/
theorem spells_small (hleading : leading < 0) :
    Spells (sign ++ ("0.".toList ++ List.replicate (-leading - 1).toNat '0' ++ ds))
      negative (ofAscii ds * 10 ^ (leading + 1 - ds.length)) (leading + 1 - ds.length) := by
  have hzero : AreDigits ['0'] := areDigits_replicate_zero 1
  have hfraction := areDigits_append (areDigits_replicate_zero (-leading - 1).toNat) hds
  have hform := AmountForm.mk hsign (.pointed hzero (List.cons_ne_nil _ _) hfraction) .absent
  have hvalue : Nat.ofDigitChars 10
      (['0'] ++ (List.replicate (-leading - 1).toNat '0' ++ ds)) 0 = ofAscii ds := by
    rw [← ofAscii_eq_ofDigitChars, ← List.append_assoc]
    exact (congrArg ofAscii (congrArg (· ++ ds) List.replicate_succ.symm)).trans
      (ofAscii_replicate_append _ ds)
  have hexp : (0 : ℤ) - ((List.replicate (-leading - 1).toNat '0' ++ ds).length : ℤ) =
      leading + 1 - ds.length := by
    rw [List.length_append, List.length_replicate]
    omega
  rw [hvalue, hexp, List.append_nil] at hform
  exact ⟨_, hform, rfl, rfl, le_rfl⟩

include hfilled

/-- One digit before the point and a power of ten behind the others. -/
theorem spells_scientific (hleading : leading.natAbs < 1000000) :
    Spells (sign ++ (ds.take 1 ++ (if (ds.drop 1).isEmpty then [] else '.' :: ds.drop 1) ++
        exponentText leading))
      negative (ofAscii ds * 10 ^ (leading + 1 - ds.length)) (leading + 1 - ds.length) := by
  obtain ⟨c, tail, rfl⟩ := List.exists_cons_of_ne_nil hfilled
  have hfirst : AreDigits [c] := fun d hd => hds d (by simp_all)
  have htail : AreDigits tail := fun d hd => hds d (List.mem_cons_of_mem _ hd)
  have hmantissa := mantissaForm_append hfirst (List.cons_ne_nil c []) htail
  simp only [← List.isEmpty_iff] at hmantissa
  have hform := AmountForm.mk hsign hmantissa (powerForm_exponentText hleading)
  have hexp : leading + 1 - ((c :: tail).length : ℤ) = leading - tail.length := by
    rw [List.length_cons]
    push_cast
    ring
  rw [hexp]
  exact ⟨_, hform, rfl, rfl, le_rfl⟩

/-- All digits before the point, with zeros up to it and one behind it. -/
theorem spells_whole (hleading : 0 ≤ leading) (hshort : ds.length ≤ leading.toNat + 1) :
    Spells (sign ++ (ds ++ List.replicate (leading.toNat + 1 - ds.length) '0' ++ ".0".toList))
      negative (ofAscii ds * 10 ^ (leading + 1 - ds.length)) (-1) := by
  have hzero : AreDigits ['0'] := areDigits_replicate_zero 1
  have hwhole := areDigits_append hds
    (areDigits_replicate_zero (leading.toNat + 1 - ds.length))
  have hform := AmountForm.mk hsign
    (.pointed hwhole (List.append_ne_nil_of_left_ne_nil hfilled _) hzero) .absent
  have hvalue : Nat.ofDigitChars 10
      (ds ++ List.replicate (leading.toNat + 1 - ds.length) '0' ++ ['0']) 0 =
        ofAscii ds * 10 ^ (leading.toNat + 1 - ds.length) * 10 := by
    rw [← ofAscii_eq_ofDigitChars, ofAscii_append_append, ofAscii_append_replicate]
    rfl
  have hexp : leading + 1 - (ds.length : ℤ) = (leading.toNat + 1 - ds.length : ℕ) := by omega
  rw [hvalue, List.append_nil] at hform
  refine ⟨_, hform, rfl, ?_, le_rfl⟩
  have htenth : (10 : ℚ) ^ ((0 : ℤ) - (['0'].length : ℤ)) = 10⁻¹ := zpow_neg_one 10
  rw [hexp, zpow_natCast, htenth, Nat.cast_mul, Nat.cast_mul, Nat.cast_pow, Nat.cast_ofNat]
  exact mul_inv_cancel_right₀ (by norm_num) _

/-- The point among the digits. -/
theorem spells_pointed (hleading : 0 ≤ leading) (hlong : leading.toNat + 1 < ds.length) :
    Spells (sign ++ (ds.take (leading.toNat + 1) ++ '.' :: ds.drop (leading.toNat + 1)))
      negative (ofAscii ds * 10 ^ (leading + 1 - ds.length)) (leading + 1 - ds.length) := by
  have hwhole : AreDigits (ds.take (leading.toNat + 1)) :=
    fun c hc => hds c (List.mem_of_mem_take hc)
  have hfraction : AreDigits (ds.drop (leading.toNat + 1)) :=
    fun c hc => hds c (List.mem_of_mem_drop hc)
  have hne : ds.take (leading.toNat + 1) ≠ [] := by
    rw [ne_eq, List.take_eq_nil_iff]
    simp [hfilled]
  have hform := AmountForm.mk hsign (.pointed hwhole hne hfraction) .absent
  have hexp : (0 : ℤ) - ((ds.drop (leading.toNat + 1)).length : ℤ) = leading + 1 - ds.length := by
    rw [List.length_drop]
    omega
  rw [List.take_append_drop, hexp, List.append_nil] at hform
  exact ⟨_, hform, rfl, rfl, le_rfl⟩

/-- However it is laid out, a text of digits is an amount of the size that digits and leading power
give, to the last of the digits or to one zero behind the point. -/
theorem spells_layOut (hleading : leading.natAbs < 1000000) :
    Spells (sign ++ layOut ds leading) negative (ofAscii ds * 10 ^ (leading + 1 - ds.length))
      (min (-1) (leading + 1 - ds.length)) := by
  have hcoarser : ∀ {cs : List Char} {finest : ℤ},
      Spells cs negative (ofAscii ds * 10 ^ (leading + 1 - ds.length)) finest →
      min (-1) (leading + 1 - ds.length) ≤ finest →
      Spells cs negative (ofAscii ds * 10 ^ (leading + 1 - ds.length))
        (min (-1) (leading + 1 - ds.length)) := by
    rintro cs finest ⟨d, hform, hnegative, hsize, hfinest⟩ hle
    exact ⟨d, hform, hnegative, hsize, hle.trans hfinest⟩
  unfold layOut
  split
  · exact hcoarser (spells_scientific hsign hds hfilled hleading) (min_le_right _ _)
  split
  · rename_i hneg
    exact hcoarser (spells_small hsign hds hneg) (min_le_right _ _)
  · rename_i hnonneg
    simp only
    split
    · rename_i hshort
      exact hcoarser (spells_whole hsign hds hfilled (not_lt.1 hnonneg) hshort) (min_le_left _ _)
    · rename_i hlong
      exact hcoarser (spells_pointed hsign hds hfilled (not_lt.1 hnonneg) (not_le.1 hlong))
        (min_le_right _ _)

end

/-! ## Zeros at the end -/

/-- A number without the zeros at its end. -/
theorem exists_write_eq_append {n : ℕ} (h : n ≠ 0) :
    ∃ kept zeros, ((write n).reverse.dropWhile (· = '0')).reverse = kept ∧ kept ≠ [] ∧
      write n = kept ++ List.replicate zeros '0' := by
  have hsplit := List.takeWhile_append_dropWhile (p := fun c : Char => decide (c = '0'))
    (l := (write n).reverse)
  have hzeros : (write n).reverse.takeWhile (· = '0') =
      List.replicate ((write n).reverse.takeWhile (· = '0')).length '0' := by
    rw [List.eq_replicate_iff]
    refine ⟨rfl, fun c hc => ?_⟩
    simpa using List.mem_takeWhile_imp hc
  have hwrite : write n = ((write n).reverse.dropWhile (· = '0')).reverse ++
      List.replicate ((write n).reverse.takeWhile (· = '0')).length '0' := by
    have hreverse := congrArg List.reverse hsplit
    rw [List.reverse_append, List.reverse_reverse, hzeros, List.reverse_replicate] at hreverse
    exact hreverse.symm
  refine ⟨_, _, rfl, ?_, hwrite⟩
  intro hnil
  rw [hnil, List.nil_append] at hwrite
  have hvalue := congrArg ofAscii hwrite
  rw [ofAscii_write, ofAscii_replicate_zero] at hvalue
  exact h hvalue

/-! ## The range of doubles -/

theorem two_pow_le_ten_pow (k : ℕ) : (2 : ℚ) ^ (3 * k) ≤ 10 ^ k := by
  rw [pow_mul]
  exact pow_le_pow_left₀ (by norm_num) (by norm_num) k

theorem ten_zpow_le_leastStep : (10 : ℚ) ^ (-358 : ℤ) ≤ leastStep := by
  have hpow := two_pow_le_ten_pow 358
  rw [show (-358 : ℤ) = -((358 : ℕ) : ℤ) by norm_num, leastStep,
    show (-1074 : ℤ) = -((3 * 358 : ℕ) : ℤ) by norm_num, zpow_neg, zpow_neg, zpow_natCast,
    zpow_natCast]
  exact inv_anti₀ (by positivity) hpow

/-- Behind the last finite double there is room up to 2^1024. -/
theorem sizeAt_infinity_le : sizeAt 9218868437227405312 ≤ 10 ^ (342 : ℤ) := by
  have hsize := sizeAt_of_parts (by decide : 0 < 2047) (by decide : 0 < 4503599627370496)
  have hfraction : ((4503599627370496 + 0 : ℕ) : ℚ) = 2 ^ (52 : ℤ) := by norm_num
  have hpow := two_pow_le_ten_pow 342
  rw [← zpow_natCast, ← zpow_natCast] at hpow
  rw [hfraction, ← zpow_add₀ two_ne_zero] at hsize
  exact hsize.le.trans ((zpow_le_zpow_right₀ one_le_two (by norm_num)).trans hpow)

/-- What reads as a finite double other than zero is neither too small nor too large. The powers
of ten are crude ones: eight in the place of ten for every third power of two. -/
theorem bounds_of_readsAs {a : ℕ} {q : ℚ} (ha : a ≠ 0) (hlast : a < 9218868437227405312)
    (hread : ReadsAs a q) : (10 : ℚ) ^ (-359 : ℤ) ≤ q ∧ q ≤ 10 ^ (342 : ℤ) := by
  obtain ⟨hlow, hhigh⟩ := hread.le
  constructor
  · have hbefore : sizeAt 0 ≤ sizeAt (a - 1) := sizeAt_strictMono.monotone (Nat.zero_le _)
    have hsize : sizeAt 1 ≤ sizeAt a := sizeAt_strictMono.monotone (Nat.pos_of_ne_zero ha)
    rw [sizeAt_zero] at hbefore
    rw [sizeAt_one] at hsize
    have hpos := leastStep_pos
    have hleast := ten_zpow_le_leastStep
    have hten : (10 : ℚ) ^ (-359 : ℤ) = 10 ^ (-358 : ℤ) * 10⁻¹ :=
      zpow_sub_one₀ (by norm_num) (-358)
    unfold lowAt at hlow
    linarith
  · have hsize : sizeAt a ≤ sizeAt 9218868437227405312 := sizeAt_strictMono.monotone hlast.le
    have hnext : sizeAt (a + 1) ≤ sizeAt 9218868437227405312 := sizeAt_strictMono.monotone hlast
    have hinfinity := sizeAt_infinity_le
    unfold highAt at hhigh
    linarith

/-! ## The amount of a double -/

theorem write_bounds {n : ℕ} (h : n ≠ 0) (e : ℤ) :
    (10 : ℚ) ^ (e + (write n).length - 1) ≤ n * 10 ^ e ∧
      (n : ℚ) * 10 ^ e < 10 ^ (e + (write n).length) := by
  obtain ⟨hlow, hhigh⟩ := length_write_bounds h
  have hpos := length_write_pos n
  have hten := ten_zpow_pos e
  have hexp : e + ((write n).length : ℤ) - 1 = ((write n).length - 1 : ℕ) + e := by omega
  rw [hexp, add_comm e, zpow_add₀ (by norm_num), zpow_add₀ (by norm_num), zpow_natCast,
    zpow_natCast]
  exact ⟨mul_le_mul_of_nonneg_right (by exact_mod_cast hlow) hten.le,
    mul_lt_mul_of_pos_right (by exact_mod_cast hhigh) hten⟩

/-- The leading digit of a number within the range of doubles is within this range. -/
theorem leading_digit_bounds {n : ℕ} {e : ℤ} (h : n ≠ 0)
    (hlow : (10 : ℚ) ^ (-359 : ℤ) ≤ n * 10 ^ e) (hhigh : (n : ℚ) * 10 ^ e ≤ 10 ^ (342 : ℤ)) :
    -359 ≤ e + (write n).length - 1 ∧ e + (write n).length - 1 ≤ 342 := by
  have hten : (1 : ℚ) < 10 := by norm_num
  obtain ⟨hle, hlt⟩ := write_bounds h e
  have hupper := (zpow_le_zpow_iff_right₀ hten).1 (hle.trans hhigh)
  have hlower := (zpow_lt_zpow_iff_right₀ hten).1 (hlow.trans_lt hlt)
  exact ⟨by omega, hupper⟩

/-- An amount that is written for a double: within bounds, with the sign of the double, and of a
size that reads as it. -/
structure IsAmountOf (x : Binary64) (d : Decimal) : Prop where
  bounded : d.isBounded = true
  sign : d.negative = x.negative
  reads : ReadsAs x.place (d.coefficient * 10 ^ d.exponent)

theorem chars_of_isFinite {x : Binary64} (h : x.isFinite = true) :
    x.chars = (if x.negative then ['-'] else []) ++ x.magnitude := by
  have hnan : x.isNaN = false := by
    rw [isFinite, decide_eq_true_eq] at h
    rw [isNaN, Bool.and_eq_false_iff, beq_eq_false_iff_ne]
    exact Or.inl h.ne
  rw [chars, hnan, h]
  rfl

section
variable {x : Binary64} (hfinite : x.isFinite = true) (hx : x.significand ≠ 0)
include hfinite hx

theorem le_leading : -360 ≤ x.leading := by
  have hself := (contains_interval_iff hx _).1 (sound_interval hx).contains_centre
  rw [centre_interval] at hself
  have hlow := (bounds_of_readsAs (place_ne_zero hx) ((isFinite_iff x).1 hfinite) hself).1
  have hten : (1 : ℚ) < 10 := by norm_num
  have hlt := (zpow_lt_zpow_iff_right₀ hten).1 (hlow.trans_lt (leading_bounds hx).2)
  omega

/-- The text of a double spells the decimal that the search has found. -/
theorem spells_chars {count : ℕ} {grid : ℤ} (hshortest : x.shortest = (count, grid))
    (hcount : count ≠ 0) (hleading : (grid + (write count).length - 1).natAbs < 1000000) :
    Spells x.chars x.negative (count * 10 ^ grid) (min (-1) grid) := by
  -- zeros at the end of the count go, and the power of ten grows by as many
  obtain ⟨kept, zeros, hkept, hfilled, hwrite⟩ := exists_write_eq_append hcount
  have hdigits : AreDigits kept := by
    intro c hc
    apply areDigits_write count
    rw [hwrite]
    exact List.mem_append_left _ hc
  have hvalue : ofAscii kept * 10 ^ zeros = count := by
    rw [← ofAscii_append_replicate, ← hwrite, ofAscii_write]
  have hlength : (write count).length = kept.length + zeros := by
    rw [hwrite, List.length_append, List.length_replicate]
  have hmagnitude : x.magnitude = layOut kept (grid + (write count).length - 1) := by
    unfold magnitude
    rw [if_neg hx, hshortest]
    simp only [hkept]
  obtain ⟨d, hform, hnegative, hsize, hfinest⟩ :=
    spells_layOut (signForm_minus x.negative) hdigits hfilled hleading
  have hexp : grid + ((write count).length : ℤ) - 1 + 1 - kept.length = zeros + grid := by
    rw [hlength]
    push_cast
    ring
  rw [hexp] at hsize hfinest
  rw [zpow_add₀ (by norm_num), zpow_natCast, ← mul_assoc, ← Nat.cast_ofNat, ← Nat.cast_pow,
    ← Nat.cast_mul, hvalue, Nat.cast_ofNat] at hsize
  rw [← hmagnitude, ← chars_of_isFinite hfinite] at hform
  exact ⟨d, hform, hnegative, hsize, by omega⟩

/-- The text of a double is an amount of the size that the search has found. -/
theorem exists_amount_of_shortest {count : ℕ} {grid : ℤ} (hshortest : x.shortest = (count, grid))
    (hgrid : x.leading - 16 ≤ grid) (hread : ReadsAs x.place (count * 10 ^ grid)) :
    ∃ d, ofChars? x.chars = some d ∧ x.IsAmountOf d ∧
      (d.coefficient : ℚ) * 10 ^ d.exponent = count * 10 ^ grid := by
  have hpos := hread.pos (place_ne_zero hx)
  obtain ⟨hlow, hhigh⟩ :=
    bounds_of_readsAs (place_ne_zero hx) ((isFinite_iff x).1 hfinite) hread
  have hnonzero : ∀ (n : ℕ) (e : ℤ), (n : ℚ) * 10 ^ e = count * 10 ^ grid → n ≠ 0 := by
    rintro n e hsize rfl
    rw [← hsize, Nat.cast_zero, zero_mul] at hpos
    exact lt_irrefl _ hpos
  have hcount : count ≠ 0 := hnonzero count grid rfl
  obtain ⟨hleast, hmost⟩ := leading_digit_bounds hcount hlow hhigh
  obtain ⟨d, hform, hnegative, hsize, hfinest⟩ :=
    spells_chars hfinite hx hshortest hcount (by omega)
  refine ⟨d, (ofChars?_eq_some_iff).2 hform, ⟨?_, hnegative, hsize ▸ hread⟩, hsize⟩
  -- the amount has the size of the decimal, so its leading digit stands in the same range
  rw [← hsize] at hlow hhigh
  obtain ⟨hadjusted, hadjusted'⟩ := leading_digit_bounds (hnonzero _ _ hsize) hlow hhigh
  have hleading := le_leading hfinite hx
  rw [isBounded_iff, adjusted, digits]
  omega

end

theorem ofChars?_chars_of_zero {x : Binary64} (h : x.isFinite = true) (hx : x.significand = 0) :
    ofChars? x.chars = some ⟨x.negative, 0, -1⟩ := by
  rw [chars_of_isFinite h, magnitude, if_pos hx]
  cases x.negative <;> decide

/-- Every finite double has an amount, a zero too. -/
theorem exists_amount {x : Binary64} (h : x.isFinite = true) :
    ∃ d, ofChars? x.chars = some d ∧ x.IsAmountOf d := by
  by_cases hx : x.significand = 0
  · refine ⟨⟨x.negative, 0, -1⟩, ofChars?_chars_of_zero h hx, ?_, rfl, ?_⟩
    · cases x.negative <;> decide
    · have hhigh : 0 < highAt 0 := by
        have hpos := leastStep_pos
        rw [highAt, sizeAt_zero, zero_add, zero_add, sizeAt_one]
        linarith
      have hlow : lowAt 0 = 0 := by
        rw [lowAt, Nat.zero_sub, sizeAt_zero, add_zero, zero_div]
      rw [(significand_eq_zero_iff x).1 hx, Nat.cast_zero, zero_mul]
      exact ⟨Or.inr ⟨rfl, hlow⟩, Or.inl hhigh⟩
  · obtain ⟨count, grid, hshortest, hgrid, hread⟩ := exists_shortest hx
    obtain ⟨d, hchars, hamount, _⟩ := exists_amount_of_shortest h hx hshortest hgrid hread
    exact ⟨d, hchars, hamount⟩

theorem isZero_iff {x : Binary64} (h : x.isFinite = true) : x.isZero = true ↔ x.place = 0 := by
  rw [isZero, h, Bool.true_and, beq_iff_eq, significand_eq_zero_iff]

/-- No two doubles share an amount but the two zeros. -/
theorem eq_or_isZero_of_value_eq {x y : Binary64} {d e : Decimal} (hx : x.isFinite = true)
    (hy : y.isFinite = true) (hd : x.IsAmountOf d) (he : y.IsAmountOf e) (h : d.value = e.value) :
    x = y ∨ (x.isZero = true ∧ y.isZero = true) := by
  have hreadx := hd.reads
  have hready := he.reads
  rw [← abs_value] at hreadx hready
  rw [← h] at hready
  have hplace := eq_of_readsAs hreadx hready
  rw [isZero_iff hx, isZero_iff hy, ← hplace]
  by_cases hzero : x.place = 0
  · exact Or.inr ⟨hzero, hzero⟩
  left
  apply eq_of_place_eq _ hplace
  have hpos := hreadx.pos hzero
  have hnonzero : d.value ≠ 0 := abs_pos.1 hpos
  rw [← hd.sign, ← he.sign, Bool.eq_iff_iff, negative_iff_value_neg hnonzero,
    negative_iff_value_neg (h ▸ hnonzero), h]

end Attestation.Binary64
