-- The laws of doubles as amounts. Every finite double is an amount of its own; only the two zeros
-- share one. Up to 2^53 the search for the shortest decimal finds a whole number itself, so there
-- a double and an integer of the same value are the same amount.
import Attestation.Proofs.DoubleText

namespace Attestation.Binary64

open Decimal DecimalDigit

/-! ## Whole numbers -/

/-- The search looks at the place of a double only. -/
theorem shortest_congr {x y : Binary64} (h : x.place = y.place) : x.shortest = y.shortest := by
  have hinterval : x.interval = y.interval := by
    simp only [interval, significand_eq, scale_eq, power_eq, fraction_eq, h]
  unfold shortest
  rw [hinterval]

/-- The first place behind which the gaps are wider than one. -/
theorem sizeAt_two_pow : sizeAt 4845873199050653696 = 9007199254740992 := by
  have hsize := sizeAt_of_parts (by decide : 0 < 1076) (by decide : 0 < 4503599627370496)
  norm_num at hsize
  exact hsize

theorem gapAt_le_one {a : ℕ} (h : a < 4845873199050653696) : gapAt a ≤ 1 := by
  have hgap : gapPower a ≤ 1074 := by
    unfold gapPower
    omega
  have hpow : (2 : ℚ) ^ gapPower a ≤ 2 ^ 1074 := pow_le_pow_right₀ one_le_two hgap
  rw [gapAt, leastStep, zpow_neg, ← div_eq_mul_inv, div_le_one (zpow_pos two_pos _)]
  exact_mod_cast hpow

/-- Below that place no other whole number reads as a whole magnitude. -/
theorem eq_of_readsAs_whole {a n k : ℕ} (ha : a ≠ 0) (hsmall : a < 4845873199050653696)
    (hsize : sizeAt a = n) (hread : ReadsAs a k) : k = n := by
  have hnext := sizeAt_succ a
  have hbefore := sizeAt_pred ha
  have hgap := gapAt_le_one hsmall
  have hgap' := gapAt_le_one (show a - 1 < 4845873199050653696 by omega)
  obtain ⟨hlow, hhigh⟩ := hread.le
  unfold lowAt at hlow
  unfold highAt at hhigh
  have habove : (k : ℚ) < (n + 1 : ℕ) := by
    push_cast
    linarith
  have hbelow : (n : ℚ) < (k + 1 : ℕ) := by
    push_cast
    linarith
  have hle := Nat.cast_lt.1 habove
  have hge := Nat.cast_lt.1 hbelow
  omega

section
variable {x : Binary64} {n : ℕ} (hn : n ≠ 0) (hsize : sizeAt x.place = n)
include hn hsize

theorem significand_ne_zero_of_sizeAt : x.significand ≠ 0 := by
  rw [ne_eq, significand_eq_zero_iff]
  intro hzero
  rw [hzero, sizeAt_zero] at hsize
  exact hn (Nat.cast_eq_zero.1 hsize.symm)

/-- A whole number stands on the grid of the units, so the search ends there or before. -/
theorem exists_shortest_of_whole (hsmall : n < 10 ^ 16) :
    ∃ count grid, x.shortest = (count, grid) ∧ 0 ≤ grid ∧ x.leading - 16 ≤ grid ∧
      ReadsAs x.place (count * 10 ^ grid) := by
  have hx := significand_ne_zero_of_sizeAt hn hsize
  obtain ⟨hle, hlt⟩ := leading_bounds hx
  rw [hsize] at hle hlt
  have hten : (1 : ℚ) < 10 := by norm_num
  have hone : (10 : ℚ) ^ (0 : ℤ) ≤ n := by
    rw [zpow_zero]
    exact_mod_cast Nat.pos_of_ne_zero hn
  have hnonneg := (zpow_lt_zpow_iff_right₀ hten).1 (hone.trans_lt hlt)
  have hlarge : (n : ℚ) < 10 ^ (16 : ℤ) := by exact_mod_cast hsmall
  have hless := (zpow_lt_zpow_iff_right₀ hten).1 (hle.trans_lt hlarge)
  have hunits : x.leading - (x.leading.toNat : ℤ) = 0 := by omega
  have hholds : x.interval.holds (x.leading - x.leading.toNat) n = true := by
    rw [Interval.holds_iff (den_interval_pos x), hunits, zpow_zero, mul_one, ← hsize,
      ← centre_interval]
    exact (sound_interval hx).contains_centre
  obtain ⟨places, hplaces, count, hshortest, hread⟩ :=
    exists_shortest_of_holds hx (show x.leading.toNat < 17 by omega) hholds
  exact ⟨count, _, hshortest, by omega, by omega, hread⟩

/-- Up to 2^53 the search finds a whole number itself. At 2^53 the next number would read as the
same double, but the search meets the number first. -/
theorem exists_shortest_eq_whole (hsmall : n ≤ 9007199254740992) :
    ∃ count grid, x.shortest = (count, grid) ∧ x.leading - 16 ≤ grid ∧
      ReadsAs x.place (count * 10 ^ grid) ∧ (count : ℚ) * 10 ^ grid = n := by
  have hx := significand_ne_zero_of_sizeAt hn hsize
  obtain ⟨count, grid, hshortest, hgrid, hleading, hread⟩ :=
    exists_shortest_of_whole hn hsize (by omega)
  refine ⟨count, grid, hshortest, hleading, hread, ?_⟩
  rcases hsmall.lt_or_eq with hlt | rfl
  · have hplace : x.place < 4845873199050653696 := by
      rw [← sizeAt_strictMono.lt_iff_lt, hsize, sizeAt_two_pow]
      exact_mod_cast hlt
    obtain ⟨k, rfl⟩ := Int.eq_ofNat_of_zero_le hgrid
    have hwhole : (count : ℚ) * 10 ^ (k : ℤ) = (count * 10 ^ k : ℕ) := by
      rw [zpow_natCast]
      push_cast
      rfl
    rw [hwhole] at hread ⊢
    rw [eq_of_readsAs_whole (place_ne_zero hx) hplace hsize hread]
  · have hplace : x.place = (Binary64.mk 4845873199050653696).place := by
      apply sizeAt_strictMono.injective
      rw [hsize]
      exact sizeAt_two_pow.symm
    have hfound : (Binary64.mk 4845873199050653696).shortest = (9007199254740992, 0) := by
      decide +kernel
    rw [shortest_congr hplace, hfound] at hshortest
    cases hshortest
    rw [zpow_zero, mul_one]

end

/-! ## The double of a whole number -/

theorem parts_ofParts (negative : Bool) {power fraction : ℕ} (hpower : power < 2048)
    (hfraction : fraction < 4503599627370496) :
    (ofParts negative power fraction).place = power * 4503599627370496 + fraction ∧
      (ofParts negative power fraction).negative = negative := by
  have hbits : (ofParts negative power fraction).bits.toNat =
      (if negative then 9223372036854775808 else 0) + power * 4503599627370496 + fraction := by
    apply UInt64.toNat_ofNat_of_lt'
    show _ < 18446744073709551616
    split <;> omega
  unfold place Binary64.negative
  rw [hbits]
  cases negative
  · simp
    omega
  · simp
    omega

/-- A number of 53 bits whose last `52 - k` bits are zeros. -/
theorem sizeAt_of_bits {n k : ℕ} (hk : k ≤ 52) (hlow : 4503599627370496 ≤ n * 2 ^ (52 - k))
    (hhigh : n * 2 ^ (52 - k) < 9007199254740992) :
    sizeAt ((k + 1023) * 4503599627370496 + (n * 2 ^ (52 - k) - 4503599627370496)) = n := by
  have hexp : ((52 - k : ℕ) : ℤ) + (((k + 1023 : ℕ) : ℤ) - 1075) = 0 := by omega
  rw [sizeAt_of_parts (by omega) (by omega), Nat.add_sub_cancel' hlow, Nat.cast_mul, Nat.cast_pow,
    Nat.cast_ofNat, mul_assoc, ← zpow_natCast, ← zpow_add₀ two_ne_zero, hexp, zpow_zero, mul_one]

theorem nearest_of_bits (negative : Bool) {n : ℕ} (hn : n ≠ 0)
    (hlow : 4503599627370496 ≤ n * 2 ^ (52 - n.log2))
    (hhigh : n * 2 ^ (52 - n.log2) < 9007199254740992) (hk : n.log2 ≤ 52) :
    nearest negative n 1 =
      ofParts negative (n.log2 + 1023) (n * 2 ^ (52 - n.log2) - 4503599627370496) := by
  have hlog : Nat.log2 1 = 0 := rfl
  have hshift : ∀ e : ℤ, e = (n.log2 : ℤ) - 52 → scaled n 1 (-e) = (n * 2 ^ (52 - n.log2), 1) := by
    rintro e rfl
    rw [scaled, if_pos (by omega), show (-((n.log2 : ℤ) - 52)).toNat = 52 - n.log2 by omega]
    rfl
  have hscale : scaleFor n 1 = (n.log2 : ℤ) - 52 := by
    unfold scaleFor
    simp only [hlog, Nat.cast_zero, sub_zero, hshift _ rfl, Nat.div_one]
    rw [if_neg (not_lt.2 hlow), if_neg (not_le.2 hhigh)]
    omega
  have hround : roundHalfEven (n * 2 ^ (52 - n.log2)) 1 = n * 2 ^ (52 - n.log2) := by
    simp [roundHalfEven, Nat.mod_one]
  unfold nearest
  rw [if_neg hn]
  simp only [hscale, hshift _ rfl, hround]
  unfold ofScaled
  rw [if_neg hhigh.ne]
  simp only
  rw [if_neg (not_lt.2 hlow), if_neg (by omega)]
  congr 1
  omega

theorem log2_bounds {n : ℕ} (hn : n ≠ 0) (hsmall : n < 9007199254740992) :
    n.log2 ≤ 52 ∧ 4503599627370496 ≤ n * 2 ^ (52 - n.log2) ∧
      n * 2 ^ (52 - n.log2) < 9007199254740992 := by
  have hk : n.log2 < 53 := (Nat.log2_lt hn).2 hsmall
  have hpow : (2 : ℕ) ^ n.log2 * 2 ^ (52 - n.log2) = 4503599627370496 := by
    rw [← Nat.pow_add, show n.log2 + (52 - n.log2) = 52 by omega]
  have hlow := Nat.mul_le_mul_right (2 ^ (52 - n.log2)) (Nat.log2_self_le hn)
  have hhigh := Nat.mul_lt_mul_of_pos_right (Nat.lt_log2_self (n := n))
    (Nat.two_pow_pos (52 - n.log2))
  rw [hpow] at hlow
  rw [Nat.pow_succ, Nat.mul_right_comm, hpow] at hhigh
  exact ⟨by omega, hlow, hhigh⟩

/-- The leading digit of a whole number of at most sixteen digits. -/
theorem adjusted_ofInt {z : ℤ} (hsmall : z.natAbs < 10 ^ 16) :
    0 ≤ (ofInt z).adjusted ∧ (ofInt z).adjusted ≤ 15 := by
  have hdigits := (Nat.digits_length_le_iff (by decide : 1 < 10) z.natAbs).2 hsmall
  have hpos := length_write_pos z.natAbs
  have hlength : (write z.natAbs).length ≤ 16 := by
    rw [length_write]
    omega
  unfold adjusted digits ofInt
  constructor
  · simp only
    omega
  · simp only
    omega

theorem signed_natAbs (z : ℤ) :
    (if decide (z < 0) = true then -(z.natAbs : ℚ) else z.natAbs) = z := by
  rw [Nat.cast_natAbs, Int.cast_abs]
  rcases lt_or_ge z 0 with hneg | hnonneg
  · rw [if_pos (decide_eq_true hneg), abs_of_neg (Int.cast_lt_zero.2 hneg), neg_neg]
  · rw [if_neg (by simpa using hnonneg), abs_of_nonneg (Int.cast_nonneg hnonneg)]

theorem ofDecimal_ofInt_of_lt {z : ℤ} (hz : z ≠ 0) (hsmall : z.natAbs < 9007199254740992) :
    (ofDecimal (ofInt z)).isFinite = true ∧ (ofDecimal (ofInt z)).exact.value = z := by
  have hn : z.natAbs ≠ 0 := Int.natAbs_ne_zero.2 hz
  obtain ⟨hk, hlow, hhigh⟩ := log2_bounds hn hsmall
  obtain ⟨hadjusted, hadjusted'⟩ := adjusted_ofInt (show z.natAbs < 10 ^ 16 by omega)
  have hzero : ((ofInt z).isZero || decide ((ofInt z).adjusted < -330)) = false := by
    rw [Bool.or_eq_false_iff, decide_eq_false_iff_not]
    exact ⟨beq_false_of_ne hn, by omega⟩
  have hdouble : ofDecimal (ofInt z) =
      ofParts (decide (z < 0)) (z.natAbs.log2 + 1023)
        (z.natAbs * 2 ^ (52 - z.natAbs.log2) - 4503599627370496) := by
    rw [← nearest_of_bits _ hn hlow hhigh hk]
    have hwhole : 0 ≤ (ofInt z).exponent := le_refl (0 : ℤ)
    unfold ofDecimal
    rw [hzero, if_neg (by decide), if_neg (by omega), if_pos hwhole]
    exact congrArg (nearest _ · 1) (Nat.mul_one _)
  obtain ⟨hplace, hnegative⟩ := parts_ofParts (decide (z < 0))
    (show z.natAbs.log2 + 1023 < 2048 by omega)
    (show z.natAbs * 2 ^ (52 - z.natAbs.log2) - 4503599627370496 < 4503599627370496 by omega)
  rw [hdouble]
  constructor
  · rw [isFinite_iff, hplace]
    omega
  · rw [value_exact, hplace, hnegative, sizeAt_of_bits hk hlow hhigh, signed_natAbs]

/-- Up to 2^53 a whole number is read as the double of the same value. -/
theorem ofDecimal_ofInt {z : ℤ} (hsmall : |z| ≤ 9007199254740992) :
    (ofDecimal (ofInt z)).isFinite = true ∧ (ofDecimal (ofInt z)).exact.value = z := by
  rw [Int.abs_eq_natAbs] at hsmall
  by_cases hz : z = 0
  · subst hz
    refine ⟨by decide, ?_⟩
    rw [Int.cast_zero, value_eq_zero_iff]
    decide +kernel
  rcases (show z.natAbs ≤ 9007199254740992 by omega).lt_or_eq with hlt | heq
  · exact ofDecimal_ofInt_of_lt hz hlt
  -- the two numbers of 54 bits
  have hvalue : ∀ x : Binary64, x.place = 4845873199050653696 →
      x.exact.value = if x.negative then -9007199254740992 else 9007199254740992 := by
    intro x hplace
    rw [value_exact, hplace, sizeAt_two_pow]
  rcases (show z = 9007199254740992 ∨ z = -9007199254740992 by omega) with rfl | rfl
  · have hdouble : ofDecimal (ofInt 9007199254740992) = ⟨4845873199050653696⟩ := by
      decide +kernel
    rw [hdouble, hvalue _ (by decide), if_neg (by decide)]
    exact ⟨by decide, by norm_num⟩
  · have hdouble : ofDecimal (ofInt (-9007199254740992)) = ⟨14069245235905429504⟩ := by
      decide +kernel
    rw [hdouble, hvalue _ (by decide), if_pos (by decide)]
    exact ⟨by decide, by norm_num⟩

/-- The amount of a double with a whole value up to 2^53 is this value. -/
theorem exists_amount_of_whole {x : Binary64} (h : x.isFinite = true) {z : ℤ}
    (hz : x.exact.value = z) (hsmall : |z| ≤ 9007199254740992) :
    ∃ d, ofChars? x.chars = some d ∧ d.isBounded = true ∧ d.value = z := by
  rw [Int.abs_eq_natAbs] at hsmall
  have hsize : sizeAt x.place = z.natAbs := by
    have hnonneg := sizeAt_nonneg x.place
    rw [Nat.cast_natAbs, Int.cast_abs, ← hz, value_exact]
    split
    · rw [abs_neg, abs_of_nonneg hnonneg]
    · rw [abs_of_nonneg hnonneg]
  by_cases hzero : z = 0
  · subst hzero
    have hplace : x.place = 0 := by
      apply sizeAt_strictMono.injective
      rw [hsize, sizeAt_zero]
      rfl
    refine ⟨_, ofChars?_chars_of_zero h ((significand_eq_zero_iff x).2 hplace), ?_, ?_⟩
    · cases x.negative <;> decide
    · rw [Int.cast_zero, value_eq_zero_iff]
  · have hn : z.natAbs ≠ 0 := Int.natAbs_ne_zero.2 hzero
    obtain ⟨count, grid, hshortest, hgrid, hread, hwhole⟩ :=
      exists_shortest_eq_whole hn hsize (by omega)
    obtain ⟨d, hchars, hamount, hsame⟩ := exists_amount_of_shortest h
      (significand_ne_zero_of_sizeAt hn hsize) hshortest hgrid hread
    refine ⟨d, hchars, hamount.bounded, ?_⟩
    rw [value_eq_signed, hamount.sign, hsame, hwhole, ← hsize, ← hz, value_exact]

end Attestation.Binary64

namespace Attestation.Reading

open Binary64

/-! ## The law -/

section
variable (field : String) {x y : Binary64}

theorem amount_float {d : Decimal} (h : x.isFinite = true)
    (hchars : Decimal.ofChars? x.chars = some d) (hbounded : d.isBounded = true) :
    amount field (.float x) = .ok d := by
  simp [amount, Value.amount, Value.writtenAmount, h, hchars, hbounded, Except.mapError]

theorem exists_amount_float (h : x.isFinite = true) :
    ∃ d, amount field (.float x) = .ok d ∧ x.IsAmountOf d := by
  obtain ⟨d, hchars, hamount⟩ := exists_amount h
  exact ⟨d, amount_float field h hchars hamount.bounded, hamount⟩

theorem amount_float_of_not_isFinite (h : x.isFinite = false) :
    amount field (.float x) = .error (.unreadable field (.float x) .notFinite) := by
  simp [amount, Value.amount, Value.writtenAmount, h, Except.mapError]

theorem eq_or_isZero_of_amountText_eq (hx : x.isFinite = true) (hy : y.isFinite = true)
    (h : amountText field (.float x) = amountText field (.float y)) :
    x = y ∨ (x.isZero = true ∧ y.isZero = true) := by
  obtain ⟨d, hd, hamount⟩ := exists_amount_float field hx
  obtain ⟨e, he, hamount'⟩ := exists_amount_float field hy
  rw [amountText_of_amount hd, amountText_of_amount he, Except.ok.injEq,
    Decimal.canonical_eq_iff] at h
  exact eq_or_isZero_of_value_eq hx hy hamount hamount' h

theorem amountText_of_isZero (h : x.isZero = true) : amountText field (.float x) = .ok "0" := by
  rw [isZero, Bool.and_eq_true, beq_iff_eq] at h
  have hamount := amount_float field h.1 (ofChars?_chars_of_zero h.1 h.2)
    (by cases x.negative <;> decide)
  rw [amountText_of_amount hamount]
  rfl

theorem amount_int {z : ℤ} (hsmall : |z| ≤ 9007199254740992) :
    amount field (.int z) = .ok (.ofInt z) := by
  rw [Int.abs_eq_natAbs] at hsmall
  obtain ⟨hadjusted, hadjusted'⟩ := adjusted_ofInt (show z.natAbs < 10 ^ 16 by omega)
  have hbounded : (Decimal.ofInt z).isBounded = true := by
    have hexponent : (Decimal.ofInt z).exponent = 0 := rfl
    rw [Decimal.isBounded_iff, hexponent]
    omega
  simp [amount, Value.amount, Value.writtenAmount, hbounded, Except.mapError]

/-- A double with a whole value and the integer of this value are one amount. -/
theorem amountText_float_eq_int (h : x.isFinite = true) {z : ℤ} (hz : x.exact.value = z)
    (hsmall : |z| ≤ 9007199254740992) :
    ∃ text, amountText field (.float x) = .ok text ∧ amountText field (.int z) = .ok text := by
  obtain ⟨d, hchars, hbounded, hvalue⟩ := exists_amount_of_whole h hz hsmall
  have hsame : d.canonical = (Decimal.ofInt z).canonical := by
    rw [Decimal.canonical_eq_iff, hvalue, Decimal.value_ofInt]
  have htext := amountText_of_amount (amount_float field h hchars hbounded)
  rw [hsame] at htext
  exact ⟨_, htext, amountText_of_amount (amount_int field hsmall)⟩

/-- Every finite double is an amount, one that reads as the double and is within bounds; a double
that is not finite is refused. Only doubles that are the same, or are both zeros, have one text,
which is "0" for the zeros. And for every whole number up to 2^53 there is a double, and every
double of that value has the text of the integer. -/
theorem a_double_is_an_amount_of_its_own :
    (∀ x : Binary64, x.isFinite = true → ∃ d, amount field (.float x) = .ok d ∧ x.IsAmountOf d) ∧
    (∀ x : Binary64, x.isFinite = false →
      amount field (.float x) = .error (.unreadable field (.float x) .notFinite)) ∧
    (∀ x y : Binary64, x.isFinite = true → y.isFinite = true →
      amountText field (.float x) = amountText field (.float y) →
        x = y ∨ (x.isZero = true ∧ y.isZero = true)) ∧
    (∀ x : Binary64, x.isZero = true → amountText field (.float x) = .ok "0") ∧
    ∀ z : ℤ, |z| ≤ 2 ^ 53 →
      ((ofDecimal (.ofInt z)).isFinite = true ∧ (ofDecimal (.ofInt z)).exact.value = z) ∧
      ∀ x : Binary64, x.isFinite = true → x.exact.value = z →
        ∃ text, amountText field (.float x) = .ok text ∧ amountText field (.int z) = .ok text := by
  refine ⟨fun x h => exists_amount_float field h, fun x h => amount_float_of_not_isFinite field h,
    fun x y hx hy h => eq_or_isZero_of_amountText_eq field hx hy h,
    fun x h => amountText_of_isZero field h, ?_⟩
  intro z hsmall
  exact ⟨ofDecimal_ofInt hsmall, fun x h hz => amountText_float_eq_int field h hz hsmall⟩

end

/-- The least double above zero, its neighbour, infinity, a zero with a sign, and 2^53. -/
theorem a_trial_double_of_each_kind :
    (∃ d, amount "value" (.float ⟨1⟩) = .ok d ∧ ReadsAs 1 (d.coefficient * 10 ^ d.exponent)) ∧
    amountText "value" (.float ⟨1⟩) ≠ amountText "value" (.float ⟨2⟩) ∧
    amount "value" (.float ⟨9218868437227405312⟩) =
      .error (.unreadable "value" (.float ⟨9218868437227405312⟩) .notFinite) ∧
    amountText "value" (.float ⟨9223372036854775808⟩) = .ok "0" ∧
    ∃ text, amountText "value" (.float ⟨4845873199050653696⟩) = .ok text ∧
      amountText "value" (.int 9007199254740992) = .ok text := by
  obtain ⟨haccepted, hrefused, hown, hzeros, hwhole⟩ := a_double_is_an_amount_of_its_own "value"
  obtain ⟨d, hamount, hreads⟩ := haccepted ⟨1⟩ (by decide)
  obtain ⟨⟨hfinite, hvalue⟩, hsame⟩ := hwhole 9007199254740992 (by norm_num)
  have hdouble : ofDecimal (.ofInt 9007199254740992) = ⟨4845873199050653696⟩ := by
    decide +kernel
  rw [hdouble] at hfinite hvalue
  refine ⟨⟨d, hamount, hreads.reads⟩, ?_, hrefused _ (by decide), hzeros _ (by decide),
    hsame _ hfinite hvalue⟩
  intro htext
  rcases hown ⟨1⟩ ⟨2⟩ (by decide) (by decide) htext with heq | hzero
  · exact absurd heq (by decide)
  · exact absurd hzero.1 (by decide)

end Attestation.Reading
