-- The order of doubles. Without its sign a double is a place in a rising row of magnitudes, whole
-- counts of the least step 2^-1074. A number reads as the double that is nearest to it; half-way
-- between two, as the one in the even place. So no number reads as two magnitudes.
import Attestation.Number.Binary64
import Attestation.Proofs.AmountValue

namespace Attestation.Binary64

/-! ## Places -/

/-- The place of a magnitude in the row of all magnitudes: the bits without the sign. -/
def place (x : Binary64) : ℕ := x.bits.toNat % 9223372036854775808

/-- The significand of the double in a place. -/
def significandAt (a : ℕ) : ℕ :=
  if a / 4503599627370496 = 0 then a % 4503599627370496
  else 4503599627370496 + a % 4503599627370496

/-- Behind a place the next magnitude comes after `2 ^ gapPower` least steps. -/
def gapPower (a : ℕ) : ℕ := a / 4503599627370496 - 1

/-- The magnitude in a place, counted in least steps. -/
def stepsAt (a : ℕ) : ℕ := significandAt a * 2 ^ gapPower a

theorem power_eq (x : Binary64) : x.power = x.place / 4503599627370496 := by
  unfold power place
  omega

theorem fraction_eq (x : Binary64) : x.fraction = x.place % 4503599627370496 := by
  unfold fraction place
  omega

theorem significand_eq (x : Binary64) : x.significand = significandAt x.place := by
  rw [significand, significandAt, power_eq, fraction_eq]

theorem scale_eq (x : Binary64) : x.scale = (gapPower x.place : ℤ) - 1074 := by
  rw [scale, gapPower, power_eq]
  split <;> omega

theorem isFinite_iff (x : Binary64) : x.isFinite = true ↔ x.place < 9218868437227405312 := by
  rw [isFinite, decide_eq_true_eq, power_eq]
  omega

/-- A double is its sign and its place. -/
theorem eq_of_place_eq {x y : Binary64} (hsign : x.negative = y.negative)
    (hplace : x.place = y.place) : x = y := by
  have hx := x.bits.toNat_lt
  have hy := y.bits.toNat_lt
  have hbits : x.bits.toNat = y.bits.toNat := by
    unfold negative at hsign
    unfold place at hplace
    rw [Bool.eq_iff_iff, decide_eq_true_eq, decide_eq_true_eq] at hsign
    omega
  cases x
  cases y
  rw [mk.injEq]
  exact UInt64.toNat_inj.1 hbits

theorem significand_eq_zero_iff (x : Binary64) : x.significand = 0 ↔ x.place = 0 := by
  rw [significand_eq, significandAt]
  split <;> omega

/-- Significands and places are even together. -/
theorem significandAt_mod_two (a : ℕ) : significandAt a % 2 = a % 2 := by
  unfold significandAt
  split <;> omega

/-! ## The row of magnitudes -/

theorem stepsAt_succ (a : ℕ) : stepsAt (a + 1) = stepsAt a + 2 ^ gapPower a := by
  unfold stepsAt
  by_cases hlast : (a + 1) % 4503599627370496 = 0
  · by_cases hleast : a / 4503599627370496 = 0
    · have hsig : significandAt a = 4503599627370495 := by
        rw [significandAt, if_pos hleast]
        omega
      have hnext : significandAt (a + 1) = 4503599627370496 := by
        rw [significandAt, if_neg (by omega)]
        omega
      have hgap : gapPower a = 0 ∧ gapPower (a + 1) = 0 := by
        unfold gapPower
        omega
      rw [hsig, hnext, hgap.1, hgap.2]
      norm_num
    · -- the significand starts again, under the next power of two
      have hsig : significandAt a = 9007199254740991 := by
        rw [significandAt, if_neg hleast]
        omega
      have hnext : significandAt (a + 1) = 4503599627370496 := by
        rw [significandAt, if_neg (by omega)]
        omega
      have hgap : gapPower (a + 1) = gapPower a + 1 := by
        unfold gapPower
        omega
      rw [hsig, hnext, hgap, Nat.pow_succ]
      ring
  · have hsig : significandAt (a + 1) = significandAt a + 1 := by
      unfold significandAt
      split <;> split <;> omega
    have hgap : gapPower (a + 1) = gapPower a := by
      unfold gapPower
      omega
    rw [hsig, hgap]
    ring

theorem stepsAt_strictMono : StrictMono stepsAt := by
  apply strictMono_nat_of_lt_succ
  intro a
  rw [stepsAt_succ]
  exact Nat.lt_add_of_pos_right (by positivity)

theorem stepsAt_zero : stepsAt 0 = 0 := rfl

/-- The least step, and so the least magnitude but zero. -/
def leastStep : ℚ := 2 ^ (-1074 : ℤ)

theorem leastStep_pos : 0 < leastStep := zpow_pos (by norm_num) _

/-- The magnitude in a place. -/
def sizeAt (a : ℕ) : ℚ := stepsAt a * leastStep

/-- The gap to the next magnitude. -/
def gapAt (a : ℕ) : ℚ := 2 ^ gapPower a * leastStep

theorem gapAt_pos (a : ℕ) : 0 < gapAt a := mul_pos (by positivity) leastStep_pos

theorem sizeAt_strictMono : StrictMono sizeAt := by
  intro a b h
  exact mul_lt_mul_of_pos_right (Nat.cast_lt.2 (stepsAt_strictMono h)) leastStep_pos

theorem sizeAt_zero : sizeAt 0 = 0 := by
  rw [sizeAt, stepsAt_zero, Nat.cast_zero, zero_mul]

theorem sizeAt_nonneg (a : ℕ) : 0 ≤ sizeAt a := mul_nonneg (Nat.cast_nonneg _) leastStep_pos.le

theorem sizeAt_succ (a : ℕ) : sizeAt (a + 1) = sizeAt a + gapAt a := by
  rw [sizeAt, stepsAt_succ, sizeAt, gapAt, Nat.cast_add, Nat.cast_pow, Nat.cast_ofNat, add_mul]

theorem sizeAt_one : sizeAt 1 = leastStep := by
  rw [sizeAt_succ, sizeAt_zero, zero_add]
  exact one_mul _

theorem sizeAt_pred {a : ℕ} (h : a ≠ 0) : sizeAt a = sizeAt (a - 1) + gapAt (a - 1) := by
  rw [← sizeAt_succ, Nat.sub_add_cancel (Nat.pos_of_ne_zero h)]

/-- A magnitude is as many gaps as its significand counts. -/
theorem sizeAt_eq (a : ℕ) : sizeAt a = significandAt a * gapAt a := by
  rw [sizeAt, stepsAt, gapAt, Nat.cast_mul, Nat.cast_pow, Nat.cast_ofNat, mul_assoc]

/-- Before a power of two the gap is half as wide as behind it. -/
theorem gapAt_of_power {a : ℕ} (h : a % 4503599627370496 = 0 ∧ 1 < a / 4503599627370496) :
    gapAt a = 2 * gapAt (a - 1) := by
  have hgap : gapPower a = gapPower (a - 1) + 1 := by
    unfold gapPower
    omega
  rw [gapAt, hgap, pow_succ', mul_assoc]
  rfl

theorem gapAt_pred {a : ℕ} (h : ¬ (a % 4503599627370496 = 0 ∧ 1 < a / 4503599627370496)) :
    gapAt (a - 1) = gapAt a := by
  have hgap : gapPower (a - 1) = gapPower a := by
    unfold gapPower
    omega
  rw [gapAt, hgap]
  rfl

/-- The magnitude under a power of two and a fraction of 52 bits. -/
theorem sizeAt_of_parts {power fraction : ℕ} (hpower : 0 < power)
    (hfraction : fraction < 4503599627370496) :
    sizeAt (power * 4503599627370496 + fraction) =
      (4503599627370496 + fraction : ℕ) * 2 ^ ((power : ℤ) - 1075) := by
  have hsig : significandAt (power * 4503599627370496 + fraction) =
      4503599627370496 + fraction := by
    unfold significandAt
    split <;> omega
  have hgap : gapPower (power * 4503599627370496 + fraction) = power - 1 := by
    unfold gapPower
    omega
  have hexp : (power : ℤ) - 1075 = ((power - 1 : ℕ) : ℤ) + -1074 := by omega
  rw [sizeAt_eq, gapAt, hsig, hgap, leastStep, hexp, zpow_add₀ two_ne_zero, zpow_natCast]

theorem gapAt_place (x : Binary64) : gapAt x.place = 2 ^ x.scale := by
  rw [gapAt, scale_eq, leastStep, sub_eq_add_neg, zpow_add₀ two_ne_zero, zpow_natCast]

/-- The exact value of a double is its magnitude with its sign. -/
theorem value_exact (x : Binary64) :
    x.exact.value = if x.negative then -sizeAt x.place else sizeAt x.place := by
  have hsize : ∀ (m : ℕ) (e : ℤ), (m : ℚ) * 10 ^ e = sizeAt x.place →
      Decimal.value ⟨x.negative, m, e⟩ =
        if x.negative then -sizeAt x.place else sizeAt x.place := by
    intro m e h
    rw [Decimal.value_eq_signed, h]
  have hplace : sizeAt x.place = x.significand * 2 ^ x.scale := by
    rw [sizeAt_eq, ← significand_eq, gapAt_place]
  unfold exact
  split
  · rename_i hscale
    apply hsize
    rw [hplace, zpow_zero, mul_one, Nat.pow_eq, Nat.cast_mul, Nat.cast_pow, Nat.cast_ofNat,
      ← zpow_natCast, Int.toNat_of_nonneg hscale]
  · rename_i hscale
    have hten : (5 : ℚ) ^ (-x.scale) * 10 ^ x.scale = 2 ^ x.scale := by
      rw [show (10 : ℚ) = 5 * 2 by norm_num, mul_zpow, ← mul_assoc, ← zpow_add₀ (by norm_num),
        neg_add_cancel, zpow_zero, one_mul]
    apply hsize
    rw [hplace, Nat.pow_eq, Nat.cast_mul, Nat.cast_pow, Nat.cast_ofNat, ← zpow_natCast,
      Int.toNat_of_nonneg (by omega), mul_assoc, hten]

/-! ## What reads as a double -/

/-- Half-way from the magnitude before. -/
def lowAt (a : ℕ) : ℚ := (sizeAt (a - 1) + sizeAt a) / 2

/-- Half-way to the next magnitude. -/
def highAt (a : ℕ) : ℚ := (sizeAt a + sizeAt (a + 1)) / 2

/-- The number is nearer to the magnitude in this place than to any other, or it lies half-way
and the place is even. -/
def ReadsAs (a : ℕ) (q : ℚ) : Prop :=
  (lowAt a < q ∨ (a % 2 = 0 ∧ lowAt a = q)) ∧ (q < highAt a ∨ (a % 2 = 0 ∧ q = highAt a))

theorem ReadsAs.le {a : ℕ} {q : ℚ} (h : ReadsAs a q) : lowAt a ≤ q ∧ q ≤ highAt a := by
  obtain ⟨hlow, hhigh⟩ := h
  exact ⟨hlow.elim le_of_lt fun h => h.2.le, hhigh.elim le_of_lt fun h => h.2.le⟩

theorem not_readsAs_of_lt {a b : ℕ} {q : ℚ} (h : a < b) (ha : ReadsAs a q) (hb : ReadsAs b q) :
    False := by
  have hbefore : sizeAt a ≤ sizeAt (b - 1) := sizeAt_strictMono.monotone (by omega)
  have hnext : sizeAt (a + 1) ≤ sizeAt b := sizeAt_strictMono.monotone (by omega)
  have hmeet : highAt a ≤ lowAt b := by
    unfold highAt lowAt
    linarith
  rcases ha.2 with hlt | ⟨heven, heq⟩
  · exact absurd (hlt.trans_le hmeet) (not_lt.2 hb.le.1)
  rcases hb.1 with hlt | ⟨heven', heq'⟩
  · exact absurd (hlt.trans_eq heq) (not_lt.2 hmeet)
  -- both ends are taken, so both places are even and another magnitude lies between
  have hbetween : sizeAt (a + 1) ≤ sizeAt (b - 1) := sizeAt_strictMono.monotone (by omega)
  have hsizes := sizeAt_strictMono (Nat.lt_succ_self a)
  have hends : highAt a = lowAt b := heq.symm.trans heq'.symm
  unfold highAt lowAt at hends
  linarith

/-- No number reads as two magnitudes. -/
theorem eq_of_readsAs {a b : ℕ} {q : ℚ} (ha : ReadsAs a q) (hb : ReadsAs b q) : a = b := by
  rcases lt_trichotomy a b with h | h | h
  · exact (not_readsAs_of_lt h ha hb).elim
  · exact h
  · exact (not_readsAs_of_lt h hb ha).elim

theorem ReadsAs.pos {a : ℕ} {q : ℚ} (h : ReadsAs a q) (ha : a ≠ 0) : 0 < q := by
  have hbefore : sizeAt 0 ≤ sizeAt (a - 1) := sizeAt_strictMono.monotone (Nat.zero_le _)
  have hsize : sizeAt 0 < sizeAt a := sizeAt_strictMono (Nat.pos_of_ne_zero ha)
  have hlow := h.le.1
  rw [sizeAt_zero] at hbefore hsize
  unfold lowAt at hlow
  linarith

end Attestation.Binary64
