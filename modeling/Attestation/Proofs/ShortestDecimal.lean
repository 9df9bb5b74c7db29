-- The laws of the shortest decimal. On every grid of tenths the search takes a point that reads
-- as the double, if the grid has one, and seventeen digits always have one. So the search finds
-- a decimal for every finite double but zero, and that decimal reads as the double.
import Attestation.Proofs.DigitText
import Attestation.Proofs.DoubleOrder

namespace Attestation.Binary64

open Decimal (ten_zpow_pos)

/-! ## Fractions -/

theorem scaled_den_pos (num : ℕ) {den : ℕ} (h : 0 < den) (e : ℤ) : 0 < (scaled num den e).2 := by
  unfold scaled
  split
  · exact h
  · exact Nat.mul_pos h (Nat.pow_pos (by decide))

theorem scaled_ratio (num den : ℕ) (e : ℤ) :
    ((scaled num den e).1 : ℚ) / (scaled num den e).2 = num / den * 2 ^ e := by
  unfold scaled
  split
  · rename_i he
    have hpow : (2 : ℚ) ^ e.toNat = 2 ^ e := by rw [← zpow_natCast, Int.toNat_of_nonneg he]
    push_cast [Nat.pow_eq]
    rw [hpow, mul_div_right_comm]
  · rename_i he
    have hpow : (2 : ℚ) ^ (-e).toNat = (2 ^ e)⁻¹ := by
      rw [← zpow_natCast, Int.toNat_of_nonneg (by omega), zpow_neg]
    push_cast [Nat.pow_eq]
    rw [hpow, ← div_div, div_inv_eq_mul]

theorem onGrid_den_pos (num : ℕ) {den : ℕ} (h : 0 < den) (grid : ℤ) :
    0 < (onGrid num den grid).2 := by
  unfold onGrid
  split
  · exact Nat.mul_pos h (Nat.pow_pos (by decide))
  · exact h

/-- On one grid all fractions of a denominator have the same denominator. -/
theorem onGrid_den_eq (num num' den : ℕ) (grid : ℤ) :
    (onGrid num den grid).2 = (onGrid num' den grid).2 := by
  unfold onGrid
  split <;> rfl

theorem onGrid_ratio (num den : ℕ) (grid : ℤ) :
    ((onGrid num den grid).1 : ℚ) / (onGrid num den grid).2 = num / den / 10 ^ grid := by
  unfold onGrid
  split
  · rename_i hgrid
    have hpow : (10 : ℚ) ^ grid.toNat = 10 ^ grid := by
      rw [← zpow_natCast, Int.toNat_of_nonneg hgrid]
    push_cast [Nat.pow_eq]
    rw [hpow, div_div]
  · rename_i hgrid
    have hpow : (10 : ℚ) ^ (-grid).toNat = (10 ^ grid)⁻¹ := by
      rw [← zpow_natCast, Int.toNat_of_nonneg (by omega), zpow_neg]
    push_cast [Nat.pow_eq]
    rw [hpow, ← div_eq_mul_inv, div_right_comm]

section
variable (num : ℕ) {den : ℕ} (hden : 0 < den) (grid : ℤ) (count : ℕ)
include hden

theorem onGrid_le_iff : (onGrid num den grid).1 ≤ count * (onGrid num den grid).2 ↔
    (num / den : ℚ) ≤ count * 10 ^ grid := by
  have hpos : (0 : ℚ) < (onGrid num den grid).2 := Nat.cast_pos.2 (onGrid_den_pos num hden grid)
  rw [← div_le_iff₀ (ten_zpow_pos grid), ← onGrid_ratio, div_le_iff₀ hpos]
  exact_mod_cast Iff.rfl

theorem le_onGrid_iff : count * (onGrid num den grid).2 ≤ (onGrid num den grid).1 ↔
    count * 10 ^ grid ≤ (num / den : ℚ) := by
  have hpos : (0 : ℚ) < (onGrid num den grid).2 := Nat.cast_pos.2 (onGrid_den_pos num hden grid)
  rw [← le_div_iff₀ (ten_zpow_pos grid), ← onGrid_ratio, le_div_iff₀ hpos]
  exact_mod_cast Iff.rfl

end

/-! ## The points of a grid -/

namespace Interval

def lowEnd (i : Interval) : ℚ := i.low / i.den

def centre (i : Interval) : ℚ := i.value / i.den

def highEnd (i : Interval) : ℚ := i.high / i.den

/-- The number lies between the ends, or is one of them where they count. -/
def Contains (i : Interval) (q : ℚ) : Prop :=
  (i.lowEnd < q ∨ (i.closed = true ∧ i.lowEnd = q)) ∧
    (q < i.highEnd ∨ (i.closed = true ∧ q = i.highEnd))

/-- An interval of fractions around its centre. -/
structure Sound (i : Interval) : Prop where
  den_pos : 0 < i.den
  low_lt : i.lowEnd < i.centre
  lt_high : i.centre < i.highEnd

variable {i : Interval} {grid : ℤ} {count : ℕ}

theorem Sound.contains_centre (h : i.Sound) : i.Contains i.centre :=
  ⟨Or.inl h.low_lt, Or.inl h.lt_high⟩

theorem Contains.between {p q r : ℚ} (hp : i.Contains p) (hr : i.Contains r) (hpq : p ≤ q)
    (hqr : q ≤ r) : i.Contains q := by
  constructor
  · rcases hp.1 with hlow | ⟨hclosed, rfl⟩
    · exact Or.inl (hlow.trans_le hpq)
    · rcases hpq.lt_or_eq with hlt | heq
      · exact Or.inl hlt
      · exact Or.inr ⟨hclosed, heq⟩
  · rcases hr.2 with hhigh | ⟨hclosed, rfl⟩
    · exact Or.inl (hqr.trans_lt hhigh)
    · rcases hqr.lt_or_eq with hlt | heq
      · exact Or.inl hlt
      · exact Or.inr ⟨hclosed, heq⟩

theorem holds_iff (hden : 0 < i.den) (grid : ℤ) (count : ℕ) :
    i.holds grid count = true ↔ i.Contains (count * 10 ^ grid) := by
  have hlow := onGrid_le_iff i.low hden grid count
  have hlow' := le_onGrid_iff i.low hden grid count
  have hhigh := le_onGrid_iff i.high hden grid count
  have hhigh' := onGrid_le_iff i.high hden grid count
  rw [onGrid_den_eq i.high i.low] at hhigh hhigh'
  unfold holds Contains lowEnd highEnd
  cases i.closed with
  | true =>
    simp only [if_true, Bool.and_eq_true, decide_eq_true_eq, hlow, hhigh, true_and]
    rw [le_iff_lt_or_eq, le_iff_lt_or_eq]
  | false =>
    simp only [Bool.false_eq_true, if_false, Bool.and_eq_true, decide_eq_true_eq, false_and,
      or_false]
    rw [← not_le, ← not_le, hlow', hhigh', not_le, not_le]

theorem holds_of_point? (h : i.point? grid = some count) : i.holds grid count = true := by
  unfold point? at h
  simp only at h
  split at h
  · cases h
  · rename_i hbelow _
    cases h
    exact hbelow
  · rename_i _ habove
    cases h
    exact habove
  · rename_i hbelow habove
    split_ifs at h
    · cases h
      exact hbelow
    · cases h
      exact habove
    · cases h
      rcases Nat.mod_two_eq_zero_or_one
        ((onGrid i.value i.den grid).1 / (onGrid i.value i.den grid).2) with heven | hodd
      · rw [heven]
        exact hbelow
      · rw [hodd]
        exact habove

theorem isSome_point?_of_holds
    (h : i.holds grid ((onGrid i.value i.den grid).1 / (onGrid i.value i.den grid).2) = true ∨
      i.holds grid ((onGrid i.value i.den grid).1 / (onGrid i.value i.den grid).2 + 1) = true) :
    (i.point? grid).isSome = true := by
  unfold point?
  simp only
  split
  · rename_i hbelow habove
    rw [hbelow, habove] at h
    simp at h
  · rfl
  · rfl
  · split_ifs <;> rfl

/-- If any point of the grid reads as the double, so does one of the two around it. -/
theorem isSome_point? (h : i.Sound) (hpoint : i.holds grid count = true) :
    (i.point? grid).isSome = true := by
  have hden := onGrid_den_pos i.value h.den_pos grid
  have hbelow := (le_onGrid_iff i.value h.den_pos grid _).1
    (Nat.div_mul_le_self (onGrid i.value i.den grid).1 (onGrid i.value i.den grid).2)
  have hnext := (Nat.lt_div_mul_add (a := (onGrid i.value i.den grid).1) hden).le
  rw [← Nat.succ_mul] at hnext
  have habove := (onGrid_le_iff i.value h.den_pos grid _).1 hnext
  have hgrid := (ten_zpow_pos grid).le
  have hread := (holds_iff h.den_pos grid count).1 hpoint
  apply isSome_point?_of_holds
  rw [holds_iff h.den_pos, holds_iff h.den_pos]
  rcases le_or_gt count ((onGrid i.value i.den grid).1 / (onGrid i.value i.den grid).2)
    with hle | hlt
  · left
    apply hread.between h.contains_centre _ hbelow
    exact mul_le_mul_of_nonneg_right (Nat.cast_le.2 hle) hgrid
  · right
    apply h.contains_centre.between hread habove
    exact mul_le_mul_of_nonneg_right (Nat.cast_le.2 hlt) hgrid

/-- An interval wider than a step of the grid has a point of the grid. -/
theorem exists_holds_of_wide (h : i.Sound) (hlow : 0 ≤ i.lowEnd)
    (hwide : 10 ^ grid < i.highEnd - i.lowEnd) : ∃ count, i.holds grid count = true := by
  have hgrid := ten_zpow_pos grid
  have hceil := Nat.le_ceil (i.highEnd / 10 ^ grid)
  have hhigh : 0 < i.highEnd := hlow.trans_lt (h.low_lt.trans h.lt_high)
  have hpos : 0 < ⌈i.highEnd / 10 ^ grid⌉₊ := Nat.ceil_pos.2 (div_pos hhigh hgrid)
  have hceil' := Nat.ceil_lt_add_one (div_pos hhigh hgrid).le
  refine ⟨⌈i.highEnd / 10 ^ grid⌉₊ - 1, ?_⟩
  rw [holds_iff h.den_pos, Nat.cast_sub hpos, Nat.cast_one, sub_mul, one_mul]
  rw [div_le_iff₀ hgrid] at hceil
  rw [← sub_lt_iff_lt_add, lt_div_iff₀ hgrid, sub_mul, one_mul] at hceil'
  exact ⟨Or.inl (by linarith), Or.inl hceil'⟩

end Interval

/-! ## The leading digit -/

/-- The leading digit of a fraction of one or more stands where that of its whole part does. -/
theorem leadingPower_bounds_of_le {num den : ℕ} (hden : 0 < den) (h : den ≤ num) :
    (10 : ℚ) ^ leadingPower num den ≤ num / den ∧
      (num / den : ℚ) < 10 ^ (leadingPower num den + 1) := by
  have hden' : (0 : ℚ) < den := Nat.cast_pos.2 hden
  obtain ⟨hlow, hhigh⟩ := DecimalDigit.length_write_bounds (Nat.div_pos h hden).ne'
  have hpos := DecimalDigit.length_write_pos (num / den)
  rw [Nat.le_div_iff_mul_le hden] at hlow
  rw [Nat.div_lt_iff_lt_mul hden] at hhigh
  rw [leadingPower, if_pos h, sub_add_cancel, zpow_natCast, le_div_iff₀ hden', div_lt_iff₀ hden',
    ← Nat.cast_pred hpos, zpow_natCast]
  exact ⟨by exact_mod_cast hlow, by exact_mod_cast hhigh⟩

theorem ten_zpow_neg_le_div_iff (num : ℕ) {den : ℕ} (hden : 0 < den) (places : ℕ) :
    (10 : ℚ) ^ (-(places : ℤ)) ≤ num / den ↔ den ≤ num * 10 ^ places := by
  have hden' : (0 : ℚ) < den := Nat.cast_pos.2 hden
  have hten : (0 : ℚ) < 10 ^ places := by positivity
  rw [zpow_neg, zpow_natCast, inv_eq_one_div, div_le_div_iff₀ hten hden', one_mul]
  exact_mod_cast Iff.rfl

theorem div_le_ten_zpow_neg_iff (num : ℕ) {den : ℕ} (hden : 0 < den) (places : ℕ) :
    (num / den : ℚ) ≤ 10 ^ (-(places : ℤ)) ↔ num * 10 ^ places ≤ den := by
  have hden' : (0 : ℚ) < den := Nat.cast_pos.2 hden
  have hten : (0 : ℚ) < 10 ^ places := by positivity
  rw [zpow_neg, zpow_natCast, inv_eq_one_div, div_le_div_iff₀ hden' hten, one_mul]
  exact_mod_cast Iff.rfl

/-- That of a fraction below one stands as far behind the point as the whole part of the turned
fraction has digits, or one place nearer if the turned fraction is a power of ten. -/
theorem leadingPower_bounds_of_lt {num den : ℕ} (hnum : 0 < num) (h : num < den) :
    (10 : ℚ) ^ leadingPower num den ≤ num / den ∧
      (num / den : ℚ) < 10 ^ (leadingPower num den + 1) := by
  have hden : 0 < den := hnum.trans h
  obtain ⟨hlow, hhigh⟩ := DecimalDigit.length_write_bounds (Nat.div_pos h.le hnum).ne'
  have hpos := DecimalDigit.length_write_pos (den / num)
  rw [Nat.le_div_iff_mul_le hnum, mul_comm] at hlow
  rw [Nat.div_lt_iff_lt_mul hnum, mul_comm] at hhigh
  rw [leadingPower, if_neg (not_le.2 h)]
  simp only
  generalize (DecimalDigit.write (den / num)).length = behind at hlow hhigh hpos ⊢
  obtain ⟨places, rfl⟩ := Nat.exists_eq_add_one_of_ne_zero hpos.ne'
  rw [Nat.add_sub_cancel] at hlow ⊢
  have hupper := (div_le_ten_zpow_neg_iff num hden places).2 hlow
  have hlower := (ten_zpow_neg_le_div_iff num hden (places + 1)).2 hhigh.le
  split
  · rename_i hpower
    rw [show 1 - ((places + 1 : ℕ) : ℤ) = -(places : ℤ) by push_cast; ring]
    have hless : (10 : ℚ) ^ (-(places : ℤ)) < 10 ^ (-(places : ℤ) + 1) :=
      zpow_lt_zpow_right₀ (by norm_num) (lt_add_one _)
    exact ⟨(ten_zpow_neg_le_div_iff num hden places).2 hpower, hupper.trans_lt hless⟩
  · rename_i hpower
    rw [show -((places + 1 : ℕ) : ℤ) + 1 = -(places : ℤ) by push_cast; ring]
    exact ⟨hlower, not_le.1 ((ten_zpow_neg_le_div_iff num hden places).not.2 hpower)⟩

/-- The power of ten of the leading digit. -/
theorem leadingPower_bounds {num den : ℕ} (hnum : 0 < num) (hden : 0 < den) :
    (10 : ℚ) ^ leadingPower num den ≤ num / den ∧
      (num / den : ℚ) < 10 ^ (leadingPower num den + 1) := by
  rcases le_or_gt den num with hle | hlt
  · exact leadingPower_bounds_of_le hden hle
  · exact leadingPower_bounds_of_lt hnum hlt

/-! ## The interval of a double -/

section
variable (x : Binary64)

/-- The unit of the interval is a quarter of the gap to the next magnitude. -/
theorem scaled_quarter :
    ((scaled 1 1 (x.scale - 2)).1 : ℚ) / (scaled 1 1 (x.scale - 2)).2 = gapAt x.place / 4 := by
  rw [scaled_ratio, gapAt_place, zpow_sub₀ two_ne_zero]
  norm_num

theorem den_interval_pos : 0 < x.interval.den := scaled_den_pos 1 one_pos (x.scale - 2)

theorem centre_interval : x.interval.centre = sizeAt x.place := by
  unfold Interval.centre interval
  simp only
  rw [Nat.cast_mul, mul_div_assoc, scaled_quarter, sizeAt_eq, ← significand_eq]
  push_cast
  ring

theorem highEnd_interval : x.interval.highEnd = highAt x.place := by
  unfold Interval.highEnd interval
  simp only
  rw [Nat.cast_mul, mul_div_assoc, scaled_quarter, highAt, sizeAt_succ, sizeAt_eq,
    ← significand_eq]
  push_cast
  ring

variable {x} (hx : x.significand ≠ 0)
include hx

theorem place_ne_zero : x.place ≠ 0 := (significand_eq_zero_iff x).not.1 hx

theorem lowEnd_interval : x.interval.lowEnd = lowAt x.place := by
  have hsize := sizeAt_pred (place_ne_zero hx)
  have hcentre := sizeAt_eq x.place
  rw [← significand_eq] at hcentre
  unfold Interval.lowEnd interval
  simp only [fraction_eq, power_eq]
  split
  · rename_i hpower
    have hgap := gapAt_of_power hpower
    rw [Nat.cast_mul, mul_div_assoc, scaled_quarter, Nat.cast_sub (by omega), lowAt]
    push_cast
    linarith
  · rename_i hpower
    have hgap := gapAt_pred hpower
    rw [Nat.cast_mul, mul_div_assoc, scaled_quarter, Nat.cast_sub (by omega), lowAt]
    push_cast
    linarith

theorem sound_interval : x.interval.Sound where
  den_pos := den_interval_pos x
  low_lt := by
    have hsize := sizeAt_strictMono (Nat.sub_lt (Nat.pos_of_ne_zero (place_ne_zero hx)) one_pos)
    rw [lowEnd_interval hx, centre_interval, lowAt]
    linarith
  lt_high := by
    have hsize := sizeAt_strictMono (Nat.lt_succ_self x.place)
    rw [highEnd_interval, centre_interval, highAt]
    linarith

theorem contains_interval_iff (q : ℚ) : x.interval.Contains q ↔ ReadsAs x.place q := by
  have hclosed : x.interval.closed = true ↔ x.place % 2 = 0 := by
    have heven := significandAt_mod_two x.place
    rw [← significand_eq] at heven
    rw [← heven]
    exact beq_iff_eq
  rw [Interval.Contains, hclosed, lowEnd_interval hx, highEnd_interval]
  rfl

end

/-! ## Seventeen digits -/

/-- The interval of a double is wider than a step of its seventeenth digit. -/
theorem sizeAt_div_lt_width {a : ℕ} (ha : a ≠ 0) : sizeAt a / 10 ^ 16 < highAt a - lowAt a := by
  have hsize := sizeAt_pred ha
  have hnext := sizeAt_succ a
  have hpos := gapAt_pos a
  have hcentre := sizeAt_eq a
  unfold highAt lowAt
  by_cases hpower : a % 4503599627370496 = 0 ∧ 1 < a / 4503599627370496
  · have hgap := gapAt_of_power hpower
    have hsig : significandAt a = 4503599627370496 := by
      unfold significandAt
      split <;> omega
    rw [hsig] at hcentre
    push_cast at hcentre
    linarith
  · have hgap := gapAt_pred hpower
    have hsig : (significandAt a : ℚ) ≤ 9007199254740992 := by
      have hnat : significandAt a ≤ 9007199254740992 := by
        unfold significandAt
        split <;> omega
      exact_mod_cast hnat
    have hbound := mul_le_mul_of_nonneg_right hsig hpos.le
    rw [← hcentre] at hbound
    linarith

/-! ## The search -/

/-- The first hit among counted places comes no later than any other. -/
theorem exists_findSome?_range {α : Type} (f : ℕ → Option α) {n k : ℕ} (hk : k < n)
    (h : (f k).isSome = true) :
    ∃ j ≤ k, ∃ v, f j = some v ∧ (List.range n).findSome? f = some v := by
  induction n with
  | zero => omega
  | succ n ih =>
    rw [List.range_succ, List.findSome?_append]
    rcases Nat.lt_succ_iff_lt_or_eq.1 hk with hlt | rfl
    · obtain ⟨j, hj, v, hv, hfind⟩ := ih hlt
      exact ⟨j, hj, v, hv, by rw [hfind]; rfl⟩
    · cases hfind : (List.range k).findSome? f with
      | some v =>
        obtain ⟨j, hj, hv⟩ := List.exists_of_findSome?_eq_some hfind
        exact ⟨j, (List.mem_range.1 hj).le, v, hv, rfl⟩
      | none =>
        obtain ⟨v, hv⟩ := Option.isSome_iff_exists.1 h
        exact ⟨k, le_rfl, v, hv, by simp [hv]⟩

/-- The power of ten of the leading digit of a double. -/
def leading (x : Binary64) : ℤ := leadingPower x.interval.value x.interval.den

section
variable {x : Binary64} (hx : x.significand ≠ 0)
include hx

theorem leading_bounds :
    (10 : ℚ) ^ x.leading ≤ sizeAt x.place ∧ sizeAt x.place < 10 ^ (x.leading + 1) := by
  have hcentre := centre_interval x
  have hvalue : 0 < x.interval.value := by
    rw [Nat.pos_iff_ne_zero]
    intro hzero
    have hsize := sizeAt_strictMono (Nat.pos_of_ne_zero (place_ne_zero hx))
    rw [← hcentre, Interval.centre, hzero, Nat.cast_zero, zero_div] at hsize
    exact absurd hsize (not_lt.2 (sizeAt_nonneg 0))
  rw [← hcentre]
  exact leadingPower_bounds hvalue (den_interval_pos x)

/-- If a point of a grid reads as the double and the grid is one of the seventeen, then the search
ends on this grid or on a coarser one. -/
theorem exists_shortest_of_holds {places count : ℕ} (hplaces : places < 17)
    (h : x.interval.holds (x.leading - places) count = true) :
    ∃ places' ≤ places, ∃ count', x.shortest = (count', x.leading - places') ∧
      ReadsAs x.place (count' * 10 ^ (x.leading - places')) := by
  have hsound := sound_interval hx
  obtain ⟨places', hle, hit, hpoint, hfind⟩ := exists_findSome?_range
    (fun places : ℕ => (x.interval.point? (x.leading - places)).map fun count =>
      (count, x.leading - (places : ℤ))) hplaces
    (by rw [Option.isSome_map]; exact Interval.isSome_point? hsound h)
  obtain ⟨count', hcount, rfl⟩ := Option.map_eq_some_iff.1 hpoint
  refine ⟨places', hle, count', ?_, ?_⟩
  · unfold shortest
    simp only
    exact congrArg (Option.getD · (0, 0)) hfind
  · rw [← contains_interval_iff hx, ← Interval.holds_iff hsound.den_pos]
    exact Interval.holds_of_point? hcount

/-- The search ends within seventeen digits, at a decimal that reads as the double. -/
theorem exists_shortest :
    ∃ count grid, x.shortest = (count, grid) ∧ x.leading - 16 ≤ grid ∧
      ReadsAs x.place (count * 10 ^ grid) := by
  have hlow : 0 ≤ x.interval.lowEnd := by
    have hbefore := sizeAt_nonneg (x.place - 1)
    have hsize := sizeAt_nonneg x.place
    rw [lowEnd_interval hx, lowAt]
    linarith
  have hwide : 10 ^ (x.leading - (16 : ℕ)) < x.interval.highEnd - x.interval.lowEnd := by
    rw [lowEnd_interval hx, highEnd_interval, zpow_sub₀ (by norm_num), zpow_natCast]
    exact (div_le_div_of_nonneg_right (leading_bounds hx).1 (by positivity)).trans_lt
      (sizeAt_div_lt_width (place_ne_zero hx))
  obtain ⟨count, hcount⟩ := Interval.exists_holds_of_wide (sound_interval hx) hlow hwide
  obtain ⟨places, hle, count', hshortest, hread⟩ :=
    exists_shortest_of_holds hx (by decide : 16 < 17) hcount
  exact ⟨count', _, hshortest, by omega, hread⟩

end

end Attestation.Binary64
