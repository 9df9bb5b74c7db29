-- The laws of ages. An age is the count of anniversaries that have come. It never falls while
-- days go by, grows by one year at a time, and is no greater for a later birth.
import Attestation.Proofs.CarryOver

namespace Attestation

namespace Date

variable {birth today tomorrow d e : Date} {years : ℕ}

/-! ## The next day -/

/-- The next day of the month, or else the first of the next month or year. -/
def next? (d : Date) : Option Date :=
  (ofNumbers? d.year d.month (d.day + 1)).or
    ((ofNumbers? d.year (d.month + 1) 1).or (ofNumbers? (d.year + 1) 1 1))

theorem isDay_of_ofNumbers?_eq_none {year month day : ℕ} (h : ofNumbers? year month day = none) :
    ¬ isDay year month day = true := by
  unfold ofNumbers? at h
  split at h
  · cases h
  · assumption

/-- A month that has no day behind this one has no later day either. -/
theorem day_le_of_last (h : ofNumbers? d.year d.month (d.day + 1) = none)
    (hyear : e.year = d.year) (hmonth : e.month = d.month) : e.day ≤ d.day := by
  have hnone := isDay_of_ofNumbers?_eq_none h
  have hd := d.bounds
  have he := e.bounds
  rw [hyear, hmonth] at he
  simp only [isDay, Bool.and_eq_true, decide_eq_true_eq] at hnone
  omega

/-- Every month has a first day, so a year without a next month is over. -/
theorem month_eq_of_last (h : ofNumbers? d.year (d.month + 1) 1 = none) : d.month = 12 := by
  have hnone := isDay_of_ofNumbers?_eq_none h
  have hd := d.bounds
  have hfirst : 1 ≤ daysInMonth d.year (d.month + 1) := by
    unfold daysInMonth
    repeat' split
    all_goals decide
  simp only [isDay, Bool.and_eq_true, decide_eq_true_eq] at hnone
  omega

/-- The next day is the first one that comes after a day. -/
theorem reaches_of_next? (h : d.next? = some e) {x : Date}
    (hlater : ¬ d.Reaches x.year x.month x.day) : x.Reaches e.year e.month e.day := by
  have hx := x.bounds
  unfold next? at h
  rw [Option.or_eq_some_iff, Option.or_eq_some_iff] at h
  unfold Reaches at *
  rcases h with h | ⟨hlast, h | ⟨hover, h⟩⟩
  · obtain ⟨hy, hm, hday⟩ := ofNumbers?_eq_some_iff.1 h
    omega
  · obtain ⟨hy, hm, hday⟩ := ofNumbers?_eq_some_iff.1 h
    have hsame : x.year = d.year → x.month = d.month → x.day ≤ d.day := day_le_of_last hlast
    omega
  · obtain ⟨hy, hm, hday⟩ := ofNumbers?_eq_some_iff.1 h
    have hsame : x.year = d.year → x.month = d.month → x.day ≤ d.day := day_le_of_last hlast
    have hmonth := month_eq_of_last hover
    omega

/-! ## Anniversaries -/

/-- The day of a birth so many years later. In a year without a 29 February that of a leap day is
1 March. There is none after the year 9999. -/
def anniversary? (birth : Date) (years : ℕ) : Option Date :=
  if birth.month = 2 ∧ birth.day = 29 ∧ ¬ LeapYear (birth.year + years) then
    ofNumbers? (birth.year + years) 3 1
  else ofNumbers? (birth.year + years) birth.month birth.day

theorem year_of_anniversary? (h : birth.anniversary? years = some d) :
    d.year = birth.year + years := by
  unfold anniversary? at h
  split at h
  · exact (ofNumbers?_eq_some_iff.1 h).1
  · exact (ofNumbers?_eq_some_iff.1 h).1

/-- There is an anniversary in every year of the calendar. -/
theorem exists_anniversary? (h : birth.year + years ≤ 9999) :
    ∃ d, birth.anniversary? years = some d := by
  obtain ⟨hyear, hmonth, hday, hleap⟩ := (isDay_iff _ _ _).1 birth.real
  unfold anniversary?
  split
  · have hreal : RealDay (birth.year + years) 3 1 := ⟨⟨by omega, h⟩, by decide, by decide, nofun⟩
    exact ⟨⟨_, _, _, (isDay_iff _ _ _).2 hreal⟩, ofNumbers?_eq_some_iff.2 ⟨rfl, rfl, rfl⟩⟩
  · rename_i hkept
    have hreal : RealDay (birth.year + years) birth.month birth.day := by
      refine ⟨⟨by omega, h⟩, hmonth, hday, fun ⟨hm, hd⟩ => ?_⟩
      by_contra hcommon
      exact hkept ⟨hm, hd, hcommon⟩
    exact ⟨⟨_, _, _, (isDay_iff _ _ _).2 hreal⟩, ofNumbers?_eq_some_iff.2 ⟨rfl, rfl, rfl⟩⟩

/-- An anniversary comes on the day of the birth, or on the next day if the year has no such day. -/
theorem reaches_anniversary_iff (h : birth.anniversary? years = some d) :
    today.Reaches d.year d.month d.day ↔
      today.Reaches (birth.year + years) birth.month birth.day := by
  have hreal := today.bounds
  unfold anniversary? at h
  split at h
  · rename_i hleap
    obtain ⟨hm, hday, hcommon⟩ := hleap
    obtain ⟨hy, hm', hday'⟩ := ofNumbers?_eq_some_iff.1 h
    -- no day of a common year lies between the two, for 29 February is none
    have hshort : today.year = birth.year + years → today.month = 2 → today.day ≤ 28 := by
      intro hyear hfebruary
      rw [← isLeap_iff, ← hyear] at hcommon
      rw [hfebruary] at hreal
      simpa [daysInMonth, hcommon] using hreal.2.2.2
    unfold Reaches
    omega
  · obtain ⟨hy, hm, hday⟩ := ofNumbers?_eq_some_iff.1 h
    rw [hy, hm, hday]

/-- A day counts as one that has come by itself. -/
protected theorem le_refl (d : Date) : d.le d = true := by
  rw [le_eq_true_iff]
  unfold Reaches
  omega

/-- The anniversaries that have come by a day. -/
def anniversaries (birth today : Date) : Set ℕ :=
  {years | 1 ≤ years ∧ ∃ d, birth.anniversary? years = some d ∧ d.le today = true}

end Date

open Date

variable {birth today tomorrow : Date} {years : ℕ}

/-! ## Ages -/

theorem exists_anniversary_le_iff :
    (∃ d, birth.anniversary? years = some d ∧ d.le today = true) ↔
      (years : ℤ) ≤ fullYears birth today := by
  rw [le_fullYears_iff]
  simp only [le_eq_true_iff]
  constructor
  · rintro ⟨d, hd, hreached⟩
    exact (reaches_anniversary_iff hd).1 hreached
  · intro hreached
    have hyear : birth.year + years ≤ 9999 := by
      have hbounds := today.bounds
      unfold Reaches at hreached
      omega
    obtain ⟨d, hd⟩ := exists_anniversary? hyear
    exact ⟨d, hd, (reaches_anniversary_iff hd).2 hreached⟩

theorem anniversaries_eq_Icc :
    birth.anniversaries today = Set.Icc 1 (fullYears birth today).toNat := by
  ext years
  unfold anniversaries
  rw [Set.mem_ofPred_eq, exists_anniversary_le_iff, Set.mem_Icc]
  omega

/-- Whoever is born has reached an age of no years at least. -/
theorem exists_fullYears_eq (h : birth.le today = true) :
    ∃ years : ℕ, fullYears birth today = years := by
  rw [le_eq_true_iff] at h
  have hnonneg := (le_fullYears_iff birth today 0).2 h
  exact Int.eq_ofNat_of_zero_le hnonneg

/-- An anniversary that has come has come by a later day too, and all the more that of an earlier
birth. -/
theorem fullYears_mono {birth' later : Date} (hborn : birth'.le today = true)
    (hbirth : birth.le birth' = true) (hlater : today.le later = true) :
    fullYears birth' today ≤ fullYears birth later := by
  obtain ⟨years, hyears⟩ := exists_fullYears_eq hborn
  have hreached := (le_fullYears_iff birth' today years).1 hyears.ge
  rw [le_eq_true_iff] at hbirth hlater
  rw [hyears, le_fullYears_iff]
  unfold Reaches at *
  omega

/-- If two more anniversaries had come overnight, the first of them would be a day between. -/
theorem fullYears_next_le (h : birth.le today = true) (hnext : today.next? = some tomorrow) :
    fullYears birth tomorrow ≤ fullYears birth today + 1 := by
  obtain ⟨years, hyears⟩ := exists_fullYears_eq h
  by_contra hlt
  have hsecond : tomorrow.Reaches (birth.year + (years + 2)) birth.month birth.day := by
    rw [← le_fullYears_iff]
    push_cast
    omega
  have hbounds := tomorrow.bounds
  obtain ⟨d, hd⟩ := @exists_anniversary? birth (years + 1) (by unfold Reaches at hsecond; omega)
  have hnot : ¬ today.Reaches d.year d.month d.day := by
    rw [reaches_anniversary_iff hd, ← le_fullYears_iff]
    push_cast
    omega
  have hbetween := reaches_of_next? hnext hnot
  have hyear := year_of_anniversary? hd
  unfold Reaches at hsecond hbetween
  omega

/-- The age of whoever is born is the count of anniversaries that have come, where that of a leap
day is 1 March in a common year. So it is not negative, never falls as days go by, rises by one
year at most from a day to the next, and is no greater for a later birth. -/
theorem an_age_counts_the_anniversaries_that_have_come (birth today : Date)
    (h : birth.le today = true) :
    (birth.anniversaries today).Finite ∧
    fullYears birth today = (birth.anniversaries today).ncard ∧
    0 ≤ fullYears birth today ∧
    (∀ later, today.le later = true → fullYears birth today ≤ fullYears birth later) ∧
    (∀ tomorrow, today.next? = some tomorrow →
      fullYears birth tomorrow ≤ fullYears birth today + 1) ∧
    ∀ birth', birth.le birth' = true → birth'.le today = true →
      fullYears birth' today ≤ fullYears birth today := by
  obtain ⟨years, hyears⟩ := exists_fullYears_eq h
  have hcount : (birth.anniversaries today).ncard = years := by
    rw [anniversaries_eq_Icc, hyears, Set.ncard_eq_toFinset_card', Set.toFinset_Icc, Nat.card_Icc]
    omega
  refine ⟨?_, ?_, ?_, ?_, ?_, ?_⟩
  · rw [anniversaries_eq_Icc]
    exact Set.finite_Icc _ _
  · rw [hyears, hcount]
  · rw [hyears]
    exact Int.natCast_nonneg years
  · intro later hlater
    exact fullYears_mono h birth.le_refl hlater
  · intro tomorrow hnext
    exact fullYears_next_le h hnext
  · intro birth' hbirth hborn
    exact fullYears_mono hborn hbirth today.le_refl

/-- By 28 February 2021 a birth on a leap day of 2000 has had twenty anniversaries, and the next
day is the one that may bring another. -/
theorem a_leap_day_of_2000_has_had_twenty_anniversaries :
    (anniversaries ⟨2000, 2, 29, by decide⟩ ⟨2021, 2, 28, by decide⟩).ncard = 20 ∧
      fullYears ⟨2000, 2, 29, by decide⟩ ⟨2021, 2, 28, by decide⟩ = 20 ∧
      fullYears ⟨2000, 2, 29, by decide⟩ ⟨2021, 3, 1, by decide⟩ ≤ 20 + 1 := by
  have hyears : fullYears ⟨2000, 2, 29, by decide⟩ ⟨2021, 2, 28, by decide⟩ = 20 := by decide
  obtain ⟨_, hcount, _, _, hnext, _⟩ := an_age_counts_the_anniversaries_that_have_come
    ⟨2000, 2, 29, by decide⟩ ⟨2021, 2, 28, by decide⟩ (by decide)
  have hmarch := hnext ⟨2021, 3, 1, by decide⟩ (by decide)
  rw [hyears] at hcount hmarch
  exact ⟨by exact_mod_cast hcount.symm, hyears, hmarch⟩

end Attestation
