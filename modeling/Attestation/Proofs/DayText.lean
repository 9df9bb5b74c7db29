-- The laws of the text of a day. A text of ten characters that names a real day is read as that
-- day, and every day is written in the one text that is read as it. So no two days have one
-- text, no text is read as two days, and what stands behind a day does not blur it.
import Attestation.Proofs.DigitText
import Attestation.Proofs.Guards

namespace Attestation

/-! ## Real days -/

/-- A year with a 29 February: one in four, but of the years that end a century only one in four. -/
def LeapYear (year : ℕ) : Prop := 4 ∣ year ∧ (100 ∣ year → 400 ∣ year)

instance (year : ℕ) : Decidable (LeapYear year) :=
  inferInstanceAs (Decidable (4 ∣ year ∧ (100 ∣ year → 400 ∣ year)))

/-- The days of the months, January first, with all that a February ever has. -/
def monthLengths : List ℕ := [31, 29, 31, 30, 31, 30, 31, 31, 30, 31, 30, 31]

/-- The three numbers name a day of the Gregorian calendar in the years 1 to 9999. -/
structure RealDay (year month day : ℕ) : Prop where
  year_bounds : 1 ≤ year ∧ year ≤ 9999
  month_bounds : 1 ≤ month ∧ month ≤ 12
  day_bounds : 1 ≤ day ∧ day ≤ monthLengths.getD (month - 1) 0
  leap_day : month = 2 ∧ day = 29 → LeapYear year

theorem isLeap_iff (year : ℕ) : isLeap year = true ↔ LeapYear year := by
  simp only [isLeap, LeapYear, Bool.and_eq_true, Bool.or_eq_true, beq_iff_eq, bne_iff_ne]
  omega

theorem le_daysInMonth_iff {month : ℕ} (h : 1 ≤ month ∧ month ≤ 12) (year day : ℕ) :
    day ≤ daysInMonth year month ↔
      day ≤ monthLengths.getD (month - 1) 0 ∧ (month = 2 ∧ day = 29 → LeapYear year) := by
  rw [← isLeap_iff]
  obtain ⟨hfirst, hlast⟩ := h
  by_cases hfebruary : month = 2
  · subst hfebruary
    cases hleap : isLeap year
    · simp [daysInMonth, monthLengths, hleap]
      omega
    · simp [daysInMonth, monthLengths, hleap]
  · have hother : daysInMonth year month = monthLengths.getD (month - 1) 0 := by
      interval_cases month <;> first | rfl | exact absurd rfl hfebruary
    simp [hother, hfebruary]

theorem isDay_iff (year month day : ℕ) : isDay year month day = true ↔ RealDay year month day := by
  simp only [isDay, Bool.and_eq_true, decide_eq_true_eq]
  constructor
  · rintro ⟨⟨⟨⟨⟨hyear, hyear'⟩, hmonth⟩, hmonth'⟩, hday⟩, hday'⟩
    obtain ⟨hlength, hleap⟩ := (le_daysInMonth_iff ⟨hmonth, hmonth'⟩ year day).1 hday'
    exact ⟨⟨hyear, hyear'⟩, ⟨hmonth, hmonth'⟩, ⟨hday, hlength⟩, hleap⟩
  · rintro ⟨⟨hyear, hyear'⟩, hmonth, ⟨hday, hlength⟩, hleap⟩
    have hday' := (le_daysInMonth_iff hmonth year day).2 ⟨hlength, hleap⟩
    exact ⟨⟨⟨⟨⟨hyear, hyear'⟩, hmonth.1⟩, hmonth.2⟩, hday⟩, hday'⟩

theorem daysInMonth_le (year month : Nat) : daysInMonth year month ≤ 31 := by
  unfold daysInMonth
  repeat' split
  all_goals omega

namespace Date

open DecimalDigit

theorem bounds (d : Date) : (1 ≤ d.year ∧ d.year ≤ 9999) ∧ (1 ≤ d.month ∧ d.month ≤ 12) ∧
    1 ≤ d.day ∧ d.day ≤ daysInMonth d.year d.month := by
  have hreal := d.real
  simp only [isDay, Bool.and_eq_true, decide_eq_true_eq] at hreal
  omega

theorem month_day_le (d : Date) : d.month ≤ 12 ∧ d.day ≤ 31 := by
  have hbounds := d.bounds
  have hdays := daysInMonth_le d.year d.month
  omega

theorem ofNumbers?_eq_some_iff {year month day : ℕ} {d : Date} :
    ofNumbers? year month day = some d ↔ d.year = year ∧ d.month = month ∧ d.day = day := by
  unfold ofNumbers?
  constructor
  · intro h
    split at h
    · cases h
      exact ⟨rfl, rfl, rfl⟩
    · cases h
  · rintro ⟨rfl, rfl, rfl⟩
    rw [dif_pos d.real]

/-! ## The form of a day's text -/

/-- A text of four digits, two and two, with a dash between, and the numbers that they write. -/
def Dated (cs : List Char) (year month day : ℕ) : Prop :=
  ∃ ys ms ds : List Char, cs = ys ++ '-' :: (ms ++ '-' :: ds) ∧
    (ys.length = 4 ∧ ms.length = 2 ∧ ds.length = 2) ∧
    (AreDigits ys ∧ AreDigits ms ∧ AreDigits ds) ∧
    Nat.ofDigitChars 10 ys 0 = year ∧ Nat.ofDigitChars 10 ms 0 = month ∧
    Nat.ofDigitChars 10 ds 0 = day

theorem Dated.length_eq {cs : List Char} {year month day : ℕ} (h : Dated cs year month day) :
    cs.length = 10 := by
  obtain ⟨ys, ms, ds, rfl, ⟨hys, hms, hds⟩, _⟩ := h
  simp [hys, hms, hds]

theorem exists_split?_iff {cs : List Char} {year month day : ℕ} :
    (∃ last, split? cs = some (year, month, day, last)) ↔ Dated cs year month day := by
  constructor
  · rintro ⟨last, h⟩
    unfold split? at h
    split at h
    · rename_i y₁ y₂ y₃ y₄ m₁ m₂ d₁ d₂
      split at h
      · rename_i hdigits
        cases h
        refine ⟨[y₁, y₂, y₃, y₄], [m₁, m₂], [d₁, last], rfl, ⟨rfl, rfl, rfl⟩, ?_, rfl, rfl, rfl⟩
        simp_all [areDigits_iff]
      · cases h
    · cases h
  · rintro ⟨ys, ms, ds, rfl, ⟨hys, hms, hds⟩, hdigits, rfl, rfl, rfl⟩
    obtain ⟨y₁, y₂, y₃, y₄, rfl⟩ := List.length_eq_four.1 hys
    obtain ⟨m₁, m₂, rfl⟩ := List.length_eq_two.1 hms
    obtain ⟨d₁, d₂, rfl⟩ := List.length_eq_two.1 hds
    refine ⟨d₂, if_pos ?_⟩
    simp_all [areDigits_iff]

/-! ## Reading and writing -/

/-- A text is read as a day just when it is dated with that day's numbers. -/
theorem ofChars_eq_ok_iff {cs : List Char} {d : Date} :
    ofChars cs = .ok d ↔ Dated cs d.year d.month d.day := by
  rw [← exists_split?_iff]
  unfold ofChars
  constructor
  · intro h
    split at h
    · cases h
    · rename_i year month day last hsplit
      split at h
      · cases h
      · split at h
        · cases h
        · split at h
          · cases h
          · split at h
            · cases h
            · rename_i hnumbers
              cases h
              obtain ⟨rfl, rfl, rfl⟩ := ofNumbers?_eq_some_iff.1 hnumbers
              exact ⟨last, hsplit⟩
  · rintro ⟨last, hsplit⟩
    have hbounds := d.bounds
    have hmax := d.month_day_le
    have hmatch : ¬ (d.month = 0 ∨ 12 < d.month ∨ d.day = 0) := by omega
    have hday : ¬ 31 < d.day := by omega
    have hyear : d.year ≠ 0 := by omega
    have hnumbers : ofNumbers? d.year d.month d.day = some d :=
      ofNumbers?_eq_some_iff.2 ⟨rfl, rfl, rfl⟩
    simp [hsplit, hmatch, hday, hyear, hnumbers]

theorem exists_ofChars_iff {cs : List Char} :
    (∃ d, ofChars cs = .ok d) ↔
      ∃ year month day, Dated cs year month day ∧ RealDay year month day := by
  simp only [ofChars_eq_ok_iff, ← isDay_iff]
  constructor
  · rintro ⟨d, hdated⟩
    exact ⟨_, _, _, hdated, d.real⟩
  · rintro ⟨year, month, day, hdated, hreal⟩
    exact ⟨⟨year, month, day, hreal⟩, hdated⟩

theorem dated_chars (d : Date) : Dated d.chars d.year d.month d.day := by
  have hbounds := d.bounds
  have hmax := d.month_day_le
  refine ⟨_, _, _, rfl, ⟨writeFixed_length _ _, writeFixed_length _ _, writeFixed_length _ _⟩,
    ⟨areDigits_iff.2 (isAscii_writeFixed _ _), areDigits_iff.2 (isAscii_writeFixed _ _),
      areDigits_iff.2 (isAscii_writeFixed _ _)⟩, ?_⟩
  simp only [← ofAscii_eq_ofDigitChars, ofAscii_writeFixed]
  exact ⟨Nat.mod_eq_of_lt (by omega), Nat.mod_eq_of_lt (by omega), Nat.mod_eq_of_lt (by omega)⟩

/-- A day is read from its own characters. -/
theorem ofChars_chars (d : Date) : ofChars d.chars = .ok d := ofChars_eq_ok_iff.2 d.dated_chars

/-- A text that is read as a day is the text of that day. -/
theorem chars_of_ofChars {cs : List Char} {d : Date} (h : ofChars cs = .ok d) : d.chars = cs := by
  obtain ⟨ys, ms, ds, rfl, ⟨hys, hms, hds⟩, ⟨hyear, hmonth, hday⟩, hy, hm, hd⟩ :=
    ofChars_eq_ok_iff.1 h
  have hyears := writeFixed_ofAscii (areDigits_iff.1 hyear)
  have hmonths := writeFixed_ofAscii (areDigits_iff.1 hmonth)
  have hdays := writeFixed_ofAscii (areDigits_iff.1 hday)
  rw [hys, ofAscii_eq_ofDigitChars, hy] at hyears
  rw [hms, ofAscii_eq_ofDigitChars, hm] at hmonths
  rw [hds, ofAscii_eq_ofDigitChars, hd] at hdays
  rw [chars, hyears, hmonths, hdays]

/-! ## Texts -/

theorem length_text (d : Date) : d.text.length = 10 := by
  rw [← String.length_toList, text, String.toList_ofList]
  exact d.dated_chars.length_eq

theorem day_text (d : Date) : (Value.text d.text).day = .ok d := by
  simp [Value.day, text, ofChars_chars, Except.mapError]

theorem text_inj {d e : Date} : d.text = e.text ↔ d = e := by
  constructor
  · intro h
    have hread := e.day_text
    rw [← h, d.day_text] at hread
    exact Except.ok.inj hread
  · exact fun h => h ▸ rfl

/-- Behind the text of a day another text begins in one place only. -/
theorem text_append_inj {d e : Date} {s t : String} :
    d.text ++ s = e.text ++ t ↔ d = e ∧ s = t := by
  constructor
  · intro h
    have hlists := congrArg String.toList h
    rw [String.toList_append, String.toList_append] at hlists
    obtain ⟨hday, hrest⟩ := List.append_inj hlists
      (by rw [String.length_toList, String.length_toList, length_text, length_text])
    exact ⟨text_inj.1 (String.toList_inj.1 hday), String.toList_inj.1 hrest⟩
  · rintro ⟨rfl, rfl⟩
    rfl

end Date

namespace Reading

open Date

/-! ## Values that callers hand in -/

variable {field : String}

theorem day_text_eq_ok_iff {t : String} {d : Date} :
    day field (.text t) = .ok d ↔ ofChars t.toList = .ok d := by
  rw [day_eq_ok_iff]
  exact mapError_eq_ok_iff

theorem dayText_of_day_text {t : String} {d : Date} (h : day field (.text t) = .ok d) :
    dayText field (.text t) = .ok t := by
  rw [dayText_of_day h, Date.text, chars_of_ofChars (day_text_eq_ok_iff.1 h), String.ofList_toList]

/-- A value that is no day, no moment and no text is not read as a day. -/
theorem exists_day_error {v : Value} (hdate : ∀ d, v ≠ .date d) (hmoment : ∀ m, v ≠ .moment m)
    (htext : ∀ t d, v = .text t → day field v ≠ .ok d) :
    ∃ r, day field v = .error r := by
  cases hread : day field v with
  | error r => exact ⟨r, rfl⟩
  | ok d =>
    have hday := day_eq_ok_iff.1 hread
    unfold Value.day at hday
    split at hday
    · exact absurd rfl (hdate _)
    · exact absurd rfl (hmoment _)
    · exact absurd hread (htext _ _ rfl)
    · cases hday
    · cases hday

/-- A text is read as a day just when it has four digits, two and two with a dash between, and
they name a real day; the day is the one that they name, and its own text is the text that was
read. A day or a moment is read again from its text. Every other value is refused as malformed. -/
theorem a_day_has_one_text_and_a_text_one_day (field : String) :
    (∀ t, (∃ d, day field (.text t) = .ok d) ↔
      ∃ year month day, Dated t.toList year month day ∧ RealDay year month day) ∧
    (∀ t d, day field (.text t) = .ok d →
      t.length = 10 ∧ Dated t.toList d.year d.month d.day ∧ dayText field (.text t) = .ok t) ∧
    (∀ v d, (v = .date d ∨ ∃ m : Moment, v = .moment m ∧ m.date = d) →
      ∃ s, dayText field v = .ok s ∧ day field (.text s) = .ok d) ∧
    ∀ v, (∀ d, v ≠ .date d) → (∀ m, v ≠ .moment m) →
      (∀ t, v = .text t →
        ¬ ∃ year month day, Dated t.toList year month day ∧ RealDay year month day) →
      ∃ r, day field v = .error r ∧ r.name = "MalformedInputError" ∧ r.field? = some field := by
  have htexts : ∀ t, (∃ d, day field (.text t) = .ok d) ↔
      ∃ year month day, Dated t.toList year month day ∧ RealDay year month day := by
    intro t
    simp only [day_text_eq_ok_iff, exists_ofChars_iff]
  refine ⟨htexts, fun t d hread => ?_, fun v d hv => ?_, fun v hdate hmoment htext => ?_⟩
  · have hdated := ofChars_eq_ok_iff.1 (day_text_eq_ok_iff.1 hread)
    exact ⟨hdated.length_eq, hdated, dayText_of_day_text hread⟩
  · have hday : day field v = .ok d := by
      rcases hv with rfl | ⟨m, rfl, rfl⟩
      · rfl
      · rfl
    exact ⟨d.text, dayText_of_day hday, day_eq_ok_iff.2 d.day_text⟩
  · obtain ⟨r, hr⟩ := exists_day_error hdate hmoment fun t d hv hread => htext t hv <| by
      rw [← htexts t, ← hv]
      exact ⟨d, hread⟩
    obtain ⟨why, _, rfl⟩ := mapError_eq_error_iff.1 hr
    exact ⟨_, hr, rfl, rfl⟩

/-- The year 2000 has a 29 February and the year 1900 has none. -/
theorem the_last_century_began_without_a_leap_day :
    dayText "date" (.text "2000-02-29") = .ok "2000-02-29" ∧
      ∃ r, day "date" (.text "1900-02-29") = .error r ∧ r.name = "MalformedInputError" ∧
        r.field? = some "date" := by
  obtain ⟨htexts, hsame, _, hother⟩ := a_day_has_one_text_and_a_text_one_day "date"
  constructor
  · exact (hsame "2000-02-29" ⟨2000, 2, 29, by decide⟩ rfl).2.2
  · refine hother (.text "1900-02-29") nofun nofun ?_
    rintro _ ⟨⟩
    rw [← htexts]
    rintro ⟨d, hd⟩
    cases hd

end Reading

end Attestation
