-- The law of what the refusal of a false claim reports. The amounts and the days that were
-- compared are reported as texts. Each text is read back as the very amount or day, digit for
-- digit, and what is read back makes the claim false once more.
import Attestation.Proofs.DecimalText
import Attestation.Proofs.Verification

namespace Attestation

/-! ## Texts that are read back -/

namespace Reading

/-- The text is read as this amount, with its sign, its digits and its exponent, whichever input
it is handed in for. -/
def IsTextOf (s : String) (d : Decimal) : Prop := ∀ field, amount field (.text s) = .ok d

/-- The text is read as this day, whichever input it is handed in for. -/
def IsTextOfDay (s : String) (d : Date) : Prop := ∀ field, day field (.text s) = .ok d

theorem isTextOf_text {v : Value} {d : Decimal} (h : v.amount = .ok d) : IsTextOf d.text d := by
  have hread : amount "value" v = .ok d := amount_eq_ok_iff.2 h
  exact amount_text (isBounded_of_amount hread)

theorem isTextOfDay_text (d : Date) : IsTextOfDay d.text d :=
  fun _ => day_eq_ok_iff.2 d.day_text

end Reading

/-! ## Reports -/

open Reading in
/-- The refusal reports why a claim is false. What was compared can be read back from the report,
and it makes the claim false. -/
def Claim.IsReportedBy (today : Date) (r : Refusal) : Claim → Prop
  | .age dateOfBirth requiredAge => ∃ (birth : Date) (required : ℕ) (actual : ℤ),
    dateOfBirth.day = .ok birth ∧ requiredAge = .int required ∧ actual = fullYears birth today ∧
    r.payload = [("required", .int required), ("actual", .int actual)] ∧
    0 ≤ actual ∧ actual < required
  | .balance held wanted => ∃ h w s t, held.amount = .ok h ∧ wanted.amount = .ok w ∧
    r.payload = [("balance", .text s), ("requested", .text t)] ∧
    IsTextOf s h ∧ IsTextOf t w ∧ h.value < w.value
  | .membership value validValues => ∃ items, validValues.elements? = some items ∧
    r.payload = [("value", value)] ∧ value ∉ items
  | .range value low high => ∃ v l h s t u, value.amount = .ok v ∧ low.amount = .ok l ∧
    high.amount = .ok h ∧ r.payload = [("value", .text s), ("min", .text t), ("max", .text u)] ∧
    IsTextOf s v ∧ IsTextOf t l ∧ IsTextOf u h ∧
    l.value ≤ h.value ∧ (v.value < l.value ∨ h.value < v.value)
  | .timeCondition event condition => ∃ e c s t, event.day = .ok e ∧ condition.day = .ok c ∧
    r.payload = [("event_date", .text s), ("condition_date", .text t)] ∧
    IsTextOfDay s e ∧ IsTextOfDay t c ∧ ¬ e.Reaches c.year c.month c.day

namespace Claim

variable {today : Date} {r : Refusal}

theorem isReportedBy_age {dateOfBirth requiredAge : Value} {birth : Date} {years : ℕ}
    (hbirth : dateOfBirth.day = .ok birth)
    (hborn : today.Reaches birth.year birth.month birth.day) (hyears : requiredAge = .int years)
    (h : check today (.age dateOfBirth requiredAge) = .error r)
    (hname : r.name = Kind.age.refusalName) :
    IsReportedBy today r (.age dateOfBirth requiredAge) := by
  rw [hyears, check_age hbirth, refuse_eq_error_iff, raised_tooYoung] at h
  obtain ⟨hshort, hraised⟩ := h
  have hnonneg := (le_fullYears_iff birth today 0).2 hborn
  split at hraised
  · rename_i hlarge
    rw [← hraised] at hname
    exact absurd hname ((@FailsWith.age dateOfBirth years hlarge).name_ne .age)
  · rw [← hraised]
    exact ⟨birth, years, _, hbirth, hyears, rfl, rfl, hnonneg, hshort⟩

theorem isReportedBy_balance {held wanted : Value} {b w : Decimal} (hheld : held.amount = .ok b)
    (hwanted : wanted.amount = .ok w) (h : check today (.balance held wanted) = .error r) :
    IsReportedBy today r (.balance held wanted) := by
  rw [check_balance hheld hwanted, refuse_eq_error_iff, Decimal.lt_iff_value_lt] at h
  obtain ⟨hshort, rfl⟩ := h
  exact ⟨b, w, _, _, hheld, hwanted, rfl, Reading.isTextOf_text hheld,
    Reading.isTextOf_text hwanted, hshort⟩

theorem isReportedBy_membership {t : Text} {validValues : Value} (hlist : validValues.ListsTexts)
    (h : check today (.membership (.ofText t) validValues) = .error r) :
    IsReportedBy today r (.membership (.ofText t) validValues) := by
  obtain ⟨kept, hkept⟩ := (@Reading.exists_members_iff "valid_values" validValues).2 hlist
  obtain ⟨_, texts, helements, _⟩ := hlist
  rw [check_membership_text hkept, refuse_eq_error_iff,
    Reading.mem_members_iff hkept helements t] at h
  obtain ⟨hmissing, rfl⟩ := h
  exact ⟨_, helements, rfl, hmissing⟩

theorem isReportedBy_range {value low high : Value} {v l u : Decimal}
    (hvalue : value.amount = .ok v) (hlow : low.amount = .ok l) (hhigh : high.amount = .ok u)
    (hbounds : l.value ≤ u.value) (h : check today (.range value low high) = .error r) :
    IsReportedBy today r (.range value low high) := by
  rw [check_range hvalue hlow hhigh, refuse_eq_error_iff, Bool.and_eq_true,
    Decimal.le_iff_value_le, Decimal.le_iff_value_le, not_and_or, not_le, not_le] at h
  obtain ⟨houtside, rfl⟩ := h
  exact ⟨v, l, u, _, _, _, hvalue, hlow, hhigh, rfl, Reading.isTextOf_text hvalue,
    Reading.isTextOf_text hlow, Reading.isTextOf_text hhigh, hbounds, houtside⟩

theorem isReportedBy_timeCondition {event condition : Value} {e c : Date}
    (hevent : event.day = .ok e) (hcondition : condition.day = .ok c)
    (h : check today (.timeCondition event condition) = .error r) :
    IsReportedBy today r (.timeCondition event condition) := by
  rw [check_timeCondition hevent hcondition, refuse_eq_error_iff] at h
  obtain ⟨hearly, rfl⟩ := h
  refine ⟨e, c, _, _, hevent, hcondition, rfl, Reading.isTextOfDay_text e,
    Reading.isTextOfDay_text c, ?_⟩
  rw [← Date.lt_eq_false_iff, Bool.not_eq_false]
  exact hearly

/-- Where the demands are met, what the check refuses as false is reported. -/
theorem isReportedBy_of_check {claim : Claim} (hmet : AllMet (claim.demands today))
    (h : claim.check today = .error r) (hname : r.name = claim.kind.refusalName) :
    claim.IsReportedBy today r := by
  cases claim with
  | age dateOfBirth requiredAge =>
    obtain ⟨⟨birth, hbirth, hborn⟩, ⟨years, hyears⟩⟩ : _ ∧ _ := by
      simpa [AllMet, demands] using hmet
    exact isReportedBy_age hbirth hborn hyears h hname
  | balance held wanted =>
    obtain ⟨⟨_, hheld, _⟩, _, hwanted, _⟩ : _ ∧ _ := by simpa [AllMet, demands] using hmet
    exact isReportedBy_balance hheld hwanted h
  | membership value validValues =>
    obtain ⟨⟨t, rfl, _⟩, hlist⟩ : _ ∧ _ := by simpa [AllMet, demands] using hmet
    exact isReportedBy_membership hlist h
  | range value low high =>
    obtain ⟨⟨_, hvalue⟩, _, _, _, hlow, _, hhigh, hbounds⟩ : _ ∧ _ := by
      simpa [AllMet, demands] using hmet
    exact isReportedBy_range hvalue hlow hhigh hbounds h
  | timeCondition event condition =>
    obtain ⟨⟨_, hevent⟩, _, hcondition⟩ : _ ∧ _ := by simpa [AllMet, demands] using hmet
    exact isReportedBy_timeCondition hevent hcondition h

end Claim

namespace Notary

variable {n : Notary} {o : Office} {today : Date} {claim : Claim} {r : Refusal}

/-- The refusal of a claim's kind comes from the check of the claim, and from nothing else. -/
theorem check_of_prove_error (h : (n.prove today claim o).1 = .error r)
    (hname : r.name = claim.kind.refusalName) :
    AllMet (claim.demands today) ∧ claim.check today = .error r := by
  cases hscreen : claim.screen today with
  | error fault =>
    rw [prove_of_screen_error hscreen] at h
    cases h
    have henforces := claim.enforces_screen today
    rw [hscreen] at henforces
    obtain ⟨field, hfaults, _⟩ := henforces
    exact absurd hfaults (Claim.Kind.not_faults hname field)
  | ok _ =>
    refine ⟨Claim.screen_eq_ok_iff.1 hscreen, ?_⟩
    cases hcheck : claim.check today with
    | error _ =>
      rw [prove_of_check_error hscreen hcheck] at h
      cases h
      rfl
    | ok _ =>
      exfalso
      obtain ⟨value, hvalue⟩ := Claim.exists_canonical_of_screen hscreen
      by_cases hissued : o.isClosed n.committer = false ∧ ∃ s, value = .whole s
      · obtain ⟨hopen, s, rfl⟩ := hissued
        rw [prove_of_check hopen hscreen hcheck hvalue] at h
        cases h
      · -- the key is wiped or the text is torn, and neither refusal is one of a false claim
        have hrefused : o.isClosed n.committer = true ∨ ∀ s, value ≠ .whole s := by
          rw [← Bool.not_eq_false, ← not_exists]
          exact not_and_or.1 hissued
        rw [prove_of_refused hrefused hscreen hcheck hvalue] at h
        cases h
        cases value <;> cases hkind : claim.kind <;>
          simp [hkind, Claim.Kind.refusalName, Office.refusalOf, Refusal.name, Failure.name,
            Failure.ofTorn] at hname

end Notary

/-! ## The shortfall is told -/

/-- Whenever a claim is refused as false, by the refusal of its kind, what the refusal reports can
be read back as what was compared, and that makes the claim false. An amount comes back with its
very sign, digits and exponent, a day as the same day. The years of an age are zero or more and
fewer than were asked for. -/
theorem a_false_claim_is_refused_with_what_was_compared (n : Notary) (o : Office) (today : Date)
    (claim : Claim) (r : Refusal) (h : (n.prove today claim o).1 = .error r)
    (hname : r.name = claim.kind.refusalName) : claim.IsReportedBy today r := by
  obtain ⟨hmet, hcheck⟩ := Notary.check_of_prove_error h hname
  exact Claim.isReportedBy_of_check hmet hcheck hname

/-- A zero is reported with its exponent, and an amount of four digits with a power of ten. -/
theorem a_trial_zero_is_reported_with_its_exponent :
    ∃ r, (Notary.trial.prove Date.trial (.balance (.text "0e5") (.text "1.500e6")) Office.trial).1 =
      .error r ∧ r.payload = [("balance", .text "0E+5"), ("requested", .text "1.500E+6")] ∧
      Reading.IsTextOf "0E+5" ⟨false, 0, 5⟩ ∧ Reading.IsTextOf "1.500E+6" ⟨false, 1500, 3⟩ := by
  have hproved : (Notary.trial.prove Date.trial (.balance (.text "0e5") (.text "1.500e6"))
      Office.trial).1 = .error (.balanceShort (.decimal (.finite ⟨false, 0, 5⟩))
        (.decimal (.finite ⟨false, 1500, 3⟩))) := rfl
  obtain ⟨h, w, s, t, hheld, hwanted, hpayload, hs, ht, _⟩ :=
    a_false_claim_is_refused_with_what_was_compared Notary.trial Office.trial Date.trial _ _
      hproved rfl
  cases hheld
  cases hwanted
  cases hpayload
  exact ⟨_, hproved, rfl, hs, ht⟩

end Attestation
