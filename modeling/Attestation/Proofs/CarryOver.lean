-- The laws of what carries over to other claims and to other days. A proof is accepted for a
-- claim that stands: its demands are met, and what it says is so. Whatever asks for less of the
-- same value stands with it, and what stands on a day stands on every later one.
import Attestation.Proofs.Agreement
import Attestation.Proofs.BundleBinding

namespace Attestation

/-! ## Days in a row -/

namespace Date

variable {d e : Date} {year year' month day : ℕ}

theorem le_eq_true_iff (d e : Date) : d.le e = true ↔ e.Reaches d.year d.month d.day := by
  rw [← lt_eq_false_iff]
  simp [le, lt]

theorem Reaches.trans (h : d.Reaches e.year e.month e.day) (h' : e.Reaches year month day) :
    d.Reaches year month day := by
  unfold Reaches at *
  omega

/-- What has come after more years has come after fewer. -/
theorem Reaches.of_year_le (h : d.Reaches year month day) (hle : year' ≤ year) :
    d.Reaches year' month day := by
  unfold Reaches at *
  omega

end Date

/-! ## Collections -/

namespace Value

variable {v x : Value} {items : List Value}

/-- What is listed is texts, and none of them is empty. -/
theorem ListsTexts.exists_text_of_mem (h : v.ListsTexts) (hitems : v.elements? = some items)
    (hx : x ∈ items) : ∃ t : Text, x = .ofText t ∧ t ≠ .whole "" := by
  obtain ⟨_, texts, htexts, _, hfilled⟩ := h
  obtain rfl : items = texts.map .ofText := Option.some.inj (hitems.symm.trans htexts)
  obtain ⟨t, ht, rfl⟩ := List.mem_map.1 hx
  exact ⟨t, rfl, hfilled t ht⟩

/-- What is kept of a collection of texts is one. -/
theorem ListsTexts.settled (h : v.ListsTexts) : v.settled.ListsTexts := by
  obtain ⟨hnot, hlisted⟩ := h
  refine ⟨fun t ht => ?_, by rwa [elements?_settled]⟩
  have htext : v.toText? = some t := by rw [← toText?_settled, ht, toText?_ofText]
  exact hnot t (toText?_eq_some_iff.1 htext)

end Value

namespace Claim

variable {today today' : Date} {claim claim' : Claim}

/-! ## Claims that stand -/

/-- The claim stands on a day: its demands are met, and what it says is so. -/
def Stands (today : Date) (claim : Claim) : Prop :=
  AllMet (claim.demands today) ∧ claim.IsTrue today

/-- The claims that stand are those that pass their screen and hold. -/
theorem stands_iff :
    claim.Stands today ↔ claim.screen today = .ok () ∧ claim.holds today = .ok true := by
  unfold Stands
  rw [screen_eq_ok_iff, holds_eq_true_iff]
  refine and_congr_right fun hmet => ?_
  have hsettles := settles_of_allMet hmet
  unfold Settles at hsettles
  cases hcheck : claim.check today with
  | ok _ =>
    rw [hcheck] at hsettles
    exact ⟨fun _ => rfl, fun _ => hsettles⟩
  | error r =>
    rw [hcheck] at hsettles
    exact ⟨fun htrue => absurd htrue hsettles.1, nofun⟩

/-- The birthday that an age asks for is none before the day of birth, so no more is demanded. -/
theorem stands_age_iff {dateOfBirth requiredAge : Value} :
    (age dateOfBirth requiredAge).Stands today ↔ ∃ d, ∃ years : ℕ, dateOfBirth.day = .ok d ∧
      requiredAge = .int years ∧ today.Reaches (d.year + years) d.month d.day := by
  constructor
  · exact fun h => h.2
  · rintro ⟨d, years, hbirth, rfl, hreached⟩
    have hborn : today.Reaches d.year d.month d.day := hreached.of_year_le (by omega)
    refine ⟨?_, d, years, hbirth, rfl, hreached⟩
    simpa [AllMet, demands, hbirth] using hborn

theorem stands_balance_iff {held wanted : Value} :
    (balance held wanted).Stands today ↔ ∃ h w, held.amount = .ok h ∧ wanted.amount = .ok w ∧
      0 ≤ w.value ∧ w.value ≤ h.value := by
  constructor
  · rintro ⟨hmet, h, w, hheld, hwanted, hcovered⟩
    obtain ⟨_, hnonneg⟩ : _ ∧ 0 ≤ w.value := by simpa [AllMet, demands, hheld, hwanted] using hmet
    exact ⟨h, w, hheld, hwanted, hnonneg, hcovered⟩
  · rintro ⟨h, w, hheld, hwanted, hnonneg, hcovered⟩
    refine ⟨?_, h, w, hheld, hwanted, hcovered⟩
    simpa [AllMet, demands, hheld, hwanted] using ⟨hnonneg.trans hcovered, hnonneg⟩

theorem stands_membership_iff {value validValues : Value} :
    (membership value validValues).Stands today ↔ validValues.ListsTexts ∧
      ∃ items, validValues.elements? = some items ∧ value ∈ items := by
  constructor
  · rintro ⟨hmet, htrue⟩
    exact ⟨hmet _ (List.mem_cons_of_mem _ List.mem_cons_self), htrue⟩
  · rintro ⟨hlist, items, hitems, hmem⟩
    refine ⟨?_, items, hitems, hmem⟩
    have hfilled := hlist.exists_text_of_mem hitems hmem
    simpa [AllMet, demands, hlist] using hfilled

theorem stands_range_iff {value low high : Value} :
    (range value low high).Stands today ↔ ∃ v l h, value.amount = .ok v ∧ low.amount = .ok l ∧
      high.amount = .ok h ∧ l.value ≤ v.value ∧ v.value ≤ h.value := by
  constructor
  · exact fun h => h.2
  · rintro ⟨v, l, h, hvalue, hlow, hhigh, hleft, hright⟩
    refine ⟨?_, v, l, h, hvalue, hlow, hhigh, hleft, hright⟩
    simpa [AllMet, demands, hvalue, hlow, hhigh] using hleft.trans hright

theorem stands_timeCondition_iff {event condition : Value} :
    (timeCondition event condition).Stands today ↔ ∃ e c, event.day = .ok e ∧
      condition.day = .ok c ∧ e.Reaches c.year c.month c.day := by
  constructor
  · exact fun h => h.2
  · rintro ⟨e, c, hevent, hcondition, hreached⟩
    refine ⟨?_, e, c, hevent, hcondition, hreached⟩
    simp [AllMet, demands, hevent, hcondition]

/-! ## Claims that ask for less -/

/-- The second claim is about the value of the first and asks for no more of it: for as many years
or fewer, an amount as large or smaller, the same members and perhaps others, bounds as wide or
wider, the same day or an earlier one. -/
inductive WeakensTo : Claim → Claim → Prop
  | age (dateOfBirth : Value) {years years' : ℤ} : 0 ≤ years' → years' ≤ years →
      WeakensTo (.age dateOfBirth (.int years)) (.age dateOfBirth (.int years'))
  | balance (held : Value) {wanted wanted' : Value} {w w' : Decimal} :
      wanted.amount = .ok w → wanted'.amount = .ok w' → 0 ≤ w'.value → w'.value ≤ w.value →
        WeakensTo (.balance held wanted) (.balance held wanted')
  | membership (value : Value) {validValues validValues' : Value} {items items' : List Value} :
      validValues.elements? = some items → validValues'.elements? = some items' →
        Value.Covered items items' → validValues'.ListsTexts →
          WeakensTo (.membership value validValues) (.membership value validValues')
  | range (value : Value) {low low' high high' : Value} {l l' h h' : Decimal} :
      low.amount = .ok l → low'.amount = .ok l' → l'.value ≤ l.value →
        high.amount = .ok h → high'.amount = .ok h' → h.value ≤ h'.value →
          WeakensTo (.range value low high) (.range value low' high')
  | timeCondition (event : Value) {condition condition' : Value} {c c' : Date} :
      condition.day = .ok c → condition'.day = .ok c' → c'.le c = true →
        WeakensTo (.timeCondition event condition) (.timeCondition event condition')

/-- Claims of membership ask for less of a larger collection, also where the collections can be
read once only. -/
theorem weakensTo_ofMembership (value : Value) {validValues validValues' : Value}
    {items items' : List Value} (hitems : validValues.elements? = some items)
    (hitems' : validValues'.elements? = some items') (hcovered : Value.Covered items items')
    (hlist : validValues'.ListsTexts) :
    (ofMembership value validValues).WeakensTo (ofMembership value validValues') := by
  have hkept : validValues.settled.elements? = some items := by rw [Value.elements?_settled, hitems]
  have hkept' : validValues'.settled.elements? = some items' := by
    rw [Value.elements?_settled, hitems']
  exact .membership value hkept hkept' hcovered hlist.settled

theorem WeakensTo.canonical_eq (h : claim.WeakensTo claim') :
    claim'.canonical = claim.canonical := by
  cases h <;> rfl

/-- What asks for less of the same value stands with it. -/
theorem WeakensTo.stands (h : claim.WeakensTo claim') (hstands : claim.Stands today) :
    claim'.Stands today := by
  cases h with
  | age dateOfBirth hnonneg hle =>
    rename_i years years'
    obtain ⟨d, asked, hbirth, hasked, hreached⟩ := stands_age_iff.1 hstands
    cases hasked
    obtain ⟨fewer, rfl⟩ := Int.eq_ofNat_of_zero_le hnonneg
    exact stands_age_iff.2 ⟨d, fewer, hbirth, rfl, hreached.of_year_le (by omega)⟩
  | balance held hwanted hwanted' hnonneg hle =>
    obtain ⟨h, w, hheld, hread, _, hcovered⟩ := stands_balance_iff.1 hstands
    rw [hwanted] at hread
    cases hread
    exact stands_balance_iff.2 ⟨h, _, hheld, hwanted', hnonneg, hle.trans hcovered⟩
  | membership value hitems hitems' hcovered hlist =>
    obtain ⟨hlisted, items, hread, hmem⟩ := stands_membership_iff.1 hstands
    rw [hitems] at hread
    cases hread
    obtain ⟨s, rfl, _⟩ := hlisted.exists_text_of_mem hitems hmem
    exact stands_membership_iff.2 ⟨hlist, _, hitems', hcovered.mem_of_text hmem⟩
  | range value hlow hlow' hle hhigh hhigh' hle' =>
    obtain ⟨v, l, h, hvalue, hread, hread', hleft, hright⟩ := stands_range_iff.1 hstands
    rw [hlow] at hread
    cases hread
    rw [hhigh] at hread'
    cases hread'
    exact stands_range_iff.2
      ⟨v, _, _, hvalue, hlow', hhigh', hle.trans hleft, hright.trans hle'⟩
  | timeCondition event hcondition hcondition' hle =>
    obtain ⟨e, c, hevent, hread, hreached⟩ := stands_timeCondition_iff.1 hstands
    rw [hcondition] at hread
    cases hread
    exact stands_timeCondition_iff.2
      ⟨e, _, hevent, hcondition', hreached.trans ((Date.le_eq_true_iff _ _).1 hle)⟩

/-! ## Other days -/

/-- What is said of a person's age alone depends on the day. -/
theorem screen_eq_of_kind_ne (hkind : claim.kind ≠ .age) (today today' : Date) :
    claim.screen today = claim.screen today' := by
  cases claim with
  | age dateOfBirth requiredAge => exact absurd rfl hkind
  | _ => rfl

theorem holds_eq_of_kind_ne (hkind : claim.kind ≠ .age) (today today' : Date) :
    claim.holds today = claim.holds today' := by
  cases claim with
  | age dateOfBirth requiredAge => exact absurd rfl hkind
  | _ => rfl

/-- What stands on a day stands on every later one. -/
theorem Stands.of_le (h : claim.Stands today) (hle : today.le today' = true) :
    claim.Stands today' := by
  by_cases hkind : claim.kind = .age
  · cases claim with
    | age dateOfBirth requiredAge =>
      obtain ⟨d, years, hbirth, hasked, hreached⟩ := stands_age_iff.1 h
      have hlater := (Date.le_eq_true_iff today today').1 hle
      exact stands_age_iff.2 ⟨d, years, hbirth, hasked, hlater.trans hreached⟩
    | _ => exact absurd hkind (by simp [kind])
  · rw [stands_iff] at h ⊢
    rwa [screen_eq_of_kind_ne hkind today' today, holds_eq_of_kind_ne hkind today' today]

end Claim

/-! ## Accepted proofs -/

namespace Notary

variable {n : Notary} {o : Office} {today today' : Date} {claim claim' : Claim}
  {proof salt : Value}

/-- Acceptance goes over to a claim with the same canonical text that stands if the first does. -/
theorem verify_of_stands (hcanonical : claim'.canonical = claim.canonical)
    (hstands : claim.Stands today → claim'.Stands today')
    (haccepted : (n.verify today proof salt claim o).1 = .ok true) :
    (n.verify today' proof salt claim' o).1 = .ok true := by
  have hopen := isClosed_eq_false_of_verify haccepted
  rw [verify_eq_true_iff hopen] at haccepted ⊢
  obtain ⟨p, s, hp, hs, hscreen, hholds, hmac⟩ := haccepted
  obtain ⟨hscreen', hholds'⟩ := Claim.stands_iff.1 (hstands (Claim.stands_iff.2 ⟨hscreen, hholds⟩))
  exact ⟨p, s, hp, hs, hscreen', hholds', by rwa [hcanonical]⟩

/-- A claim of no age is verified in the same way on every day. -/
theorem verify_eq_of_kind_ne (hkind : claim.kind ≠ .age) (today today' : Date) :
    n.verify today proof salt claim o = n.verify today' proof salt claim o := by
  have hscreen := Claim.screen_eq_of_kind_ne hkind today today'
  have hholds := Claim.holds_eq_of_kind_ne hkind today today'
  simp only [verify, judge, expectation, hscreen, hholds]

end Notary

/-- A proof that is accepted for a claim is accepted for every claim that asks for no more of the
same value: for fewer years, a smaller amount, a larger collection, wider bounds, an earlier day.
Amounts are compared as exact numbers, however they are written. -/
theorem a_proof_is_good_for_less (n : Notary) (o : Office) (today : Date) (proof salt : Value)
    {claim claim' : Claim} (hweaker : claim.WeakensTo claim')
    (haccepted : (n.verify today proof salt claim o).1 = .ok true) :
    (n.verify today proof salt claim' o).1 = .ok true := by
  have hstands : claim.Stands today → claim'.Stands today := hweaker.stands
  exact Notary.verify_of_stands hweaker.canonical_eq hstands haccepted

/-- Gold from a source that gives it once is found in a longer list as well, and whoever has the
age that the notary asks for is sixteen. -/
theorem a_trial_proof_of_gold_is_good_for_a_longer_list :
    (∃ b, (Notary.trial.prove Date.trial (.ofMembership (.text "gold") (.stream [.text "gold"]))
        Office.trial).1 = .ok b ∧
      (Notary.trial.verify Date.trial b.proof b.salt
        (.ofMembership (.text "gold") (.list [.text "silver", .text "gold"]))
        Office.trial).1 = .ok true) ∧
    ∃ b, (Notary.trial.prove Date.trial (Notary.trial.ageClaim (.text "2000-02-29") .none)
        Office.trial).1 = .ok b ∧
      (Notary.trial.verify Date.trial b.proof b.salt
        (Notary.trial.ageClaim (.text "2000-02-29") (.int 16)) Office.trial).1 = .ok true := by
  have hopen : Office.trial.isClosed Notary.trial.committer = false := rfl
  have hgate := Office.trial.saltText?_drawSalt
  constructor
  · have hadmits : Claim.Admits Date.trial
        (.ofMembership (.text "gold") (.stream [.text "gold"])) "gold" Office.trial.drawSalt.1 :=
      ⟨hgate, rfl, rfl, rfl⟩
    have hweaker : (Claim.ofMembership (.text "gold") (.stream [.text "gold"])).WeakensTo
        (.ofMembership (.text "gold") (.list [.text "silver", .text "gold"])) := by
      refine Claim.weakensTo_ofMembership _ rfl rfl (by simp [Value.Covered]) ⟨nofun, ?_⟩
      exact ⟨["silver", "gold"], rfl, by simp, by simp⟩
    exact ⟨_, Notary.prove_of_admits hopen hadmits,
      a_proof_is_good_for_less _ _ _ _ _ hweaker (Notary.verify_of_admits hopen _ hadmits)⟩
  · have hadmits : Claim.Admits Date.trial (Notary.trial.ageClaim (.text "2000-02-29") .none)
        "2000-02-29" Office.trial.drawSalt.1 := ⟨hgate, rfl, rfl, rfl⟩
    have hweaker : (Notary.trial.ageClaim (.text "2000-02-29") .none).WeakensTo
        (Notary.trial.ageClaim (.text "2000-02-29") (.int 16)) := .age _ (by decide) (by decide)
    exact ⟨_, Notary.prove_of_admits hopen hadmits,
      a_proof_is_good_for_less _ _ _ _ _ hweaker (Notary.verify_of_admits hopen _ hadmits)⟩

/-- On later days an accepted proof is accepted still, also across the ends of years and on leap
days. All claims but those of an age are answered alike on any two days. -/
theorem a_proof_stays_good_on_later_days (n : Notary) (o : Office) (proof salt : Value)
    (claim : Claim) (today today' : Date) :
    (claim.kind ≠ .age →
      n.verify today proof salt claim o = n.verify today' proof salt claim o) ∧
    (today.le today' = true → (n.verify today proof salt claim o).1 = .ok true →
      (n.verify today' proof salt claim o).1 = .ok true) := by
  constructor
  · intro hkind
    exact Notary.verify_eq_of_kind_ne hkind today today'
  · intro hle haccepted
    exact Notary.verify_of_stands rfl (fun hstands => hstands.of_le hle) haccepted

/-- A birth on a leap day is good for seventeen years from the first of March on, and so for the
last day of the next February. -/
theorem a_trial_proof_of_a_leap_day_is_good_in_the_next_year :
    ∃ b, (Notary.trial.prove ⟨2025, 3, 1, by decide⟩ (.age (.text "2008-02-29") (.int 17))
        Office.trial).1 = .ok b ∧
      (Notary.trial.verify ⟨2026, 2, 28, by decide⟩ b.proof b.salt
        (.age (.text "2008-02-29") (.int 17)) Office.trial).1 = .ok true := by
  have hopen : Office.trial.isClosed Notary.trial.committer = false := rfl
  have hadmits : Claim.Admits ⟨2025, 3, 1, by decide⟩ (.age (.text "2008-02-29") (.int 17))
      "2008-02-29" Office.trial.drawSalt.1 := ⟨Office.trial.saltText?_drawSalt, rfl, rfl, rfl⟩
  have haccepted := @Notary.verify_of_admits Notary.trial _ _ _ hopen .age _ hadmits
  obtain ⟨_, hlater⟩ := a_proof_stays_good_on_later_days Notary.trial Office.trial
    (Notary.trial.bundleFor Office.trial .age "2008-02-29").proof (.text Office.trial.drawSalt.1)
    (.age (.text "2008-02-29") (.int 17)) ⟨2025, 3, 1, by decide⟩ ⟨2026, 2, 28, by decide⟩
  exact ⟨_, Notary.prove_of_admits hopen hadmits, hlater rfl haccepted⟩

end Attestation
