-- The law of the required age. The first source that is present decides it: the caller's own
-- value, the override, the environment. What stands behind that source is never looked at, so
-- it may be malformed. Over a run the override is what the last good setting made of it, and a
-- setting that is refused leaves no trace.
import Attestation.Proofs.DigitText
import Attestation.Proofs.Run

namespace Attestation

/-! ## What a value asks for -/

namespace Value

/-- A value that counts as none at all. -/
def IsAbsent (v : Value) : Prop := v = .none ∨ v = .text ""

/-- A value is well formed as an age of so many years. It is a whole number that is not
negative, or a text of decimal digits, of any scripts and not too many, that is read by their
places. -/
inductive Asks : Value → ℕ → Prop
  | number (n : ℕ) : Asks (.int n) n
  | digits {s : String} {ds : List ℕ} (hfilled : s ≠ "") (hshort : s.length ≤ 4300)
      (hdigits : List.Forall₂ DecimalDigit.HasWorth s.toList.reverse ds) :
      Asks (.text s) (Nat.ofDigits 10 ds)

def IsMalformed (v : Value) : Prop := ¬ v.IsAbsent ∧ ∀ n, ¬ v.Asks n

theorem asks_text_iff {s : String} {n : ℕ} :
    (Value.text s).Asks n ↔
      s ≠ "" ∧ s.length ≤ 4300 ∧ DecimalDigit.read? s.toList = some n := by
  rw [DecimalDigit.read?_eq_some_iff]
  constructor
  · intro h
    cases h with
    | digits hfilled hshort hdigits => exact ⟨hfilled, hshort, _, hdigits, rfl⟩
  · rintro ⟨hfilled, hshort, ds, hdigits, rfl⟩
    exact .digits hfilled hshort hdigits

theorem asks_int_iff {k : ℤ} {n : ℕ} : (Value.int k).Asks n ↔ k = n := by
  constructor
  · intro h
    cases h
    rfl
  · rintro rfl
    exact .number n

/-- A text is well formed just when there are digits in it, not too many, and nothing else. -/
theorem exists_asks_text_iff {s : String} : (∃ n, (Value.text s).Asks n) ↔
    s ≠ "" ∧ s.length ≤ 4300 ∧ ∀ c ∈ s.toList, ∃ d, DecimalDigit.HasWorth c d := by
  simp only [asks_text_iff, exists_and_left, DecimalDigit.exists_read?_iff]

/-- What a malformed value is refused with: it has too many digits, or else it is named. -/
def ageRefusal : Value → Refusal
  | .text s =>
    if (DecimalDigit.read? s.toList).isSome then .failed (.digits (some s.length))
    else (Refusal.badThreshold (.text s)).raised
  | v => (Refusal.badThreshold v).raised

/-- The first present of some sources; all before it are absent. -/
inductive FirstPresent : List Value → Value → Prop
  | here {v : Value} {rest : List Value} (hpresent : ¬ v.IsAbsent) : FirstPresent (v :: rest) v
  | later {v w : Value} {rest : List Value} (habsent : v.IsAbsent) (hrest : FirstPresent rest w) :
      FirstPresent (v :: rest) w

theorem FirstPresent.not_isAbsent {vs : List Value} {v : Value} (h : FirstPresent vs v) :
    ¬ v.IsAbsent := by
  induction h with
  | here hpresent => exact hpresent
  | later _ _ ih => exact ih

theorem exists_firstPresent {vs : List Value} (h : ¬ ∀ v ∈ vs, v.IsAbsent) :
    ∃ v, FirstPresent vs v := by
  induction vs with
  | nil => exact absurd nofun h
  | cons v rest ih =>
    by_cases habsent : v.IsAbsent
    · rw [List.forall_mem_cons] at h
      obtain ⟨w, hw⟩ := ih fun hall => h ⟨habsent, hall⟩
      exact ⟨w, .later habsent hw⟩
    · exact ⟨v, .here habsent⟩

end Value

namespace Settings

variable {v : Value} {n : ℕ} {r : Refusal}

theorem readAge_text {s : String} (h : s ≠ "") : readAge (.text s) =
    match DecimalDigit.read? s.toList with
    | some n => if 4300 < s.length then .error (.failed (.digits (some s.length))) else .ok (some n)
    | none => .error (Refusal.badThreshold (.text s)).raised := by
  have hfilled : s.isEmpty = false := by simpa using h
  simp only [readAge, hfilled]
  rfl

/-! What a value is read as: nothing, an age, or a refusal that names the value. -/

theorem readAge_of_absent (h : v.IsAbsent) : readAge v = .ok none := by
  rcases h with rfl | rfl
  · rfl
  · rfl

theorem readAge_of_asks (h : v.Asks n) : readAge v = .ok (some n) := by
  cases h with
  | number n => simp [readAge]
  | @digits s ds hfilled hshort hdigits =>
    have hread := DecimalDigit.read?_eq_some_iff.2 ⟨ds, hdigits, rfl⟩
    rw [readAge_text hfilled, hread]
    exact if_neg (Nat.not_lt.2 hshort)

theorem readAge_of_malformed (h : v.IsMalformed) : readAge v = .error v.ageRefusal := by
  obtain ⟨hpresent, hnot⟩ := h
  cases v with
  | none => exact absurd (Or.inl rfl) hpresent
  | text s =>
    have hfilled : s ≠ "" := by
      rintro rfl
      exact hpresent (Or.inr rfl)
    rw [readAge_text hfilled, Value.ageRefusal]
    cases hread : DecimalDigit.read? s.toList with
    | none => rfl
    | some n =>
      have hlong : 4300 < s.length := by
        by_contra hshort
        exact hnot n (Value.asks_text_iff.2 ⟨hfilled, Nat.not_lt.1 hshort, hread⟩)
      exact if_pos hlong
  | int k =>
    have hneg : k < 0 := by
      by_contra hpos
      exact hnot k.toNat (Value.asks_int_iff.2 (by omega))
    simp [readAge, hneg, Value.ageRefusal]
  | _ => rfl

/-- A value is absent, well formed or malformed, and is read as what it is. -/
theorem readAge_cases (v : Value) : (v.IsAbsent ∧ readAge v = .ok none) ∨
    (∃ n, v.Asks n ∧ readAge v = .ok (some n)) ∨
      (v.IsMalformed ∧ readAge v = .error v.ageRefusal) := by
  by_cases habsent : v.IsAbsent
  · exact Or.inl ⟨habsent, readAge_of_absent habsent⟩
  · by_cases hasks : ∃ n, v.Asks n
    · obtain ⟨n, hn⟩ := hasks
      exact Or.inr (Or.inl ⟨n, hn, readAge_of_asks hn⟩)
    · have hmalformed : v.IsMalformed := ⟨habsent, not_exists.1 hasks⟩
      exact Or.inr (Or.inr ⟨hmalformed, readAge_of_malformed hmalformed⟩)

/-! ## The sources in order -/

/-- The sources of the required age, the first one first. -/
def sources (s : Settings) (prefer : Value) : List Value :=
  [prefer, (s.override.map fun n => .int n).getD .none, (s.ageText.map .ofText).getD .none]

/-- The age that the first present of some sources asks for, and the default if none is. -/
def readFirst : List Value → Except Refusal ℕ
  | [] => .ok Limits.defaultRequiredAge
  | v :: rest =>
    match readAge v with
    | .error r => .error r
    | .ok (some n) => .ok n
    | .ok none => readFirst rest

theorem requiredAge_eq_readFirst (s : Settings) (prefer : Value) :
    s.requiredAge prefer = readFirst (s.sources prefer) := by
  unfold requiredAge environmentAge sources
  simp only [readFirst]
  cases readAge prefer with
  | error r => rfl
  | ok found =>
    cases found with
    | some n => rfl
    | none =>
      cases s.override with
      | some n =>
        simp only [Option.map_some, Option.getD_some]
        rw [readAge_of_asks (.number n)]
      | none =>
        cases s.ageText with
        | none => rfl
        | some t =>
          simp only [Option.map_some, Option.getD_some, Option.map_none, Option.getD_none]
          rw [readAge_of_absent (Or.inl rfl)]
          cases readAge (.ofText t) with
          | error r => rfl
          | ok found => cases found <;> rfl

theorem readFirst_cons_of_absent {rest : List Value} (h : v.IsAbsent) :
    readFirst (v :: rest) = readFirst rest := by
  rw [readFirst, readAge_of_absent h]

theorem readFirst_cons_of_asks {rest : List Value} (h : v.Asks n) :
    readFirst (v :: rest) = .ok n := by
  rw [readFirst, readAge_of_asks h]

theorem readFirst_cons_of_malformed {rest : List Value} (h : v.IsMalformed) :
    readFirst (v :: rest) = .error v.ageRefusal := by
  rw [readFirst, readAge_of_malformed h]

theorem readFirst_of_absent {vs : List Value} (h : ∀ v ∈ vs, v.IsAbsent) :
    readFirst vs = .ok Limits.defaultRequiredAge := by
  induction vs with
  | nil => rfl
  | cons v rest ih =>
    rw [readFirst_cons_of_absent (h v List.mem_cons_self)]
    exact ih fun w hw => h w (List.mem_cons_of_mem v hw)

theorem readFirst_of_asks {vs : List Value} (h : Value.FirstPresent vs v) (hn : v.Asks n) :
    readFirst vs = .ok n := by
  induction h with
  | here hpresent => exact readFirst_cons_of_asks hn
  | later habsent _ ih =>
    rw [readFirst_cons_of_absent habsent]
    exact ih hn

theorem readFirst_of_malformed {vs : List Value} (h : Value.FirstPresent vs v)
    (hmalformed : v.IsMalformed) : readFirst vs = .error v.ageRefusal := by
  induction h with
  | here hpresent => exact readFirst_cons_of_malformed hmalformed
  | later habsent _ ih =>
    rw [readFirst_cons_of_absent habsent]
    exact ih hmalformed

/-- Either no source is present, or the first one that is decides. -/
theorem readFirst_cases (vs : List Value) :
    ((∀ v ∈ vs, v.IsAbsent) ∧ readFirst vs = .ok Limits.defaultRequiredAge) ∨
      (∃ v n, Value.FirstPresent vs v ∧ v.Asks n ∧ readFirst vs = .ok n) ∨
        ∃ v, Value.FirstPresent vs v ∧ v.IsMalformed ∧ readFirst vs = .error v.ageRefusal := by
  by_cases hnone : ∀ v ∈ vs, v.IsAbsent
  · exact Or.inl ⟨hnone, readFirst_of_absent hnone⟩
  · obtain ⟨v, hfirst⟩ := Value.exists_firstPresent hnone
    rcases readAge_cases v with ⟨habsent, _⟩ | ⟨n, hn, _⟩ | ⟨hmalformed, _⟩
    · exact absurd habsent hfirst.not_isAbsent
    · exact Or.inr (Or.inl ⟨v, n, hfirst, hn, readFirst_of_asks hfirst hn⟩)
    · exact Or.inr (Or.inr ⟨v, hfirst, hmalformed, readFirst_of_malformed hfirst hmalformed⟩)

theorem readFirst_eq_ok_iff {vs : List Value} : readFirst vs = .ok n ↔
    ((∀ v ∈ vs, v.IsAbsent) ∧ n = Limits.defaultRequiredAge) ∨
      ∃ v, Value.FirstPresent vs v ∧ v.Asks n := by
  constructor
  · intro h
    rcases readFirst_cases vs with ⟨hnone, hread⟩ | ⟨v, m, hfirst, hm, hread⟩ | ⟨v, _, _, hread⟩
    · rw [hread] at h
      cases h
      exact Or.inl ⟨hnone, rfl⟩
    · rw [hread] at h
      cases h
      exact Or.inr ⟨v, hfirst, hm⟩
    · rw [hread] at h
      cases h
  · rintro (⟨hnone, rfl⟩ | ⟨v, hfirst, hn⟩)
    · exact readFirst_of_absent hnone
    · exact readFirst_of_asks hfirst hn

theorem readFirst_eq_error_iff {vs : List Value} : readFirst vs = .error r ↔
    ∃ v, Value.FirstPresent vs v ∧ v.IsMalformed ∧ r = v.ageRefusal := by
  constructor
  · intro h
    rcases readFirst_cases vs with ⟨_, hread⟩ | ⟨v, m, _, _, hread⟩ | ⟨v, hfirst, hbad, hread⟩
    · rw [hread] at h
      cases h
    · rw [hread] at h
      cases h
    · rw [hread] at h
      cases h
      exact ⟨v, hfirst, hbad, rfl⟩
  · rintro ⟨v, hfirst, hmalformed, rfl⟩
    exact readFirst_of_malformed hfirst hmalformed

/-! ## What is forced -/

theorem setOverride_of_absent (s : Settings) (h : v.IsAbsent) :
    s.setOverride v = (.ok (), { s with override := none }) := by
  simp only [setOverride, readAge_of_absent h]

theorem setOverride_of_asks (s : Settings) (h : v.Asks n) :
    s.setOverride v = (.ok (), { s with override := some n }) := by
  simp only [setOverride, readAge_of_asks h]

theorem setOverride_of_malformed (s : Settings) (h : v.IsMalformed) :
    s.setOverride v = (.error v.ageRefusal, s) := by
  simp only [setOverride, readAge_of_malformed h]

theorem ageText_setOverride (s : Settings) (v : Value) :
    (s.setOverride v).2.ageText = s.ageText := by
  rcases readAge_cases v with ⟨h, _⟩ | ⟨n, h, _⟩ | ⟨h, _⟩
  · rw [setOverride_of_absent s h]
  · rw [setOverride_of_asks s h]
  · rw [setOverride_of_malformed s h]

/-! ## The law of the sources -/

/-- How the required age comes about from its sources. -/
structure FollowsSources (s : Settings) (prefer : Value) : Prop where
  given : ∀ n, s.requiredAge prefer = .ok n ↔
    ((∀ v ∈ s.sources prefer, v.IsAbsent) ∧ n = 18) ∨
      ∃ v, Value.FirstPresent (s.sources prefer) v ∧ v.Asks n
  refused : ∀ r, s.requiredAge prefer = .error r ↔
    ∃ v, Value.FirstPresent (s.sources prefer) v ∧ v.IsMalformed ∧ r = v.ageRefusal
  unseen : ¬ prefer.IsAbsent ∨ s.override.isSome → ∀ ageText,
    ({ s with ageText } : Settings).requiredAge prefer = s.requiredAge prefer

theorem followsSources (s : Settings) (prefer : Value) : s.FollowsSources prefer where
  given := by
    intro n
    rw [requiredAge_eq_readFirst, readFirst_eq_ok_iff]
    rfl
  refused := by
    intro r
    rw [requiredAge_eq_readFirst, readFirst_eq_error_iff]
  unseen := by
    intro hpresent ageText
    unfold requiredAge
    rcases readAge_cases prefer with ⟨habsent, hread⟩ | ⟨n, _, hread⟩ | ⟨_, hread⟩
    · rcases hpresent with hprefer | hoverride
      · exact absurd habsent hprefer
      · obtain ⟨n, hn⟩ := Option.isSome_iff_exists.1 hoverride
        simp only [hread, hn]
    · simp only [hread]
    · simp only [hread]

end Settings

/-! ## Settings over a run -/

/-- The settings after an act. -/
def Act.settle (s : Settings) : Act → Settings
  | .setRequiredAge v => (s.setOverride v).2
  | .setEnvironment ageText keyText => { s with ageText, keyText }
  | _ => s

namespace Office

variable {o : Office}

theorem settings_taking (o : Office) (k? : Option SecretKey) :
    (o.taking k?).settings = o.settings := by
  cases k? <;> rfl

theorem settings_openCommitter (o : Office) (source : KeySource) :
    (o.openCommitter source).2.settings = o.settings :=
  (o.noted_openCommitter source).settings.trans (o.settings_taking _)

theorem settings_close (o : Office) (c : Committer) : (o.close c).settings = o.settings := by
  unfold close
  split
  · rfl
  · rfl

theorem settings_prove (n : Notary) (today : Date) (claim : Claim) (o : Office) :
    (n.prove today claim o).2.settings = o.settings := by
  have hdrawn : o.drawSalt.2.settings = o.settings := rfl
  unfold Notary.prove
  cases claim.screen today with
  | error r => rfl
  | ok _ =>
    cases claim.check today with
    | error r => rfl
    | ok _ =>
      simp only
      cases n.commitTo o.drawSalt.2 claim o.drawSalt.1 with
      | error r => exact hdrawn
      | ok proof => exact hdrawn

theorem settings_proveMembership (n : Notary) (today : Date) (value validValues : Value)
    (o : Office) : (n.proveMembership today value validValues o).2.settings = o.settings := by
  unfold Notary.proveMembership
  cases Claim.readMembership value validValues with
  | error r => rfl
  | ok claim => exact settings_prove n today claim o

/-- An override and an environment change by the acts that are for this, and by no other. -/
theorem settings_perform (o : Office) (act : Act) :
    (o.perform act).2.settings = act.settle o.settings := by
  cases act with
  | makeKey material =>
    rw [perform, answered, keep_snd]
    exact o.settings_taking _
  | makeKeyOfText text =>
    rw [perform, answered, keep_snd]
    exact o.settings_taking _
  | openCommitter source => exact o.settings_openCommitter source
  | appoint key age => exact (o.noted_appoint key age).settings.trans (o.settings_taking _)
  | close c => exact o.settings_close c
  | commitAndClose c message => exact o.settings_close c
  | prove n today claim => exact settings_prove n today claim o
  | proveMembership n today value validValues =>
    exact settings_proveMembership n today value validValues o
  | verify n today proof salt claim => exact (noted_verify n today proof salt claim o).settings
  | verifyMembership n today proof salt value validValues =>
    exact (noted_verifyMembership n today proof salt value validValues o).settings
  | verifyBatch n proofs datas salts => exact (noted_verifyBatch n proofs datas salts o).settings
  | _ => rfl

/-- A part of the settings that no act of a run touches stays as it is. -/
theorem part_after {β : Type} (part : Settings → β) (acts : List Act)
    (h : ∀ act ∈ acts, ∀ s, part (act.settle s) = part s) :
    part (o.after acts).settings = part o.settings := by
  induction acts generalizing o with
  | nil => rfl
  | cons act acts ih =>
    obtain ⟨hact, hacts⟩ := List.forall_mem_cons.1 h
    rw [after_cons, ih hacts, settings_perform, hact]

theorem override_after_of_malformed {acts : List Act}
    (h : ∀ v, .setRequiredAge v ∈ acts → v.IsMalformed) :
    (o.after acts).settings.override = o.settings.override := by
  apply part_after
  intro act hact s
  cases act with
  | setRequiredAge v =>
    exact congrArg (fun p => p.2.override) (s.setOverride_of_malformed (h v hact))
  | _ => rfl

theorem ageText_after_of_notMem {acts : List Act}
    (h : ∀ ageText keyText, .setEnvironment ageText keyText ∉ acts) :
    (o.after acts).settings.ageText = o.settings.ageText := by
  apply part_after
  intro act hact s
  cases act with
  | setRequiredAge v => exact s.ageText_setOverride v
  | setEnvironment ageText keyText => exact absurd hact (h ageText keyText)
  | _ => rfl

/-- What is set for the required age, and how it is refused. -/
theorem perform_setRequiredAge (o : Office) (v : Value) :
    (v.IsAbsent → (o.perform (.setRequiredAge v)).1 = .ok .done ∧
      (o.perform (.setRequiredAge v)).2.settings.override = none) ∧
    (∀ n, v.Asks n → (o.perform (.setRequiredAge v)).1 = .ok .done ∧
      (o.perform (.setRequiredAge v)).2.settings.override = some n) ∧
    (v.IsMalformed → o.perform (.setRequiredAge v) = (.error v.ageRefusal, o)) := by
  have hperform : o.perform (.setRequiredAge v) =
      ((o.settings.setOverride v).1.map fun _ => .done,
        { o with settings := (o.settings.setOverride v).2 }) := rfl
  rw [hperform]
  refine ⟨fun habsent => ?_, fun n hn => ?_, fun hmalformed => ?_⟩
  · rw [o.settings.setOverride_of_absent habsent]
    exact ⟨rfl, rfl⟩
  · rw [o.settings.setOverride_of_asks hn]
    exact ⟨rfl, rfl⟩
  · rw [o.settings.setOverride_of_malformed hmalformed]
    rfl

/-- How override and environment come about over a run. Both are what the last act for them made
of them. An act that is refused does not count, for it changes nothing. -/
structure LastSettings (o : Office) (acts : List Act) : Prop where
  override_kept : (∀ v, .setRequiredAge v ∈ acts → v.IsMalformed) →
    (o.after acts).settings.override = o.settings.override
  override_last : ∀ earlier v later, acts = earlier ++ .setRequiredAge v :: later →
    (∀ v', .setRequiredAge v' ∈ later → v'.IsMalformed) →
    (v.IsAbsent → (o.after acts).settings.override = none) ∧
      ∀ n, v.Asks n → (o.after acts).settings.override = some n
  environment_kept : (∀ ageText keyText, .setEnvironment ageText keyText ∉ acts) →
    (o.after acts).settings.ageText = o.settings.ageText
  environment_last : ∀ earlier ageText keyText later,
    acts = earlier ++ .setEnvironment ageText keyText :: later →
    (∀ ageText' keyText', .setEnvironment ageText' keyText' ∉ later) →
    (o.after acts).settings.ageText = ageText
  refused : ∀ v r, ((o.after acts).perform (.setRequiredAge v)).1 = .error r ↔
    v.IsMalformed ∧ r = v.ageRefusal
  traceless : ∀ v, v.IsMalformed → ((o.after acts).perform (.setRequiredAge v)).2 = o.after acts

theorem lastSettings (o : Office) (acts : List Act) : LastSettings o acts where
  override_kept := override_after_of_malformed
  override_last := by
    rintro earlier v later rfl hlater
    rw [after_append, after_cons, override_after_of_malformed hlater]
    obtain ⟨hcleared, hforced, _⟩ := (o.after earlier).perform_setRequiredAge v
    exact ⟨fun habsent => (hcleared habsent).2, fun n hn => (hforced n hn).2⟩
  environment_kept := ageText_after_of_notMem
  environment_last := by
    rintro earlier ageText keyText later rfl hlater
    rw [after_append, after_cons, ageText_after_of_notMem hlater]
    rfl
  refused := by
    intro v r
    obtain ⟨hcleared, hforced, hrefused⟩ := (o.after acts).perform_setRequiredAge v
    rcases Settings.readAge_cases v with ⟨habsent, _⟩ | ⟨n, hn, _⟩ | ⟨hmalformed, _⟩
    · rw [(hcleared habsent).1]
      exact ⟨nofun, fun h => absurd habsent h.1.1⟩
    · rw [(hforced n hn).1]
      exact ⟨nofun, fun h => absurd hn (h.1.2 n)⟩
    · rw [hrefused hmalformed, Except.error.injEq, eq_comm]
      exact ⟨fun h => ⟨hmalformed, h⟩, fun h => h.2⟩
  traceless := by
    intro v hmalformed
    rw [((o.after acts).perform_setRequiredAge v).2.2 hmalformed]

end Office

/-! ## Refusals of ages -/

section Failures

open Value (literalFailure? itemsFailure? entriesFailure?)

/-- Without a bound values are written out however deep they lie, and only numbers of too many
digits are not. With one, depth is all that comes to that. -/
def OfWriting (room : Option ℕ) (found : Option Failure) : Prop :=
  ∀ why ∈ found, why = .digits none ∨ room ≠ none ∧ why = .depth

theorem OfWriting.inner {room : Option ℕ} {found : Option Failure}
    (h : OfWriting (room.map (· - 1)) found) : OfWriting room found := by
  intro why hwhy
  refine (h why hwhy).imp_right fun hdeep => ⟨?_, hdeep.2⟩
  rintro rfl
  exact hdeep.1 rfl

mutual

theorem ofWriting_literalFailure? (room : Option ℕ) (v : Value) :
    OfWriting room (literalFailure? room v) := by
  unfold literalFailure?
  split
  · rename_i hnone
    rintro _ ⟨⟩
    exact Or.inr ⟨by rw [hnone]; exact nofun, rfl⟩
  cases v with
  | int n =>
    simp only
    split
    · exact nofun
    · rintro _ ⟨⟩
      exact Or.inl rfl
  | list items => exact (ofWriting_itemsFailure? _ items).inner
  | tuple items => exact (ofWriting_itemsFailure? _ items).inner
  | set items => exact (ofWriting_itemsFailure? _ items).inner
  | mapping entries => exact (ofWriting_entriesFailure? _ entries).inner
  | fixedMapping entries => exact (ofWriting_entriesFailure? _ entries).inner
  | _ => exact nofun

theorem ofWriting_itemsFailure? (room : Option ℕ) (items : List Value) :
    OfWriting room (itemsFailure? room items) := by
  match items with
  | [] => exact nofun
  | v :: rest =>
    have hfirst := ofWriting_literalFailure? room v
    unfold itemsFailure?
    cases hfound : literalFailure? room v with
    | some why =>
      rw [hfound] at hfirst
      exact hfirst
    | none => exact ofWriting_itemsFailure? room rest

theorem ofWriting_entriesFailure? (room : Option ℕ) (entries : List (Value × Value)) :
    OfWriting room (entriesFailure? room entries) := by
  match entries with
  | [] => exact nofun
  | (k, v) :: rest =>
    have hkey := ofWriting_literalFailure? room k
    have hvalue := ofWriting_literalFailure? room v
    unfold entriesFailure?
    cases hfound : literalFailure? room k with
    | some why =>
      rw [hfound] at hkey
      exact hkey
    | none =>
      cases hfound' : literalFailure? room v with
      | some why =>
        rw [hfound'] at hvalue
        exact hvalue
      | none => exact ofWriting_entriesFailure? room rest

end

/-- A malformed value is refused with one error, unless it lies too deep to be named. -/
theorem name_badThreshold_iff (room : Option ℕ) (v : Value) :
    ((Refusal.badThreshold v).raisedWithin room).name = "ValueError" ↔
      v.literalFailure? room ≠ some .depth := by
  have hfound := ofWriting_literalFailure? room v
  have hworded := Refusal.wordingFailure?_badThreshold room v
  cases hwhy : literalFailure? room v with
  | none =>
    rw [hwhy] at hworded
    simp [Refusal.raisedWithin_of_worded hworded, Refusal.name]
  | some why =>
    rw [hwhy] at hworded hfound
    rw [Refusal.raisedWithin_of_unworded hworded]
    rcases hfound why rfl with rfl | ⟨_, rfl⟩
    · simp [Refusal.name, Failure.name]
    · simp [Refusal.name, Failure.name]

theorem literalFailure?_ne_depth (v : Value) : v.literalFailure? none ≠ some .depth := by
  intro hdepth
  rcases ofWriting_literalFailure? none v .depth hdepth with hdigits | ⟨hbound, _⟩
  · cases hdigits
  · exact hbound rfl

theorem name_ageRefusal (v : Value) : v.ageRefusal.name = "ValueError" := by
  have hnamed := (name_badThreshold_iff none v).2 (literalFailure?_ne_depth v)
  unfold Value.ageRefusal
  split
  · split
    · rfl
    · exact hnamed
  · exact hnamed

end Failures

/-! ## The age that counts -/

/-- After any run the required age is that of the first present source, and 18 where none is
present. It is refused just when that source is malformed, and a source behind it does not
matter. The override is what the last good setting made of it, and nothing once it was taken off
again; a malformed setting is refused and changes nothing. A text is well formed just when there
are decimal digits in it, of any scripts and 4300 at most, and nothing else, and a torn one never.
Every refusal goes by the name of `ValueError`; another one comes out only where the value lies too
deep to be written out. -/
theorem the_first_present_source_gives_the_required_age (o : Office) (acts : List Act) :
    (∀ prefer, (o.after acts).settings.FollowsSources prefer) ∧
    o.LastSettings acts ∧
    (∀ v : Value, v.ageRefusal.name = "ValueError") ∧
    (∀ room v, ((Refusal.badThreshold v).raisedWithin room).name = "ValueError" ↔
      v.literalFailure? room ≠ some .depth) ∧
    (∀ s, (∃ n, (Value.text s).Asks n) ↔
      s ≠ "" ∧ s.length ≤ 4300 ∧ ∀ c ∈ s.toList, ∃ d, DecimalDigit.HasWorth c d) ∧
    ∀ t n, ¬ (Value.torn t).Asks n :=
  ⟨fun prefer => (o.after acts).settings.followsSources prefer, o.lastSettings acts,
    name_ageRefusal, name_badThreshold_iff, fun _ => Value.exists_asks_text_iff, nofun⟩

/-- An age of twenty-one in two scripts is forced, a truth value in its place is refused, and the
environment is malformed: a blank value is given twenty-one. -/
theorem a_trial_age_in_two_scripts_is_forced :
    let acts : List Act := [.setRequiredAge (.text "2١"), .setEnvironment (some "old") none,
      .setRequiredAge (.bool true)]
    (Office.trial.after acts).settings.requiredAge (.text "") = .ok 21 := by
  intro acts
  have htwo : DecimalDigit.HasWorth '2' 2 := ⟨0x30, by decide, by decide, by decide⟩
  have hone : DecimalDigit.HasWorth '١' 1 := ⟨0x660, by decide, by decide, by decide⟩
  have hdigits : List.Forall₂ DecimalDigit.HasWorth "2١".toList.reverse [1, 2] := by
    rw [show "2١".toList.reverse = ['١', '2'] by decide]
    exact .cons hone (.cons htwo .nil)
  have hasks : (Value.text "2١").Asks 21 := .digits (by decide) (by decide) hdigits
  have hbool : (Value.bool true).IsMalformed := by
    constructor
    · rintro (h | h) <;> cases h
    · intro n h
      cases h
  obtain ⟨hsources, hlast, _⟩ :=
    the_first_present_source_gives_the_required_age Office.trial acts
  have hoverride := (hlast.override_last [] _ _ rfl (by
    intro v hv
    simp only [List.mem_cons, List.not_mem_nil, reduceCtorEq, false_or, or_false] at hv
    cases hv
    exact hbool)).2 21 hasks
  refine ((hsources (.text "")).given 21).2 (Or.inr ⟨.int 21, ?_, .number 21⟩)
  unfold Settings.sources
  rw [hoverride]
  exact .later (Or.inr rfl) (.here (by rintro (h | h) <;> cases h))

/-- So many ones are digits all of them, and no age. -/
theorem a_trial_age_of_too_many_ones_is_refused :
    let ones := String.ofList (List.replicate 4301 '1')
    (∀ c ∈ ones.toList, ∃ d, DecimalDigit.HasWorth c d) ∧
      ∃ r, Settings.initial.requiredAge (.text ones) = .error r ∧ r.name = "ValueError" := by
  intro ones
  have hlist : ones.toList = List.replicate 4301 '1' := String.toList_ofList
  have hlength : ones.length = 4301 := by
    rw [← String.length_toList, hlist, List.length_replicate]
  have hpresent : ¬ (Value.text ones).IsAbsent := by
    rintro (h | h)
    · cases h
    · rw [Value.text.injEq] at h
      rw [h] at hlength
      cases hlength
  have hmalformed : (Value.text ones).IsMalformed := by
    refine ⟨hpresent, fun n hn => ?_⟩
    obtain ⟨_, hshort, _⟩ := Value.asks_text_iff.1 hn
    omega
  refine ⟨fun c hc => ?_, _, ?_, name_ageRefusal (.text ones)⟩
  · rw [hlist] at hc
    rw [List.eq_of_mem_replicate hc]
    exact ⟨1, 0x30, by decide, by decide, by decide⟩
  · exact ((Settings.initial.followsSources (.text ones)).refused _).2
      ⟨_, .here hpresent, hmalformed, rfl⟩

end Attestation
