-- The age of a notary. It is settled once, by the settings of the moment at which the notary is
-- appointed. Settings are looked at by few acts, and the notary's own are none of these. So
-- whatever is set later passes its claims by, as if it had never been set.
import Attestation.Proofs.AgeSetting

namespace Attestation

namespace Act

/-- The act asks the settings for an age or for a key. -/
def asks : Act → Bool
  | .readRequiredAge _ => true
  | .engage _ _ => true
  | .appoint _ _ => true
  | _ => false

/-- The act is for a change of the settings. -/
def sets : Act → Bool
  | .setRequiredAge _ => true
  | .setEnvironment _ _ => true
  | _ => false

/-- The age that a notary is appointed with, as it is handed in. -/
def appointed? : Act → Option Value
  | .engage _ age => some age
  | .appoint _ age => some age
  | _ => none

end Act

namespace Office

variable {o : Office} {act : Act}

/-! ## One office under two settings -/

/-- The office under other settings. -/
def under (o : Office) (settings : Settings) : Office := { o with settings }

@[simp]
theorem under_under (o : Office) (s s' : Settings) : (o.under s).under s' = o.under s' := rfl

/-- What an operation does the same under other settings, it is answered the same for. -/
theorem answered_under {α : Type} (f : α → Answer) {s : Settings} {p p' : Except Refusal α × Office}
    (h : p' = (p.1, p.2.under s)) :
    answered f p' = ((answered f p).1, (answered f p).2.under s) := by
  rw [h]
  rfl

theorem keep_under (o : Office) (s : Settings) (k : Except KeyFault SecretKey) :
    (o.under s).keep k = ((o.keep k).1, (o.keep k).2.under s) := by
  cases k with
  | error fault => rfl
  | ok k => rfl

theorem openCommitter_under (o : Office) (s : Settings) (source : KeySource) :
    (o.under s).openCommitter source =
      ((o.openCommitter source).1, (o.openCommitter source).2.under s) := by
  have hkeyAt : ∀ place, (o.under s).keyAt place = o.keyAt place := fun _ => rfl
  unfold openCommitter
  cases source with
  | held place =>
    simp only [hkeyAt]
    split
    · rfl
    · rfl
  | value v =>
    simp only
    cases SecretKey.ofForm v with
    | error fault => rfl
    | ok k => rfl

theorem close_under (o : Office) (s : Settings) (c : Committer) :
    (o.under s).close c = (o.close c).under s := by
  have hclosed : (o.under s).isClosed c = o.isClosed c := rfl
  unfold close
  rw [hclosed]
  split
  · rfl
  · rfl

theorem prove_under (n : Notary) (today : Date) (claim : Claim) (o : Office) (s : Settings) :
    n.prove today claim (o.under s) =
      ((n.prove today claim o).1, (n.prove today claim o).2.under s) := by
  have hcommit : n.commitTo (o.under s).drawSalt.2 claim (o.under s).drawSalt.1 =
      n.commitTo o.drawSalt.2 claim o.drawSalt.1 := Notary.commitTo_eq_of_keys rfl rfl claim _
  unfold Notary.prove
  cases claim.screen today with
  | error r => rfl
  | ok _ =>
    cases claim.check today with
    | error r => rfl
    | ok _ =>
      simp only [hcommit]
      cases n.commitTo o.drawSalt.2 claim o.drawSalt.1 with
      | error r => rfl
      | ok proof => rfl

theorem verify_under (n : Notary) (today : Date) (proof salt : Value) (claim : Claim) (o : Office)
    (s : Settings) : n.verify today proof salt claim (o.under s) =
      ((n.verify today proof salt claim o).1, (n.verify today proof salt claim o).2.under s) := by
  have hjudge : n.judge (o.under s) today proof salt claim = n.judge o today proof salt claim :=
    Notary.judge_eq_of_keys rfl rfl today proof salt claim
  unfold Notary.verify
  rw [hjudge]
  cases n.judge o today proof salt claim with
  | error r => rfl
  | ok verdict => cases verdict <;> rfl

theorem proveMembership_under (n : Notary) (today : Date) (value validValues : Value) (o : Office)
    (s : Settings) : n.proveMembership today value validValues (o.under s) =
      ((n.proveMembership today value validValues o).1,
        (n.proveMembership today value validValues o).2.under s) := by
  unfold Notary.proveMembership
  cases Claim.readMembership value validValues with
  | error r => rfl
  | ok claim => exact prove_under n today claim o s

theorem verifyMembership_under (n : Notary) (today : Date) (proof salt value validValues : Value)
    (o : Office) (s : Settings) :
    n.verifyMembership today proof salt value validValues (o.under s) =
      ((n.verifyMembership today proof salt value validValues o).1,
        (n.verifyMembership today proof salt value validValues o).2.under s) := by
  unfold Notary.verifyMembership
  cases Claim.readMembership value validValues with
  | error r => rfl
  | ok claim => exact verify_under n today proof salt claim o s

theorem verifyBatch_under (n : Notary) (proofs datas salts : Value) (o : Office) (s : Settings) :
    n.verifyBatch proofs datas salts (o.under s) =
      ((n.verifyBatch proofs datas salts o).1, (n.verifyBatch proofs datas salts o).2.under s) := by
  have hkeys : (o.under s).keys = o.keys := rfl
  have hwalk : ∀ items, n.firstFailure (o.under s) 0 items = n.firstFailure o 0 items :=
    fun items => Notary.firstFailure_eq_of_keys rfl hkeys items 0
  unfold Notary.verifyBatch
  simp only [hwalk]
  split
  · rfl
  split
  · rfl
  · rfl
  · split
    · rfl
    · split <;> rfl

/-- An act that has nothing to do with settings does the same under any. -/
theorem perform_under (hasks : act.asks = false) (hsets : act.sets = false) (s : Settings) :
    (o.under s).perform act = ((o.perform act).1, (o.perform act).2.under s) := by
  cases act with
  | makeKey material => exact answered_under .key (keep_under o s _)
  | makeKeyOfText text => exact answered_under .key (keep_under o s _)
  | openCommitter source => exact answered_under .committer (openCommitter_under o s source)
  | close c => exact congrArg (Prod.mk _) (close_under o s c)
  | commitAndClose c message => exact congrArg (Prod.mk _) (close_under o s c)
  | prove n today claim => exact answered_under .bundle (prove_under n today claim o s)
  | proveMembership n today value validValues =>
    exact answered_under .bundle (proveMembership_under n today value validValues o s)
  | verify n today proof salt claim =>
    exact answered_under .truth (verify_under n today proof salt claim o s)
  | verifyMembership n today proof salt value validValues =>
    exact answered_under .truth (verifyMembership_under n today proof salt value validValues o s)
  | verifyBatch n proofs datas salts =>
    exact answered_under .truth (verifyBatch_under n proofs datas salts o s)
  | readRequiredAge _ | engage _ _ | appoint _ _ => cases hasks
  | setRequiredAge _ | setEnvironment _ _ => cases hsets
  | _ => rfl

/-- A change of the settings changes nothing else. -/
theorem perform_of_sets (h : act.sets = true) :
    (o.perform act).2 = o.under (act.settle o.settings) := by
  cases act with
  | setRequiredAge v => rfl
  | setEnvironment ageText keyText => rfl
  | _ => cases h

/-! ## Runs without their settings -/

/-- The acts of a run, each with what it is answered. -/
def answers (o : Office) : List Act → List (Act × Except Refusal Answer)
  | [] => []
  | act :: acts => (act, (o.perform act).1) :: (o.perform act).2.answers acts

/-- Where nobody asks for the settings, a run is answered under any of them as it is answered
without the changes to them, and it leaves the same office behind. -/
theorem answers_under {acts : List Act} (hasks : ∀ act ∈ acts, act.asks = false) (s : Settings) :
    (o.under s).answers (acts.filter fun act => !act.sets) =
        (o.answers acts).filter (fun answered => !answered.1.sets) ∧
      (o.under s).after (acts.filter fun act => !act.sets) = (o.after acts).under s := by
  induction acts generalizing o with
  | nil => exact ⟨rfl, rfl⟩
  | cons act acts ih =>
    obtain ⟨hact, hacts⟩ := List.forall_mem_cons.1 hasks
    cases hsets : act.sets with
    | true =>
      -- the change is left out, so the office before it goes on in its place
      have hsame : (o.perform act).2.under s = o.under s := by
        rw [perform_of_sets hsets, under_under]
      have hrest := ih (o := (o.perform act).2) hacts
      rw [hsame] at hrest
      simpa [answers, hsets] using hrest
    | false =>
      have hstep := perform_under (o := o) hact hsets s
      have hrest := ih (o := (o.perform act).2) hacts
      simpa [answers, hsets, hstep] using hrest

end Office

/-! ## The age of a notary -/

theorem Notary.requiredAge_of_appoint {c : Option Committer} {age : Value} {s : Settings}
    {n : Notary} (h : Notary.appoint c age s = .ok n) : s.requiredAge age = .ok n.requiredAge := by
  cases c with
  | none => cases h
  | some c =>
    obtain ⟨years, hyears, rfl⟩ := map_eq_ok_iff.1 h
    exact hyears

/-- A notary's age is what the settings of the moment give for the age that is handed in. -/
theorem Office.requiredAge_of_appointed {o : Office} {act : Act} {age : Value} {n : Notary}
    (hact : act.appointed? = some age) (h : (o.perform act).1 = .ok (.notary n)) :
    o.settings.requiredAge age = .ok n.requiredAge := by
  cases act with
  | engage c age' =>
    cases hact
    obtain ⟨m, hm, hnotary⟩ := map_eq_ok_iff.1 h
    cases hnotary
    exact Notary.requiredAge_of_appoint hm
  | appoint key age' =>
    cases hact
    obtain ⟨m, hm, hnotary⟩ := map_eq_ok_iff.1 h
    cases hnotary
    unfold Office.appoint at hm
    cases hkey : o.settings.key key with
    | none =>
      rw [hkey] at hm
      cases hm
    | some found =>
      simp only [hkey] at hm
      split at hm
      · cases hm
      · rename_i c o' hopen
        -- the committer that is opened first leaves the settings as they are
        have hsettings : o'.settings = o.settings := by
          have hopened := congrArg (fun p => p.2.settings) hopen
          rw [settings_openCommitter] at hopened
          rw [← hopened]
          split <;> rfl
        rw [← hsettings]
        exact Notary.requiredAge_of_appoint (c := some c) hm
  | _ => cases hact

/-- In one office a notary answers for claims without an age of their own as it answers in the
other for the claims with its own age. -/
structure Notary.AnswersAsSettled (n : Notary) (o o' : Office) : Prop where
  issued : ∀ today dateOfBirth, (n.prove today (n.ageClaim dateOfBirth .none) o).1 =
    (n.prove today (n.ageClaim dateOfBirth (.int n.requiredAge)) o').1
  verified : ∀ today proof salt dateOfBirth,
    (n.verify today proof salt (n.ageClaim dateOfBirth .none) o).1 =
      (n.verify today proof salt (n.ageClaim dateOfBirth (.int n.requiredAge)) o').1

theorem Notary.answersAsSettled (n : Notary) {o o' : Office} (hkeys : o.keys = o'.keys)
    (hentropy : o.entropy = o'.entropy) : n.AnswersAsSettled o o' where
  issued := fun today _ => prove_eq_of_keys rfl hkeys hentropy today _
  verified := fun today proof salt _ => verify_eq_of_keys rfl hkeys today proof salt _

/-- The age that a notary asks for is settled when it is appointed, by the settings as they are
then. After that a run may change the settings as it likes, well or badly. Where nobody asks for
them, every other act is answered as in the run without these changes, and a claim without an
age of its own is issued and verified as the claim with the notary's age is, both there and in
the run without the changes. A claim with an age of its own is issued and verified alike by all
notaries of one committer. -/
theorem an_appointment_settles_the_age (o : Office) (made : Act) (age : Value) (n : Notary)
    (hmade : made.appointed? = some age) (hnotary : (o.perform made).1 = .ok (.notary n)) :
    o.settings.requiredAge age = .ok n.requiredAge ∧
    (∀ acts s, (∀ act ∈ acts, act.asks = false) →
      let later := (o.perform made).2.after acts
      let undisturbed := ((o.perform made).2.under s).after (acts.filter fun act => !act.sets)
      (((o.perform made).2.answers acts).filter fun answered => !answered.1.sets) =
        ((o.perform made).2.under s).answers (acts.filter fun act => !act.sets) ∧
      n.AnswersAsSettled later later ∧ n.AnswersAsSettled later undisturbed) ∧
    ∀ (n' : Notary) (o' : Office) (today : Date) (dateOfBirth age' : Value),
      n'.committer = n.committer → age' ≠ .none →
      (n'.prove today (n'.ageClaim dateOfBirth age') o').1 =
          (n.prove today (n.ageClaim dateOfBirth age') o').1 ∧
        ∀ proof salt, (n'.verify today proof salt (n'.ageClaim dateOfBirth age') o').1 =
          (n.verify today proof salt (n.ageClaim dateOfBirth age') o').1 := by
  refine ⟨Office.requiredAge_of_appointed hmade hnotary, ?_, ?_⟩
  · intro acts s hasks later undisturbed
    obtain ⟨hanswers, hafter⟩ := Office.answers_under (o := (o.perform made).2) hasks s
    have hkeys : later.keys = undisturbed.keys := (congrArg Office.keys hafter).symm
    have hentropy : later.entropy = undisturbed.entropy := (congrArg Office.entropy hafter).symm
    exact ⟨hanswers.symm, n.answersAsSettled rfl rfl, n.answersAsSettled hkeys hentropy⟩
  · intro n' o' today dateOfBirth age' hcommitter hage
    have hclaim : ∀ m : Notary, m.ageClaim dateOfBirth age' = .age dateOfBirth age' := by
      intro m
      cases age' with
      | none => exact absurd rfl hage
      | _ => rfl
    rw [hclaim n', hclaim n]
    exact ⟨Notary.prove_eq_of_keys hcommitter rfl rfl today _,
      fun proof salt => Notary.verify_eq_of_keys hcommitter rfl today proof salt _⟩

/-- A notary is appointed with an age of twenty-one in text, and then sixty-five is forced and
the environment spoiled: still, someone of twenty-one gets what they got before. -/
theorem a_trial_notary_keeps_its_age :
    let n : Notary := ⟨⟨0⟩, 21⟩
    let later := Office.trial.after
      [.setRequiredAge (.int 65), .setRequiredAge (.bool true), .setEnvironment (some "old") none]
    (n.prove Date.trial (n.ageClaim (.text "2004-06-15") .none) later).1 =
      (n.prove Date.trial (.age (.text "2004-06-15") (.int 21)) Office.trial).1 := by
  intro n later
  have hmade : (Office.trial.perform (.engage (some ⟨0⟩) (.text "21"))).1 = .ok (.notary n) :=
    rfl
  obtain ⟨_, hruns, _⟩ := an_appointment_settles_the_age Office.trial
    (.engage (some ⟨0⟩) (.text "21")) (.text "21") n rfl hmade
  obtain ⟨_, _, hsettled⟩ := hruns
    [.setRequiredAge (.int 65), .setRequiredAge (.bool true), .setEnvironment (some "old") none]
    Office.trial.settings (by simp [Act.asks])
  exact hsettled.issued Date.trial (.text "2004-06-15")

end Attestation
