-- The law of what a rejection leaves in the journal. A verification looks at one point after
-- another: proof and salt, the inputs of the claim in their order, the commitment, the truth of
-- the claim. The first point that fails is noted down in words that are fixed beforehand, and
-- nothing else is. So the journal tells which point it was, and nothing of what was handed in.
import Attestation.Proofs.CarryOver

namespace Attestation

/-! ## The first that fails -/

section Demands

variable {demands more : List (String × Prop)} {field : String}

/-- What fails first is one of the list. -/
theorem BrokenFirst.mem_map_fst (h : BrokenFirst demands field) : field ∈ demands.map Prod.fst := by
  induction h with
  | here _ => exact List.mem_cons_self
  | later _ _ ih => exact List.mem_cons_of_mem _ ih

theorem brokenFirst_cons_iff {first : String × Prop} :
    BrokenFirst (first :: more) field ↔
      (¬ first.2 ∧ field = first.1) ∨ (first.2 ∧ BrokenFirst more field) := by
  constructor
  · intro h
    cases h with
    | here hbroken => exact Or.inl ⟨hbroken, rfl⟩
    | later hmet hrest => exact Or.inr ⟨hmet, hrest⟩
  · rintro (⟨hbroken, rfl⟩ | ⟨hmet, hrest⟩)
    · exact .here hbroken
    · exact .later hmet hrest

theorem brokenFirst_append_iff :
    BrokenFirst (demands ++ more) field ↔
      BrokenFirst demands field ∨ (AllMet demands ∧ BrokenFirst more field) := by
  constructor
  · intro h
    by_cases hall : AllMet demands
    · right
      refine ⟨hall, ?_⟩
      by_cases hmore : AllMet more
      · exact absurd (List.forall_mem_append.2 ⟨hall, hmore⟩) h.not_allMet
      · obtain ⟨other, hother⟩ := exists_brokenFirst_iff.2 hmore
        rwa [h.unique (hother.append_right hall)]
    · left
      obtain ⟨other, hother⟩ := exists_brokenFirst_iff.2 hall
      rwa [h.unique hother.append_left]
  · rintro (h | ⟨hall, h⟩)
    · exact h.append_left
    · exact h.append_right hall

end Demands

/-! ## The points of a verification -/

namespace Claim

/-- The inputs of a claim, by its kind alone. -/
def Kind.fields : Kind → List String
  | .age => ["date_of_birth", "required_age"]
  | .balance => ["balance", "requested"]
  | .membership => ["value", "valid_values"]
  | .range => ["value", "min_value", "max_value"]
  | .timeCondition => ["event_date", "condition_date"]

/-- The words for all that a verification can find, by the kind of the claim alone. -/
def Kind.findings (kind : Kind) : List String :=
  "missing proof or salt" :: (kind.fields ++ ["commitment mismatch", "predicate no longer holds"])

theorem mem_fields_of_brokenFirst {today : Date} {claim : Claim} {field : String}
    (h : BrokenFirst (claim.demands today) field) : field ∈ claim.kind.fields := by
  have hmem := h.mem_map_fst
  cases claim with
  | range value low high =>
    simp only [demands, List.map_cons, List.map_nil, List.mem_cons] at hmem
    simp only [kind, Kind.fields, List.mem_cons]
    tauto
  | _ => exact hmem

end Claim

namespace Notary

/-- The proof is the hash of the claim's canonical text and the salt. -/
def CommitsTo (n : Notary) (o : Office) (proof salt : Value) (claim : Claim) : Prop :=
  ∃ value s mac, claim.canonical = .ok (.text value) ∧ salt = .text s ∧
    o.commit n.committer (value ++ s) = .ok mac ∧ proof = .text mac

/-- What a verification looks at, point by point, each with the words for its failure. -/
def points (n : Notary) (o : Office) (today : Date) (proof salt : Value) (claim : Claim) :
    List (String × Prop) :=
  ("missing proof or salt", Presentable proof salt) :: (claim.demands today ++
    [("commitment mismatch", n.CommitsTo o proof salt claim),
     ("predicate no longer holds", claim.IsTrue today)])

variable {n : Notary} {o : Office} {today : Date} {proof salt : Value} {claim : Claim}

theorem mem_findings_of_brokenFirst {finding : String}
    (h : BrokenFirst (n.points o today proof salt claim) finding) :
    finding ∈ claim.kind.findings := by
  unfold points at h
  rw [brokenFirst_cons_iff, brokenFirst_append_iff] at h
  unfold Claim.Kind.findings
  rcases h with ⟨_, rfl⟩ | ⟨_, h | ⟨_, h⟩⟩
  · exact List.mem_cons_self
  · exact List.mem_cons_of_mem _ (List.mem_append_left _ (Claim.mem_fields_of_brokenFirst h))
  · exact List.mem_cons_of_mem _ (List.mem_append_right _ h.mem_map_fst)

/-! ## The verdict -/

/-- Behind the gates and the screen, an open key leaves the commitment and the truth to look at. -/
theorem exists_expectation_of_points (hopen : o.isClosed n.committer = false)
    (hpresentable : Presentable proof salt) (hmet : AllMet (claim.demands today))
    (hfails : ∀ why, ¬ claim.FailsWith why) :
    ∃ t s expected holds, proofText? proof = some t ∧ saltText? salt = some s ∧
      n.expectation o today claim s = .ok (expected, holds) ∧
      (n.CommitsTo o proof salt claim ↔ .whole expected = t) ∧
      (claim.IsTrue today ↔ holds = true) := by
  have hscreen := Claim.screen_eq_ok_iff.2 hmet
  obtain ⟨t, s, hp, hs⟩ := presentable_iff.1 hpresentable
  obtain ⟨⟨expected, holds⟩, hexpect⟩ := exists_expectation_of_screen hopen hscreen hfails s
  obtain ⟨_, hholds, value, hvalue, hmac⟩ := (expectation_eq_ok_iff hopen).1 hexpect
  have hcommit := Office.commit_of_open hopen (value ++ s)
  rw [hmac] at hcommit
  refine ⟨t, s, expected, holds, hp, hs, hexpect, ?_, ?_⟩
  · rw [eq_ofText_of_proofText? hp, eq_text_of_saltText? hs]
    constructor
    · rintro ⟨value', _, mac, hvalue', ⟨⟩, hcommit', hproof⟩
      rw [hvalue] at hvalue'
      cases hvalue'
      rw [hcommit, Except.ok.injEq] at hcommit'
      rw [hcommit']
      exact (Value.ofText_inj.1 hproof).symm
    · rintro rfl
      exact ⟨value, s, expected, hvalue, rfl, hcommit, rfl⟩
  · have hstands := @Claim.stands_iff today claim
    unfold Claim.Stands at hstands
    rw [hscreen, hholds] at hstands
    simpa [hmet] using hstands

theorem judge_of_expectation {t : Text} {s expected : String} {holds : Bool}
    (hp : proofText? proof = some t) (hs : saltText? salt = some s)
    (hexpect : n.expectation o today claim s = .ok (expected, holds)) :
    n.judge o today proof salt claim =
      .ok (if .whole expected ≠ t then .mismatched else if holds then .accepted else .lapsed) := by
  have hsame := Comparison.sameText_iff (.whole expected) t
  simp only [judge, hp, hs, hexpect]
  by_cases h : .whole expected = t
  · rw [hsame.2 h, if_neg (not_not.2 h)]
    cases holds <;> rfl
  · have hdiffer : Comparison.sameText (.whole expected) t = false := by
      rw [Bool.eq_false_iff]
      exact hsame.not.2 h
    rw [hdiffer, if_pos h]
    rfl

theorem verify_of_verdict {verdict : Verdict} {e : Entry}
    (hjudge : n.judge o today proof salt claim = .ok verdict)
    (hentry : verdict.entry? claim.kind = some e) (hrejects : verdict.isAccepted = false) :
    n.verify today proof salt claim o = (.ok false, o.note e) := by
  simp [verify, hjudge, hentry, hrejects]

/-- What fails the claim in a verification, once its gates and its screen are passed. -/
def FailsHere (today : Date) (proof salt : Value) (claim : Claim) (why : Failure) : Prop :=
  Presentable proof salt ∧ claim.screen today = .ok () ∧ claim.FailsWith why

/-- A claim that is true, and commits to a whole text, does not fail. -/
theorem not_failsWith_of_allMet (h : AllMet (n.points o today proof salt claim)) (why : Failure) :
    ¬ claim.FailsWith why := by
  unfold points AllMet at h
  rw [List.forall_mem_cons, List.forall_mem_append] at h
  obtain ⟨_, _, hlast⟩ := h
  obtain ⟨value, _, _, hvalue, _⟩ := hlast _ List.mem_cons_self
  have htrue := hlast _ (List.mem_cons_of_mem _ List.mem_cons_self)
  intro hfails
  have hmembership := hfails.kind_of_isTrue htrue
  rcases hfails.age_or_torn with hage | ⟨t, htorn, _⟩
  · rw [hage] at hmembership
    cases hmembership
  · rw [hvalue] at htorn
    cases htorn

/-- A verification that finds no fault is a yes without a note. -/
theorem verify_of_allMet (hopen : o.isClosed n.committer = false)
    (h : AllMet (n.points o today proof salt claim)) :
    n.verify today proof salt claim o = (.ok true, o) := by
  have hfails := not_failsWith_of_allMet h
  unfold points AllMet at h
  rw [List.forall_mem_cons, List.forall_mem_append] at h
  obtain ⟨hpresentable, hmet, hlast⟩ := h
  obtain ⟨t, s, expected, holds, hp, hs, hexpect, hcommits, htrue⟩ :=
    exists_expectation_of_points hopen hpresentable hmet hfails
  have hsame := hcommits.1 (hlast _ List.mem_cons_self)
  have hholds := htrue.1 (hlast _ (List.mem_cons_of_mem _ List.mem_cons_self))
  have hjudge := judge_of_expectation hp hs hexpect
  rw [if_neg (not_not.2 hsame), if_pos hholds] at hjudge
  simp [verify, hjudge, Verdict.entry?, Verdict.isAccepted]

/-- A verification that finds a fault is a no, with one note in the words for the first fault, if
the claim does not fail on the way. -/
theorem verify_of_brokenFirst (hopen : o.isClosed n.committer = false)
    (hanswered : ∀ why, ¬ FailsHere today proof salt claim why) {finding : String}
    (h : BrokenFirst (n.points o today proof salt claim) finding) :
    ∃ e, n.verify today proof salt claim o = (.ok false, o.note e) ∧
      e.message = "Rejected " ++ claim.kind.name ++ " proof: " ++ finding := by
  unfold points at h
  rw [brokenFirst_cons_iff, brokenFirst_append_iff] at h
  rcases h with ⟨hgates, rfl⟩ | ⟨hpresentable, hinput | ⟨hmet, hlast⟩⟩
  · exact ⟨.unusable claim.kind, verify_of_verdict (judge_of_not_presentable hgates) rfl rfl, rfl⟩
  · have henforces := claim.enforces_screen today
    cases hscreen : claim.screen today with
    | ok _ =>
      rw [hscreen] at henforces
      exact absurd henforces hinput.not_allMet
    | error r =>
      rw [hscreen] at henforces
      obtain ⟨field, hfaults, hbroken⟩ := henforces
      rw [hinput.unique hbroken]
      have hjudge := judge_of_screen_error (n := n) (o := o) hpresentable hscreen hfaults.2
      exact ⟨.invalid claim.kind field, verify_of_verdict hjudge rfl rfl, rfl⟩
  · obtain ⟨t, s, expected, holds, hp, hs, hexpect, hcommits, htrue⟩ :=
      exists_expectation_of_points hopen hpresentable hmet fun why hfails =>
        hanswered why ⟨hpresentable, Claim.screen_eq_ok_iff.2 hmet, hfails⟩
    have hjudge := judge_of_expectation hp hs hexpect
    rw [brokenFirst_cons_iff, brokenFirst_cons_iff] at hlast
    rcases hlast with ⟨hdiffers, rfl⟩ | ⟨hsame, ⟨hfalse, rfl⟩ | ⟨_, hnone⟩⟩
    · rw [if_pos (hcommits.not.1 hdiffers)] at hjudge
      exact ⟨.mismatched claim.kind, verify_of_verdict hjudge rfl rfl, rfl⟩
    · rw [if_neg (not_not.2 (hcommits.1 hsame)), if_neg (htrue.not.1 hfalse)] at hjudge
      exact ⟨.lapsed claim.kind, verify_of_verdict hjudge rfl rfl, rfl⟩
    · cases hnone

theorem not_failsHere_of_verify (hopen : o.isClosed n.committer = false) {b : Bool}
    (h : (n.verify today proof salt claim o).1 = .ok b) (why : Failure) :
    ¬ FailsHere today proof salt claim why := by
  intro hfails
  have herror := (verify_of_open (o := o) hopen).1 why hfails
  rw [h] at herror
  cases herror

/-- A no has a first fault, and one note in the words for it. -/
theorem exists_brokenFirst_of_verify (hopen : o.isClosed n.committer = false)
    (hno : (n.verify today proof salt claim o).1 = .ok false) :
    ∃ finding, BrokenFirst (n.points o today proof salt claim) finding := by
  refine exists_brokenFirst_iff.2 fun hall => ?_
  rw [verify_of_allMet hopen hall] at hno
  cases hno

/-- Where there is no answer, there is no note. -/
theorem verify_snd_of_error {r : Refusal} (h : (n.verify today proof salt claim o).1 = .error r) :
    (n.verify today proof salt claim o).2 = o := by
  cases hjudge : n.judge o today proof salt claim with
  | error r' => rw [verify_of_judge_error hjudge]
  | ok verdict =>
    rw [verify_of_judge hjudge] at h
    cases h

end Notary

/-! ## The note of a rejection -/

/-- Under an open key a verification answers yes and notes nothing, or it answers no and makes one
note; where the claim fails and there is no answer, nothing is noted. The note names the claim's
kind and the first point that failed, in one of the few words that the kind has for it. Two
verifications of claims of one kind that are answered no for the same point make notes of one text,
whatever the keys, the days, the proofs, the salts and the values are. -/
theorem a_rejection_is_noted_once_with_its_first_finding (n : Notary) (o : Office) (today : Date)
    (proof salt : Value) (claim : Claim) (hopen : o.isClosed n.committer = false) :
    AnsweredUnless (Notary.FailsHere today proof salt claim)
      (n.verify today proof salt claim o).1 ∧
    ((n.verify today proof salt claim o).1 = .ok true →
      AllMet (n.points o today proof salt claim) ∧ (n.verify today proof salt claim o).2 = o) ∧
    ((n.verify today proof salt claim o).1 = .ok false →
      ∃ finding e, BrokenFirst (n.points o today proof salt claim) finding ∧
        finding ∈ claim.kind.findings ∧ (n.verify today proof salt claim o).2 = o.note e ∧
        e.message = "Rejected " ++ claim.kind.name ++ " proof: " ++ finding) ∧
    (∀ r, (n.verify today proof salt claim o).1 = .error r →
      (n.verify today proof salt claim o).2 = o) ∧
    ∀ (n' : Notary) (o' : Office) today' proof' salt' (claim' : Claim) finding,
      o'.isClosed n'.committer = false → claim'.kind = claim.kind →
      (n.verify today proof salt claim o).1 = .ok false →
      (n'.verify today' proof' salt' claim' o').1 = .ok false →
      BrokenFirst (n.points o today proof salt claim) finding →
      BrokenFirst (n'.points o' today' proof' salt' claim') finding →
      ∃ e e', (n.verify today proof salt claim o).2 = o.note e ∧
        (n'.verify today' proof' salt' claim' o').2 = o'.note e' ∧ e.message = e'.message := by
  refine ⟨Notary.verify_of_open hopen, ?_, ?_, fun r => Notary.verify_snd_of_error, ?_⟩
  · intro hyes
    by_cases hall : AllMet (n.points o today proof salt claim)
    · exact ⟨hall, congrArg Prod.snd (Notary.verify_of_allMet hopen hall)⟩
    · obtain ⟨finding, hfinding⟩ := exists_brokenFirst_iff.2 hall
      obtain ⟨e, hverify, _⟩ := Notary.verify_of_brokenFirst hopen
        (Notary.not_failsHere_of_verify hopen hyes) hfinding
      rw [hverify] at hyes
      cases hyes
  · intro hno
    obtain ⟨finding, hfinding⟩ := Notary.exists_brokenFirst_of_verify hopen hno
    obtain ⟨e, hverify, hmessage⟩ := Notary.verify_of_brokenFirst hopen
      (Notary.not_failsHere_of_verify hopen hno) hfinding
    exact ⟨finding, e, hfinding, Notary.mem_findings_of_brokenFirst hfinding, by rw [hverify],
      hmessage⟩
  · intro n' o' today' proof' salt' claim' finding hopen' hkind hno hno' hfinding hfinding'
    obtain ⟨e, hverify, hmessage⟩ := Notary.verify_of_brokenFirst hopen
      (Notary.not_failsHere_of_verify hopen hno) hfinding
    obtain ⟨e', hverify', hmessage'⟩ := Notary.verify_of_brokenFirst hopen'
      (Notary.not_failsHere_of_verify hopen' hno') hfinding'
    refine ⟨e, e', by rw [hverify], by rw [hverify'], ?_⟩
    rw [hmessage, hmessage', hkind]

/-- A balance that is short under a proof of something else is a mismatch first, and it leaves the
same words as a balance that would do, on another day and under another key. -/
theorem a_trial_rejection_tells_nothing_of_the_balance :
    let o' : Office := { Office.trial with
      keys := ⟨[⟨List.replicate Limits.keySize 9, false, rfl⟩]⟩ }
    let salt : Value := .text Office.trial.drawSalt.1
    ∃ e e', (Notary.trial.verify Date.trial (.text "proof") salt (.balance (.int 5) (.int 9))
        Office.trial).2 = Office.trial.note e ∧
      (Notary.trial.verify Date.first (.text "other") salt (.balance (.int 700) (.int 1)) o').2 =
        o'.note e' ∧
      e.message = "Rejected balance proof: commitment mismatch" ∧ e'.message = e.message := by
  intro o' salt
  -- no hash has a text as short as these proofs
  have hfirst : ∀ (o : Office) today (t : String) (claim : Claim), t ≠ "" → t.length < 44 →
      AllMet (claim.demands today) →
      BrokenFirst (Notary.trial.points o today (.text t) salt claim) "commitment mismatch" := by
    intro o today t claim hfilled hshort hmet
    refine .later ⟨⟨.whole t, rfl, fun hempty => hfilled (Text.whole.inj hempty)⟩, _,
      Office.trial.saltText?_drawSalt⟩ (.append_right hmet ?_)
    refine .here ?_
    rintro ⟨value, s, mac, _, _, hmac, ⟨⟩⟩
    obtain ⟨_, rfl⟩ := Office.commit_eq_ok_iff.1 hmac
    unfold macText at hshort
    rw [Base64.length_text, Hmac.mac_length] at hshort
    exact absurd hshort (by decide)
  have hhere := hfirst Office.trial Date.trial "proof" (.balance (.int 5) (.int 9)) (by decide)
    (by decide) (Claim.screen_eq_ok_iff.1 rfl)
  have hthere := hfirst o' Date.first "other" (.balance (.int 700) (.int 1)) (by decide) (by decide)
    (Claim.screen_eq_ok_iff.1 rfl)
  -- a balance never fails
  obtain ⟨_, hverify, _⟩ := Notary.verify_of_brokenFirst rfl (by rintro _ ⟨_, _, ⟨⟩⟩) hhere
  obtain ⟨_, hverify', _⟩ := Notary.verify_of_brokenFirst rfl (by rintro _ ⟨_, _, ⟨⟩⟩) hthere
  have hno := congrArg Prod.fst hverify
  obtain ⟨_, _, hnotes, _, hsame⟩ := a_rejection_is_noted_once_with_its_first_finding
    Notary.trial Office.trial Date.trial (.text "proof") salt (.balance (.int 5) (.int 9)) rfl
  obtain ⟨e, e', hnote, hnote', hmessage⟩ :=
    hsame _ o' _ _ _ (.balance (.int 700) (.int 1)) _ rfl rfl hno (congrArg Prod.fst hverify')
      hhere hthere
  refine ⟨e, e', hnote, hnote', ?_, hmessage.symm⟩
  obtain ⟨finding, e₀, hfinding, _, hnote₀, hmessage₀⟩ := hnotes hno
  rw [hnote] at hnote₀
  have hentry : e = e₀ := by simpa [Office.note] using hnote₀
  rw [hentry, hmessage₀, hfinding.unique hhere]
  rfl

end Attestation
