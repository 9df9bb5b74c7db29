-- The laws of verifying. A claim is accepted just when it passes its screen, holds, and has a
-- canonical text that the proof commits to, so the way over a claim and the way over a text
-- agree. An open key leaves a verification without an answer only where a value fails: an age of
-- too many digits, a torn text, or a collection of somebody else. A wiped key refuses just those
-- that get as far as the hash of a whole text.
import Attestation.Batch
import Attestation.Checker
import Attestation.Proofs.ClaimDecision

namespace Attestation

/-! ## Claims that pass their screen -/

namespace Claim

variable {today : Date} {claim : Claim}

/-- The screen names the input that it refuses. -/
theorem exists_field_of_screen_error {r : Refusal} (h : claim.screen today = .error r) :
    ∃ field, r.field? = some field := by
  have henforces := claim.enforces_screen today
  rw [h] at henforces
  obtain ⟨field, hfaults, _⟩ := henforces
  exact ⟨field, hfaults.2⟩

/-- A claim that passes its screen holds or does not, unless it asks for an age of too many
digits. -/
theorem exists_holds_of_screen (h : claim.screen today = .ok ())
    (hworded : claim.kind = .age → ∀ why, ¬ claim.FailsWith why) :
    ∃ b, claim.holds today = .ok b := by
  have hsettles := settles_of_allMet (screen_eq_ok_iff.1 h)
  unfold Settles at hsettles
  unfold holds
  cases hcheck : claim.check today with
  | ok _ => exact ⟨true, rfl⟩
  | error r =>
    rw [hcheck] at hsettles
    obtain ⟨_, ⟨hdenies, _⟩ | ⟨hage, why, hfails, _⟩⟩ := hsettles
    · exact ⟨false, by simp [hdenies.1]⟩
    · exact absurd hfails (hworded hage why)

theorem holds_of_failsWith (h : claim.screen today = .ok ()) (hage : claim.kind = .age)
    {why : Failure} (hfails : claim.FailsWith why) :
    claim.holds today = .error (.failed why) := by
  have hsettles := settles_of_allMet (screen_eq_ok_iff.1 h)
  unfold Settles at hsettles
  unfold holds
  cases hcheck : claim.check today with
  | ok _ =>
    rw [hcheck] at hsettles
    have hmembership := hfails.kind_of_isTrue hsettles
    rw [hage] at hmembership
    cases hmembership
  | error r =>
    rw [hcheck] at hsettles
    obtain ⟨_, ⟨_, hworded⟩ | ⟨_, other, hother, rfl⟩⟩ := hsettles
    · exact absurd hfails (hworded hage why)
    · rw [hfails.unique hother]
      rfl

/-- A claim whose screen is passed fails with its age, or with the torn text that it commits to. -/
theorem FailsWith.age_or_torn {why : Failure} (h : claim.FailsWith why) : claim.kind = .age ∨
    ∃ t, claim.canonical = .ok (.ofText (.torn t)) ∧ why = .ofTorn t := by
  cases h with
  | age _ => exact Or.inl rfl
  | membership => exact Or.inr ⟨_, rfl, rfl⟩

theorem FailsWith.canonical_whole {why : Failure} (h : claim.FailsWith why)
    (hage : claim.kind = .age) {t : Text} (hvalue : claim.canonical = .ok (.ofText t)) :
    ∃ value, t = .whole value := by
  cases t with
  | whole value => exact ⟨value, rfl⟩
  | torn t =>
    obtain ⟨_, rfl⟩ := canonical_eq_torn_iff.1 hvalue
    cases hage

end Claim

/-! ## The hash under any key -/

namespace Office

variable {o : Office} {c : Committer}

theorem commit_of_closed (hclosed : o.isClosed c = true) (message : String) :
    o.commit c message = .error (.key .wiped) := by
  unfold isClosed at hclosed
  simp [commit, keyMac, SecretKey.mac, hclosed, Except.mapError, Except.map]

/-- A committer commits only while its key is open. -/
theorem commit_eq_ok_iff {message mac : String} :
    o.commit c message = .ok mac ↔ o.isClosed c = false ∧ macText (o.keyBytes c) message = mac := by
  cases hkey : o.isClosed c with
  | true => simp [commit_of_closed hkey]
  | false => simp [commit_of_open hkey]

/-- A torn text has no hash under any key. -/
theorem commitText_torn_append (o : Office) (c : Committer) (t : Torn) (s : String) :
    o.commitText c ((Text.torn t).append s) = .error (.failed (.ofTorn t)) := by
  simp [Text.append, commitText, Failure.ofTorn_append]

/-- What the hash of a text is refused with once its key is wiped. Of a torn text it is its having
no bytes that comes out. -/
def refusalOf : Text → Refusal
  | .whole _ => .key .wiped
  | .torn t => .failed (.ofTorn t)

theorem commitText_whole_append (o : Office) (c : Committer) (d s : String) :
    o.commitText c ((Text.whole d).append s) = o.commit c (d ++ s) := rfl

end Office

/-! ## The gates -/

/-- What is handed in as a proof and as a salt gets past the gates. -/
def Presentable (proof salt : Value) : Prop :=
  (∃ t, proof = .ofText t ∧ t ≠ .whole "") ∧ ∃ s, saltText? salt = some s

theorem presentable_iff {proof salt : Value} :
    Presentable proof salt ↔ ∃ t s, proofText? proof = some t ∧ saltText? salt = some s := by
  simp only [Presentable, ← proofText?_eq_some_iff, exists_and_left, exists_and_right]

/-- There is an answer, except where a value fails. -/
def AnsweredUnless (fails : Failure → Prop) (answer : Except Refusal Bool) : Prop :=
  (∀ why, fails why → answer = .error (.failed why)) ∧
    ((∀ why, ¬ fails why) → ∃ b, answer = .ok b)

/-- Where the hash of a text is reached, the answer is the refusal of a wiped key, or that the text
is torn; it is no everywhere else. -/
structure RefusedJustWhen (reached : Text → Prop) (answer : Except Refusal Bool) : Prop where
  whole : ∀ s, reached (.whole s) → answer = .error (.key .wiped)
  torn : ∀ t, reached (.torn t) → answer = .error (.failed (.ofTorn t))
  none : (∀ t, ¬ reached t) → answer = .ok false

theorem RefusedJustWhen.congr {reached reached' : Text → Prop} {answer : Except Refusal Bool}
    (h : RefusedJustWhen reached answer) (hreached : ∀ t, reached t ↔ reached' t) :
    RefusedJustWhen reached' answer where
  whole s hs := h.whole s ((hreached _).2 hs)
  torn t ht := h.torn t ((hreached _).2 ht)
  none hnot := h.none fun t ht => hnot t ((hreached t).1 ht)

theorem RefusedJustWhen.ne_true {reached : Text → Prop} {answer : Except Refusal Bool}
    (h : RefusedJustWhen reached answer) : answer ≠ .ok true := by
  by_cases hreached : ∃ t, reached t
  · obtain ⟨s | t, hreached⟩ := hreached
    · rw [h.whole s hreached]
      exact nofun
    · rw [h.torn t hreached]
      exact nofun
  · rw [h.none (not_exists.1 hreached)]
    exact nofun

namespace Notary

variable {n : Notary} {o : Office} {today : Date} {claim : Claim} {proof salt data : Value}

/-! ## Issuing under any key -/

/-- A wiped key is found out only after the salt was drawn. -/
theorem prove_of_closed (hclosed : o.isClosed n.committer = true)
    (hscreen : claim.screen today = .ok ()) (hcheck : claim.check today = .ok ()) {value : String}
    (hvalue : claim.canonical = .ok (.text value)) :
    n.prove today claim o = (.error (.key .wiped), o.drawSalt.2) := by
  have htext : (Value.text value).toText? = some (.whole value) := rfl
  have hcommit : n.commitTo o.drawSalt.2 claim o.drawSalt.1 = .error (.key .wiped) := by
    simp [commitTo, hvalue, htext, Office.commitText_whole_append,
      Office.commit_of_closed (o := o.drawSalt.2) hclosed]
  simp [prove, hscreen, hcheck, hcommit]

/-- A claim that passes its screen and its check is refused all the same if the key is wiped or the
text is torn. -/
theorem prove_of_refused {t : Text} (h : o.isClosed n.committer = true ∨ ∀ s, t ≠ .whole s)
    (hscreen : claim.screen today = .ok ()) (hcheck : claim.check today = .ok ())
    (hvalue : claim.canonical = .ok (.ofText t)) :
    n.prove today claim o = (.error (Office.refusalOf t), o.drawSalt.2) := by
  cases t with
  | whole value =>
    exact prove_of_closed (h.resolve_right fun hnot => hnot value rfl) hscreen hcheck hvalue
  | torn t => exact prove_of_check_torn hscreen hcheck hvalue

/-- What is issued is the bundle of the canonical text, and never under a wiped key. -/
theorem exists_bundleFor_of_prove {b : Bundle} (h : (n.prove today claim o).1 = .ok b) :
    o.isClosed n.committer = false ∧
      ∃ value, claim.canonical = .ok (.text value) ∧ n.bundleFor o claim.kind value = b := by
  cases hkey : o.isClosed n.committer with
  | false =>
    obtain ⟨_, _, hvalue⟩ := (prove_eq_ok_iff hkey).1 h
    exact ⟨rfl, hvalue⟩
  | true =>
    cases hscreen : claim.screen today with
    | error r => simp [prove_of_screen_error hscreen] at h
    | ok _ =>
      cases hcheck : claim.check today with
      | error r => simp [prove_of_check_error hscreen hcheck] at h
      | ok _ =>
        obtain ⟨value | t, hvalue⟩ := Claim.exists_canonical_of_screen hscreen
        · simp [prove_of_closed hkey hscreen hcheck hvalue] at h
        · simp [prove_of_check_torn hscreen hcheck hvalue] at h

/-! ## The way over a text -/

theorem verifyCommitment_of_texts {t d : Text} {s : String} (hproof : proofText? proof = some t)
    (hsalt : saltText? salt = some s) :
    n.verifyCommitment o proof salt (.ofText d) = (o.commitText n.committer (d.append s)).map
      fun mac => Comparison.sameText (.whole mac) t := by
  simp [verifyCommitment, hproof, hsalt]

/-- A proof is accepted for a text just when it is the hash of that text and the salt. -/
theorem verifyCommitment_eq_true_iff :
    n.verifyCommitment o proof salt data = .ok true ↔
      ∃ d s mac, data = .text d ∧ saltText? salt = some s ∧
        o.commit n.committer (d ++ s) = .ok mac ∧ proof = .text mac := by
  constructor
  · intro h
    unfold verifyCommitment at h
    split at h
    · rename_i p s d hp hs hd
      obtain ⟨mac, hmac, hsame⟩ := map_eq_ok_iff.1 h
      have hequal := (Comparison.sameText_iff (.whole mac) p).1 hsame
      subst hequal
      cases d with
      | whole d =>
        exact ⟨d, s, mac, Value.toText?_eq_some_iff.1 hd, hs, hmac, eq_ofText_of_proofText? hp⟩
      | torn t =>
        rw [Office.commitText_torn_append] at hmac
        cases hmac
    · cases h
  · rintro ⟨d, s, mac, rfl, hs, hmac, rfl⟩
    have hp : proofText? (.text mac) = some (.whole mac) := by
      obtain ⟨_, rfl⟩ := Office.commit_eq_ok_iff.1 hmac
      exact proofText?_macText _ _
    have hread := verifyCommitment_of_texts (n := n) (o := o) (d := .whole d) hp hs
    rw [Value.ofText_whole, Office.commitText_whole_append, hmac] at hread
    rw [hread]
    exact congrArg Except.ok ((Comparison.sameText_iff _ _).2 rfl)

theorem verifyCommitment_of_not_presentable
    (h : ∀ t, ¬ (Presentable proof salt ∧ data = .ofText t)) :
    n.verifyCommitment o proof salt data = .ok false := by
  unfold verifyCommitment
  split
  · rename_i p s d hp hs hd
    exact absurd ⟨presentable_iff.2 ⟨p, s, hp, hs⟩, Value.toText?_eq_some_iff.1 hd⟩ (h d)
  · rfl

theorem verifyCommitment_of_torn {t : Torn} (h : Presentable proof salt) :
    n.verifyCommitment o proof salt (.torn t) = .error (.failed (.ofTorn t)) := by
  obtain ⟨p, s, hp, hs⟩ := presentable_iff.1 h
  have hread := verifyCommitment_of_texts (n := n) (o := o) (d := .torn t) hp hs
  rwa [Value.ofText_torn, Office.commitText_torn_append] at hread

theorem verifyCommitment_of_open (hopen : o.isClosed n.committer = false) :
    AnsweredUnless (fun why => Presentable proof salt ∧ ∃ t, data = .torn t ∧ why = .ofTorn t)
      (n.verifyCommitment o proof salt data) := by
  constructor
  · rintro why ⟨hpresentable, t, rfl, rfl⟩
    exact verifyCommitment_of_torn hpresentable
  · intro hnot
    by_cases hreached : ∃ t, Presentable proof salt ∧ data = .ofText t
    · obtain ⟨d | t, hpresentable, rfl⟩ := hreached
      · obtain ⟨p, s, hp, hs⟩ := presentable_iff.1 hpresentable
        rw [verifyCommitment_of_texts hp hs, Office.commitText_whole_append,
          Office.commit_of_open hopen]
        exact ⟨_, rfl⟩
      · exact absurd ⟨hpresentable, t, rfl, rfl⟩ (hnot (.ofTorn t))
    · exact ⟨false, verifyCommitment_of_not_presentable (not_exists.1 hreached)⟩

theorem verifyCommitment_of_closed (hclosed : o.isClosed n.committer = true) :
    RefusedJustWhen (fun t => Presentable proof salt ∧ data = .ofText t)
      (n.verifyCommitment o proof salt data) where
  whole d h := by
    obtain ⟨hpresentable, rfl⟩ := h
    obtain ⟨p, s, hp, hs⟩ := presentable_iff.1 hpresentable
    rw [verifyCommitment_of_texts hp hs, Office.commitText_whole_append,
      Office.commit_of_closed hclosed]
    rfl
  torn t h := by
    obtain ⟨hpresentable, rfl⟩ := h
    exact verifyCommitment_of_torn hpresentable
  none := verifyCommitment_of_not_presentable

/-! ## The way over a claim -/

theorem expectation_of_screen_error {r : Refusal} (h : claim.screen today = .error r) (s : String) :
    n.expectation o today claim s = .error r := by
  simp [expectation, h]

/-- A claim that commits to a torn text cannot be compared with any proof. -/
theorem expectation_of_torn (hscreen : claim.screen today = .ok ()) {t : Torn}
    (hvalue : claim.canonical = .ok (.torn t)) (s : String) :
    n.expectation o today claim s = .error (.failed (.ofTorn t)) := by
  simp [expectation, hscreen, commitTo_of_torn hvalue]

/-- Under an open key an expectation is missing only where the screen refuses or the claim fails. -/
theorem exists_expectation_of_screen (hopen : o.isClosed n.committer = false)
    (hscreen : claim.screen today = .ok ()) (hfails : ∀ why, ¬ claim.FailsWith why) (s : String) :
    ∃ answer, n.expectation o today claim s = .ok answer := by
  obtain ⟨b, hholds⟩ := Claim.exists_holds_of_screen hscreen fun _ => hfails
  obtain ⟨value | t, hvalue⟩ := Claim.exists_canonical_of_screen hscreen
  · exact ⟨(_, b), (expectation_eq_ok_iff hopen).2 ⟨hscreen, hholds, value, hvalue, rfl⟩⟩
  · exact absurd (Claim.failsWith_of_canonical hvalue) (hfails _)

theorem expectation_of_failsWith (hopen : o.isClosed n.committer = false)
    (hscreen : claim.screen today = .ok ()) {why : Failure} (hfails : claim.FailsWith why)
    (s : String) : n.expectation o today claim s = .error (.failed why) := by
  rcases hfails.age_or_torn with hage | ⟨t, hvalue, rfl⟩
  · have hholds := Claim.holds_of_failsWith hscreen hage hfails
    obtain ⟨text, htext⟩ := Claim.exists_canonical_of_screen hscreen
    obtain ⟨value, rfl⟩ := hfails.canonical_whole hage htext
    simp [expectation, hscreen, commitTo_of_canonical hopen htext, hholds, Except.map]
  · exact expectation_of_torn hscreen hvalue s

theorem expectation_of_closed (hclosed : o.isClosed n.committer = true)
    (hscreen : claim.screen today = .ok ()) {value : String}
    (hvalue : claim.canonical = .ok (.text value)) (s : String) :
    n.expectation o today claim s = .error (.key .wiped) := by
  have htext : (Value.text value).toText? = some (.whole value) := rfl
  simp [expectation, hscreen, commitTo, hvalue, htext, Office.commitText_whole_append,
    Office.commit_of_closed hclosed]

theorem judge_of_not_presentable (h : ¬ Presentable proof salt) :
    n.judge o today proof salt claim = .ok .unusable := by
  unfold judge
  split
  · rename_i p s hp hs
    exact absurd (presentable_iff.2 ⟨p, s, hp, hs⟩) h
  · rfl

theorem judge_of_screen_error {r : Refusal} {field : String} (hpresentable : Presentable proof salt)
    (hscreen : claim.screen today = .error r) (hfield : r.field? = some field) :
    n.judge o today proof salt claim = .ok (.invalid field) := by
  obtain ⟨p, s, hp, hs⟩ := presentable_iff.1 hpresentable
  simp [judge, hp, hs, expectation_of_screen_error hscreen, hfield]

theorem judge_of_expectation_error {r : Refusal} (hpresentable : Presentable proof salt)
    (hexpect : ∀ s, n.expectation o today claim s = .error r) (hfield : r.field? = none) :
    n.judge o today proof salt claim = .error r := by
  obtain ⟨p, s, hp, hs⟩ := presentable_iff.1 hpresentable
  simp [judge, hp, hs, hexpect, hfield]

/-- Before the hash is reached, there is a verdict under any key. -/
theorem exists_judge_of_not_reached
    (h : ¬ (Presentable proof salt ∧ claim.screen today = .ok ())) :
    ∃ verdict, n.judge o today proof salt claim = .ok verdict ∧ verdict.isAccepted = false := by
  by_cases hpresentable : Presentable proof salt
  · cases hscreen : claim.screen today with
    | error r =>
      obtain ⟨field, hfield⟩ := Claim.exists_field_of_screen_error hscreen
      exact ⟨_, judge_of_screen_error hpresentable hscreen hfield, rfl⟩
    | ok _ => exact absurd ⟨hpresentable, hscreen⟩ h
  · exact ⟨_, judge_of_not_presentable hpresentable, rfl⟩

/-- Under an open key there is a verdict, unless the claim fails where it is looked at. -/
theorem exists_judge_of_open (hopen : o.isClosed n.committer = false)
    (hfails : ∀ why, ¬ (Presentable proof salt ∧ claim.screen today = .ok () ∧
      claim.FailsWith why)) : ∃ verdict, n.judge o today proof salt claim = .ok verdict := by
  by_cases hreached : Presentable proof salt ∧ claim.screen today = .ok ()
  · obtain ⟨hpresentable, hscreen⟩ := hreached
    obtain ⟨p, s, hp, hs⟩ := presentable_iff.1 hpresentable
    obtain ⟨⟨expected, holds⟩, hexpect⟩ := exists_expectation_of_screen hopen hscreen
      (fun why h => hfails why ⟨hpresentable, hscreen, h⟩) s
    simp only [judge, hp, hs, hexpect]
    split
    · exact ⟨_, rfl⟩
    · split
      · exact ⟨_, rfl⟩
      · exact ⟨_, rfl⟩
  · obtain ⟨verdict, hverdict, _⟩ := exists_judge_of_not_reached hreached
    exact ⟨verdict, hverdict⟩

theorem verify_of_judge {verdict : Verdict}
    (h : n.judge o today proof salt claim = .ok verdict) :
    (n.verify today proof salt claim o).1 = .ok verdict.isAccepted := by
  simp [verify, h]

theorem verify_of_judge_error {r : Refusal} (h : n.judge o today proof salt claim = .error r) :
    n.verify today proof salt claim o = (.error r, o) := by
  simp [verify, h]

theorem verify_of_open (hopen : o.isClosed n.committer = false) :
    AnsweredUnless
      (fun why => Presentable proof salt ∧ claim.screen today = .ok () ∧ claim.FailsWith why)
      (n.verify today proof salt claim o).1 := by
  constructor
  · rintro why ⟨hpresentable, hscreen, hfails⟩
    have hjudge := judge_of_expectation_error hpresentable
      (expectation_of_failsWith hopen hscreen hfails) rfl
    rw [verify_of_judge_error hjudge]
  · intro hfails
    obtain ⟨verdict, hverdict⟩ := exists_judge_of_open hopen hfails
    exact ⟨_, verify_of_judge hverdict⟩

theorem verify_of_closed (hclosed : o.isClosed n.committer = true) :
    RefusedJustWhen (fun t => Presentable proof salt ∧ claim.screen today = .ok () ∧
      claim.canonical = .ok (.ofText t)) (n.verify today proof salt claim o).1 where
  whole value h := by
    obtain ⟨hpresentable, hscreen, hvalue⟩ := h
    have hjudge := judge_of_expectation_error hpresentable
      (expectation_of_closed hclosed hscreen hvalue) rfl
    rw [verify_of_judge_error hjudge]
  torn t h := by
    obtain ⟨hpresentable, hscreen, hvalue⟩ := h
    have hjudge := judge_of_expectation_error (n := n) (o := o) hpresentable
      (expectation_of_torn hscreen hvalue) rfl
    rw [verify_of_judge_error hjudge]
  none hnot := by
    have hreached : ¬ (Presentable proof salt ∧ claim.screen today = .ok ()) := by
      rintro ⟨hpresentable, hscreen⟩
      obtain ⟨t, hvalue⟩ := Claim.exists_canonical_of_screen hscreen
      exact hnot t ⟨hpresentable, hscreen, hvalue⟩
    obtain ⟨verdict, hverdict, hno⟩ := exists_judge_of_not_reached (n := n) (o := o) hreached
    rw [verify_of_judge hverdict, hno]

/-- Nothing is accepted under a wiped key. -/
theorem isClosed_eq_false_of_verify (h : (n.verify today proof salt claim o).1 = .ok true) :
    o.isClosed n.committer = false := by
  cases hkey : o.isClosed n.committer with
  | false => rfl
  | true => exact absurd h (verify_of_closed hkey).ne_true

/-! ## Batches -/

/-- The walk over a batch comes to a torn text behind gates, and to no refusal before it. -/
def Tears (n : Notary) (o : Office) (items : List (Value × Value × Value)) (t : Torn) : Prop :=
  ∃ front proof salt rest, items = front ++ (proof, .torn t, salt) :: rest ∧
    (∀ place ∈ front, n.verifyCommitment o place.1 place.2.2 place.2.1 = .ok true) ∧
    Presentable proof salt

theorem tears_cons_iff {rest : List (Value × Value × Value)} {t : Torn} :
    n.Tears o ((proof, data, salt) :: rest) t ↔ (data = .torn t ∧ Presentable proof salt) ∨
      n.verifyCommitment o proof salt data = .ok true ∧ n.Tears o rest t := by
  constructor
  · rintro ⟨front, proof', salt', behind, heq, haccepted, hpresentable⟩
    cases front with
    | nil =>
      obtain ⟨hplace, rfl⟩ := List.cons.inj heq
      cases hplace
      exact Or.inl ⟨rfl, hpresentable⟩
    | cons place front =>
      obtain ⟨rfl, rfl⟩ := List.cons.inj heq
      exact Or.inr ⟨haccepted _ List.mem_cons_self, front, proof', salt', behind, rfl,
        fun place hplace => haccepted place (List.mem_cons_of_mem _ hplace), hpresentable⟩
  · rintro (⟨rfl, hpresentable⟩ | ⟨hfirst, front, proof', salt', behind, rfl, haccepted, hpresent⟩)
    · exact ⟨[], proof, salt, rest, rfl, nofun, hpresentable⟩
    · exact ⟨(proof, data, salt) :: front, proof', salt', behind, rfl,
        List.forall_mem_cons.2 ⟨hfirst, haccepted⟩, hpresent⟩

theorem firstFailure_of_tears {items : List (Value × Value × Value)} {t : Torn}
    (h : n.Tears o items t) (index : ℕ) :
    n.firstFailure o index items = .error (.failed (.ofTorn t)) := by
  induction items generalizing index with
  | nil =>
    obtain ⟨front, _, _, _, heq, _⟩ := h
    cases front <;> cases heq
  | cons place rest ih =>
    obtain ⟨proof, data, salt⟩ := place
    unfold firstFailure
    rcases tears_cons_iff.1 h with ⟨rfl, hpresentable⟩ | ⟨hfirst, hrest⟩
    · rw [verifyCommitment_of_torn hpresentable]
    · rw [hfirst]
      exact ih hrest (index + 1)

/-- Under an open key the walk over a batch comes to an end, or to a torn text. -/
theorem exists_firstFailure_of_open (hopen : o.isClosed n.committer = false)
    (items : List (Value × Value × Value)) (index : ℕ) (hwhole : ∀ t, ¬ n.Tears o items t) :
    ∃ found, n.firstFailure o index items = .ok found := by
  induction items generalizing index with
  | nil => exact ⟨none, rfl⟩
  | cons item rest ih =>
    obtain ⟨proof, data, salt⟩ := item
    simp only [tears_cons_iff, not_or, not_and] at hwhole
    obtain ⟨b, hb⟩ := (@verifyCommitment_of_open n o proof salt data hopen).2 (by
      rintro _ ⟨hpresentable, t, rfl, _⟩
      exact (hwhole t).1 rfl hpresentable)
    unfold firstFailure
    rw [hb]
    cases b with
    | true => exact ih (index + 1) fun t => (hwhole t).2 hb
    | false => exact ⟨some index, rfl⟩

theorem commonSize_eq_some_iff {proofs datas salts : Value} {size : ℕ} :
    commonSize proofs datas salts = some (some size) ↔
      proofs.size? = some size ∧ datas.size? = some size ∧ salts.size? = some size := by
  unfold commonSize
  cases proofs.size? with
  | none => simp
  | some a =>
    cases datas.size? with
    | none => simp
    | some b =>
      by_cases hab : a = b
      · cases salts.size? with
        | none => simp [hab]
        | some c =>
          by_cases hac : a = c
          · simp [← hab, ← hac]
          · simp only [← hab, hac, ne_eq, not_true_eq_false, if_false, Option.some.injEq,
              reduceCtorEq, false_iff, not_and]
            intro ha hb hc
            exact hac (ha.trans hc.symm)
      · simp only [ne_eq, hab, not_false_eq_true, if_true, Option.some.injEq, reduceCtorEq,
          false_iff, not_and]
        intro ha hb
        exact absurd (ha.trans hb.symm) hab

/-- What has a size gives as many elements. -/
theorem length_elements_of_size? {v : Value} {size : ℕ} (h : v.size? = some size) :
    (elements v).length = size := by
  cases v <;> simp_all [Value.size?, elements, Value.elements?, String.length_toList]

theorem exists_cons_of_size? {v : Value} {size : ℕ} (h : v.size? = some size) (hpos : 0 < size) :
    ∃ first rest, elements v = first :: rest := by
  refine List.exists_cons_of_ne_nil fun hnil => ?_
  have hlength := length_elements_of_size? h
  rw [hnil] at hlength
  exact absurd hlength (Nat.ne_of_lt hpos)

/-- Three sequences have one size from one up to the largest of a batch. -/
def ProperSizes (proofs datas salts : Value) : Prop :=
  ∃ size, commonSize proofs datas salts = some (some size) ∧ 0 < size ∧ size ≤ Limits.maxBatchSize

/-- What has a size does not fail when it is asked for it. -/
theorem sizingFailure?_of_size? {v : Value} {size : ℕ} (h : v.size? = some size) :
    v.sizingFailure? = none := by
  cases v <;> first | rfl | cases h

theorem ProperSizes.sizingFailure? {proofs datas salts : Value}
    (h : ProperSizes proofs datas salts) : Notary.sizingFailure? proofs datas salts = none := by
  obtain ⟨size, hcommon, _⟩ := h
  obtain ⟨hproofs, hdatas, hsalts⟩ := commonSize_eq_some_iff.1 hcommon
  simp [Notary.sizingFailure?, sizingFailure?_of_size? hproofs, sizingFailure?_of_size? hdatas,
    sizingFailure?_of_size? hsalts]

/-- A batch of proper sizes is walked over. -/
theorem verifyBatch_of_properSizes {proofs datas salts : Value}
    (h : ProperSizes proofs datas salts) : n.verifyBatch proofs datas salts o =
      match n.firstFailure o 0 (inStep (elements proofs) (elements datas) (elements salts)) with
      | .error r => (.error r, o)
      | .ok none => (.ok true, o)
      | .ok (some index) => (.ok false, o.note (.batchItem index)) := by
  obtain ⟨size, hcommon, hpos, hmax⟩ := id h
  have hproper : ¬ (size = 0 ∨ Limits.maxBatchSize < size) := by omega
  unfold verifyBatch
  rw [h.sizingFailure?]
  simp only [hcommon]
  exact if_neg hproper

/-- Sequences of other sizes are refused unseen. -/
theorem verifyBatch_of_not_properSizes {proofs datas salts : Value}
    (h : ¬ ProperSizes proofs datas salts)
    (hsizes : Notary.sizingFailure? proofs datas salts = none) :
    (n.verifyBatch proofs datas salts o).1 = .ok false := by
  unfold verifyBatch
  rw [hsizes]
  simp only
  split
  · rfl
  · rfl
  · rename_i size hcommon
    have himproper : size = 0 ∨ Limits.maxBatchSize < size := by
      by_contra hnot
      exact h ⟨size, hcommon, by omega, by omega⟩
    rw [if_pos himproper]

/-- What a batch fails with: the failure of a size, or the torn text that its walk comes to. -/
def BatchFails (n : Notary) (o : Office) (proofs datas salts : Value) (why : Failure) : Prop :=
  Notary.sizingFailure? proofs datas salts = some why ∨ ProperSizes proofs datas salts ∧
    ∃ t, n.Tears o (inStep (elements proofs) (elements datas) (elements salts)) t ∧ why = .ofTorn t

theorem verifyBatch_of_open (hopen : o.isClosed n.committer = false)
    (proofs datas salts : Value) : AnsweredUnless (n.BatchFails o proofs datas salts)
      (n.verifyBatch proofs datas salts o).1 := by
  constructor
  · rintro why (hsizes | ⟨hproper, t, htears, rfl⟩)
    · simp [verifyBatch, hsizes]
    · rw [verifyBatch_of_properSizes hproper, firstFailure_of_tears htears]
  · intro hnot
    simp only [BatchFails, not_or, not_and, not_exists] at hnot
    have hsizes := Option.eq_none_iff_forall_ne_some.2 fun why => (hnot why).1
    by_cases hproper : ProperSizes proofs datas salts
    · obtain ⟨found, hfound⟩ := exists_firstFailure_of_open hopen
        (inStep (elements proofs) (elements datas) (elements salts)) 0
        fun t htears => (hnot _).2 hproper t htears rfl
      rw [verifyBatch_of_properSizes hproper, hfound]
      cases found with
      | none => exact ⟨true, rfl⟩
      | some index => exact ⟨false, rfl⟩
    · exact ⟨false, verifyBatch_of_not_properSizes hproper hsizes⟩

/-- The first place of a batch of proper sizes gets past the gates, and has a text. -/
def BatchStarts (proofs datas salts : Value) (t : Text) : Prop :=
  ProperSizes proofs datas salts ∧ ∃ proof salt rest,
    inStep (elements proofs) (elements datas) (elements salts) = (proof, .ofText t, salt) :: rest ∧
    Presentable proof salt

theorem exists_inStep_of_properSizes {proofs datas salts : Value}
    (h : ProperSizes proofs datas salts) : ∃ proof data salt rest,
      inStep (elements proofs) (elements datas) (elements salts) =
        (proof, data, salt) :: rest := by
  obtain ⟨size, hcommon, hpos, hmax⟩ := h
  obtain ⟨hproofs, hdatas, hsalts⟩ := commonSize_eq_some_iff.1 hcommon
  obtain ⟨proof, proofs', hp⟩ := exists_cons_of_size? hproofs hpos
  obtain ⟨data, datas', hd⟩ := exists_cons_of_size? hdatas hpos
  obtain ⟨salt, salts', hs⟩ := exists_cons_of_size? hsalts hpos
  rw [hp, hd, hs, inStep]
  exact ⟨_, _, _, _, rfl⟩

/-- Under a wiped key a batch never gets past its first place. -/
theorem verifyBatch_of_closed (hclosed : o.isClosed n.committer = true)
    {proofs datas salts : Value} (hsizes : Notary.sizingFailure? proofs datas salts = none) :
    RefusedJustWhen (BatchStarts proofs datas salts) (n.verifyBatch proofs datas salts o).1 where
  whole d h := by
    obtain ⟨hproper, proof, salt, rest, hstep, hpresentable⟩ := h
    have hfirst := (verifyCommitment_of_closed (n := n) hclosed).whole d ⟨hpresentable, rfl⟩
    rw [verifyBatch_of_properSizes hproper, hstep, firstFailure, hfirst]
  torn t h := by
    obtain ⟨hproper, proof, salt, rest, hstep, hpresentable⟩ := h
    rw [verifyBatch_of_properSizes hproper, hstep, Value.ofText_torn, firstFailure,
      verifyCommitment_of_torn hpresentable]
  none hnot := by
    by_cases hproper : ProperSizes proofs datas salts
    · obtain ⟨proof, data, salt, rest, hstep⟩ := exists_inStep_of_properSizes hproper
      have hfirst := (@verifyCommitment_of_closed n o proof salt data hclosed).none
        fun t ⟨hpresentable, htext⟩ =>
          hnot t ⟨hproper, proof, salt, rest, htext ▸ hstep, hpresentable⟩
      rw [verifyBatch_of_properSizes hproper, hstep, firstFailure, hfirst]
    · exact verifyBatch_of_not_properSizes hproper hsizes

/-! ## What an answer depends on

Two notaries answer alike where they have one committer and their offices hold the same keys. To
issue alike takes the same randomness too. -/

section Likeness

variable {n' : Notary} {o' : Office} (hcommitter : n'.committer = n.committer)
  (hkeys : o'.keys = o.keys)
include hcommitter hkeys

theorem commit_eq_of_keys (message : String) :
    o'.commit n'.committer message = o.commit n.committer message := by
  unfold Office.commit Office.keyMac Office.keyAt
  rw [hcommitter, hkeys]

theorem commitText_eq_of_keys (t : Text) :
    o'.commitText n'.committer t = o.commitText n.committer t := by
  cases t with
  | whole message => exact commit_eq_of_keys hcommitter hkeys message
  | torn t => rfl

theorem commitTo_eq_of_keys (claim : Claim) (salt : String) :
    n'.commitTo o' claim salt = n.commitTo o claim salt := by
  unfold commitTo
  simp only [commitText_eq_of_keys hcommitter hkeys]

theorem judge_eq_of_keys (today : Date) (proof salt : Value) (claim : Claim) :
    n'.judge o' today proof salt claim = n.judge o today proof salt claim := by
  unfold judge expectation
  simp only [commitTo_eq_of_keys hcommitter hkeys]

theorem verify_eq_of_keys (today : Date) (proof salt : Value) (claim : Claim) :
    (n'.verify today proof salt claim o').1 = (n.verify today proof salt claim o).1 := by
  unfold verify
  rw [judge_eq_of_keys hcommitter hkeys]
  cases n.judge o today proof salt claim with
  | error r => rfl
  | ok verdict => rfl

theorem verifyCommitment_eq_of_keys (proof salt data : Value) :
    n'.verifyCommitment o' proof salt data = n.verifyCommitment o proof salt data := by
  unfold verifyCommitment
  simp only [commitText_eq_of_keys hcommitter hkeys]

theorem firstFailure_eq_of_keys (items : List (Value × Value × Value)) (index : ℕ) :
    n'.firstFailure o' index items = n.firstFailure o index items := by
  induction items generalizing index with
  | nil => rfl
  | cons item rest ih =>
    unfold firstFailure
    rw [verifyCommitment_eq_of_keys hcommitter hkeys, ih]

theorem verifyBatch_eq_of_keys (proofs datas salts : Value) :
    (n'.verifyBatch proofs datas salts o').1 = (n.verifyBatch proofs datas salts o).1 := by
  unfold verifyBatch
  rw [firstFailure_eq_of_keys hcommitter hkeys]
  repeat' split
  all_goals rfl

theorem prove_eq_of_keys (hentropy : o'.entropy = o.entropy) (today : Date) (claim : Claim) :
    (n'.prove today claim o').1 = (n.prove today claim o).1 := by
  have hsalt : o'.drawSalt.1 = o.drawSalt.1 := by
    unfold Office.drawSalt Office.drawText
    rw [hentropy]
  have hdrawn : o'.drawSalt.2.keys = o.drawSalt.2.keys := hkeys
  unfold prove
  cases claim.screen today with
  | error r => rfl
  | ok _ =>
    cases claim.check today with
    | error r => rfl
    | ok _ =>
      simp only [hsalt, commitTo_eq_of_keys hcommitter hdrawn]
      cases n.commitTo o.drawSalt.2 claim o.drawSalt.1 with
      | error r => rfl
      | ok proof => rfl

end Likeness

end Notary

/-! ## The ways to verify -/

/-- Under an open key every verification ends in an answer, whatever is handed in, unless a value
fails: an age of too many digits or a torn text where the claim passes its screen, a torn text
behind the gates, and a collection that fails when it is read or asked for its size. A wiped key
refuses a claim just when proof and salt get past the gates and the claim passes its screen, a text
just when proof and salt get past the gates, and a batch just when its first place does; torn texts
fail in its stead. Everything else is answered no. -/
theorem a_verification_is_answered_unless_a_value_fails (n : Notary) (o : Office) (today : Date)
    (claim : Claim) (proof salt data value validValues proofs datas salts : Value) :
    (o.isClosed n.committer = false →
      AnsweredUnless
        (fun why => Presentable proof salt ∧ claim.screen today = .ok () ∧ claim.FailsWith why)
        (n.verify today proof salt claim o).1 ∧
      AnsweredUnless (fun why => validValues.readingFailure? = some why ∨
          validValues.readingFailure? = none ∧ Presentable proof salt ∧
            (Claim.ofMembership value validValues).screen today = .ok () ∧
            (Claim.ofMembership value validValues).FailsWith why)
        (n.verifyMembership today proof salt value validValues o).1 ∧
      AnsweredUnless (fun why => Presentable proof salt ∧ ∃ t, data = .torn t ∧ why = .ofTorn t)
        (n.verifyCommitment o proof salt data) ∧
      AnsweredUnless (n.BatchFails o proofs datas salts) (n.verifyBatch proofs datas salts o).1) ∧
    (o.isClosed n.committer = true →
      RefusedJustWhen (fun t => Presentable proof salt ∧ claim.screen today = .ok () ∧
        claim.canonical = .ok (.ofText t)) (n.verify today proof salt claim o).1 ∧
      (validValues.readingFailure? = none → RefusedJustWhen (fun t => Presentable proof salt ∧
          (Claim.ofMembership value validValues).screen today = .ok () ∧ value = .ofText t)
        (n.verifyMembership today proof salt value validValues o).1) ∧
      RefusedJustWhen (fun t => Presentable proof salt ∧ data = .ofText t)
        (n.verifyCommitment o proof salt data) ∧
      (Notary.sizingFailure? proofs datas salts = none →
        RefusedJustWhen (Notary.BatchStarts proofs datas salts)
          (n.verifyBatch proofs datas salts o).1)) ∧
    (∀ why, validValues.readingFailure? = some why →
      (n.verifyMembership today proof salt value validValues o).1 = .error (.failed why)) ∧
    ∀ why, Notary.sizingFailure? proofs datas salts = some why →
      (n.verifyBatch proofs datas salts o).1 = .error (.failed why) := by
  have hread : ∀ why, validValues.readingFailure? = some why →
      (n.verifyMembership today proof salt value validValues o).1 = .error (.failed why) := by
    intro why hwhy
    simp [Notary.verifyMembership, Claim.readMembership, hwhy]
  have hsettled : validValues.readingFailure? = none →
      n.verifyMembership today proof salt value validValues o =
        n.verify today proof salt (Claim.ofMembership value validValues) o := by
    intro hnone
    simp [Notary.verifyMembership, Claim.readMembership, hnone]
  refine ⟨fun hopen => ⟨Notary.verify_of_open hopen, ⟨?_, ?_⟩,
      Notary.verifyCommitment_of_open hopen, Notary.verifyBatch_of_open hopen proofs datas salts⟩,
    fun hclosed => ⟨Notary.verify_of_closed hclosed, fun hnone => ?_,
      Notary.verifyCommitment_of_closed hclosed, Notary.verifyBatch_of_closed hclosed⟩,
    hread, fun why hsizes => ?_⟩
  · rintro why (hwhy | ⟨hnone, hfails⟩)
    · exact hread why hwhy
    · rw [hsettled hnone]
      exact (Notary.verify_of_open hopen).1 why hfails
  · intro hnot
    simp only [not_or, not_and] at hnot
    have hnone := Option.eq_none_iff_forall_ne_some.2 fun why => (hnot why).1
    rw [hsettled hnone]
    refine (Notary.verify_of_open hopen).2 ?_
    rintro why ⟨hpresentable, hscreen, hfails⟩
    exact (hnot why).2 hnone hpresentable hscreen hfails
  · rw [hsettled hnone]
    have hlaw := @Notary.verify_of_closed n o today (.ofMembership value validValues) proof salt
      hclosed
    simpa [Claim.ofMembership, Claim.canonical] using hlaw
  · simp [Notary.verifyBatch, hsizes]

/-- A signalling number that is none is answered under either key, and of a text the wiped key is
asked in vain. -/
theorem a_trial_text_is_refused_by_a_wiped_key :
    (∃ b, (Notary.trial.verify Date.trial (.text "proof") (.text Office.trial.drawSalt.1)
      (.balance (.decimal (.nan false true 0)) (.int 5)) Office.trial).1 = .ok b) ∧
    (Notary.trial.verify Date.trial (.text "proof") (.text Office.trial.drawSalt.1)
      (.balance (.decimal (.nan false true 0)) (.int 5))
      (Office.trial.close Notary.trial.committer)).1 = .ok false ∧
    Notary.trial.verifyCommitment (Office.trial.close Notary.trial.committer) (.text "proof")
      (.text Office.trial.drawSalt.1) (.text "gold") = .error (.key .wiped) := by
  have hpresentable : Presentable (.text "proof") (.text Office.trial.drawSalt.1) :=
    ⟨⟨.whole "proof", rfl, by decide⟩, _, Office.trial.saltText?_drawSalt⟩
  have hlaw := fun o => a_verification_is_answered_unless_a_value_fails Notary.trial o Date.trial
    (.balance (.decimal (.nan false true 0)) (.int 5)) (.text "proof")
    (.text Office.trial.drawSalt.1) (.text "gold") .none .none .none .none .none
  obtain ⟨hanswered, _⟩ := (hlaw Office.trial).1 rfl
  obtain ⟨hclaim, _, htext, _⟩ := (hlaw (Office.trial.close Notary.trial.committer)).2.1 rfl
  refine ⟨hanswered.2 ?_, hclaim.none ?_, htext.whole "gold" ⟨hpresentable, rfl⟩⟩
  · rintro why ⟨_, hscreen, _⟩
    cases hscreen
  · rintro t ⟨_, hscreen, _⟩
    cases hscreen

/-- Under an open key nobody answers whether somebody is of an age of too many digits. -/
theorem a_trial_age_of_too_many_digits_is_not_answered :
    Office.trial.isClosed Notary.trial.committer = false ∧
      ¬ ∃ b, (Notary.trial.verify Date.trial (.text "proof") (.text Office.trial.drawSalt.1)
        (.age (.date Date.first) (.int (10 ^ Limits.maxDigits : ℕ))) Office.trial).1 = .ok b := by
  have hpresentable : Presentable (.text "proof") (.text Office.trial.drawSalt.1) :=
    ⟨⟨.whole "proof", rfl, by decide⟩, _, Office.trial.saltText?_drawSalt⟩
  have hscreen := Claim.screen_eq_ok_iff.2 (allMet_trial_age (10 ^ Limits.maxDigits))
  have hfails := (Notary.verify_of_open (n := Notary.trial) (o := Office.trial) rfl).1 _
    ⟨hpresentable, hscreen, .age le_rfl⟩
  refine ⟨rfl, ?_⟩
  rintro ⟨b, hb⟩
  rw [hfails] at hb
  cases hb

end Attestation
