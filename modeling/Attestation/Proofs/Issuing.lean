-- The laws of issuing and verifying under an open key. A proof is the keyed hash of the
-- canonical text and the salt. It is issued for a claim that passes its screen and its
-- check, and accepted for a claim that passes both and has the same hash.
import Attestation.Proofs.SaltText
import Attestation.Proofs.Guards

namespace Attestation

/-! ## The hash of a message -/

/-- The proof text that a key makes for a message. -/
def macText (key : List UInt8) (message : String) : String :=
  Base64.text (Hmac.mac key (Utf8.ofString message))

/-- Two different messages with one hash under a key. -/
def Collision (key : List UInt8) (m m' : String) : Prop :=
  m ≠ m' ∧ Hmac.mac key (Utf8.ofString m) = Hmac.mac key (Utf8.ofString m')

theorem macText_eq_iff (key : List UInt8) (m m' : String) :
    macText key m = macText key m' ↔ m = m' ∨ Collision key m m' := by
  unfold macText Collision
  rw [Base64.text_inj]
  constructor
  · intro h
    by_cases hm : m = m'
    · exact Or.inl hm
    · exact Or.inr ⟨hm, h⟩
  · rintro (rfl | ⟨_, h⟩)
    · rfl
    · exact h

theorem proofText?_macText (key : List UInt8) (m : String) :
    proofText? (.text (macText key m)) = some (.whole (macText key m)) := by
  apply proofText?_text_of_ne_nil
  intro hnil
  have hlength := Hmac.mac_length key (Utf8.ofString m)
  rw [hnil] at hlength
  cases hlength

namespace Office

/-- The bytes of a committer's key. -/
def keyBytes (o : Office) (c : Committer) : List UInt8 := (o.keyAt c.key).buffer

variable {o o' : Office} {c : Committer}

theorem keyBytes_of_keys (hkeys : o'.keys = o.keys) (c : Committer) :
    o'.keyBytes c = o.keyBytes c := by
  unfold keyBytes keyAt
  rw [hkeys]

theorem isClosed_of_keys (hkeys : o'.keys = o.keys) (c : Committer) :
    o'.isClosed c = o.isClosed c := by
  unfold isClosed keyAt
  rw [hkeys]

theorem commit_of_open (hopen : o.isClosed c = false)
    (message : String) : o.commit c message = .ok (macText (o.keyBytes c) message) := by
  unfold isClosed at hopen
  simp [commit, keyMac, SecretKey.mac, hopen, Except.mapError, Except.map, macText, keyBytes]

end Office

/-! ## Claims that pass their screen -/

namespace Claim

/-- A claim that passes its screen has a canonical text. -/
theorem exists_canonical_of_screen {today : Date} {claim : Claim}
    (h : claim.screen today = .ok ()) : ∃ t, claim.canonical = .ok (.ofText t) := by
  cases claim with
  | age dateOfBirth requiredAge =>
    obtain ⟨d, hd, _⟩ := bind_eq_ok_iff.1 h
    have hday : Reading.day "date_of_birth" dateOfBirth = .ok d :=
      Reading.day_eq_ok_iff.2 (Reading.notFuture_eq_ok_iff.1 hd).1
    exact ⟨.whole d.text, by simp [canonical, Reading.dayText_of_day hday, Except.map]⟩
  | balance held wanted =>
    obtain ⟨d, hd, _⟩ := bind_eq_ok_iff.1 h
    have hamount : Reading.amount "balance" held = .ok d :=
      Reading.amount_eq_ok_iff.2 (Reading.nonNegative_eq_ok_iff.1 hd).1
    exact ⟨.whole d.canonical, by simp [canonical, Reading.amountText, hamount, Except.map]⟩
  | membership value validValues =>
    obtain ⟨t, ht, _⟩ := bind_eq_ok_iff.1 h
    have htext := (Reading.filledText_eq_ok_iff.1 ht).1
    exact ⟨t, by simp [canonical, htext]⟩
  | range value low high =>
    obtain ⟨d, hd, _⟩ := bind_eq_ok_iff.1 h
    exact ⟨.whole d.canonical, by simp [canonical, Reading.amountText, hd, Except.map]⟩
  | timeCondition event condition =>
    obtain ⟨d, hd, _⟩ := bind_eq_ok_iff.1 h
    exact ⟨.whole d.text, by simp [canonical, Reading.dayText_of_day hd, Except.map]⟩

theorem holds_eq_true_iff {today : Date} {claim : Claim} :
    claim.holds today = .ok true ↔ claim.check today = .ok () := by
  unfold holds
  cases claim.check today with
  | ok _ => simp
  | error r =>
    simp only
    split <;> simp

end Claim

namespace Notary

variable {n : Notary} {o : Office} {today : Date} {claim : Claim}

/-! ## Issuing -/

theorem commitTo_of_canonical (hopen : o.isClosed n.committer = false) {value : String}
    (hvalue : claim.canonical = .ok (.text value)) (salt : String) :
    n.commitTo o claim salt = .ok (macText (o.keyBytes n.committer) (value ++ salt)) := by
  have htext : (Value.text value).toText? = some (.whole value) := rfl
  simp [commitTo, hvalue, htext, Text.append, Office.commitText, Office.commit_of_open hopen]

/-- A torn text is not committed to, whatever key there is. -/
theorem commitTo_of_torn {t : Torn} (hvalue : claim.canonical = .ok (.torn t)) (salt : String) :
    n.commitTo o claim salt = .error (.failed (.ofTorn t)) := by
  have htext : (Value.torn t).toText? = some (.torn t) := rfl
  simp [commitTo, hvalue, htext, Text.append, Office.commitText, Failure.ofTorn_append]

/-- The bundle of a canonical text under the next salt. -/
def bundleFor (n : Notary) (o : Office) (kind : Claim.Kind) (value : String) : Bundle :=
  ⟨.text (macText (o.keyBytes n.committer) (value ++ o.drawSalt.1)), .text o.drawSalt.1,
    .text kind.name⟩

theorem prove_of_screen_error {r : Refusal} (h : claim.screen today = .error r) :
    n.prove today claim o = (.error r, o) := by
  simp [prove, h]

theorem prove_of_check_error {r : Refusal} (hscreen : claim.screen today = .ok ())
    (h : claim.check today = .error r) : n.prove today claim o = (.error r, o) := by
  simp [prove, hscreen, h]

theorem prove_of_check (hopen : o.isClosed n.committer = false)
    (hscreen : claim.screen today = .ok ()) (hcheck : claim.check today = .ok ())
    {value : String} (hvalue : claim.canonical = .ok (.text value)) :
    n.prove today claim o =
      (.ok (n.bundleFor o claim.kind value), o.drawSalt.2.note (.issued claim.kind)) := by
  have hcommit : n.commitTo o.drawSalt.2 claim o.drawSalt.1 =
      .ok (macText (o.keyBytes n.committer) (value ++ o.drawSalt.1)) :=
    commitTo_of_canonical hopen hvalue _
  simp [prove, hscreen, hcheck, hcommit, bundleFor]

/-- For a torn text a salt is drawn, and no bundle is issued. -/
theorem prove_of_check_torn (hscreen : claim.screen today = .ok ())
    (hcheck : claim.check today = .ok ()) {t : Torn} (hvalue : claim.canonical = .ok (.torn t)) :
    n.prove today claim o = (.error (.failed (.ofTorn t)), o.drawSalt.2) := by
  simp [prove, hscreen, hcheck, commitTo_of_torn hvalue]

/-- A bundle for a membership is one for the claim that its valid values were read into. -/
theorem exists_prove_of_proveMembership {value validValues : Value} {b : Bundle}
    (h : (n.proveMembership today value validValues o).1 = .ok b) :
    ∃ claim, Claim.readMembership value validValues = .ok claim ∧
      (n.prove today claim o).1 = .ok b := by
  unfold proveMembership at h
  cases hread : Claim.readMembership value validValues with
  | error r => simp [hread] at h
  | ok claim =>
    rw [hread] at h
    exact ⟨claim, rfl, h⟩

theorem proveMembership_of_readingFailure {value validValues : Value} {why : Failure}
    (h : validValues.readingFailure? = some why) :
    n.proveMembership today value validValues o = (.error (.failed why), o) := by
  simp [proveMembership, Claim.readMembership, h]

/-- A bundle is issued for a claim that passes its screen and its check and commits to a whole
text, and for no other. -/
theorem prove_eq_ok_iff (hopen : o.isClosed n.committer = false) {b : Bundle} :
    (n.prove today claim o).1 = .ok b ↔ claim.screen today = .ok () ∧ claim.check today = .ok () ∧
      ∃ value, claim.canonical = .ok (.text value) ∧ n.bundleFor o claim.kind value = b := by
  constructor
  · intro h
    cases hscreen : claim.screen today with
    | error r => simp [prove_of_screen_error hscreen] at h
    | ok _ =>
      cases hcheck : claim.check today with
      | error r => simp [prove_of_check_error hscreen hcheck] at h
      | ok _ =>
        obtain ⟨value | t, hvalue⟩ := Claim.exists_canonical_of_screen hscreen
        · rw [prove_of_check hopen hscreen hcheck hvalue, Except.ok.injEq] at h
          exact ⟨rfl, rfl, value, hvalue, h⟩
        · rw [prove_of_check_torn hscreen hcheck hvalue] at h
          cases h
  · rintro ⟨hscreen, hcheck, value, hvalue, rfl⟩
    rw [prove_of_check hopen hscreen hcheck hvalue]

/-- Issuing leaves every key as it was. -/
theorem keys_prove (n : Notary) (o : Office) (today : Date) (claim : Claim) :
    (n.prove today claim o).2.keys = o.keys := by
  unfold prove
  cases claim.screen today with
  | error r => rfl
  | ok _ =>
    cases claim.check today with
    | error r => rfl
    | ok _ =>
      have hdrawn := o.keys_drawSalt
      simp only
      cases n.commitTo o.drawSalt.2 claim o.drawSalt.1 with
      | error r => exact hdrawn
      | ok proof => exact hdrawn

theorem keyBytes_prove (c : Committer) : (n.prove today claim o).2.keyBytes c = o.keyBytes c :=
  Office.keyBytes_of_keys (keys_prove n o today claim) c

theorem isClosed_prove (c : Committer) : (n.prove today claim o).2.isClosed c = o.isClosed c :=
  Office.isClosed_of_keys (keys_prove n o today claim) c

/-! ## Verifying -/

theorem expectation_eq_ok_iff (hopen : o.isClosed n.committer = false) {salt expected : String}
    {holds : Bool} :
    n.expectation o today claim salt = .ok (expected, holds) ↔
      claim.screen today = .ok () ∧ claim.holds today = .ok holds ∧
        ∃ value, claim.canonical = .ok (.text value) ∧
          macText (o.keyBytes n.committer) (value ++ salt) = expected := by
  unfold expectation
  cases hscreen : claim.screen today with
  | error r => simp
  | ok _ =>
    obtain ⟨value | t, hvalue⟩ := Claim.exists_canonical_of_screen hscreen
    · rw [Value.ofText_whole] at hvalue
      simp only [commitTo_of_canonical hopen hvalue, map_eq_ok_iff, hvalue, Prod.mk.injEq,
        Except.ok.injEq, Value.text.injEq, exists_eq_left', true_and]
      constructor
      · rintro ⟨_, hholds, hexpected, rfl⟩
        exact ⟨hholds, hexpected⟩
      · rintro ⟨hholds, hexpected⟩
        exact ⟨holds, hholds, hexpected, rfl⟩
    · rw [Value.ofText_torn] at hvalue
      simp [commitTo_of_torn hvalue, hvalue]

theorem judge_eq_accepted_iff {proof salt : Value} :
    n.judge o today proof salt claim = .ok .accepted ↔
      ∃ p s, proofText? proof = some (.whole p) ∧ saltText? salt = some s ∧
        n.expectation o today claim s = .ok (p, true) := by
  unfold judge
  cases hproof : proofText? proof with
  | none => simp
  | some t =>
    cases hsalt : saltText? salt with
    | none => simp
    | some s =>
      simp only [Option.some.injEq, ↓existsAndEq, true_and]
      cases hexpect : n.expectation o today claim s with
      | error r => cases hfield : r.field? <;> simp [hfield]
      | ok answer =>
        obtain ⟨expected, holds⟩ := answer
        by_cases hsame : .whole expected = t
        · subst hsame
          have hequal := (Comparison.sameText_iff (.whole expected) (.whole expected)).2 rfl
          cases holds <;> simp [hequal]
        · have hdiffer := mt (Comparison.sameText_iff (.whole expected) t).1 hsame
          simp only [hdiffer, Bool.not_false, if_true]
          constructor
          · nofun
          · rintro ⟨p, rfl, heq⟩
            cases heq
            exact absurd rfl hsame

theorem verify_eq_true_iff_accepted {proof salt : Value} :
    (n.verify today proof salt claim o).1 = .ok true ↔
      n.judge o today proof salt claim = .ok .accepted := by
  unfold verify
  cases n.judge o today proof salt claim with
  | error r => simp
  | ok verdict => cases verdict <;> simp [Verdict.isAccepted]

/-- A claim is accepted just when both gates let proof and salt through, the claim passes its
screen and holds, and the proof is the hash of its canonical text and the salt. -/
theorem verify_eq_true_iff (hopen : o.isClosed n.committer = false) {proof salt : Value} :
    (n.verify today proof salt claim o).1 = .ok true ↔
      ∃ p s, proofText? proof = some (.whole p) ∧ saltText? salt = some s ∧
        claim.screen today = .ok () ∧ claim.holds today = .ok true ∧
        ∃ value, claim.canonical = .ok (.text value) ∧
          macText (o.keyBytes n.committer) (value ++ s) = p := by
  simp only [verify_eq_true_iff_accepted, judge_eq_accepted_iff, expectation_eq_ok_iff hopen]

end Notary

/-! ## An office for trials -/

/-- One open key, and bytes that count up in steps of seven. -/
def Office.trial : Office where
  keys := ⟨[⟨List.replicate Limits.keySize 7, false, rfl⟩]⟩
  entropy := ⟨fun request place => UInt8.ofNat (215 + 31 * request + 7 * place), 0⟩
  settings := Settings.initial
  journal := []

def Notary.trial : Notary := ⟨⟨0⟩, Limits.defaultRequiredAge⟩

def Date.trial : Date := ⟨2025, 6, 15, by decide⟩

theorem Office.drawSalt_trial :
    Office.trial.drawSalt.1 = "197l7PP6AQgPFh0kKzI5QEdOVVxjanF4f4aNlJuiqbA=" := by
  decide +kernel

end Attestation
