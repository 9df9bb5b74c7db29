-- The notary issues bundles for claims that hold, and verifies claims against bundles.
-- Issuing screens the claim, checks it, draws a salt and commits, in this order. A
-- verification ends in one verdict, and the answer and the journal follow from it alone.
import Attestation.Bundle
import Attestation.Office

namespace Attestation

/-- A notary works with a committer, and asks for an age that was settled when it was
appointed. -/
structure Notary where
  committer : Committer
  requiredAge : Nat
  deriving DecidableEq, Repr

/-! ## Gates -/

/-- A proof is a text that is not empty. -/
def proofText? (v : Value) : Option Text := v.toText?.filter fun t => !t.isEmpty

/-- A salt is a text of strict Base64 with enough bytes in it. -/
def saltText? : Value → Option String
  | .text s =>
    match Base64.decode s.toList with
    | some bs => if Limits.minSaltSize ≤ bs.length then some s else none
    | none => none
  | _ => none

/-- What comes out of a gate is the text that went in. -/
theorem eq_ofText_of_proofText? {v : Value} {t : Text} (h : proofText? v = some t) :
    v = .ofText t :=
  Value.toText?_eq_some_iff.1 (Option.eq_some_of_filter_eq_some h)

theorem eq_text_of_saltText? {v : Value} {s : String} (h : saltText? v = some s) :
    v = .text s := by
  unfold saltText? at h
  split at h
  · split at h
    · split at h
      · exact congrArg Value.text (Option.some.inj h)
      · cases h
    · cases h
  · cases h

namespace Notary

/-! ## Appointment -/

/-- A notary for a committer, with an age or the one that the settings give. -/
def appoint (committer : Option Committer) (age : Value) (s : Settings) : Except Refusal Notary :=
  match committer with
  | none => .error .noCommitter
  | some c => (s.requiredAge age).map fun n => ⟨c, n⟩

/-- A claim about an age; without one of its own it takes the notary's. -/
def ageClaim (n : Notary) (dateOfBirth age : Value) : Claim :=
  match age with
  | .none => .age dateOfBirth (.int n.requiredAge)
  | age => .age dateOfBirth age

/-! ## Issuing -/

/-- The commitment to a claim under a salt. -/
def commitTo (n : Notary) (o : Office) (claim : Claim) (salt : String) : Except Refusal String :=
  match claim.canonical with
  | .error r => .error r
  | .ok v => match v.toText? with
    | some t => o.commitText n.committer (t.append salt)
    | none => .error (.mismatch (.joining v.kindName))

/-- Issues a bundle for a claim that holds on a day. -/
def prove (n : Notary) (today : Date) (claim : Claim) (o : Office) :
    Except Refusal Bundle × Office :=
  match claim.screen today with
  | .error r => (.error r, o)
  | .ok () =>
    match claim.check today with
    | .error r => (.error r, o)
    | .ok () =>
      let (salt, o) := o.drawSalt
      match n.commitTo o claim salt with
      | .error r => (.error r, o)
      | .ok proof =>
        (.ok ⟨.text proof, .text salt, .text claim.kind.name⟩, o.note (.issued claim.kind))

/-- Issues a bundle for a membership. The valid values are read before anything else, and where
that fails there is no claim. -/
def proveMembership (n : Notary) (today : Date) (value validValues : Value) (o : Office) :
    Except Refusal Bundle × Office :=
  match Claim.readMembership value validValues with
  | .error r => (.error r, o)
  | .ok claim => n.prove today claim o

/-! ## Verifying -/

/-- How a verification ends. -/
inductive Verdict where
  | accepted
  | unusable
  | invalid (field : String)
  | mismatched
  | lapsed
  deriving DecidableEq, Repr

def Verdict.isAccepted (v : Verdict) : Bool := v == .accepted

/-- What is noted down for a verdict: nothing for a claim that is accepted. -/
def Verdict.entry? (kind : Claim.Kind) : Verdict → Option Entry
  | .accepted => none
  | .unusable => some (.unusable kind)
  | .invalid field => some (.invalid kind field)
  | .mismatched => some (.mismatched kind)
  | .lapsed => some (.lapsed kind)

/-- The commitment that a claim should have, and whether the claim holds. -/
def expectation (n : Notary) (o : Office) (today : Date) (claim : Claim) (salt : String) :
    Except Refusal (String × Bool) :=
  match claim.screen today with
  | .error r => .error r
  | .ok () =>
    match n.commitTo o claim salt with
    | .error r => .error r
    | .ok expected => (claim.holds today).map fun holds => (expected, holds)

/-- Verifies a claim. Inputs that are at fault end in a verdict; all other refusals are
handed on. -/
def judge (n : Notary) (o : Office) (today : Date) (proof salt : Value) (claim : Claim) :
    Except Refusal Verdict :=
  match proofText? proof, saltText? salt with
  | some p, some s =>
    match n.expectation o today claim s with
    | .error r => match r.field? with
      | some field => .ok (.invalid field)
      | none => .error r
    | .ok (expected, holds) =>
      if !Comparison.sameText expected p then .ok .mismatched
      else if !holds then .ok .lapsed
      else .ok .accepted
  | _, _ => .ok .unusable

def verify (n : Notary) (today : Date) (proof salt : Value) (claim : Claim) (o : Office) :
    Except Refusal Bool × Office :=
  match n.judge o today proof salt claim with
  | .error r => (.error r, o)
  | .ok verdict =>
    let noted := match verdict.entry? claim.kind with
      | some e => o.note e
      | none => o
    (.ok verdict.isAccepted, noted)

/-- Verifies a membership, of which the valid values are read before anything else. -/
def verifyMembership (n : Notary) (today : Date) (proof salt value validValues : Value)
    (o : Office) : Except Refusal Bool × Office :=
  match Claim.readMembership value validValues with
  | .error r => (.error r, o)
  | .ok claim => n.verify today proof salt claim o

/-- Verifies a commitment to a canonical text, without any claim about it. -/
def verifyCommitment (n : Notary) (o : Office) (proof salt data : Value) : Except Refusal Bool :=
  match proofText? proof, saltText? salt, data.toText? with
  | some p, some s, some d =>
    (o.commitText n.committer (d.append s)).map fun mac => Comparison.sameText (.whole mac) p
  | _, _, _ => .ok false

end Notary

end Attestation
