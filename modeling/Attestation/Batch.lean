-- Many commitments at once: three sequences of one length, walked in step. The batch
-- stands if each of its commitments does, and the journal names the first that does not.
import Attestation.Notary

namespace Attestation.Notary

/-- The proof, the text and the salt of each place. -/
def inStep : List Value → List Value → List Value → List (Value × Value × Value)
  | proof :: proofs, data :: datas, salt :: salts => (proof, data, salt) :: inStep proofs datas salts
  | _, _, _ => []

/-- The first place, counted from `index`, whose commitment does not verify. -/
def firstFailure (n : Notary) (o : Office) : Nat → List (Value × Value × Value) →
    Except Refusal (Option Nat)
  | _, [] => .ok none
  | index, (proof, data, salt) :: rest =>
    match n.verifyCommitment o proof salt data with
    | .error r => .error r
    | .ok true => n.firstFailure o (index + 1) rest
    | .ok false => .ok (some index)

/-- The common size of three sequences: `none` if one that has to be asked has no size,
and `some none` if two of them differ. -/
def commonSize (proofs data salts : Value) : Option (Option Nat) :=
  match proofs.size? with
  | none => none
  | some size =>
    match data.size? with
    | none => none
    | some other =>
      if size ≠ other then some none
      else match salts.size? with
        | none => none
        | some other => some (if size = other then some size else none)

/-- What asking three sequences for their sizes fails with. One is asked after another, and no
further than to the first that has no size or another one. -/
def sizingFailure? (proofs data salts : Value) : Option Failure :=
  match proofs.sizingFailure? with
  | some why => some why
  | none => match data.sizingFailure? with
    | some why => if proofs.size?.isSome then some why else none
    | none =>
      if proofs.size?.isSome && proofs.size? == data.size? then salts.sizingFailure? else none

/-- The elements of a sequence in order. -/
def elements (v : Value) : List Value := v.elements?.getD []

def verifyBatch (n : Notary) (proofs data salts : Value) (o : Office) :
    Except Refusal Bool × Office :=
  match sizingFailure? proofs data salts with
  | some why => (.error (.failed why), o)
  | none => match commonSize proofs data salts with
    | none => (.ok false, o)
    | some none => (.ok false, o.note .batchLengths)
    | some (some size) =>
      if size = 0 ∨ Limits.maxBatchSize < size then (.ok false, o.note (.batchSize size))
      else match n.firstFailure o 0 (inStep (elements proofs) (elements data) (elements salts)) with
        | .error r => (.error r, o)
        | .ok none => (.ok true, o)
        | .ok (some index) => (.ok false, o.note (.batchItem index))

end Attestation.Notary
