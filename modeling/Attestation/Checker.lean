-- A checker answers what a remote verifier is asked: does this proof commit to this text
-- under this salt? It stands on a notary and adds a way to insist on the answer.
import Attestation.Notary

namespace Attestation

structure Checker where
  notary : Notary

namespace Checker

def verifyProof (c : Checker) (o : Office) (proof salt data : Value) : Except Refusal Bool :=
  c.notary.verifyCommitment o proof salt data

def verifyBundle (c : Checker) (o : Office) (b : Bundle) (data : Value) : Except Refusal Bool :=
  c.verifyProof o b.proof b.salt data

/-- The kind that a bundle names, as it reads in a message. -/
def subject (b : Bundle) : String :=
  if b.predicate.isVacant then "unknown" else b.predicate.display

/-- Refuses a bundle that does not verify. -/
def requireBundle (c : Checker) (o : Office) (b : Bundle) (data : Value) : Except Refusal Unit :=
  match c.verifyBundle o b data with
  | .error r => .error r
  | .ok true => .ok ()
  | .ok false => .error (.unverified (subject b ++ " proof does not commit to the revealed value"))

/-- What a checker says of itself. -/
def info : List (Value × Value) :=
  [(.text "name", .text "local"), (.text "algorithm", .text "HMAC-SHA256"),
   (.text "min_salt_bytes", .int Limits.minSaltSize)]

end Checker

end Attestation
