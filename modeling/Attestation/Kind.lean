-- The kinds of claims that can be attested. A kind has a name, and most callers know it by that;
-- the kinds themselves are values too, and show themselves with a label.
namespace Attestation.Claim

inductive Kind where
  | age
  | balance
  | membership
  | range
  | timeCondition
  deriving DecidableEq, Repr

def Kind.all : List Kind := [.age, .balance, .membership, .range, .timeCondition]

def Kind.name : Kind → String
  | .age => "age"
  | .balance => "balance"
  | .membership => "membership"
  | .range => "range"
  | .timeCondition => "time_condition"

/-- A kind among all kinds, in running text. -/
def Kind.label (kind : Kind) : String := "PredicateType." ++ kind.name.toUpper

end Attestation.Claim
