-- The claims that can be attested. A claim holds raw values; `screen` looks at the
-- preconditions on them, `canonical` gives the text that a commitment is made to, and
-- `check` looks whether the claim is true on a day.
import Attestation.Reading
import Attestation.Calendar.Age

namespace Attestation

inductive Claim where
  /-- Somebody born on a day has reached an age. -/
  | age (dateOfBirth requiredAge : Value)
  /-- A balance covers an amount. -/
  | balance (balance requested : Value)
  /-- A value is one of the valid ones. -/
  | membership (value validValues : Value)
  /-- A value lies between two bounds, or on one. -/
  | range (value low high : Value)
  /-- An event fell on a day or after it. -/
  | timeCondition (event condition : Value)

namespace Claim

theorem names_listed : Kind.all.map Kind.name = predicateNames := rfl

/-- The kind that a value names, or is. -/
def Kind.ofValue? : Value → Option Kind
  | .text s => Kind.all.find? fun k => k.name == s
  | .claimKind kind => some kind
  | _ => none

/-- The kind that a value names or is, or the refusal that lists all kinds. -/
def Kind.find (v : Value) : Except Refusal Kind :=
  match Kind.ofValue? v with
  | some k => .ok k
  | none => .error (Refusal.unknownPredicate v).raised

def kind : Claim → Kind
  | .age .. => .age
  | .balance .. => .balance
  | .membership .. => .membership
  | .range .. => .range
  | .timeCondition .. => .timeCondition

/-- A claim of membership. The valid values are read here and kept, since a source may
give them once only. -/
def ofMembership (value validValues : Value) : Claim := .membership value validValues.settled

/-- A claim of membership over valid values that may fail when they are read. -/
def readMembership (value validValues : Value) : Except Refusal Claim :=
  match validValues.readingFailure? with
  | some why => .error (.failed why)
  | none => .ok (ofMembership value validValues)

/-! ## Preconditions -/

/-- An age that can be asked for: a whole number of years, zero or more. -/
def isThreshold : Value → Bool
  | .int n => 0 ≤ n
  | _ => false

def screen (today : Date) : Claim → Except Refusal Unit
  | .age dateOfBirth requiredAge => do
    let _ ← Reading.notFuture "date_of_birth" dateOfBirth today
    if isThreshold requiredAge then .ok () else .error (.argument "required_age" .threshold)
  | .balance held wanted => do
    let _ ← Reading.nonNegative "balance" held
    let _ ← Reading.nonNegative "requested" wanted
    .ok ()
  | .membership value validValues => do
    let _ ← Reading.filledText "value" value
    let _ ← Reading.members "valid_values" validValues
    .ok ()
  | .range value low high => do
    let _ ← Reading.amount "value" value
    let _ ← Reading.bounds low high
    .ok ()
  | .timeCondition event condition => do
    let _ ← Reading.day "event_date" event
    let _ ← Reading.day "condition_date" condition
    .ok ()

/-! ## The committed text -/

/-- What a commitment is made to. It is text whenever the claim passes its screen, though it may be
a torn one where the claim is one of membership. -/
def canonical : Claim → Except Refusal Value
  | .age dateOfBirth _ => (Reading.dayText "date_of_birth" dateOfBirth).map .text
  | .balance held _ => (Reading.amountText "balance" held).map .text
  | .membership value _ => .ok value
  | .range value _ _ => (Reading.amountText "value" value).map .text
  | .timeCondition event _ => (Reading.dayText "event_date" event).map .text

/-! ## Truth -/

/-- A count of years falls short of a threshold; only numbers can be compared with it. It
falls short of what is infinitely large, and not of a double that is no number. A decimal that is
no number has no place in the order. -/
def fallsShort (years : Int) (threshold : Value) : Except Refusal Bool :=
  match threshold.number? with
  | some d => .ok ((Decimal.ofInt years).lt d)
  | none =>
    match threshold.infinite?, threshold with
    | some negative, _ => .ok !negative
    | none, .float _ => .ok false
    | none, .decimal _ => .error (.failed .unordered)
    | none, v => .error (.mismatch (.ordering v.kindName))

/-- Why a value cannot be looked for among members: by the first part of it that cannot be one. -/
def unsought (v : Value) : KindMismatch :=
  match v.loosePart?.getD v with
  | .decimal _ => .signalSought
  | part => .membership part.kindName

/-- Looks whether the claim is true; if it is not, the refusal says by how much. A refusal that
cannot be worded comes to the failure of its wording. -/
def check (today : Date) : Claim → Except Refusal Unit
  | .age dateOfBirth requiredAge => do
    let birth ← Reading.day "date_of_birth" dateOfBirth
    let years := fullYears birth today
    if ← fallsShort years requiredAge then
      .error (Refusal.tooYoung requiredAge (.int years)).raised
    else .ok ()
  | .balance held wanted => do
    let h ← Reading.amount "balance" held
    let w ← Reading.amount "requested" wanted
    if h.lt w then .error (.balanceShort (.decimal (.finite h)) (.decimal (.finite w)))
    else .ok ()
  | .membership value validValues => do
    let members ← Reading.members "valid_values" validValues
    if !value.isSought then .error (.mismatch (unsought value))
    else if value.toText?.any members.contains then .ok ()
    else .error (Refusal.notMember value).raised
  | .range value low high => do
    let v ← Reading.amount "value" value
    let l ← Reading.amount "min_value" low
    let h ← Reading.amount "max_value" high
    if l.le v && v.le h then .ok ()
    else .error (.outOfRange (.decimal (.finite v)) (.decimal (.finite l)) (.decimal (.finite h)))
  | .timeCondition event condition => do
    let e ← Reading.day "event_date" event
    let c ← Reading.day "condition_date" condition
    if e.lt c then .error (.tooEarly (.date e) (.date c)) else .ok ()

/-- The claim is true on a day. Only a refusal for being false counts as an answer. -/
def holds (today : Date) (c : Claim) : Except Refusal Bool :=
  match c.check today with
  | .ok () => .ok true
  | .error r => if r.isUnsatisfied then .ok false else .error r

end Claim

end Attestation
