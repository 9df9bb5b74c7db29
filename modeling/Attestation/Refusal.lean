-- Why a request is refused. Each cause is a constructor with what the message needs;
-- the wording, the kind and the payload that a caller can report are functions of it.
import Attestation.Limits
import Attestation.Value.Literal

namespace Attestation

/-! ## Causes -/

/-- Why a key cannot be used. -/
inductive KeyFault where
  | notBytes (kind : String)
  | wrongSize (size : Nat)
  | blank
  | notBase64
  | unsupported (kind : String)
  | wiped
  | other (text : String)
  deriving DecidableEq, Repr

/-- Why no notary can be set up. -/
inductive SetupFault where
  | noKey
  | other (text : String)
  deriving DecidableEq, Repr

/-- Why a value was not read. -/
inductive Unreadable where
  | unparsed
  | truthValue
  | notFinite
  | notNumber (kind : String)
  | beyondBounds
  | notDay (kind : String)
  | day (fault : Date.Fault)
  | notText
  | notMapping
  | invalidJson
  | invalidCbor
  | noFields
  | version
  | predicate
  deriving DecidableEq, Repr

/-- Which precondition a readable value breaks. -/
inductive ArgumentFault where
  | blank
  | negative
  | future
  | crossed (low high : Decimal)
  | notCollection
  | memberKinds
  | blankMembers
  | threshold
  deriving DecidableEq, Repr

/-- A value of a kind that an operation cannot take at all. -/
inductive KindMismatch where
  | ordering (kind : String)
  | membership (kind : String)
  /-- A number that is none, and says so, was looked for among members. -/
  | signalSought
  | joining (kind : String)
  | encoding (kind : String)
  deriving DecidableEq, Repr

inductive Refusal where
  | general (text : String)
  | key (fault : KeyFault)
  | setup (fault : SetupFault)
  | argument (field : String) (fault : ArgumentFault)
  | unreadable (field : String) (raw : Value) (why : Unreadable)
  /-- A broken precondition in a caller's own words, on whatever the caller names. -/
  | ownArgument (field wording : Value)
  /-- A value that was not read, in a caller's own words, if there are any. -/
  | ownUnreadable (field raw wording : Value)
  | unsatisfied (text : String)
  | tooYoung (required actual : Value)
  | balanceShort (balance requested : Value)
  | outOfRange (value low high : Value)
  | notMember (value : Value)
  | tooEarly (event condition : Value)
  | unverified (text : String)
  | badThreshold (raw : Value)
  | unknownPredicate (raw : Value)
  | badSize (size : Int)
  | noCommitter
  | keyCopied
  | keyStored
  | mismatch (why : KindMismatch)
  /-- A failure of something else, handed on. -/
  | failed (why : Failure)

/-! ## Wording -/

/-- The names of the claims that can be made, as a message lists them. -/
def predicateNames : List String := ["age", "balance", "membership", "range", "time_condition"]

def unknownPredicateText (raw : Value) : String :=
  "Unknown predicate: " ++ raw.literal ++ ". Valid options: " ++ ", ".intercalate predicateNames

def KeyFault.message : KeyFault → String
  | .notBytes kind => "key material must be bytes, got " ++ kind
  | .wrongSize size =>
    "HMAC secret key must be " ++ toString Limits.keySize ++ " bytes (256 bits), got "
      ++ toString size
  | .blank => "HMAC secret key cannot be null or empty"
  | .notBase64 => "Invalid Base64 format for HMAC secret key"
  | .unsupported kind => "unsupported key type: " ++ kind
  | .wiped => "key has been wiped"
  | .other text => text

def SetupFault.message : SetupFault → String
  | .noKey => "No HMAC key configured. Pass key= or set ZKP_HMAC_KEY"
  | .other text => text

def Unreadable.message (raw : Value) : Unreadable → String
  | .unparsed => "cannot parse " ++ raw.literal
  | .truthValue => "booleans are not numeric"
  | .notFinite => "must be finite"
  | .notNumber kind => "expected a number, got " ++ kind
  | .beyondBounds => "exceeds " ++ toString Limits.maxExponent ++ " digits of magnitude"
  | .notDay kind => "expected a date, got " ++ kind
  | .day fault => fault.message
  | .notText => "missing or not a string"
  | .notMapping => "expected a mapping"
  | .invalidJson => "invalid JSON"
  | .invalidCbor => "invalid CBOR"
  | .noFields => "missing required fields"
  | .version => "unsupported bundle version (expected " ++ toString Limits.bundleVersion ++ ")"
  | .predicate => match raw.literalFailure? none with
    | some why => why.message
    | none => unknownPredicateText raw

def ArgumentFault.message : ArgumentFault → String
  | .blank => "cannot be null or empty"
  | .negative => "cannot be negative"
  | .future => "cannot be in the future"
  | .crossed low high => "(" ++ low.text ++ ") must not exceed max_value (" ++ high.text ++ ")"
  | .notCollection => "must be a collection of strings"
  | .memberKinds => "members must be strings"
  | .blankMembers => "members must be non-empty strings"
  | .threshold => "must be a non-negative integer"

def KindMismatch.message : KindMismatch → String
  | .ordering kind => "'<' not supported between instances of 'int' and '" ++ kind ++ "'"
  | .membership kind => "unhashable type: '" ++ kind ++ "'"
  | .signalSought => "Cannot hash a signaling NaN value"
  | .joining kind => "can only concatenate str (not \"" ++ kind ++ "\") to str"
  | .encoding kind => "Object of type " ++ kind ++ " is not JSON serializable"

namespace Refusal

def message : Refusal → String
  | .general text => text
  | .key fault => fault.message
  | .setup fault => fault.message
  | .argument field fault => field ++ ": " ++ fault.message
  | .unreadable field raw why => field ++ ": " ++ why.message raw
  | .ownArgument field wording => field.display ++ ": " ++ wording.display
  | .ownUnreadable field raw wording =>
    field.display ++ ": "
      ++ (if wording.isVacant then Unreadable.unparsed.message raw else wording.display)
  | .unsatisfied text => text
  | .tooYoung required actual =>
    "Insufficient age. Required: " ++ required.display ++ ", Actual: " ++ actual.display
  | .balanceShort balance requested =>
    "Insufficient balance. Balance: " ++ balance.display ++ ", Requested: " ++ requested.display
  | .outOfRange value low high =>
    "Value " ++ value.display ++ " is out of range [" ++ low.display ++ ", " ++ high.display ++ "]"
  | .notMember value => "Value " ++ value.literal ++ " does not belong to the set of valid values"
  | .tooEarly event condition =>
    "Event date " ++ event.display ++ " is before condition date " ++ condition.display
  | .unverified text => text
  | .badThreshold raw =>
    "Invalid required age: " ++ raw.literal ++ ". Expected a non-negative integer"
  | .unknownPredicate raw => unknownPredicateText raw
  | .badSize size => "n must be > 0, got " ++ toString size
  | .noCommitter => "provider is required"
  | .keyCopied => "SecretKey cannot be copied"
  | .keyStored => "SecretKey cannot be serialized"
  | .mismatch why => why.message
  | .failed why => why.message

/-- The values that a message writes out. -/
def written : Refusal → List Value
  | .ownArgument field wording => [field, wording]
  | .ownUnreadable field raw wording => [field, if wording.isVacant then raw else wording]
  | .tooYoung required actual => [required, actual]
  | .balanceShort balance requested => [balance, requested]
  | .outOfRange value low high => [value, low, high]
  | .notMember value => [value]
  | .tooEarly event condition => [event, condition]
  | .badThreshold raw => [raw]
  | .unknownPredicate raw => [raw]
  | .badSize size => [.int size]
  | _ => []

/-- What the wording of a refusal fails with. Where a kind is unknown, a number of too many digits
only gives another wording, and depth is all that fails. -/
def wordingFailure? (room : Option Nat) (r : Refusal) : Option Failure :=
  match r with
  | .unreadable _ raw .predicate =>
    if raw.literalFailure? room = some .depth then some .depth else none
  | r => r.written.findSome? (·.literalFailure? room)

/-- What a refusal comes to: it is made with its wording, so if that fails, the failure takes its
place. With a bound, only so many values may lie within each other in what is written out. -/
def raisedWithin (room : Option Nat) (r : Refusal) : Refusal :=
  match r.wordingFailure? room with
  | some why => .failed why
  | none => r

/-- What a refusal comes to where values do not lie too deep within each other. -/
def raised (r : Refusal) : Refusal := r.raisedWithin none

theorem raisedWithin_of_worded {room : Option Nat} {r : Refusal}
    (h : r.wordingFailure? room = none) : r.raisedWithin room = r := by
  rw [raisedWithin, h]

theorem raisedWithin_of_unworded {room : Option Nat} {r : Refusal} {why : Failure}
    (h : r.wordingFailure? room = some why) : r.raisedWithin room = .failed why := by
  rw [raisedWithin, h]

@[simp]
theorem wordingFailure?_notMember (room : Option Nat) (v : Value) :
    (notMember v).wordingFailure? room = v.literalFailure? room := by
  simp [wordingFailure?, written]

@[simp]
theorem wordingFailure?_badThreshold (room : Option Nat) (v : Value) :
    (badThreshold v).wordingFailure? room = v.literalFailure? room := by
  simp [wordingFailure?, written]

@[simp]
theorem wordingFailure?_tooYoung (room : Option Nat) (required actual : Value) :
    (tooYoung required actual).wordingFailure? room =
      (required.literalFailure? room).or (actual.literalFailure? room) := by
  cases h : required.literalFailure? room <;> simp [wordingFailure?, written, h]

/-! ## Classification -/

inductive Kind where
  | construction
  | validation
  | predicate
  | verification
  deriving DecidableEq, Repr

def Kind.name : Kind → String
  | .construction => "construction"
  | .validation => "validation"
  | .predicate => "predicate"
  | .verification => "verification"

/-- The kind of a refusal. A call that makes no sense at all has none. -/
def kind? : Refusal → Option Kind
  | .general _ => some .validation
  | .key _ => some .construction
  | .setup _ => some .construction
  | .argument .. => some .validation
  | .unreadable .. => some .validation
  | .ownArgument .. => some .validation
  | .ownUnreadable .. => some .validation
  | .unsatisfied _ => some .predicate
  | .tooYoung .. => some .predicate
  | .balanceShort .. => some .predicate
  | .outOfRange .. => some .predicate
  | .notMember _ => some .predicate
  | .tooEarly .. => some .predicate
  | .unverified _ => some .verification
  | _ => none

/-- The name under which a refusal is reported. -/
def name : Refusal → String
  | .general _ => "ZkpError"
  | .key _ => "KeyFormatError"
  | .setup _ => "ConfigurationError"
  | .argument .. => "InvalidArgumentError"
  | .unreadable .. => "MalformedInputError"
  | .ownArgument .. => "InvalidArgumentError"
  | .ownUnreadable .. => "MalformedInputError"
  | .unsatisfied _ => "PredicateNotSatisfiedError"
  | .tooYoung .. => "InsufficientAgeError"
  | .balanceShort .. => "InsufficientBalanceError"
  | .outOfRange .. => "ValueOutOfRangeError"
  | .notMember _ => "ValueNotInSetError"
  | .tooEarly .. => "ConditionNotMetError"
  | .unverified _ => "ProofVerificationError"
  | .badThreshold _ => "ValueError"
  | .unknownPredicate _ => "ValueError"
  | .badSize _ => "ValueError"
  | .noCommitter => "TypeError"
  | .keyCopied => "TypeError"
  | .keyStored => "TypeError"
  | .mismatch _ => "TypeError"
  | .failed why => why.name

/-- The input field that a refusal is about, if it is about an input. -/
def field? : Refusal → Option String
  | .argument field _ => some field
  | .unreadable field _ _ => some field
  | .ownArgument field _ => some field.display
  | .ownUnreadable field _ _ => some field.display
  | _ => none

/-- The claim is well formed and false. -/
def isUnsatisfied (r : Refusal) : Bool := r.kind? == some .predicate

/-- The input is at fault, and not the key, the claim or the proof. -/
def isArgument (r : Refusal) : Bool := r.field?.isSome

/-- What a refusal reports beside kind, name and message. -/
def payload : Refusal → List (String × Value)
  | .argument field _ => [("field", .text field)]
  | .unreadable field raw _ => [("field", .text field), ("raw", .text raw.literal)]
  | .ownArgument field _ => [("field", field)]
  | .ownUnreadable field raw _ => [("field", field), ("raw", .text raw.literal)]
  | .tooYoung required actual => [("required", required), ("actual", actual)]
  | .balanceShort balance requested =>
    [("balance", .text balance.display), ("requested", .text requested.display)]
  | .outOfRange value low high =>
    [("value", .text value.display), ("min", .text low.display), ("max", .text high.display)]
  | .notMember value => [("value", value)]
  | .tooEarly event condition =>
    [("event_date", .text event.display), ("condition_date", .text condition.display)]
  | _ => []

/-- What putting a report together fails with: it shows the raw value that was not read. -/
def reportFailure? : Refusal → Option Failure
  | .unreadable _ raw _ => raw.literalFailure? none
  | .ownUnreadable _ raw _ => raw.literalFailure? none
  | _ => none

end Refusal

end Attestation
