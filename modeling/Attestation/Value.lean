-- The raw values that callers hand in. A claim is made over such values, and nothing
-- about them is known before they are read, so this is the one type of the library
-- that holds any kind of thing.
import Attestation.Number.Binary64
import Attestation.Calendar.Date
import Attestation.Failure
import Attestation.Kind

namespace Attestation

inductive Value where
  | none
  | bool (b : Bool)
  | int (n : Int)
  | float (x : Binary64)
  | text (s : String)
  /-- A text that has no bytes. -/
  | torn (t : Torn)
  | decimal (d : Decimal.Extended)
  | bytes (bs : List UInt8)
  /-- Bytes that may change, so that they cannot be a member of a set. -/
  | buffer (bs : List UInt8)
  | date (d : Date)
  | moment (m : Moment)
  | list (items : List Value)
  | tuple (items : List Value)
  | set (items : List Value)
  | mapping (entries : List (Value × Value))
  /-- A mapping that cannot change, so that it may be a key. -/
  | fixedMapping (entries : List (Value × Value))
  /-- What a source that can be read once still has to give. -/
  | stream (rest : List Value)
  /-- A collection that fails when it is read through, with what it shows of itself. It has no
  size, and it may fail as well when it is asked for one. -/
  | faulty (kind shown : String) (reading : Failure) (sizing : Option Failure)
  /-- A bare code of the binary form. It equals the whole number of the same size. -/
  | simple (code : Nat)
  /-- The code of the binary form for what has no value at all. -/
  | undefined
  /-- A kind of claims itself. It is no text, and it does not equal its name. -/
  | claimKind (kind : Claim.Kind)
  /-- Something of a kind that no claim is about, with its text, and the parts that it gives
  one after another, if it gives any. -/
  | thing (kind shown : String) (parts : List Value)

namespace Value

/-! ## Kinds -/

/-- The name of a value's kind in messages. -/
def kindName : Value → String
  | .none => "NoneType"
  | .bool _ => "bool"
  | .int _ => "int"
  | .float _ => "float"
  | .text _ => "str"
  | .torn _ => "str"
  | .decimal _ => "Decimal"
  | .bytes _ => "bytes"
  | .buffer _ => "bytearray"
  | .date _ => "date"
  | .moment _ => "datetime"
  | .list _ => "list"
  | .tuple _ => "tuple"
  | .set _ => "set"
  | .mapping _ => "dict"
  | .fixedMapping _ => "frozendict"
  | .stream _ => "list_iterator"
  | .faulty kind _ _ _ => kind
  | .simple _ => "CBORSimpleValue"
  | .undefined => "undefined"
  | .claimKind _ => "PredicateType"
  | .thing kind _ _ => kind

/-- The value of a text. -/
def ofText : Text → Value
  | .whole s => .text s
  | .torn t => .torn t

/-- The text that a value is, if it is one. -/
def toText? : Value → Option Text
  | .text s => some (.whole s)
  | .torn t => some (.torn t)
  | _ => Option.none

@[simp]
theorem ofText_whole (s : String) : ofText (.whole s) = .text s := rfl

@[simp]
theorem ofText_torn (t : Torn) : ofText (.torn t) = .torn t := rfl

theorem ofText_inj {s t : Text} : ofText s = ofText t ↔ s = t := by
  cases s <;> cases t <;> simp [ofText]

@[simp]
theorem toText?_ofText (t : Text) : (ofText t).toText? = some t := by
  cases t <;> rfl

theorem toText?_eq_some_iff {v : Value} {t : Text} : v.toText? = some t ↔ v = ofText t := by
  cases v <;> cases t <;> simp [toText?, ofText]

/-- The bytes that a value is, fixed or not. -/
def bytes? : Value → Option (List UInt8)
  | .bytes bs => some bs
  | .buffer bs => some bs
  | _ => Option.none

/-- A value that counts as not given: nothing, zero, or an empty text or collection. -/
def isVacant : Value → Bool
  | .none => true
  | .bool b => !b
  | .int n => n == 0
  | .float x => x.isZero
  | .text s => s.isEmpty
  | .decimal (.finite d) => d.isZero
  | .bytes bs => bs.isEmpty
  | .buffer bs => bs.isEmpty
  | .list items => items.isEmpty
  | .tuple items => items.isEmpty
  | .set items => items.isEmpty
  | .mapping entries => entries.isEmpty
  | _ => false

@[simp]
theorem isVacant_ofText (t : Text) : (ofText t).isVacant = t.isEmpty := by
  cases t <;> rfl

/-! ## Collections -/

/-- A code point as a text of its own. -/
def ofPoint : Point → Value
  | .char c => .text (String.singleton c)
  | .half n => .torn ⟨[], n, []⟩

/-- What a value gives, one after another: code points, the numbers of bytes, items, or the
keys of a mapping. -/
def elements? : Value → Option (List Value)
  | .text s => some (s.toList.map fun c => .text (String.singleton c))
  | .torn t => some (t.points.map ofPoint)
  | .bytes bs => some (bs.map fun b => .int b.toNat)
  | .buffer bs => some (bs.map fun b => .int b.toNat)
  | .list items => some items
  | .tuple items => some items
  | .set items => some items
  | .mapping entries => some (entries.map Prod.fst)
  | .fixedMapping entries => some (entries.map Prod.fst)
  | .stream rest => some rest
  | .thing _ _ (part :: more) => some (part :: more)
  | _ => Option.none

/-- The count of elements. A source that can be read once has none, though it has elements. -/
def size? : Value → Option Nat
  | .text s => some s.length
  | .torn t => some t.points.length
  | .bytes bs => some bs.length
  | .buffer bs => some bs.length
  | .list items => some items.length
  | .tuple items => some items.length
  | .set items => some items.length
  | .mapping entries => some entries.length
  | .fixedMapping entries => some entries.length
  | _ => Option.none

/-- What reading a value through fails with, if it fails in the middle. To have no elements is
no such failure. -/
def readingFailure? : Value → Option Failure
  | .faulty _ _ reading _ => some reading
  | _ => Option.none

/-- What asking a value for its size fails with, beyond its having none. -/
def sizingFailure? : Value → Option Failure
  | .faulty _ _ _ sizing => sizing
  | _ => Option.none

/-- A value as a collection that can be read again and again: text and bytes stay whole,
and so does what has no elements. -/
def settled : Value → Value
  | .text s => .text s
  | .torn t => .torn t
  | .bytes bs => .bytes bs
  | v => match v.elements? with
    | some items => .tuple items
    | Option.none => v

/-- What is left of a value after it was read through once. -/
def drained : Value → Value
  | .stream _ => .stream []
  | v => v

mutual

/-- A value that may be a member of a set: it cannot change, and it equals itself. -/
def isFixed : Value → Bool
  | .buffer _ => false
  | .list _ => false
  | .set _ => false
  | .mapping _ => false
  | .decimal (.nan _ signalling _) => !signalling
  | .tuple items => allFixed items
  | _ => true

def allFixed : List Value → Bool
  | [] => true
  | v :: rest => isFixed v && allFixed rest

end

theorem isFixed_ofText (t : Text) : (ofText t).isFixed = true := by
  cases t <;> rfl

/-- A value that can be looked for among the members of a set. For this a set counts as its
members of the moment, although it could not be a member. -/
def isSought : Value → Bool
  | .set _ => true
  | v => v.isFixed

mutual

/-- The first part of a value that could not be a member of a set, or the value itself. -/
def loosePart? : Value → Option Value
  | .tuple items => looseAmong? items
  | v => if v.isFixed then Option.none else some v

def looseAmong? : List Value → Option Value
  | [] => Option.none
  | v :: rest => match loosePart? v with
    | some part => some part
    | Option.none => looseAmong? rest

end

/-! ## Equal values -/

/-- The whole number that a value is; the two truth values are one and zero. -/
def whole? : Value → Option Int
  | .bool b => some (if b then 1 else 0)
  | .int n => some n
  | _ => Option.none

/-- The number that a value is, if it is a finite one; the two truth values are one and zero. -/
def number? : Value → Option Decimal
  | .bool b => some (Decimal.ofInt (if b then 1 else 0))
  | .int n => some (Decimal.ofInt n)
  | .float x => if x.isFinite then some x.exact else Option.none
  | .decimal (.finite d) => some d
  | _ => Option.none

/-- An infinite number, by its sign. -/
def infinite? : Value → Option Bool
  | .float x => if x.isFinite || x.isNaN then Option.none else some x.negative
  | .decimal (.infinite negative) => some negative
  | _ => Option.none

/-- Two plain values that are no bare codes are equal: as numbers, whatever kind of number
they are, or as the same text, bytes, day, moment or kind of claims. -/
def samePlain (v w : Value) : Bool :=
  match v.number?, w.number? with
  | some x, some y => x.same y
  | some _, Option.none => false
  | Option.none, some _ => false
  | Option.none, Option.none =>
    match v, w with
    | .none, .none => true
    | .text s, .text t => s == t
    | .torn s, .torn t => s == t
    | .undefined, .undefined => true
    | .claimKind k, .claimKind l => k == l
    | .date d, .date e => d == e
    | .moment m, .moment n => m.same n
    | _, _ =>
      match v.bytes?, w.bytes? with
      | some bs, some cs => bs == cs
      | _, _ => match v.infinite?, w.infinite? with
        | some a, some b => a == b
        | _, _ => false

/-- Two values without parts are equal. A bare code equals whole numbers, but no double. -/
def sameLeaf (v w : Value) : Bool :=
  match v, w with
  | .simple a, .simple b => a == b
  | .simple a, w => w.whole? == some (a : Int)
  | v, .simple b => v.whole? == some (b : Int)
  | v, w => samePlain v w

mutual

/-- Two values are equal: leaf by leaf in lists and in tuples, and key by key in mappings that
cannot change. A number that is none equals nothing, and one that says so is not to be compared
at all: whoever may hold one asks `isSignal` first. -/
def same : Value → Value → Bool
  | .list xs, .list ys => allSame xs ys
  | .tuple xs, .tuple ys => allSame xs ys
  | .fixedMapping xs, .fixedMapping ys => xs.length == ys.length && allFound xs ys
  | v, w => sameLeaf v w

def allSame : List Value → List Value → Bool
  | [], [] => true
  | v :: vs, w :: ws => same v w && allSame vs ws
  | _, _ => false

/-- Every entry of the first mapping is in the second. -/
def allFound : List (Value × Value) → List (Value × Value) → Bool
  | [], _ => true
  | (k, v) :: rest, ys => ys.any (fun (l, w) => same k l && same v w) && allFound rest ys

end

/-- A decimal that is no number, and fails when it is compared. -/
def isSignal : Value → Bool
  | .decimal (.nan _ signalling _) => signalling
  | _ => false

/-! ## Sets -/

/-- Each value once; of equal ones the first is kept. -/
def distinct (items : List Value) : List Value :=
  items.foldl (fun kept v => if kept.any (same v) then kept else kept ++ [v]) []

/-- A set of the given members. Whole numbers are held in rising order, all else as it came. -/
def ofMembers (items : List Value) : Value :=
  let members := distinct items
  if members.all (·.whole?.isSome) then
    .set (members.mergeSort fun v w => v.whole?.getD 0 ≤ w.whole?.getD 0)
  else .set members

/-! ## Mappings -/

/-- What a text key stands for; nothing, if the key is not there. -/
def lookup (key : String) : List (Value × Value) → Value
  | [] => .none
  | (.text k, v) :: rest => if k = key then v else lookup key rest
  | _ :: rest => lookup key rest

/-- Replaces the value of an equal key in its place, or adds a new entry behind. -/
def insert (key value : Value) : List (Value × Value) → List (Value × Value)
  | [] => [(key, value)]
  | (k, v) :: rest =>
    if same k key then (k, value) :: rest else (k, v) :: insert key value rest

/-- A mapping of the given entries. Of two with equal keys the later one counts, in the place
of the earlier one and under its key. -/
def ofEntries (entries : List (Value × Value)) : Value :=
  .mapping (entries.foldl (fun acc (k, v) => insert k v acc) [])

end Value

end Attestation
