-- Raw values read as days and as amounts, and the preconditions that claims put on
-- them. Whatever form a value has, what is read from it is all that counts later.
import Attestation.Refusal

namespace Attestation

/-- The bounds on an amount: its leading digit and its last digit are near enough to the
point to write all digits out. -/
def Decimal.isBounded (d : Decimal) : Bool :=
  d.adjusted.natAbs ≤ Limits.maxExponent && -d.exponent ≤ (Limits.maxExponent : Int)

namespace Value

/-! ## Days and amounts -/

/-- The day of a value: a day, the day of a moment, or the text of a day. -/
def day : Value → Except Unreadable Date
  | .date d => .ok d
  | .moment m => .ok m.date
  | .text s => (Date.ofChars s.toList).mapError .day
  | .torn _ => .error (.day .shape)
  | v => .error (.notDay v.kindName)

/-- The decimal that a value writes, before any bound on its size. A double counts as its
shortest text. -/
def writtenAmount : Value → Except Unreadable Decimal
  | .bool _ => .error .truthValue
  | .int n => .ok (.ofInt n)
  | .float x =>
    if x.isFinite then
      match Decimal.ofChars? x.chars with
      | some d => .ok d
      | Option.none => .error .unparsed
    else .error .notFinite
  | .decimal (.finite d) => .ok d
  | .decimal _ => .error .notFinite
  | .text s =>
    match Decimal.ofChars? s.toList with
    | some d => .ok d
    | Option.none => .error .unparsed
  | .torn _ => .error .unparsed
  | v => .error (.notNumber v.kindName)

/-- The exact amount of a value. -/
def amount (v : Value) : Except Unreadable Decimal :=
  match v.writtenAmount with
  | .error why => .error why
  | .ok d => if d.isBounded then .ok d else .error .beyondBounds

end Value

namespace Reading

/-- The day of a named input. -/
def day (field : String) (v : Value) : Except Refusal Date :=
  v.day.mapError (.unreadable field v)

/-- The amount of a named input. -/
def amount (field : String) (v : Value) : Except Refusal Decimal :=
  v.amount.mapError (.unreadable field v)

/-- The canonical text of a day. -/
def dayText (field : String) (v : Value) : Except Refusal String := (day field v).map Date.text

/-- The canonical text of an amount. -/
def amountText (field : String) (v : Value) : Except Refusal String :=
  (amount field v).map Decimal.canonical

/-! ## Preconditions -/

/-- A text that is not empty. -/
def filledText (field : String) (v : Value) : Except Refusal Text :=
  match v.toText? with
  | some t => if t.isEmpty then .error (.argument field .blank) else .ok t
  | none => .error (.argument field .blank)

/-- An amount of zero or more; a negative zero is zero. -/
def nonNegative (field : String) (v : Value) : Except Refusal Decimal :=
  match amount field v with
  | .error r => .error r
  | .ok d => if d.lt (.ofInt 0) then .error (.argument field .negative) else .ok d

/-- A day that has come. -/
def notFuture (field : String) (v : Value) (today : Date) : Except Refusal Date :=
  match day field v with
  | .error r => .error r
  | .ok d => if today.lt d then .error (.argument field .future) else .ok d

/-- Two bounds, the lower one first. -/
def bounds (low high : Value) : Except Refusal (Decimal × Decimal) :=
  match amount "min_value" low with
  | .error r => .error r
  | .ok l =>
    match amount "max_value" high with
    | .error r => .error r
    | .ok h =>
      if h.lt l then .error (.argument "min_value" (.crossed l h)) else .ok (l, h)

/-- The texts that some values are, if all of them are texts that are not empty. -/
def filledTexts? : List Value → Option (List Text)
  | [] => some []
  | v :: rest => match v.toText? with
    | some t => if t.isEmpty then none else (filledTexts? rest).map (t :: ·)
    | none => none

/-- The members of a collection: at least one, and each a text that is not empty. A text
is no collection of texts here, nor are bytes. -/
def members (field : String) (v : Value) : Except Refusal (List Text) :=
  match v with
  | .none => .error (.argument field .notCollection)
  | .text _ => .error (.argument field .notCollection)
  | .torn _ => .error (.argument field .notCollection)
  | .bytes _ => .error (.argument field .notCollection)
  | v =>
    match v.elements? with
    | none => .error (.argument field .memberKinds)
    | some items =>
      if !Value.allFixed items then .error (.argument field .memberKinds)
      else if items.isEmpty then .error (.argument field .blank)
      else match filledTexts? items with
        | none => .error (.argument field .blankMembers)
        | some texts => .ok texts.eraseDups

/-- The members of a collection that may fail when it is read through. -/
def readMembers (field : String) (v : Value) : Except Refusal (List Text) :=
  match v.readingFailure? with
  | some why => .error (.failed why)
  | none => members field v

end Reading

end Attestation
