-- Values written out for a message. `literal` shows what kind of value stands there:
-- text in quotes, bytes with a mark, brackets by kind of collection. `display` is the
-- same, but text stands as it is, and days, decimals and kinds of claims have their own text. Not
-- every value can be written out: `literalFailure?` says what keeps one from it.
import Attestation.Value
import Attestation.Text.Hex
import Attestation.Text.Printable

namespace Attestation.Value

/-! ## Quoted text -/

/-- The mark around a text: the single quote, unless the text has one and no double. -/
def quoteMark (has : Char → Bool) : Char :=
  if has '\'' && !has '"' then '"' else '\''

/-- The escape of a character by its number, as short as it can be. -/
def escapeNumber (n : Nat) : List Char :=
  if n < 256 then '\\' :: 'x' :: Hex.fixed 2 n
  else if n < 65536 then '\\' :: 'u' :: Hex.fixed 4 n
  else '\\' :: 'U' :: Hex.fixed 8 n

/-- One character between quotes, where `guarded` is the quote that is escaped and `shows`
tells what may stand as it is. -/
def escapeChar (guarded : Char) (shows : Char → Bool) (c : Char) : List Char :=
  if c = '\\' ∨ c = guarded then ['\\', c]
  else if c = '\n' then ['\\', 'n']
  else if c = '\r' then ['\\', 'r']
  else if c = '\t' then ['\\', 't']
  else if shows c then [c]
  else escapeNumber c.toNat

def quoted (shows : Char → Bool) (cs : List Char) : List Char :=
  let mark := quoteMark cs.contains
  mark :: (cs.flatMap (escapeChar mark shows) ++ [mark])

def quotedText (s : String) : List Char := quoted Printable.isPrintable s.toList

/-- One code point between quotes; a half has no look of its own. -/
def escapePoint (guarded : Char) : Point → List Char
  | .char c => escapeChar guarded Printable.isPrintable c
  | .half n => escapeNumber (Point.half n).toNat

def quotedTorn (t : Torn) : List Char :=
  let mark := quoteMark fun c => t.points.contains (.char c)
  mark :: (t.points.flatMap (escapePoint mark) ++ [mark])

/-- The characters of a torn text as they are, with its halves as escapes between them. -/
def tornChars (t : Torn) : List Char :=
  t.points.flatMap fun p => match p with
    | .char c => [c]
    | .half n => escapeNumber (Point.half n).toNat

def isPlainAscii (c : Char) : Bool := 32 ≤ c.toNat && c.toNat < 127

/-- Bytes as the characters of the same numbers. -/
def byteChars (bs : List UInt8) : List Char := bs.map fun b => Char.ofNat b.toNat

/-- Bytes are shown as characters where these are plain ASCII. -/
def quotedBytes (bs : List UInt8) : List Char := 'b' :: quoted isPlainAscii (byteChars bs)

/-- Bytes that may change are shown alike, but a single quote among them is escaped even
between double ones. -/
def quotedBuffer (bs : List UInt8) : List Char :=
  let cs := byteChars bs
  let mark := quoteMark cs.contains
  'b' :: mark :: (cs.flatMap (escapeChar '\'' isPlainAscii) ++ [mark])

/-! ## Days and moments -/

def commaSeparated : List (List Char) → List Char
  | [] => []
  | [item] => item
  | item :: rest => item ++ ',' :: ' ' :: commaSeparated rest

def dateNumbers (d : Date) : List Nat := [d.year, d.month, d.day]

/-- Hour and minute always, second and fraction only as far as they are not zero. -/
def timeNumbers (m : Moment) : List Nat :=
  [m.hour, m.minute] ++ (if m.micro ≠ 0 then [m.second, m.micro]
    else if m.second ≠ 0 then [m.second] else [])

/-- The offset of a clock as whole days, none or one back, and seconds ahead. -/
def offsetLiteral (seconds : Int) : List Char :=
  if seconds = 0 then "datetime.timezone.utc".toList
  else
    let days := if seconds < 0 then "days=-1, ".toList else []
    let ahead := if seconds < 0 then seconds + 86400 else seconds
    "datetime.timezone(datetime.timedelta(".toList ++ days ++ "seconds=".toList
      ++ DecimalDigit.writeInt ahead ++ "))".toList

def dateLiteral (d : Date) : List Char :=
  "datetime.date(".toList ++ commaSeparated ((dateNumbers d).map DecimalDigit.write) ++ [')']

def momentLiteral (m : Moment) : List Char :=
  let numbers := (dateNumbers m.date ++ timeNumbers m).map DecimalDigit.write
  let zone := m.offset.toList.map fun o => "tzinfo=".toList ++ offsetLiteral o
  "datetime.datetime(".toList ++ commaSeparated (numbers ++ zone) ++ [')']

/-! ## All values -/

/-- A value without parts, written out. -/
def leafLiteral : Value → List Char
  | .none => "None".toList
  | .bool b => (if b then "True" else "False").toList
  | .int n => DecimalDigit.writeInt n
  | .float x => x.chars
  | .text s => quotedText s
  | .torn t => quotedTorn t
  | .decimal d => "Decimal('".toList ++ d.text.toList ++ "')".toList
  | .bytes bs => quotedBytes bs
  | .buffer bs => "bytearray(".toList ++ quotedBuffer bs ++ [')']
  | .date d => dateLiteral d
  | .moment m => momentLiteral m
  | .stream _ => "<list_iterator>".toList
  | .faulty _ shown _ _ => shown.toList
  | .simple code => "CBORSimpleValue(".toList ++ DecimalDigit.write code ++ [')']
  | .undefined => "undefined".toList
  | .claimKind kind => '<' :: kind.label.toList ++ ": ".toList ++ quotedText kind.name ++ ['>']
  | .thing _ shown _ => shown.toList
  | _ => []

/-- A tuple of one item keeps a comma, so that its brackets are no mere grouping. -/
def tupleLiteral : List (List Char) → List Char
  | [item] => '(' :: (item ++ [',', ')'])
  | items => '(' :: (commaSeparated items ++ [')'])

/-- An empty set has no brackets of its own. -/
def setLiteral : List (List Char) → List Char
  | [] => "set()".toList
  | items => '\x7b' :: (commaSeparated items ++ ['\x7d'])

mutual

/-- A value written out with its kind. -/
def literalChars : Value → List Char
  | .list items => '[' :: (commaSeparated (itemLiterals items) ++ [']'])
  | .tuple items => tupleLiteral (itemLiterals items)
  | .set items => setLiteral (itemLiterals items)
  | .mapping entries => '\x7b' :: (commaSeparated (entryLiterals entries) ++ ['\x7d'])
  | .fixedMapping entries =>
    "frozendict(\x7b".toList ++ commaSeparated (entryLiterals entries) ++ "\x7d)".toList
  | v => leafLiteral v

def itemLiterals : List Value → List (List Char)
  | [] => []
  | v :: rest => literalChars v :: itemLiterals rest

def entryLiterals : List (Value × Value) → List (List Char)
  | [] => []
  | (k, v) :: rest => (literalChars k ++ ':' :: ' ' :: literalChars v) :: entryLiterals rest

end

def literal (v : Value) : String := String.ofList v.literalChars

/-- A value as it reads in running text. What is made here is whole, so the halves of a torn text
are escaped in it. -/
def display : Value → String
  | .text s => s
  | .torn t => String.ofList (tornChars t)
  | .decimal d => d.text
  | .date d => d.text
  | .moment m => String.ofList m.chars
  | .claimKind kind => kind.label
  | v => v.literal

/-! ## What cannot be written out -/

/-- A whole number of few enough digits. -/
def isWritable (n : Int) : Bool := n.natAbs < Nat.pow 10 Limits.maxDigits

mutual

/-- What writing a value out fails with, and it is the first such thing in it. With a bound, only
so many values may lie within each other, of which the outermost is one. -/
def literalFailure? (room : Option Nat) (v : Value) : Option Failure :=
  if room = some 0 then some .depth
  else match v with
    | .int n => if isWritable n then Option.none else some (.digits Option.none)
    | .list items => itemsFailure? (room.map (· - 1)) items
    | .tuple items => itemsFailure? (room.map (· - 1)) items
    | .set items => itemsFailure? (room.map (· - 1)) items
    | .mapping entries => entriesFailure? (room.map (· - 1)) entries
    | .fixedMapping entries => entriesFailure? (room.map (· - 1)) entries
    | _ => Option.none

def itemsFailure? (room : Option Nat) : List Value → Option Failure
  | [] => Option.none
  | v :: rest => match literalFailure? room v with
    | some why => some why
    | Option.none => itemsFailure? room rest

def entriesFailure? (room : Option Nat) : List (Value × Value) → Option Failure
  | [] => Option.none
  | (k, v) :: rest => match literalFailure? room k with
    | some why => some why
    | Option.none => match literalFailure? room v with
      | some why => some why
      | Option.none => entriesFailure? room rest

end

end Attestation.Value
