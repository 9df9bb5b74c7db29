-- JSON text. The writer uses ASCII alone: all other characters stand as escapes, those
-- above U+FFFF as two, and a half stands as its own. The reader takes the standard grammar, and
-- three words beside it for the doubles that have no digits. It reads code points, since a text
-- in it may hold a half that stands alone, as itself or as an escape.
import Attestation.Value.Literal
import Attestation.Text.Utf8
import Attestation.Text.WideUnits

namespace Attestation.Json

open WideUnits (High lone unit?)

/-! ## Writing -/

/-- The escape of a unit of two bytes. -/
def unitEscape (n : Nat) : List Char := '\\' :: 'u' :: Hex.fixed 4 n

/-- One character of a text. -/
def writeChar (c : Char) : List Char :=
  let n := c.toNat
  if c = '"' ∨ c = '\\' then ['\\', c]
  else if n = 10 then ['\\', 'n']
  else if n = 13 then ['\\', 'r']
  else if n = 9 then ['\\', 't']
  else if n = 8 then ['\\', 'b']
  else if n = 12 then ['\\', 'f']
  else if 32 ≤ n ∧ n < 127 then [c]
  else if n < 65536 then unitEscape n
  else unitEscape (0xD800 + (n - 65536) / 1024) ++ unitEscape (0xDC00 + (n - 65536) % 1024)

def writeText (s : String) : List Char := '"' :: (s.toList.flatMap writeChar ++ ['"'])

def writePoint : Point → List Char
  | .char c => writeChar c
  | .half n => unitEscape (Point.half n).toNat

def writeTorn (t : Torn) : List Char := '"' :: (t.points.flatMap writePoint ++ ['"'])

def writeFloat (x : Binary64) : List Char :=
  if x.isFinite then x.chars
  else if x.isNaN then "NaN".toList
  else if x.negative then "-Infinity".toList
  else "Infinity".toList

/-- Parts with a comma and a blank between. -/
def joined : List (List Char) → List Char
  | [] => []
  | [part] => part
  | part :: rest => part ++ ',' :: ' ' :: joined rest

/-- A whole number, if it has few enough digits. -/
def writeInt (n : Int) : Except Unwritten (List Char) :=
  if Value.isWritable n then .ok (DecimalDigit.writeInt n) else .error (.failed (.digits none))

/-- The text of a key: text as it is, and a single value as it is written elsewhere. A key of
another kind gives that kind's name. -/
def keyText : Value → Except Unwritten (List Char)
  | .text s => .ok (writeText s)
  | .torn t => .ok (writeTorn t)
  | .none => .ok "\"null\"".toList
  | .bool b => .ok (if b then "\"true\"" else "\"false\"").toList
  | .int n => (writeInt n).map fun cs => '"' :: (cs ++ ['"'])
  | .float x => .ok ('"' :: (writeFloat x ++ ['"']))
  | v => .error (.kind v.kindName)

mutual

/-- A value as JSON. A value of another kind gives that kind's name. -/
def write : Value → Except Unwritten (List Char)
  | .none => .ok "null".toList
  | .bool b => .ok (if b then "true" else "false").toList
  | .int n => writeInt n
  | .float x => .ok (writeFloat x)
  | .text s => .ok (writeText s)
  | .torn t => .ok (writeTorn t)
  | .list items => (writeItems items).map fun parts => '[' :: (joined parts ++ [']'])
  | .tuple items => (writeItems items).map fun parts => '[' :: (joined parts ++ [']'])
  | .mapping entries =>
    (writeEntries entries).map fun parts => '\x7b' :: (joined parts ++ ['\x7d'])
  | v => .error (.kind v.kindName)

def writeItems : List Value → Except Unwritten (List (List Char))
  | [] => .ok []
  | v :: rest => do
    let part ← write v
    let parts ← writeItems rest
    .ok (part :: parts)

def writeEntries : List (Value × Value) → Except Unwritten (List (List Char))
  | [] => .ok []
  | (key, v) :: rest => do
    let name ← keyText key
    let part ← write v
    let parts ← writeEntries rest
    .ok ((name ++ ':' :: ' ' :: part) :: parts)

end

/-! ## Reading -/

def isBlank (p : Point) : Bool :=
  p = .char ' ' || p = .char '\t' || p = .char '\n' || p = .char '\r'

def skip (ps : List Point) : List Point := ps.dropWhile isBlank

/-- The character of an escape of one letter. -/
def escaped? (p : Point) : Option Point :=
  if p = .char '"' ∨ p = .char '\\' ∨ p = .char '/' then some p
  else if p = .char 'b' then some (.char (Char.ofNat 8))
  else if p = .char 'f' then some (.char (Char.ofNat 12))
  else if p = .char 'n' then some (.char '\n')
  else if p = .char 'r' then some (.char '\r')
  else if p = .char 't' then some (.char '\t')
  else none

/-- Where the reader of a text stands. -/
inductive Place where
  | plain
  /-- Behind a backslash. -/
  | escape
  /-- Within the digits of a unit: `left` are due, and `high` is a first half before it. -/
  | digits (left value : Nat) (high : Option High)
  /-- Behind the first half of a pair. -/
  | half (high : High)
  /-- Behind the first half of a pair and a backslash. -/
  | halfEscape (high : High)

/-- Reads a text up to its closing quote; `done` holds the code points so far, last first. -/
def readText : Place → List Point → List Point → Option (List Point × List Point)
  | _, _, [] => none
  | .plain, done, p :: rest =>
    if p = .char '"' then some (done.reverse, rest)
    else if p = .char '\\' then readText .escape done rest
    else if p.toNat < 32 then none
    else readText .plain (p :: done) rest
  | .escape, done, p :: rest =>
    if p = .char 'u' then readText (.digits 4 0 none) done rest
    else match escaped? p with
      | none => none
      | some q => readText .plain (q :: done) rest
  | .digits left value high, done, p :: rest =>
    match p.char?.bind Hex.digitValue? with
    | none => none
    | some d =>
      if 1 < left then readText (.digits (left - 1) (16 * value + d) high) done rest
      else match unit? (16 * value + d) high with
        | none => none
        | some (added, none) => readText .plain (added ++ done) rest
        | some (added, some next) => readText (.half next) (added ++ done) rest
  | .half high, done, p :: rest =>
    if p = .char '"' then some ((lone high :: done).reverse, rest)
    else if p = .char '\\' then readText (.halfEscape high) done rest
    else if p.toNat < 32 then none
    else readText .plain (p :: lone high :: done) rest
  | .halfEscape high, done, p :: rest =>
    if p = .char 'u' then readText (.digits 4 0 (some high)) done rest
    else match escaped? p with
      | none => none
      | some q => readText .plain (q :: lone high :: done) rest

/-- The digits behind a point, if there is one; a point needs a digit. -/
def readFraction : List Char → Option (Option (List Char) × List Char)
  | '.' :: rest =>
    let (ds, rest) := Decimal.spanDigits rest
    if ds.isEmpty then none else some (some ds, rest)
  | cs => some (none, cs)

/-- The power of ten, if there is one. -/
def readPower : List Char → Option (Option Int × List Char)
  | [] => some (none, [])
  | c :: rest =>
    if c = 'e' ∨ c = 'E' then
      let (negative, rest) := Decimal.readSign rest
      let (ds, rest) := Decimal.spanDigits rest
      if ds.isEmpty then none
      else
        let n : Int := DecimalDigit.ofAscii ds
        some (some (if negative then -n else n), rest)
    else some (none, c :: rest)

/-- A number without its sign. With a point or a power of ten it is a double, else it is
whole and may not have too many digits. No zero may stand in front of other digits. -/
def readUnsigned (negative : Bool) (cs : List Char) : Option (Value × List Char) :=
  let (whole, rest) := Decimal.spanDigits cs
  if whole.isEmpty || (whole.head? = some '0' && 1 < whole.length) then none
  else do
    let (fraction, rest) ← readFraction rest
    let (power, rest) ← readPower rest
    match fraction, power with
    | none, none =>
      if Limits.maxDigits < whole.length then none
      else
        let n : Int := DecimalDigit.ofAscii whole
        some (.int (if negative then -n else n), rest)
    | _, _ =>
      let behind := fraction.getD []
      let d : Decimal :=
        ⟨negative, DecimalDigit.ofAscii (whole ++ behind), power.getD 0 - (behind.length : Int)⟩
      some (.float (Binary64.ofDecimal d), rest)

/-- The words that stand for a value. -/
def words : List (List Char × Value) :=
  [("null".toList, .none), ("true".toList, .bool true), ("false".toList, .bool false),
   ("NaN".toList, .float Binary64.nan), ("Infinity".toList, .float (Binary64.infinity false)),
   ("-Infinity".toList, .float (Binary64.infinity true))]

def readWord (cs : List Char) : Option (Value × List Char) :=
  words.findSome? fun (word, v) =>
    if word.isPrefixOf cs then some (v, cs.drop word.length) else none

/-- A value without parts, that is no text. -/
def readLeafChars (cs : List Char) : Option (Value × List Char) :=
  match readWord cs with
  | some found => some found
  | none => match cs with
    | '-' :: rest => readUnsigned true rest
    | _ => readUnsigned false cs

/-- The characters before the first half. -/
def charsBefore : List Point → List Char
  | .char c :: rest => c :: charsBefore rest
  | _ => []

/-- No half stands in a value of this kind, so that it ends before the first one. -/
def readLeaf (ps : List Point) : Option (Value × List Point) :=
  let cs := charsBefore ps
  (readLeafChars cs).map fun (v, rest) => (v, Point.ofChars rest ++ ps.drop cs.length)

mutual

/-- Reads one value. The first argument bounds the count of calls that lie within each other. -/
def readValue : Nat → List Point → Option (Value × List Point)
  | 0, _ => none
  | fuel + 1, ps =>
    match ps with
    | [] => none
    | p :: rest =>
      if p = .char '"' then
        (readText .plain [] rest).map fun (t, rest) => (.ofText (.ofPoints t), rest)
      else if p = .char '[' then
        match skip rest with
        | .char ']' :: rest => some (.list [], rest)
        | rest => readItems fuel [] rest
      else if p = .char '\x7b' then
        match skip rest with
        | .char '\x7d' :: rest => some (.mapping [], rest)
        | rest => readEntries fuel [] rest
      else readLeaf ps

/-- Reads the items of a list that are left; `done` holds those before, last first. -/
def readItems : Nat → List Value → List Point → Option (Value × List Point)
  | 0, _, _ => none
  | fuel + 1, done, ps =>
    match readValue fuel ps with
    | none => none
    | some (v, rest) =>
      match skip rest with
      | .char ']' :: rest => some (.list (v :: done).reverse, rest)
      | .char ',' :: rest => readItems fuel (v :: done) (skip rest)
      | _ => none

/-- Reads the entries of a mapping that are left; `done` holds those before, last first. -/
def readEntries : Nat → List (Value × Value) → List Point → Option (Value × List Point)
  | 0, _, _ => none
  | fuel + 1, done, ps =>
    match ps with
    | .char '"' :: rest =>
      match readText .plain [] rest with
      | none => none
      | some (key, rest) =>
        match skip rest with
        | .char ':' :: rest =>
          match readValue fuel (skip rest) with
          | none => none
          | some (v, rest) =>
            let done := (.ofText (.ofPoints key), v) :: done
            match skip rest with
            | .char '\x7d' :: rest => some (Value.ofEntries done.reverse, rest)
            | .char ',' :: rest => readEntries fuel done (skip rest)
            | _ => none
        | _ => none
    | _ => none

end

/-- Reads a whole text as one value. -/
def parse (ps : List Point) : Option Value :=
  match readValue (2 * ps.length + 2) (skip ps) with
  | some (v, rest) => if (skip rest).isEmpty then some v else none
  | none => none

/-! ## Text from bytes -/

/-- The encoding of bytes that hold JSON, with the bytes of the text itself. A mark at the
start tells it, or else the zeros among the first four bytes. -/
def decodeText (bs : List UInt8) : Option (List Point) :=
  match bs with
  | 0 :: 0 :: 0xFE :: 0xFF :: rest => WideUnits.decode32 .big rest
  | 0xFF :: 0xFE :: 0 :: 0 :: rest => WideUnits.decode32 .little rest
  | 0xFE :: 0xFF :: rest => WideUnits.decode16 .big rest
  | 0xFF :: 0xFE :: rest => WideUnits.decode16 .little rest
  | 0xEF :: 0xBB :: 0xBF :: rest => Utf8.decodePoints rest
  | a :: b :: c :: d :: _ =>
    if a = 0 then
      if b = 0 then WideUnits.decode32 .big bs else WideUnits.decode16 .big bs
    else if b = 0 then
      if c = 0 ∧ d = 0 then WideUnits.decode32 .little bs else WideUnits.decode16 .little bs
    else Utf8.decodePoints bs
  | [a, b] =>
    if a = 0 then WideUnits.decode16 .big bs
    else if b = 0 then WideUnits.decode16 .little bs
    else Utf8.decodePoints bs
  | _ => Utf8.decodePoints bs

/-- Reads the JSON that a value holds, as text or as bytes. -/
def ofValue? (v : Value) : Option Value :=
  match v.toText? with
  | some t => parse t.points
  | none => do parse (← decodeText (← v.bytes?))

end Attestation.Json
