-- The binary form CBOR. The writer gives every length in its shortest head. The reader
-- takes heads of any width, strings, lists and mappings that end with a break, doubles
-- of three widths, and whole numbers of any size; it stops behind the first item. Of tags it
-- takes 2 and 3 alone, those of large whole numbers, and refuses every other one, and with it
-- whatever it marks: times, decimals, fractions and the like. How deep items may lie within each
-- other is limited.
import Attestation.Value
import Attestation.Text.Utf8

namespace Attestation.Cbor

/-! ## Writing -/

/-- The last `count` bytes of a number, highest first. -/
def bigEndian : Nat → Nat → List UInt8
  | 0, _ => []
  | count + 1, n => bigEndian count (n / 256) ++ [UInt8.ofNat (n % 256)]

/-- The head of an item: its type and a number, as short as it can be. -/
def head (type n : Nat) : List UInt8 :=
  if n < 24 then [UInt8.ofNat (32 * type + n)]
  else if n < 256 then UInt8.ofNat (32 * type + 24) :: bigEndian 1 n
  else if n < 65536 then UInt8.ofNat (32 * type + 25) :: bigEndian 2 n
  else if n < 4294967296 then UInt8.ofNat (32 * type + 26) :: bigEndian 4 n
  else UInt8.ofNat (32 * type + 27) :: bigEndian 8 n

/-- The count of bytes that a number needs. -/
def byteCount (n : Nat) : Nat := if n = 0 then 0 else Nat.log2 n / 8 + 1

/-- A whole number: in its head, or else as tagged bytes. -/
def writeInt (n : Int) : List UInt8 :=
  let size := if n < 0 then (-1 - n).toNat else n.toNat
  let sign := if n < 0 then 1 else 0
  if size < 18446744073709551616 then head sign size
  else
    let count := byteCount size
    head 6 (2 + sign) ++ head 2 count ++ bigEndian count size

/-- A double that is no number, by the shortest form that says so. -/
def notNumber : List UInt8 := [0xF9, 0x7E, 0x00]

def infinity (negative : Bool) : List UInt8 := [0xF9, if negative then 0xFC else 0x7C, 0x00]

/-- A double by its 64 bits, unless it has no digits. -/
def writeFloat (x : Binary64) : List UInt8 :=
  if x.isFinite then 0xFB :: bigEndian 8 x.bits.toNat
  else if x.isNaN then notNumber
  else infinity x.negative

def writeText (s : String) : List UInt8 :=
  let bytes := Utf8.ofString s
  head 3 bytes.length ++ bytes

mutual

/-- A value as CBOR. A value of another kind gives that kind's name; a torn text has no bytes. -/
def write : Value → Except Unwritten (List UInt8)
  | .none => .ok [0xF6]
  | .bool b => .ok [if b then 0xF5 else 0xF4]
  | .int n => .ok (writeInt n)
  | .float x => .ok (writeFloat x)
  | .decimal (.infinite negative) => .ok (infinity negative)
  | .decimal (.nan _ _ _) => .ok notNumber
  | .text s => .ok (writeText s)
  | .torn t => .error (.failed (.ofTorn t))
  | .bytes bs => .ok (head 2 bs.length ++ bs)
  | .buffer bs => .ok (head 2 bs.length ++ bs)
  | .list items => (writeItems items).map (head 4 items.length ++ ·)
  | .tuple items => (writeItems items).map (head 4 items.length ++ ·)
  | .mapping entries => (writeEntries entries).map (head 5 entries.length ++ ·)
  | v => .error (.kind v.kindName)

def writeItems : List Value → Except Unwritten (List UInt8)
  | [] => .ok []
  | v :: rest => do
    let part ← write v
    let parts ← writeItems rest
    .ok (part ++ parts)

def writeEntries : List (Value × Value) → Except Unwritten (List UInt8)
  | [] => .ok []
  | (k, v) :: rest => do
    let key ← write k
    let part ← write v
    let parts ← writeEntries rest
    .ok (key ++ part ++ parts)

end

/-! ## Reading -/

def ofBigEndian (bs : List UInt8) : Nat := bs.foldl (fun acc b => 256 * acc + b.toNat) 0

/-- Splits off the given count of bytes, if there are that many. -/
def takeBytes (count : Nat) (bs : List UInt8) : Option (List UInt8 × List UInt8) :=
  let taken := bs.take count
  if taken.length = count then some (taken, bs.drop count) else none

/-- The number of a head. Without one, the item goes on until a break. -/
inductive Extent where
  | known (n : Nat)
  | untilBreak

/-- A head: the type, the low five bits of its first byte, and its number. -/
def readHead : List UInt8 → Option ((Nat × Nat × Extent) × List UInt8)
  | [] => none
  | b :: rest =>
    let type := b.toNat / 32
    let low := b.toNat % 32
    let wide (count : Nat) : Option ((Nat × Nat × Extent) × List UInt8) :=
      (takeBytes count rest).map fun (bs, rest) => ((type, low, .known (ofBigEndian bs)), rest)
    if low < 24 then some ((type, low, .known low), rest)
    else if low = 24 then wide 1
    else if low = 25 then wide 2
    else if low = 26 then wide 4
    else if low = 27 then wide 8
    else if low = 31 then some ((type, low, .untilBreak), rest)
    else none

/-- The byte that ends what has no length. -/
def breakByte : UInt8 := 0xFF

/-- The pieces of a string of the given type, up to the break. -/
def readPieces (type : Nat) : Nat → List (List UInt8) → List UInt8 →
    Option (List (List UInt8) × List UInt8)
  | 0, _, _ => none
  | fuel + 1, done, bs =>
    if bs.head? = some breakByte then some (done.reverse, bs.drop 1)
    else match readHead bs with
      | some ((t, _, .known n), rest) =>
        if t = type then
          match takeBytes n rest with
          | some (piece, rest) => readPieces type fuel (piece :: done) rest
          | none => none
        else none
      | _ => none

/-- All bytes of a string in its pieces. -/
def readString (type : Nat) (extent : Extent) (bs : List UInt8) :
    Option (List (List UInt8) × List UInt8) :=
  match extent with
  | .known n => (takeBytes n bs).map fun (piece, rest) => ([piece], rest)
  | .untilBreak => readPieces type (bs.length + 1) [] bs

/-- A value of the last type: truth values, nothing, bare codes and doubles. -/
def readSimple (low : Nat) (extent : Extent) : Option Value :=
  match extent with
  | .untilBreak => none
  | .known n =>
    if low = 25 then some (.float (Binary64.ofHalf n))
    else if low = 26 then some (.float (Binary64.ofSingle n))
    else if low = 27 then some (.float ⟨UInt64.ofNat n⟩)
    else if low = 24 ∧ n < 32 then none
    else if n = 20 then some (.bool false)
    else if n = 21 then some (.bool true)
    else if n = 22 then some .none
    else if n = 23 then some .undefined
    else some (.simple n)

/-- Whole numbers too large for a head: the tag tells the sign. -/
def readTagged (tag : Nat) (content : Value) : Option Value :=
  match content with
  | .bytes bs =>
    if tag = 2 then some (.int (ofBigEndian bs))
    else if tag = 3 then some (.int (-1 - (ofBigEndian bs : Int)))
    else none
  | _ => none

mutual

/-- A key as it is held: lists and mappings in it can no longer change. -/
def asKey : Value → Value
  | .list items => .tuple (asKeys items)
  | .mapping entries => .fixedMapping (asKeyEntries entries)
  | v => v

def asKeys : List Value → List Value
  | [] => []
  | v :: rest => asKey v :: asKeys rest

def asKeyEntries : List (Value × Value) → List (Value × Value)
  | [] => []
  | (k, v) :: rest => (asKey k, asKey v) :: asKeyEntries rest

end

/-- The count of other items that an item may lie within. -/
def maxDepth : Nat := 400

mutual

/-- Reads one item. The first argument bounds the count of calls that lie within each other,
and the second one the count of items that do. -/
def readItem : Nat → Nat → List UInt8 → Option (Value × List UInt8)
  | 0, _, _ => none
  | _, 0, _ => none
  | fuel + 1, depth + 1, bs =>
    match readHead bs with
    | none => none
    | some ((type, low, extent), rest) =>
      match type, extent with
      | 0, .known n => some (.int n, rest)
      | 1, .known n => some (.int (-1 - (n : Int)), rest)
      | 2, _ => (readString 2 extent rest).map fun (pieces, rest) => (.bytes pieces.flatten, rest)
      | 3, _ => do
        let (pieces, rest) ← readString 3 extent rest
        let texts ← pieces.mapM Utf8.decode
        some (.text (String.ofList texts.flatten), rest)
      | 4, _ => readItems fuel depth extent [] rest
      | 5, _ => readEntries fuel depth extent [] rest
      | 6, .known tag => do
        let (content, rest) ← readItem fuel depth rest
        some (← readTagged tag content, rest)
      | 7, _ => (readSimple low extent).map fun v => (v, rest)
      | _, _ => none

/-- Reads the items of a list that are left; `done` holds those before, last first. -/
def readItems : Nat → Nat → Extent → List Value → List UInt8 → Option (Value × List UInt8)
  | 0, _, _, _, _ => none
  | fuel + 1, depth, extent, done, bs =>
    match extent with
    | .known 0 => some (.list done.reverse, bs)
    | .known (n + 1) =>
      match readItem fuel depth bs with
      | none => none
      | some (v, rest) => readItems fuel depth (.known n) (v :: done) rest
    | .untilBreak =>
      if bs.head? = some breakByte then some (.list done.reverse, bs.drop 1)
      else match readItem fuel depth bs with
        | none => none
        | some (v, rest) => readItems fuel depth .untilBreak (v :: done) rest

/-- Reads the entries of a mapping that are left, into those before. -/
def readEntries : Nat → Nat → Extent → List (Value × Value) → List UInt8 →
    Option (Value × List UInt8)
  | 0, _, _, _, _ => none
  | fuel + 1, depth, extent, done, bs =>
    match extent with
    | .known 0 => some (.mapping done, bs)
    | .known (n + 1) =>
      match readItem fuel depth bs with
      | none => none
      | some (k, rest) =>
        match readItem fuel depth rest with
        | none => none
        | some (v, rest) => readEntries fuel depth (.known n) (Value.insert (asKey k) v done) rest
    | .untilBreak =>
      if bs.head? = some breakByte then some (.mapping done, bs.drop 1)
      else match readItem fuel depth bs with
        | none => none
        | some (k, rest) =>
          match readItem fuel depth rest with
          | none => none
          | some (v, rest) => readEntries fuel depth .untilBreak (Value.insert (asKey k) v done) rest

end

/-- Reads the first item of some bytes. -/
def parse (bs : List UInt8) : Option Value :=
  (readItem (2 * bs.length + 2) (maxDepth + 1) bs).map Prod.fst

end Attestation.Cbor
