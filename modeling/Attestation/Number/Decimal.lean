-- Exact decimal numbers: a sign, a coefficient and a power of ten. Two of them may
-- stand for the same number and still differ in sign of zero or in trailing zeros,
-- and both texts below keep what they should: `text` every digit and the exponent,
-- `canonical` the number alone.
import Attestation.Text.DecimalDigit

namespace Attestation

/-- The number `±coefficient · 10 ^ exponent`. -/
structure Decimal where
  negative : Bool
  coefficient : Nat
  exponent : Int
  deriving DecidableEq, Repr

namespace Decimal

/-! ## Magnitude and order -/

def ofInt (n : Int) : Decimal := ⟨n < 0, n.natAbs, 0⟩

/-- The digits of the coefficient. -/
def digits (d : Decimal) : List Char := DecimalDigit.write d.coefficient

/-- The power of ten of the leading digit. -/
def adjusted (d : Decimal) : Int := d.exponent + (d.digits.length : Int) - 1

def isZero (d : Decimal) : Bool := d.coefficient == 0

/-- The number as a count of steps of `10 ^ grid`, for a grid that is fine enough. -/
def steps (d : Decimal) (grid : Int) : Int :=
  let size : Int := d.coefficient * Nat.pow 10 (d.exponent - grid).toNat
  if d.negative then -size else size

/-- The order of numbers: both sides are counted on the finer of their two grids. -/
def le (x y : Decimal) : Bool :=
  let grid := min x.exponent y.exponent
  x.steps grid ≤ y.steps grid

def lt (x y : Decimal) : Bool := !le y x

/-- The same number, whatever its digits. -/
def same (x y : Decimal) : Bool := le x y && le y x

/-! ## Text -/

def sign (d : Decimal) : List Char := if d.negative then ['-'] else []

/-- Puts a point before the last `places` digits, with zeros in front where digits are short. -/
def pointed (ds : List Char) (places : Nat) : List Char :=
  let padded := List.replicate (places + 1 - ds.length) '0' ++ ds
  let whole := padded.length - places
  padded.take whole ++ '.' :: padded.drop whole

/-- All digits written out, without an exponent. -/
def plain (d : Decimal) : List Char :=
  if 0 ≤ d.exponent then d.digits ++ List.replicate d.exponent.toNat '0'
  else pointed d.digits (-d.exponent).toNat

/-- The power of ten behind an E, always with its sign. -/
def exponentMark (e : Int) : List Char :=
  'E' :: (if e < 0 then '-' else '+') :: DecimalDigit.write e.natAbs

/-- Every digit and the exponent. A number with a positive exponent, or with more than
five zeros between point and digits, has one digit before the point and a power of ten. -/
def chars (d : Decimal) : List Char :=
  if d.exponent ≤ 0 ∧ -6 ≤ d.adjusted then
    d.sign ++ (if d.exponent = 0 then d.digits else pointed d.digits (-d.exponent).toNat)
  else
    let head := d.digits.take 1
    let tail := d.digits.drop 1
    d.sign ++ head ++ (if tail.isEmpty then [] else '.' :: tail) ++ exponentMark d.adjusted

def text (d : Decimal) : String := String.ofList d.chars

/-- Drops the zeros at the end, and the point if it then stands last. -/
def trimFraction (cs : List Char) : List Char :=
  let kept := cs.reverse.dropWhile (· = '0')
  (if kept.head? = some '.' then kept.drop 1 else kept).reverse

/-- The one text of a number: no exponent, no needless zero, no point without a digit
behind it, and no negative zero. -/
def canonicalChars (d : Decimal) : List Char :=
  if d.isZero then ['0']
  else if 0 ≤ d.exponent then d.sign ++ d.plain
  else d.sign ++ trimFraction d.plain

def canonical (d : Decimal) : String := String.ofList d.canonicalChars

/-! ## Reading -/

/-- Splits off the leading digits. -/
def spanDigits (cs : List Char) : List Char × List Char :=
  (cs.takeWhile DecimalDigit.isAscii, cs.dropWhile DecimalDigit.isAscii)

/-- An optional sign: whether it is a minus, and what follows. -/
def readSign : List Char → Bool × List Char
  | '-' :: rest => (true, rest)
  | '+' :: rest => (false, rest)
  | cs => (false, cs)

/-- Digits with at most one point among them, at least one digit in all: the digits
before the point, those behind it, and what follows. -/
def readMantissa (cs : List Char) : Option (List Char × List Char × List Char) :=
  let (whole, rest) := spanDigits cs
  let (fraction, rest) := match rest with
    | '.' :: more => spanDigits more
    | _ => ([], rest)
  if whole.isEmpty && fraction.isEmpty then none else some (whole, fraction, rest)

/-- The whole rest as a power of ten: nothing at all, or e or E, an optional sign and
digits, of which `fits` limits the count. -/
def readExponent (fits : Nat → Bool) : List Char → Option Int
  | [] => some 0
  | c :: rest =>
    if c = 'e' ∨ c = 'E' then
      let (negative, rest) := readSign rest
      let (ds, rest) := spanDigits rest
      if ds.isEmpty || !rest.isEmpty || !fits ds.length then none
      else some (if negative then -(DecimalDigit.ofAscii ds : Int) else DecimalDigit.ofAscii ds)
    else none

/-- Reads a whole text, with `fits` as the limit on the digits of the exponent. -/
def readWith (fits : Nat → Bool) (cs : List Char) : Option Decimal :=
  let (negative, rest) := readSign cs
  match readMantissa rest with
  | none => none
  | some (whole, fraction, rest) =>
    match readExponent fits rest with
    | none => none
    | some e => some ⟨negative, DecimalDigit.ofAscii (whole ++ fraction), e - fraction.length⟩

/-- The text form of an amount: its exponent has at most six digits. -/
def ofChars? (cs : List Char) : Option Decimal := readWith (· ≤ 6) cs

/-! ## Numbers beside the finite ones -/

/-- A decimal as callers hold it: finite, infinite, or not a number, quiet or
signalling, with a payload. -/
inductive Extended where
  | finite (d : Decimal)
  | infinite (negative : Bool)
  | nan (negative signalling : Bool) (payload : Nat)
  deriving DecidableEq, Repr

def Extended.text : Extended → String
  | .finite d => d.text
  | .infinite negative => (if negative then "-" else "") ++ "Infinity"
  | .nan negative signalling payload =>
    (if negative then "-" else "") ++ (if signalling then "sNaN" else "NaN")
      ++ (if payload = 0 then "" else String.ofList (DecimalDigit.write payload))

/-- What follows `word` in a text, whatever the case of its letters. -/
def afterWord (word cs : List Char) : Option (List Char) :=
  if (cs.take word.length).map Char.toLower = word then some (cs.drop word.length) else none

/-- The payload of a number that is none. -/
def readPayload (cs : List Char) : Option Nat :=
  if cs.all DecimalDigit.isAscii then some (DecimalDigit.ofAscii cs) else none

/-- Reads the text of any decimal, with an exponent of any length. -/
def Extended.ofChars? (cs : List Char) : Option Extended :=
  match readWith (fun _ => true) cs with
  | some d => some (.finite d)
  | none =>
    let (negative, rest) := readSign cs
    if rest.map Char.toLower ∈ ["inf".toList, "infinity".toList] then some (.infinite negative)
    else match afterWord "snan".toList rest with
      | some payload => (readPayload payload).map (.nan negative true)
      | none => (afterWord "nan".toList rest).bind fun payload =>
          (readPayload payload).map (.nan negative false)

end Decimal

end Attestation
