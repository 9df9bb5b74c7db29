-- Doubles by their 64 bits. A finite one is `±significand · 2 ^ scale`, so all that
-- follows is exact arithmetic on whole numbers: the nearest double to a fraction, and
-- the shortest decimal that reads back as the same double.
import Attestation.Number.Decimal

namespace Attestation

/-- A double, held as its bits. -/
structure Binary64 where
  bits : UInt64
  deriving DecidableEq, Repr

namespace Binary64

/-! ## The parts of a double -/

def negative (x : Binary64) : Bool := 9223372036854775808 ≤ x.bits.toNat

/-- The eleven bits of the power of two. -/
def power (x : Binary64) : Nat := x.bits.toNat / 4503599627370496 % 2048

/-- The 52 bits behind the leading one. -/
def fraction (x : Binary64) : Nat := x.bits.toNat % 4503599627370496

def isFinite (x : Binary64) : Bool := x.power < 2047

def isNaN (x : Binary64) : Bool := x.power == 2047 && x.fraction != 0

/-- The whole number that is scaled: the smallest doubles have no leading one. -/
def significand (x : Binary64) : Nat :=
  if x.power = 0 then x.fraction else 4503599627370496 + x.fraction

/-- The power of two that scales it. -/
def scale (x : Binary64) : Int :=
  if x.power = 0 then -1074 else (x.power : Int) - 1075

def isZero (x : Binary64) : Bool := x.isFinite && x.significand == 0

/-- Puts the three parts together. -/
def ofParts (negative : Bool) (power fraction : Nat) : Binary64 :=
  ⟨UInt64.ofNat ((if negative then 9223372036854775808 else 0) + power * 4503599627370496 + fraction)⟩

def infinity (negative : Bool) : Binary64 := ofParts negative 2047 0

def nan : Binary64 := ofParts false 2047 2251799813685248

/-! ## The nearest double -/

/-- A fraction as numerator and denominator, after a factor `2 ^ e`. -/
def scaled (num den : Nat) (e : Int) : Nat × Nat :=
  if 0 ≤ e then (num * Nat.pow 2 e.toNat, den) else (num, den * Nat.pow 2 (-e).toNat)

/-- The quotient rounded to the nearest whole number, a half to the even one. -/
def roundHalfEven (num den : Nat) : Nat :=
  let q := num / den
  let r := num % den
  if 2 * r < den then q
  else if den < 2 * r then q + 1
  else q + q % 2

/-- The scale at which a fraction has 53 bits, but no less than the least scale of all. -/
def scaleFor (num den : Nat) : Int :=
  let guess : Int := (Nat.log2 num : Int) - Nat.log2 den - 52
  let (n, d) := scaled num den (-guess)
  let exact := if n / d < 4503599627370496 then guess - 1
    else if 9007199254740992 ≤ n / d then guess + 1 else guess
  max exact (-1074)

/-- A whole number below `2 ^ 54` at a scale, as a double; what is too large is infinite. -/
def ofScaled (negative : Bool) (m : Nat) (e : Int) : Binary64 :=
  let (m, e) := if m = 9007199254740992 then (4503599627370496, e + 1) else (m, e)
  if m < 4503599627370496 then ofParts negative 0 m
  else if 971 < e then infinity negative
  else ofParts negative (e + 1075).toNat (m - 4503599627370496)

/-- The double nearest to `num / den`, of two the one with an even significand. -/
def nearest (negative : Bool) (num den : Nat) : Binary64 :=
  if num = 0 then ofParts negative 0 0
  else
    let e := scaleFor num den
    let (n, d) := scaled num den (-e)
    ofScaled negative (roundHalfEven n d) e

/-- The double nearest to a decimal. A leading digit far outside the range of doubles
settles the answer without any power of ten. -/
def ofDecimal (d : Decimal) : Binary64 :=
  if d.isZero || d.adjusted < -330 then ofParts d.negative 0 0
  else if 310 < d.adjusted then infinity d.negative
  else if 0 ≤ d.exponent then nearest d.negative (d.coefficient * Nat.pow 10 d.exponent.toNat) 1
  else nearest d.negative d.coefficient (Nat.pow 10 (-d.exponent).toNat)

/-- A double with a smaller format's parts: `width` bits of fraction, and `bias` as the
power that stands for `2 ^ 0`. -/
def widen (negative : Bool) (power fraction width top bias : Nat) : Binary64 :=
  if power = top then if fraction = 0 then infinity negative else nan
  else
    let (m, e) : Nat × Int :=
      if power = 0 then (fraction, 1 - (bias : Int) - width)
      else (Nat.pow 2 width + fraction, (power : Int) - bias - width)
    let (num, den) := scaled m 1 e
    nearest negative num den

def ofHalf (n : Nat) : Binary64 := widen (32768 ≤ n) (n / 1024 % 32) (n % 1024) 10 31 15

def ofSingle (n : Nat) : Binary64 :=
  widen (2147483648 ≤ n) (n / 8388608 % 256) (n % 8388608) 23 255 127

/-! ## The exact value -/

/-- The number that a finite double is. -/
def exact (x : Binary64) : Decimal :=
  if 0 ≤ x.scale then ⟨x.negative, x.significand * Nat.pow 2 x.scale.toNat, 0⟩
  else ⟨x.negative, x.significand * Nat.pow 5 (-x.scale).toNat, x.scale⟩

/-! ## The shortest decimal -/

/-- The fractions that read as one double, over a common denominator: all from `low` to
`high`, and the ends too if `closed`. -/
structure Interval where
  low : Nat
  value : Nat
  high : Nat
  den : Nat
  closed : Bool

/-- Half the way to either neighbour. Below a power of two the neighbours are closer. -/
def interval (x : Binary64) : Interval :=
  let m := x.significand
  let down := if x.fraction = 0 ∧ 1 < x.power then 1 else 2
  let (unit, den) := scaled 1 1 (x.scale - 2)
  ⟨(4 * m - down) * unit, 4 * m * unit, (4 * m + 2) * unit, den, m % 2 == 0⟩

/-- A fraction counted in steps of `10 ^ grid`, as numerator and denominator. -/
def onGrid (num den : Nat) (grid : Int) : Nat × Nat :=
  if 0 ≤ grid then (num, den * Nat.pow 10 grid.toNat) else (num * Nat.pow 10 (-grid).toNat, den)

/-- `count` steps of `10 ^ grid` read as the double. -/
def Interval.holds (i : Interval) (grid : Int) (count : Nat) : Bool :=
  let (low, den) := onGrid i.low i.den grid
  let (high, _) := onGrid i.high i.den grid
  if i.closed then low ≤ count * den && count * den ≤ high
  else low < count * den && count * den < high

/-- The point of a grid that is nearest to the double, if it reads as the double. Of two
points equally near the even one is taken. -/
def Interval.point? (i : Interval) (grid : Int) : Option Nat :=
  let (num, den) := onGrid i.value i.den grid
  let below := num / den
  let above := below + 1
  match i.holds grid below, i.holds grid above with
  | false, false => none
  | true, false => some below
  | false, true => some above
  | true, true =>
    let r := num % den
    if 2 * r < den then some below
    else if den < 2 * r then some above
    else some (below + below % 2)

/-- The power of ten of the leading digit of a positive fraction. -/
def leadingPower (num den : Nat) : Int :=
  if den ≤ num then (DecimalDigit.write (num / den)).length - 1
  else
    let behind := (DecimalDigit.write (den / num)).length
    if den ≤ num * Nat.pow 10 (behind - 1) then 1 - (behind : Int) else -(behind : Int)

/-- The first count of digits that suffices gives the coefficient and its power of ten. -/
def shortest (x : Binary64) : Nat × Int :=
  let i := x.interval
  let top := leadingPower i.value i.den
  let hit := (List.range 17).findSome? fun (places : Nat) =>
    let grid := top - (places : Int)
    (i.point? grid).map fun count => (count, grid)
  hit.getD (0, 0)

/-! ## Text -/

/-- How the text of a double is laid out. -/
structure Layout where
  /-- The least power of ten of the leading digit that is written without an exponent. -/
  leastPlain : Int
  /-- The first power of ten that is written with an exponent again. -/
  firstLarge : Int
  /-- The least count of digits of the exponent. -/
  exponentPlaces : Nat

/-- From a ten-thousandth up to sixteen digits before the point there is no exponent, and
an exponent has two digits or more. -/
def layout : Layout := ⟨-4, 16, 2⟩

def exponentText (e : Int) : List Char :=
  let ds := DecimalDigit.write e.natAbs
  'e' :: (if e < 0 then '-' else '+')
    :: (List.replicate (layout.exponentPlaces - ds.length) '0' ++ ds)

/-- Digits and the power of ten of the first of them, laid out. -/
def layOut (ds : List Char) (leading : Int) : List Char :=
  if leading < layout.leastPlain ∨ layout.firstLarge ≤ leading then
    let tail := ds.drop 1
    ds.take 1 ++ (if tail.isEmpty then [] else '.' :: tail) ++ exponentText leading
  else if leading < 0 then
    "0.".toList ++ List.replicate (-leading - 1).toNat '0' ++ ds
  else
    let whole := leading.toNat + 1
    if ds.length ≤ whole then ds ++ List.replicate (whole - ds.length) '0' ++ ".0".toList
    else ds.take whole ++ '.' :: ds.drop whole

/-- The magnitude of a finite double. -/
def magnitude (x : Binary64) : List Char :=
  if x.significand = 0 then "0.0".toList
  else
    let (count, grid) := x.shortest
    let ds := DecimalDigit.write count
    let kept := (ds.reverse.dropWhile (· = '0')).reverse
    layOut kept (grid + (ds.length : Int) - 1)

/-- The shortest text that reads back as the same double. -/
def chars (x : Binary64) : List Char :=
  if x.isNaN then "nan".toList
  else (if x.negative then ['-'] else []) ++ (if x.isFinite then x.magnitude else "inf".toList)

def text (x : Binary64) : String := String.ofList x.chars

end Binary64

end Attestation
