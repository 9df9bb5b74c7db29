-- Days of the Gregorian calendar, carried back to the year 1, up to the year 9999.
-- A `Date` is a real day by its type. Its text is YYYY-MM-DD, and reading takes
-- exactly the texts of real days and says what is wrong with every other one.
import Attestation.Text.DecimalDigit

namespace Attestation

def isLeap (year : Nat) : Bool :=
  year % 4 == 0 && (year % 100 != 0 || year % 400 == 0)

def daysInMonth (year month : Nat) : Nat :=
  match month with
  | 2 => if isLeap year then 29 else 28
  | 4 => 30
  | 6 => 30
  | 9 => 30
  | 11 => 30
  | _ => 31

/-- Three numbers that name a real day. -/
def isDay (year month day : Nat) : Bool :=
  1 ≤ year && year ≤ 9999 && 1 ≤ month && month ≤ 12 && 1 ≤ day && day ≤ daysInMonth year month

/-- A real day. -/
structure Date where
  year : Nat
  month : Nat
  day : Nat
  real : isDay year month day = true
  deriving DecidableEq, Repr

namespace Date

/-- The day of three numbers, if there is one. -/
def ofNumbers? (year month day : Nat) : Option Date :=
  if h : isDay year month day = true then some ⟨year, month, day, h⟩ else none

/-- The first day of the calendar. -/
def first : Date := ⟨1, 1, 1, by decide⟩

/-- A number that grows from day to day. -/
def order (d : Date) : Nat := (d.year * 100 + d.month) * 100 + d.day

def le (x y : Date) : Bool := x.order ≤ y.order

def lt (x y : Date) : Bool := x.order < y.order

/-- The days from the beginning of the calendar to the end of this one. -/
def ordinal (d : Date) : Nat :=
  let before := d.year - 1
  let months := (List.range (d.month - 1)).map fun m => daysInMonth d.year (m + 1)
  365 * before + before / 4 - before / 100 + before / 400 + months.foldr (· + ·) 0 + d.day

/-! ## Text -/

def chars (d : Date) : List Char :=
  DecimalDigit.writeFixed 4 d.year ++ '-' :: (DecimalDigit.writeFixed 2 d.month
    ++ '-' :: DecimalDigit.writeFixed 2 d.day)

def text (d : Date) : String := String.ofList d.chars

/-! ## Reading -/

/-- What is wrong with a text that looks like a day. -/
inductive Fault where
  /-- Not four digits, two and two, with a dash between. -/
  | shape
  /-- The month is not 01 to 12, or the day is 00. -/
  | noMatch (text : String)
  /-- The day is above 31, so a reader of days stops before its second digit. -/
  | leftOver (digit : Char)
  | yearZero
  /-- The month has no such day. -/
  | dayTooLarge
  deriving DecidableEq, Repr

def Fault.message : Fault → String
  | .shape => "expected YYYY-MM-DD"
  | .noMatch text => "time data '" ++ text ++ "' does not match format '%Y-%m-%d'"
  | .leftOver digit => "unconverted data remains: " ++ String.singleton digit
  | .yearZero => "year 0 is out of range"
  | .dayTooLarge => "day is out of range for month"

/-- The ten characters of the right shape, as three numbers and the last digit. -/
def split? : List Char → Option (Nat × Nat × Nat × Char)
  | [y1, y2, y3, y4, '-', m1, m2, '-', d1, d2] =>
    if [y1, y2, y3, y4, m1, m2, d1, d2].all DecimalDigit.isAscii then
      some (DecimalDigit.ofAscii [y1, y2, y3, y4], DecimalDigit.ofAscii [m1, m2],
        DecimalDigit.ofAscii [d1, d2], d2)
    else none
  | _ => none

/-- Reads a day. The faults are looked for in the order of their constructors. -/
def ofChars (cs : List Char) : Except Fault Date :=
  match split? cs with
  | none => .error .shape
  | some (year, month, day, last) =>
    if month = 0 ∨ 12 < month ∨ day = 0 then .error (.noMatch (String.ofList cs))
    else if 31 < day then .error (.leftOver last)
    else if year = 0 then .error .yearZero
    else match ofNumbers? year month day with
      | none => .error .dayTooLarge
      | some d => .ok d

end Date

/-! ## Moments -/

/-- A day with a time, and the seconds that its clock runs ahead of universal time, if
that is known. -/
structure Moment where
  date : Date
  hour : Nat
  minute : Nat
  second : Nat
  micro : Nat
  offset : Option Int
  deriving DecidableEq, Repr

namespace Moment

/-- The seconds and their parts since the beginning of the calendar, by the moment's own clock. -/
def clock (m : Moment) : Nat :=
  (((m.date.ordinal * 24 + m.hour) * 60 + m.minute) * 60 + m.second) * 1000000 + m.micro

/-- The same moment. Two clocks with known offsets are compared in universal time; a clock
with a known offset and one without have no moment in common. -/
def same (m n : Moment) : Bool :=
  match m.offset, n.offset with
  | some a, some b => (m.clock : Int) - a * 1000000 == (n.clock : Int) - b * 1000000
  | none, none => m == n
  | _, _ => false

/-- Hours, minutes and, where they count, seconds of an offset. -/
def offsetChars (seconds : Int) : List Char :=
  let n := seconds.natAbs
  let rest := if n % 60 = 0 then [] else ':' :: DecimalDigit.writeFixed 2 (n % 60)
  (if seconds < 0 then '-' else '+') :: (DecimalDigit.writeFixed 2 (n / 3600)
    ++ ':' :: (DecimalDigit.writeFixed 2 (n / 60 % 60) ++ rest))

/-- Day and time with a blank between, a fraction only where there is one. -/
def chars (m : Moment) : List Char :=
  let two := DecimalDigit.writeFixed 2
  let fraction := if m.micro = 0 then [] else '.' :: DecimalDigit.writeFixed 6 m.micro
  m.date.chars ++ ' ' :: (two m.hour ++ ':' :: (two m.minute ++ ':' :: (two m.second ++ fraction)))
    ++ (m.offset.map offsetChars).getD []

end Moment

end Attestation
