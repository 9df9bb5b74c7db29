-- Text in units of two or four bytes, in either byte order. A unit cut short and a number
-- above U+10FFFF are refused; a half without its other half stays one.
import Attestation.Text.Torn

namespace Attestation.WideUnits

inductive ByteOrder where
  | big
  | little
  deriving DecidableEq, Repr

/-- A pair of bytes as a number. -/
def pair (order : ByteOrder) (a b : UInt8) : Nat :=
  match order with
  | .big => 256 * a.toNat + b.toNat
  | .little => 256 * b.toNat + a.toNat

/-- Splits bytes into numbers of two bytes each; `done` holds them last first. -/
def units16From (order : ByteOrder) : List Nat → List UInt8 → Option (List Nat)
  | done, [] => some done.reverse
  | _, [_] => none
  | done, a :: b :: rest => units16From order (pair order a b :: done) rest

/-- Splits bytes into numbers of four bytes each; `done` holds them last first. -/
def units32From (order : ByteOrder) : List Nat → List UInt8 → Option (List Nat)
  | done, [] => some done.reverse
  | done, a :: b :: c :: d :: rest =>
    let n := match order with
      | .big => 65536 * pair .big a b + pair .big c d
      | .little => 65536 * pair .little c d + pair .little a b
    units32From order (n :: done) rest
  | _, _ => none

/-- A first half, by its place among the first halves. -/
abbrev High := Fin 1024

/-- The first half that a unit is. -/
def high? (n : Nat) : Option High :=
  if h : 0xD800 ≤ n ∧ n < 0xDC00 then some ⟨n - 0xD800, by omega⟩ else none

def isLow (n : Nat) : Bool := 0xDC00 ≤ n && n < 0xE000

/-- The number that two halves stand for. -/
def join (high : High) (low : Nat) : Nat := 0x10000 + 1024 * high.val + (low - 0xDC00)

/-- A first half that stays without its second one. -/
def lone (high : High) : Point := .half ⟨high.val, by omega⟩

/-- What a unit that is not joined adds to the text, or the first half that waits after it. -/
def apart? (n : Nat) : Option (List Point × Option High) :=
  match high? n with
  | some next => some ([], some next)
  | none => (Point.ofNat? n).map fun p => ([p], none)

/-- What a unit adds to the text, last first, and the first half that waits after it. One that
waits before it is joined with it, or stays alone. -/
def unit? (n : Nat) (waiting : Option High) : Option (List Point × Option High) :=
  match waiting with
  | none => apart? n
  | some high =>
    if isLow n then (Point.ofNat? (join high n)).map fun p => ([p], none)
    else (apart? n).map fun (added, next) => (added ++ [lone high], next)

/-- The text of units; `done` holds what was read so far, last first. -/
def joinFrom : Option High → List Point → List Nat → Option (List Point)
  | waiting, done, [] => some ((waiting.map lone).toList ++ done).reverse
  | waiting, done, n :: rest =>
    match unit? n waiting with
    | none => none
    | some (added, waiting) => joinFrom waiting (added ++ done) rest

def decode16 (order : ByteOrder) (bs : List UInt8) : Option (List Point) := do
  joinFrom none [] (← units16From order [] bs)

def decode32 (order : ByteOrder) (bs : List UInt8) : Option (List Point) := do
  (← units32From order [] bs).mapM Point.ofNat?

end Attestation.WideUnits
