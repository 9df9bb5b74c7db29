-- Hexadecimal digits, in lower case, with a fixed count of places.

namespace Attestation.Hex

/-- The digit of a number below sixteen. -/
def digit (n : Nat) : Char :=
  if n < 10 then Char.ofNat (48 + n) else Char.ofNat (87 + n)

/-- The number of a digit, in either case. -/
def digitValue? (c : Char) : Option Nat :=
  if '0' ≤ c ∧ c ≤ '9' then some (c.toNat - 48)
  else if 'a' ≤ c ∧ c ≤ 'f' then some (c.toNat - 87)
  else if 'A' ≤ c ∧ c ≤ 'F' then some (c.toNat - 55)
  else none

theorem digitValue?_digit (n : Fin 16) : digitValue? (digit n) = some n.val := by
  revert n
  decide

/-- The last `places` digits of a number, highest first. -/
def fixed : Nat → Nat → List Char
  | 0, _ => []
  | places + 1, n => fixed places (n / 16) ++ [digit (n % 16)]

/-- The two digits of a byte. -/
def ofByte (b : UInt8) : List Char := fixed 2 b.toNat

/-- Reads pairs of digits as bytes. -/
def toBytes? : List Char → Option (List UInt8)
  | [] => some []
  | [_] => none
  | hi :: lo :: rest => do
    let h ← digitValue? hi
    let l ← digitValue? lo
    let tail ← toBytes? rest
    pure (UInt8.ofNat (16 * h + l) :: tail)

end Attestation.Hex
