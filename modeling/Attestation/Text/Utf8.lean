-- UTF-8. `encode` writes each character in its one form of one to four bytes, and
-- `decode` takes exactly those forms: no longer spelling, no surrogate, nothing
-- above U+10FFFF, nothing cut short. `decodePoints` takes the form of a half too.
import Attestation.Text.Torn

namespace Attestation.Utf8

/-- The bytes of one character. -/
def encodeChar (c : Char) : List UInt8 :=
  let n := c.toNat
  if n < 0x80 then [UInt8.ofNat n]
  else if n < 0x800 then [UInt8.ofNat (0xC0 + n / 64), UInt8.ofNat (0x80 + n % 64)]
  else if n < 0x10000 then
    [UInt8.ofNat (0xE0 + n / 4096), UInt8.ofNat (0x80 + n / 64 % 64), UInt8.ofNat (0x80 + n % 64)]
  else
    [UInt8.ofNat (0xF0 + n / 262144), UInt8.ofNat (0x80 + n / 4096 % 64),
      UInt8.ofNat (0x80 + n / 64 % 64), UInt8.ofNat (0x80 + n % 64)]

def encode (cs : List Char) : List UInt8 := cs.flatMap encodeChar

/-- The character of a number, unless it is a surrogate or too large. -/
def scalar? (n : Nat) : Option Char :=
  if n < 0xD800 ∨ (0xDFFF < n ∧ n < 0x110000) then some (Char.ofNat n) else none

/-- The six bits of a byte that continues a character. -/
def continuation? (b : UInt8) : Option Nat :=
  if 0x80 ≤ b.toNat ∧ b.toNat < 0xC0 then some (b.toNat - 0x80) else none

/-- What is still due of the character being read. -/
inductive Due where
  /-- Between two characters. -/
  | start
  /-- `left` more bytes are due; `value` holds the bits so far, and the whole must reach `least`. -/
  | more (left : Nat) (value : Nat) (least : Nat)

/-- The first byte of a character: its whole number, or what is due after it. -/
def lead? (b : UInt8) : Option (Nat ⊕ Due) :=
  let n := b.toNat
  if n < 0x80 then some (.inl n)
  else if n < 0xC0 then none
  else if n < 0xE0 then some (.inr (.more 1 (n - 0xC0) 0x80))
  else if n < 0xF0 then some (.inr (.more 2 (n - 0xE0) 0x800))
  else if n < 0xF8 then some (.inr (.more 3 (n - 0xF0) 0x10000))
  else none

section
variable {α : Type} (read? : Nat → Option α)

/-- Reads byte by byte, and `read?` tells which numbers are taken and what for; `done` holds what
was read so far, last first. -/
def decodeFrom : Due → List α → List UInt8 → Option (List α)
  | .start, done, [] => some done.reverse
  | .more .., _, [] => none
  | .start, done, b :: rest =>
    match lead? b with
    | none => none
    | some (.inl n) => match read? n with
      | none => none
      | some c => decodeFrom .start (c :: done) rest
    | some (.inr due) => decodeFrom due done rest
  | .more left value least, done, b :: rest =>
    match continuation? b with
    | none => none
    | some bits =>
      let value := 64 * value + bits
      if left ≤ 1 then
        match read? value with
        | none => none
        | some c => if value < least then none else decodeFrom .start (c :: done) rest
      else decodeFrom (.more (left - 1) value least) done rest

end

def decode (bs : List UInt8) : Option (List Char) := decodeFrom scalar? .start [] bs

def decodePoints (bs : List UInt8) : Option (List Point) := decodeFrom Point.ofNat? .start [] bs

/-- The bytes of a text. -/
def ofString (s : String) : List UInt8 := encode s.toList

end Attestation.Utf8
