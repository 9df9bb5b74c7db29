-- Decimal digits. Where people type a number, the digits of every script count: the
-- characters of the general category Nd in Unicode 14. They come in runs of ten, from a
-- zero to a nine, so the zeros say it all. Where a format fixes the digits they are those
-- of the ASCII range, and in them every number is written.

namespace Attestation.DecimalDigit

/-- The zero of each run of ten digits, in rising order. -/
def zeros : List Nat :=
  [0x30, 0x660, 0x6f0, 0x7c0, 0x966, 0x9e6, 0xa66, 0xae6, 0xb66, 0xbe6, 0xc66, 0xce6, 0xd66,
   0xde6, 0xe50, 0xed0, 0xf20, 0x1040, 0x1090, 0x17e0, 0x1810, 0x1946, 0x19d0, 0x1a80, 0x1a90,
   0x1b50, 0x1bb0, 0x1c40, 0x1c50, 0xa620, 0xa8d0, 0xa900, 0xa9d0, 0xa9f0, 0xaa50, 0xabf0,
   0xff10, 0x104a0, 0x10d30, 0x11066, 0x110f0, 0x11136, 0x111d0, 0x112f0, 0x11450, 0x114d0,
   0x11650, 0x116c0, 0x11730, 0x118e0, 0x11950, 0x11c50, 0x11d50, 0x11da0, 0x16a60, 0x16ac0,
   0x16b50, 0x1d7ce, 0x1d7d8, 0x1d7e2, 0x1d7ec, 0x1d7f6, 0x1e140, 0x1e2f0, 0x1e950, 0x1fbf0]

/-- The worth of a decimal digit, `none` for every other character. -/
def value? (c : Char) : Option Nat :=
  (zeros.find? fun z => z ≤ c.toNat && c.toNat < z + 10).map (c.toNat - ·)

/-- A decimal digit of some script. -/
def isDigit (c : Char) : Bool := (value? c).isSome

/-- The positional value, highest digit first; `none` if some character is no digit. -/
def read? (cs : List Char) : Option Nat :=
  cs.foldl (fun acc c => do pure (10 * (← acc) + (← value? c))) (some 0)

/-- A decimal digit of the ASCII range. -/
def isAscii (c : Char) : Bool := '0' ≤ c && c ≤ '9'

/-- The worth of an ASCII digit. -/
def asciiValue (c : Char) : Nat := c.toNat - 48

/-- The number that ASCII digits write, highest digit first. -/
def ofAscii (cs : List Char) : Nat := cs.foldl (fun acc c => 10 * acc + asciiValue c) 0

/-- The digits of a number, without leading zeros. -/
def write (n : Nat) : List Char := Nat.toDigits 10 n

/-- The last `places` digits of a number, with leading zeros. -/
def writeFixed : Nat → Nat → List Char
  | 0, _ => []
  | places + 1, n => writeFixed places (n / 10) ++ [Char.ofNat (48 + n % 10)]

/-- An integer: a minus if it is negative, then its digits. -/
def writeInt (n : Int) : List Char :=
  if n < 0 then '-' :: write n.natAbs else write n.natAbs

theorem writeFixed_length (places n : Nat) : (writeFixed places n).length = places := by
  induction places generalizing n with
  | zero => rfl
  | succ p ih => simp [writeFixed, ih]

/-! ## Reading takes back what writing gave -/

theorem ofAscii_append (cs : List Char) (c : Char) :
    ofAscii (cs ++ [c]) = 10 * ofAscii cs + asciiValue c := by
  simp [ofAscii]

theorem asciiValue_ofNat {d : Nat} (h : d < 10) : asciiValue (Char.ofNat (48 + d)) = d := by
  revert d
  decide

theorem asciiValue_digitChar {d : Nat} (h : d < 10) : asciiValue (Nat.digitChar d) = d := by
  have := Nat.toNat_digitChar_of_lt_ten h
  simp [asciiValue, this]

theorem isAscii_ofNat {d : Nat} (h : d < 10) : isAscii (Char.ofNat (48 + d)) = true := by
  revert d
  decide

theorem ofAscii_write (n : Nat) : ofAscii (write n) = n := by
  induction n using Nat.strongRecOn with
  | _ n ih =>
    by_cases h : n < 10
    · simp [write, Nat.toDigits_of_lt_base h, ofAscii, asciiValue_digitChar h]
    · have hsplit := Nat.toDigits_of_base_le (b := 10) (n := n) (by decide) (by omega)
      have hrest := ih (n / 10) (by omega)
      have hlast : n % 10 < 10 := Nat.mod_lt _ (by decide)
      rw [write] at hrest
      rw [write, hsplit, ofAscii_append, hrest, asciiValue_digitChar hlast]
      omega

theorem all_isAscii_writeFixed (places n : Nat) :
    (writeFixed places n).all isAscii = true := by
  induction places generalizing n with
  | zero => rfl
  | succ p ih =>
    have hlast : n % 10 < 10 := Nat.mod_lt _ (by decide)
    simp [writeFixed, ih, isAscii_ofNat hlast]

end Attestation.DecimalDigit
