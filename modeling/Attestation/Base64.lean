-- Base64 with the alphabet A-Z, a-z, 0-9, + and /. `encode` writes groups of four
-- characters, the last one padded. `decode` is strict: it takes only the alphabet and
-- padding, and padding only where a group needs it, except that padding after whole
-- groups is taken too, however much there is. The bits left over in the last
-- character are dropped.

namespace Attestation.Base64

/-- The character of six bits. -/
def digit (n : Nat) : Char :=
  if n < 26 then Char.ofNat (65 + n)
  else if n < 52 then Char.ofNat (71 + n)
  else if n < 62 then Char.ofNat (n - 4)
  else if n = 62 then '+'
  else '/'

/-- The six bits of a character. -/
def digitValue? (c : Char) : Option Nat :=
  if 'A' ≤ c ∧ c ≤ 'Z' then some (c.toNat - 65)
  else if 'a' ≤ c ∧ c ≤ 'z' then some (c.toNat - 71)
  else if '0' ≤ c ∧ c ≤ '9' then some (c.toNat + 4)
  else if c = '+' then some 62
  else if c = '/' then some 63
  else none

theorem digitValue?_digit (n : Fin 64) : digitValue? (digit n) = some n.val := by
  revert n
  decide

/-- Three bytes become four characters; one or two bytes at the end are padded. -/
def encode : List UInt8 → List Char
  | [] => []
  | [a] =>
    let n := a.toNat * 16
    [digit (n / 64), digit (n % 64), '=', '=']
  | [a, b] =>
    let n := (a.toNat * 256 + b.toNat) * 4
    [digit (n / 4096), digit (n / 64 % 64), digit (n % 64), '=']
  | a :: b :: c :: rest =>
    let n := (a.toNat * 256 + b.toNat) * 256 + c.toNat
    digit (n / 262144) :: digit (n / 4096 % 64) :: digit (n / 64 % 64) :: digit (n % 64)
      :: encode rest

theorem encode_length (bs : List UInt8) : (encode bs).length = (bs.length + 2) / 3 * 4 := by
  fun_induction encode bs with
  | case1 => rfl
  | case2 => simp
  | case3 => simp
  | case4 _ _ _ _ _ ih => simp only [List.length_cons, ih]; omega

/-- Where the reader stands in a group of four, with the bits that no byte holds yet. -/
inductive Place where
  | first
  | second (bits : Nat)
  | third (bits : Nat)
  | fourth (bits : Nat)
  deriving DecidableEq, Repr

/-- The characters of the group that were read. -/
def Place.index : Place → Nat
  | .first => 0
  | .second _ => 1
  | .third _ => 2
  | .fourth _ => 3

/-- Takes six more bits: the place after them, and the byte that they complete. -/
def Place.push (place : Place) (bits : Nat) : Place × Option UInt8 :=
  match place with
  | .first => (.second bits, none)
  | .second held => (.third (bits % 16), some (UInt8.ofNat (held * 4 + bits / 16)))
  | .third held => (.fourth (bits % 4), some (UInt8.ofNat (held * 16 + bits / 4)))
  | .fourth held => (.first, some (UInt8.ofNat (held * 64 + bits)))

/-- Reads character by character; `pads` counts the padding seen since the last
character of the alphabet, and `done` holds the bytes so far, last first. -/
def decodeFrom : Place → Nat → List UInt8 → List Char → Option (List UInt8)
  | place, _, done, [] => if place.index = 0 then some done.reverse else none
  | place, pads, done, c :: rest =>
    if c = '=' then
      if 2 ≤ place.index ∧ 4 ≤ place.index + (pads + 1) then
        if rest.isEmpty then some done.reverse else none
      else decodeFrom place (pads + 1) done rest
    else
      match digitValue? c with
      | none => none
      | some bits =>
        if pads = 0 then
          let (place, byte) := place.push bits
          decodeFrom place 0 (byte.toList ++ done) rest
        else none

/-- The bytes of a text; padding may not come first. -/
def decode (cs : List Char) : Option (List UInt8) :=
  if cs.head? = some '=' then none else decodeFrom .first 0 [] cs

/-- The text of some bytes. -/
def text (bs : List UInt8) : String := String.ofList (encode bs)

end Attestation.Base64
