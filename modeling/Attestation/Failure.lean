-- Failures of what the library leans on: bytes that a text does not have, numbers of too many
-- digits, values that lie too deep within each other, numbers without an order, and collections
-- that belong to somebody else. No cause of the library's own, they are handed on as they are.
import Attestation.Limits
import Attestation.Text.Hex
import Attestation.Text.Torn

namespace Attestation

inductive Failure where
  /-- A torn text has no bytes: its first half, the place of it, and how many stand there. -/
  | noBytes (half : Fin 2048) (start run : Nat)
  /-- A number has too many digits. To be read it comes with their count, to be written not. -/
  | digits (count : Option Nat)
  /-- Values lie too deep within each other to be written out. -/
  | depth
  /-- One of two numbers to be compared has no place in their order. -/
  | unordered
  /-- What somebody else's collection says. -/
  | foreign (name text : String)
  deriving DecidableEq, Repr

namespace Failure

/-- A torn text has no bytes, whatever stands behind it. -/
def ofTorn (t : Torn) : Failure := .noBytes t.half t.front.length t.run

theorem takeWhile_isHalf_ofChars (cs : List Char) :
    (Point.ofChars cs).takeWhile Point.isHalf = [] := by
  cases cs <;> simp [Point.ofChars, Point.isHalf, Point.char?]

theorem ofTorn_append (t : Torn) (s : String) : ofTorn (t.append s) = ofTorn t := by
  have hrun : (t.append s).run = t.run := by
    unfold Torn.run Torn.append
    rw [List.takeWhile_append]
    split
    · rename_i hall
      simp [takeWhile_isHalf_ofChars, hall]
    · rfl
  unfold ofTorn
  rw [hrun]
  rfl

/-- The name under which a failure is reported. -/
def name : Failure → String
  | .noBytes .. => "UnicodeEncodeError"
  | .digits _ => "ValueError"
  | .depth => "RecursionError"
  | .unordered => "InvalidOperation"
  | .foreign name _ => name

/-- A half as it is written out. -/
def halfEscape (half : Fin 2048) : String :=
  "\\u" ++ String.ofList (Hex.fixed 4 (Point.half half).toNat)

def message : Failure → String
  | .noBytes half start run =>
    if run ≤ 1 then
      "'utf-8' codec can't encode character '" ++ halfEscape half ++ "' in position "
        ++ toString start ++ ": surrogates not allowed"
    else
      "'utf-8' codec can't encode characters in position " ++ toString start ++ "-"
        ++ toString (start + run - 1) ++ ": surrogates not allowed"
  | .digits count =>
    "Exceeds the limit (" ++ toString Limits.maxDigits ++ " digits) for integer string conversion"
      ++ (match count with
        | some n => ": value has " ++ toString n ++ " digits"
        | none => "")
      ++ "; use sys.set_int_max_str_digits() to increase the limit"
  | .depth => "maximum recursion depth exceeded while getting the repr of an object"
  | .unordered => "[<class 'decimal.InvalidOperation'>]"
  | .foreign _ text => text

end Failure

/-- Why a value has no form that can be sent: its kind has none, or making it failed. -/
inductive Unwritten where
  | kind (name : String)
  | failed (why : Failure)
  deriving DecidableEq, Repr

end Attestation
