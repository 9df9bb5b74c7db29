-- Where the required age and the key come from. The age is the first of these that is
-- present: the caller's own, the override, the environment, the default. A later one is
-- not even looked at, so it may be ill-formed.
import Attestation.Refusal

namespace Attestation

structure Settings where
  /-- The age that is forced for the time being. -/
  override : Option Nat
  /-- The age that the environment names. -/
  ageText : Option Text
  /-- The key that the environment names. -/
  keyText : Option Text

/-- A key as it is handed in: some value, or the place of a key that is held already. -/
inductive KeySource where
  | value (v : Value)
  | held (place : Nat)

namespace KeySource

/-- No key was handed in at all, not even an empty one. -/
def isAbsent : KeySource → Bool
  | .value .none => true
  | _ => false

/-- What was handed in cannot be a key, so the next source is asked. A held key always can. -/
def isVacant : KeySource → Bool
  | .value v => v.isVacant
  | .held _ => false

end KeySource

namespace Settings

def initial : Settings := ⟨none, none, none⟩

/-- An age as a setting: absent, a whole number, or a text of decimal digits. Zeros in front count
among the digits, of which there may not be too many. -/
def readAge (v : Value) : Except Refusal (Option Nat) :=
  match v with
  | .none => .ok none
  | .text s =>
    if s.isEmpty then .ok none
    else match DecimalDigit.read? s.toList with
      | some n =>
        if Limits.maxDigits < s.length then .error (.failed (.digits (some s.length)))
        else .ok (some n)
      | none => .error (Refusal.badThreshold v).raised
  | .int n => if n < 0 then .error (Refusal.badThreshold v).raised else .ok (some n.toNat)
  | v => .error (Refusal.badThreshold v).raised

/-- The age that the environment asks for. -/
def environmentAge (s : Settings) : Except Refusal (Option Nat) :=
  readAge (match s.ageText with
    | some t => .ofText t
    | none => .none)

/-- The age that counts. -/
def requiredAge (s : Settings) (prefer : Value) : Except Refusal Nat :=
  match readAge prefer with
  | .error r => .error r
  | .ok (some n) => .ok n
  | .ok none =>
    match s.override with
    | some n => .ok n
    | none => s.environmentAge.map fun found => found.getD Limits.defaultRequiredAge

/-- Forces an age, or takes the force off; an ill-formed one changes nothing. -/
def setOverride (s : Settings) (v : Value) : Except Refusal Unit × Settings :=
  match readAge v with
  | .error r => (.error r, s)
  | .ok found => (.ok (), { s with override := found })

/-- The key that the environment names, unless it is empty. -/
def environmentKey (s : Settings) : Option Text := s.keyText.filter fun t => !t.isEmpty

/-- The key that counts: the caller's own, else that of the environment. It is only found
here, and not looked at. -/
def key (s : Settings) (prefer : KeySource) : Option KeySource :=
  if prefer.isVacant then s.environmentKey.map fun t => .value (.ofText t) else some prefer

end Settings

end Attestation
