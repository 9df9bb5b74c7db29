-- A bundle is what a holder carries away: the commitment, the salt that it was made
-- with, and the name of the claim's kind. `ofMapping` lets well-formed bundles through, also with
-- the kind itself in place of its name, and nothing else; JSON text and the binary form both come
-- down to it, by whatever decoder they were read.
import Attestation.Claim
import Attestation.Json
import Attestation.Cbor

namespace Attestation

/-- A bundle holds what it was built from, so that one from elsewhere can be looked at
before it is checked. -/
structure Bundle where
  proof : Value
  salt : Value
  predicate : Value := .none

namespace Bundle

/-- The entries of a bundle; a kind that is not named has none. -/
def entries (b : Bundle) : List (Value × Value) :=
  [(.text "proof", b.proof), (.text "salt", b.salt)]
    ++ (match b.predicate with
      | .none => []
      | p => [(.text "predicate", p)])

/-- A bundle as it is shown. -/
def shown (b : Bundle) : String :=
  "ProofBundle(proof=" ++ b.proof.literal ++ ", salt=" ++ b.salt.literal ++ ", predicate="
    ++ b.predicate.literal ++ ")"

/-- Proof and salt, as the two are handed on. -/
def pair (b : Bundle) : Value × Value := (b.proof, b.salt)

/-- Two bundles hold the same. -/
def same (b c : Bundle) : Bool :=
  b.proof.same c.proof && b.salt.same c.salt && b.predicate.same c.predicate

/-! ## From a mapping -/

/-- A text entry that is not empty. -/
def filledEntry (name : String) (entries : List (Value × Value)) : Except Refusal Value :=
  let v := Value.lookup name entries
  match v.toText? with
  | some t => if t.isEmpty then .error (.unreadable name v .notText) else .ok v
  | none => .error (.unreadable name v .notText)

/-- A kind of claim, or nothing. -/
def predicateEntry (v : Value) : Except Refusal Value :=
  match v with
  | .none => .ok .none
  | v => match Claim.Kind.ofValue? v with
    | some _ => .ok v
    | none => .error (.unreadable "predicate" v .predicate)

def ofEntries (entries : List (Value × Value)) : Except Refusal Bundle := do
  let proof ← filledEntry "proof" entries
  let salt ← filledEntry "salt" entries
  let predicate ← predicateEntry (Value.lookup "predicate" entries)
  .ok ⟨proof, salt, predicate⟩

def ofMapping (v : Value) : Except Refusal Bundle :=
  match v with
  | .mapping entries => ofEntries entries
  | v => .error (.unreadable "bundle" v .notMapping)

/-- The refusal of a bundle that has no form to be sent in. -/
def unwritten : Unwritten → Refusal
  | .kind name => .mismatch (.encoding name)
  | .failed why => .failed why

/-! ## JSON -/

def toJson (b : Bundle) : Except Refusal String :=
  match Json.write (.mapping b.entries) with
  | .ok cs => .ok (String.ofList cs)
  | .error why => .error (unwritten why)

/-- A bundle from what a value held as JSON, if a decoder found anything in it. -/
def ofParsed (v : Value) (parsed : Option Value) : Except Refusal Bundle :=
  match parsed with
  | none => .error (.unreadable "bundle" v .invalidJson)
  | some data => ofMapping data

def ofJson (v : Value) : Except Refusal Bundle := ofParsed v (Json.ofValue? v)

/-! ## CBOR -/

/-- The binary form has short keys and a version. -/
def toCbor (b : Bundle) : Except Refusal (List UInt8) :=
  let data : Value := .mapping
    [(.text "v", .int Limits.bundleVersion), (.text "p", b.proof), (.text "s", b.salt),
     (.text "t", b.predicate)]
  match Cbor.write data with
  | .ok bs => .ok bs
  | .error why => .error (unwritten why)

/-- A decoded item: a mapping of the right version, read through its short keys. A version that
cannot be compared with the right one fails. -/
def ofItem (item : Value) : Except Refusal Bundle :=
  match item with
  | .mapping entries =>
    let version := Value.lookup "v" entries
    if version.isSignal then .error (.failed .unordered)
    else if version.same (.int Limits.bundleVersion) then
      ofEntries
        [(.text "proof", Value.lookup "p" entries), (.text "salt", Value.lookup "s" entries),
         (.text "predicate", Value.lookup "t" entries)]
    else .error (.unreadable "v" version .version)
  | item => .error (.unreadable "bundle" item .noFields)

/-- A bundle from what a value held in the binary form, if a decoder found an item in it. -/
def ofDecoded (v : Value) (decoded : Option Value) : Except Refusal Bundle :=
  match decoded with
  | none => .error (.unreadable "bundle" v .invalidCbor)
  | some item => ofItem item

def ofCbor (v : Value) : Except Refusal Bundle := ofDecoded v (v.bytes?.bind Cbor.parse)

/-! ## Room -/

/-- What a reader answers where only so many values may lie within each other in what it writes
out: its refusals are made with their wording. -/
def withinRoom (room : Nat) (answer : Except Refusal Bundle) : Except Refusal Bundle :=
  answer.mapError (·.raisedWithin room)

end Bundle

end Attestation
