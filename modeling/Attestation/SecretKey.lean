-- The secret key of a committer. Its buffer always has the one size of keys. A key that
-- was wiped holds zeros and makes no commitment any more.
import Attestation.Base64
import Attestation.Hash.Hmac
import Attestation.Refusal

namespace Attestation

structure SecretKey where
  buffer : List UInt8
  wiped : Bool
  sized : buffer.length = Limits.keySize

namespace SecretKey

/-! ## Making a key -/

def ofBytes (bs : List UInt8) : Except KeyFault SecretKey :=
  if h : bs.length = Limits.keySize then .ok ⟨bs, false, h⟩ else .error (.wrongSize bs.length)

/-- A key from raw bytes, fixed or not. -/
def ofMaterial (v : Value) : Except KeyFault SecretKey :=
  match v.bytes? with
  | some bs => ofBytes bs
  | none => .error (.notBytes v.kindName)

/-- A key from the text that a secret store delivers. -/
def ofBase64 (v : Value) : Except KeyFault SecretKey :=
  match v with
  | .text s =>
    if s.isEmpty then .error .blank
    else match Base64.decode s.toList with
      | none => .error .notBase64
      | some bs => ofBytes bs
  | .torn _ => .error .notBase64
  | _ => .error .blank

/-- A key from any form that a caller may have it in. -/
def ofForm (v : Value) : Except KeyFault SecretKey :=
  match v with
  | .text _ => ofBase64 v
  | .torn _ => ofBase64 v
  | .bytes bs => ofBytes bs
  | .buffer bs => ofBytes bs
  | v => .error (.unsupported v.kindName)

/-- What stands where no key is: it can do nothing. -/
def absent : SecretKey := ⟨List.replicate Limits.keySize 0, true, by simp⟩

/-! ## Using a key -/

/-- The keyed hash of a message. -/
def mac (k : SecretKey) (message : List UInt8) : Except KeyFault (List UInt8) :=
  if k.wiped then .error .wiped else .ok (Hmac.mac k.buffer message)

/-- Overwrites the buffer with zeros. -/
def wipe (k : SecretKey) : SecretKey := ⟨k.buffer.map fun _ => 0, true, by simp [k.sized]⟩

def size (k : SecretKey) : Nat := k.buffer.length

/-- A key as it is shown, which tells nothing of its bytes. -/
def shown (k : SecretKey) : String :=
  if k.wiped then "SecretKey(<wiped>)" else "SecretKey(<redacted>)"

/-- A key stays in its one place: no second one is made of it, nor is it written down. -/
def copy (_ : SecretKey) : Except Refusal SecretKey := .error .keyCopied

def store (_ : SecretKey) : Except Refusal (List UInt8) := .error .keyStored

/-- Every key that is made holds the very bytes that it was made from. -/
theorem buffer_of_ofBytes {bs : List UInt8} {k : SecretKey} (h : ofBytes bs = .ok k) :
    k.buffer = bs ∧ k.wiped = false := by
  unfold ofBytes at h
  split at h
  · cases h
    exact ⟨rfl, rfl⟩
  · cases h

end SecretKey

/-! ## Keys by place -/

/-- The keys that are held, each under the number of its place. Whoever holds the number
holds the same key, so that a wipe is seen by all. -/
structure Keyring where
  slots : List SecretKey

namespace Keyring

def empty : Keyring := ⟨[]⟩

/-- The key at a place; a place that was never filled holds a key that can do nothing. -/
def find (r : Keyring) (place : Nat) : SecretKey := r.slots.getD place .absent

/-- Puts a key into the next place. -/
def add (r : Keyring) (k : SecretKey) : Nat × Keyring := (r.slots.length, ⟨r.slots ++ [k]⟩)

/-- Wipes the key at a place. -/
def wipe (r : Keyring) (place : Nat) : Keyring := ⟨r.slots.modify place SecretKey.wipe⟩

theorem find_add (r : Keyring) (k : SecretKey) : (r.add k).2.find (r.add k).1 = k := by
  simp [find, add]

theorem find_add_of_lt {r : Keyring} {place : Nat} (h : place < r.slots.length) (k : SecretKey) :
    (r.add k).2.find place = r.find place := by
  simp [find, add, List.getElem?_append_left h]

/-- A wipe reaches its own place, and a place without a key had none to wipe. -/
theorem wiped_find_wipe (r : Keyring) (place : Nat) : ((r.wipe place).find place).wiped = true := by
  cases h : r.slots[place]? <;> simp [find, wipe, List.getD, h, SecretKey.wipe, SecretKey.absent]

theorem find_wipe_of_ne {place other : Nat} (h : place ≠ other) (r : Keyring) :
    (r.wipe place).find other = r.find other := by
  simp [find, wipe, List.getD, h]

end Keyring

end Attestation
