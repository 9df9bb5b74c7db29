-- The office where attestations are made: its keys, its randomness, its settings and its
-- journal. A committer works with one key of the office. It makes salts and commitments
-- and knows nothing of claims.
import Attestation.Comparison
import Attestation.Entropy
import Attestation.Journal
import Attestation.SecretKey
import Attestation.Settings
import Attestation.Text.Utf8

namespace Attestation

structure Office where
  keys : Keyring
  entropy : Entropy
  settings : Settings
  /-- The entries so far, first one first. -/
  journal : List Entry

/-- Whoever commits under a key, told by the key's place. -/
structure Committer where
  key : Nat
  deriving DecidableEq, Repr

namespace Office

/-- Notes an entry down. -/
def note (o : Office) (e : Entry) : Office := { o with journal := o.journal ++ [e] }

/-! ## Keys -/

/-- Takes a new key in, and gives its place. -/
def keep (o : Office) (k : Except KeyFault SecretKey) : Except Refusal Nat × Office :=
  match k with
  | .error fault => (.error (.key fault), o)
  | .ok k =>
    let (place, keys) := o.keys.add k
    (.ok place, { o with keys })

def keyAt (o : Office) (place : Nat) : SecretKey := o.keys.find place

/-- Wipes the key at a place, without a note. -/
def wipeKey (o : Office) (place : Nat) : Office := { o with keys := o.keys.wipe place }

/-- The keyed hash of a message under the key at a place. -/
def keyMac (o : Office) (place : Nat) (message : List UInt8) : Except Refusal (List UInt8) :=
  ((o.keyAt place).mac message).mapError .key

/-! ## Randomness -/

/-- A fresh random text of the given count of bytes. -/
def drawText (o : Office) (size : Nat) : String × Office :=
  let (bs, entropy) := o.entropy.draw size
  (Base64.text bs, { o with entropy })

def drawSalt (o : Office) : String × Office := o.drawText Limits.saltSize

/-- A fresh key as text, for trials. -/
def drawKeyText (o : Office) : String × Office := o.drawText Limits.keySize

/-! ## Committers -/

/-- A new committer. A held key is shared; any other form makes a key of its own. -/
def openCommitter (o : Office) (source : KeySource) : Except Refusal Committer × Office :=
  match source with
  | .held place =>
    if (o.keyAt place).wiped then (.error (.key .wiped), o)
    else (.ok ⟨place⟩, o.note .committerReady)
  | .value v =>
    match o.keep (SecretKey.ofForm v) with
    | (.error r, o) => (.error r, o)
    | (.ok place, o) => (.ok ⟨place⟩, o.note .committerReady)

/-- The commitment to a whole text: the keyed hash of its UTF-8 bytes, as text. -/
def commit (o : Office) (c : Committer) (message : String) : Except Refusal String :=
  (o.keyMac c.key (Utf8.ofString message)).map Base64.text

/-- The commitment to any text. A torn one has no bytes, and that comes out before the key is looked
at. -/
def commitText (o : Office) (c : Committer) : Text → Except Refusal String
  | .whole message => o.commit c message
  | .torn t => .error (.failed (.ofTorn t))

def isClosed (o : Office) (c : Committer) : Bool := (o.keyAt c.key).wiped

/-- Wipes the committer's key. Only the first close of a key does anything. -/
def close (o : Office) (c : Committer) : Office :=
  if o.isClosed c then o else (o.wipeKey c.key).note .keyWiped

/-- One commitment, after which the committer is closed whatever came of it. -/
def commitAndClose (o : Office) (c : Committer) (message : Text) :
    Except Refusal String × Office :=
  (o.commitText c message, o.close c)

/-- A committer as it is shown. -/
def shown (o : Office) (c : Committer) : String :=
  "CommitmentProvider(key=" ++ (o.keyAt c.key).shown ++ ")"

/-! ## Settings -/

/-- Forces a required age for the time being. -/
def setRequiredAge (o : Office) (v : Value) : Except Refusal Unit × Office :=
  let (answer, settings) := o.settings.setOverride v
  (answer, { o with settings })

end Office

end Attestation
