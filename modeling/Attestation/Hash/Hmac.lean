-- The keyed hash HMAC over SHA-256: the message is hashed behind the key with one
-- mask, and the result behind the key with another.
import Attestation.Hash.Sha256

namespace Attestation.Hmac

/-- The bytes of one block of the hash. -/
def blockSize : Nat := 64

/-- The key filled up to one block; a key longer than a block is hashed first. -/
def blockKey (key : List UInt8) : List UInt8 :=
  let short := if blockSize < key.length then Sha256.digest key else key
  short ++ List.replicate (blockSize - short.length) 0

/-- The keyed hash of a message. -/
def mac (key message : List UInt8) : List UInt8 :=
  let block := blockKey key
  let inner := Sha256.digest (block.map (· ^^^ 0x36) ++ message)
  Sha256.digest (block.map (· ^^^ 0x5c) ++ inner)

theorem mac_length (key message : List UInt8) : (mac key message).length = 32 :=
  Sha256.digest_length _

end Attestation.Hmac
