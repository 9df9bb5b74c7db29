-- What is noted down while claims are attested and verified. An entry names the claim's
-- kind and the check that failed, and holds no value, no salt, no proof and no key.
import Attestation.Claim

namespace Attestation

inductive Entry where
  | committerReady
  | keyWiped
  | keyFromEnvironment
  | issued (kind : Claim.Kind)
  | unusable (kind : Claim.Kind)
  | invalid (kind : Claim.Kind) (field : String)
  | mismatched (kind : Claim.Kind)
  | lapsed (kind : Claim.Kind)
  | batchLengths
  | batchSize (size : Nat)
  | batchItem (index : Nat)
  deriving DecidableEq, Repr

namespace Entry

def rejection (kind : Claim.Kind) (why : String) : String :=
  "Rejected " ++ kind.name ++ " proof: " ++ why

def message : Entry → String
  | .committerReady => "CommitmentProvider initialized"
  | .keyWiped => "CommitmentProvider key wiped"
  | .keyFromEnvironment => "Using HMAC key from ZKP_HMAC_KEY"
  | .issued kind => "Issued " ++ kind.name ++ " proof"
  | .unusable kind => rejection kind "missing proof or salt"
  | .invalid kind field => rejection kind field
  | .mismatched kind => rejection kind "commitment mismatch"
  | .lapsed kind => rejection kind "predicate no longer holds"
  | .batchLengths => "Rejected batch: parallel sequences differ in length"
  | .batchSize size => "Rejected batch of " ++ toString size ++ " commitments"
  | .batchItem index => "Rejected batch at index " ++ toString index

end Entry

end Attestation
