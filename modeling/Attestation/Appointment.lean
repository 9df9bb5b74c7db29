-- A notary of one's own, from a key that is handed in or found in the environment. When
-- no key was handed in at all, the journal tells that the environment's was taken, whether
-- or not that one is any good.
import Attestation.Notary

namespace Attestation.Office

/-- Finds the key, opens a committer with it and appoints a notary for the committer. -/
def appoint (o : Office) (key : KeySource) (age : Value) : Except Refusal Notary × Office :=
  match o.settings.key key with
  | none => (.error (.setup .noKey), o)
  | some found =>
    let o := if key.isAbsent then o.note .keyFromEnvironment else o
    match o.openCommitter found with
    | (.error r, o) => (.error r, o)
    | (.ok committer, o) => (Notary.appoint (some committer) age o.settings, o)

end Attestation.Office
