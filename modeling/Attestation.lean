import Attestation.Limits
import Attestation.Text.Hex
import Attestation.Text.Printable
import Attestation.Text.WideUnits
import Attestation.Base64
import Attestation.Hash.Hmac
import Attestation.Number.Binary64
import Attestation.Calendar.Age
import Attestation.Value.Literal
import Attestation.Appointment
import Attestation.Batch
import Attestation.Checker
import Attestation.Proofs.Agreement
import Attestation.Proofs.BundleBinding
import Attestation.Proofs.ClaimDecision
import Attestation.Proofs.DayBinding
import Attestation.Proofs.BinaryForm
import Attestation.Proofs.JsonForm
import Attestation.Proofs.BundleTransport
import Attestation.Proofs.Run
import Attestation.Proofs.KeyLife
import Attestation.Proofs.Randomness
import Attestation.Proofs.CarryOver
import Attestation.Proofs.KeySecrecy
import Attestation.Proofs.BundleReading
import Attestation.Proofs.AgeSetting
import Attestation.Proofs.AgeThreshold
import Attestation.Proofs.KeyForms
import Attestation.Proofs.SharedNotary
import Attestation.Proofs.Anniversaries
import Attestation.Proofs.BatchPlaces
import Attestation.Proofs.SaltGate
import Attestation.Proofs.MemberSets
import Attestation.Proofs.CutBundles
import Attestation.Proofs.DoubleAmounts
import Attestation.Proofs.Rejections
import Attestation.Proofs.Shortfalls
import Attestation.Proofs.KeySources
import Attestation.Proofs.Comparisons
