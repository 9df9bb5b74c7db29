-- The gate of salts. It lets through the texts of a language that can be read off a text at once:
-- at least 22 characters of the Base64 alphabet, which is where 16 bytes begin, and behind them the
-- padding that the last group lacks, or padding of any length after whole groups.
import Attestation.Proofs.Base64Language

namespace Attestation

/-- A salt as it may be written. -/
def WrittenAsSalt (s : String) : Prop :=
  ∃ ds k, s.toList = ds ++ List.replicate k '=' ∧ (∀ c ∈ ds, c ∈ Base64.alphabet) ∧
    22 ≤ ds.length ∧
    (ds.length % 4 = 2 ∧ k = 2 ∨ ds.length % 4 = 3 ∧ k = 1 ∨ ds.length % 4 = 0)

/-- The texts that hold enough bytes are those with enough characters. -/
theorem exists_decode_of_minSaltSize_iff {s : String} :
    (∃ bs, Base64.decode s.toList = some bs ∧ Limits.minSaltSize ≤ bs.length) ↔
      WrittenAsSalt s := by
  have hleast : Limits.minSaltSize = 16 := rfl
  constructor
  · rintro ⟨bs, hread, hsize⟩
    obtain ⟨ds, k, hs, hds, hpadded, hlength⟩ := Base64.exists_decode_iff.1 ⟨bs, hread, rfl⟩
    unfold Base64.Padded at hpadded
    exact ⟨ds, k, hs, hds, by omega, by omega⟩
  · rintro ⟨ds, k, hs, hds, hcount, hpads⟩
    have hpadded : Base64.Padded ds.length k := by
      unfold Base64.Padded
      omega
    obtain ⟨bs, hread, hlength⟩ := Base64.exists_decode_iff.2 ⟨ds, k, hs, hds, hpadded, rfl⟩
    exact ⟨bs, hread, by omega⟩

theorem saltText?_eq_some_iff {v : Value} {s : String} :
    saltText? v = some s ↔ v = .text s ∧ WrittenAsSalt s := by
  rw [← exists_decode_of_minSaltSize_iff]
  constructor
  · intro h
    have hv := eq_text_of_saltText? h
    rw [hv] at h
    exact ⟨hv, (saltText?_text_eq_some_iff.1 h).2⟩
  · rintro ⟨rfl, hread⟩
    exact saltText?_text_eq_some_iff.2 ⟨rfl, hread⟩

/-- The gate lets a value through just when it is a text that is written as a salt, and what comes
out is that text. Every other value, of whatever kind, has the answer no. What the office draws is
always written as a salt. -/
theorem the_gate_of_salts_has_one_language :
    (∀ v s, saltText? v = some s ↔ v = .text s ∧ WrittenAsSalt s) ∧
    (∀ v, saltText? v = none ↔ ¬ ∃ s, v = .text s ∧ WrittenAsSalt s) ∧
    ∀ o : Office, WrittenAsSalt o.drawSalt.1 ∧
      saltText? (.text o.drawSalt.1) = some o.drawSalt.1 := by
  refine ⟨fun v s => saltText?_eq_some_iff, fun v => ?_, fun o => ?_⟩
  · rw [Option.eq_none_iff_forall_ne_some, not_exists]
    exact forall_congr' fun s => not_congr saltText?_eq_some_iff
  · have hdrawn := o.saltText?_drawSalt
    exact ⟨(saltText?_eq_some_iff.1 hdrawn).2, hdrawn⟩

/-- Padding is counted only where the last group is short of characters. -/
example : saltText? (.text "AAAAAAAAAAAAAAAAAAAAAA==") = some "AAAAAAAAAAAAAAAAAAAAAA==" ∧
    saltText? (.text "AAAAAAAAAAAAAAAAAAAAAA=") = none ∧
    saltText? (.text "AAAAAAAAAAAAAAAAAAAAAAAA===") = some "AAAAAAAAAAAAAAAAAAAAAAAA===" := by
  decide

end Attestation
