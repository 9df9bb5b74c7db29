-- The law of what a proof about a day is bound to. All days are written in ten characters, so
-- the message of a day and a salt splits in one way only, and no choice of the salt makes a proof
-- of one day good for another, nor for the other of the two kinds of claims with a day.
import Attestation.Proofs.BundleBinding
import Attestation.Proofs.Verification

namespace Attestation

namespace Claim

variable {today : Date} {claim : Claim} {d : Date}

/-- The claim commits to a day: one on which somebody was born or something happened. -/
def CommitsToDay (d : Date) : Claim → Prop
  | .age dateOfBirth _ => dateOfBirth.day = .ok d
  | .timeCondition event _ => event.day = .ok d
  | _ => False

theorem canonical_of_commitsToDay (h : claim.CommitsToDay d) :
    claim.canonical = .ok (.text d.text) := by
  cases claim with
  | age dateOfBirth _ =>
    simp [canonical, Reading.dayText_of_day (Reading.day_eq_ok_iff.2 h), Except.map]
  | timeCondition event _ =>
    simp [canonical, Reading.dayText_of_day (Reading.day_eq_ok_iff.2 h), Except.map]
  | balance _ _ => exact h.elim
  | membership _ _ => exact h.elim
  | range _ _ _ => exact h.elim

theorem exists_commitsToDay (hkind : claim.kind = .age ∨ claim.kind = .timeCondition)
    (hscreen : claim.screen today = .ok ()) : ∃ d, claim.CommitsToDay d := by
  have hmet := screen_eq_ok_iff.1 hscreen
  cases claim with
  | age dateOfBirth requiredAge =>
    obtain ⟨⟨d, hd, _⟩, _⟩ : _ ∧ _ := by simpa [AllMet, demands] using hmet
    exact ⟨d, hd⟩
  | timeCondition event condition =>
    obtain ⟨⟨d, hd⟩, _⟩ : _ ∧ _ := by simpa [AllMet, demands] using hmet
    exact ⟨d, hd⟩
  | balance _ _ => simp [kind] at hkind
  | membership _ _ => simp [kind] at hkind
  | range _ _ _ => simp [kind] at hkind

end Claim

/-- The proof of an accepted claim with a day is the hash of that day and the salt. -/
theorem Notary.exists_day_of_verify {n : Notary} {o : Office} {today : Date} {claim : Claim}
    {proof salt : Value} (hkind : claim.kind = .age ∨ claim.kind = .timeCondition)
    (h : (n.verify today proof salt claim o).1 = .ok true) :
    ∃ d s, claim.CommitsToDay d ∧ salt = .text s ∧
      proof = .text (macText (o.keyBytes n.committer) (d.text ++ s)) := by
  obtain ⟨p, s, hp, hs, hscreen, _, value, hvalue, hmac⟩ :=
    (verify_eq_true_iff (isClosed_eq_false_of_verify h)).1 h
  obtain ⟨d, hd⟩ := Claim.exists_commitsToDay hkind hscreen
  rw [Claim.canonical_of_commitsToDay hd] at hvalue
  cases hvalue
  refine ⟨d, s, hd, eq_text_of_saltText? hs, ?_⟩
  rw [hmac, eq_ofText_of_proofText? hp, Value.ofText_whole]

/-- One proof that is accepted for two claims with a day, under two salts and on any two days of
asking, is for one day and one salt. The one way past this is a collision of the hash. -/
theorem a_proof_of_a_day_is_bound_under_any_salt {n n' : Notary} {o o' : Office}
    {today today' : Date} {claim claim' : Claim} {proof salt salt' : Value}
    (hkind : claim.kind = .age ∨ claim.kind = .timeCondition)
    (hkind' : claim'.kind = .age ∨ claim'.kind = .timeCondition)
    (hkey : o'.keyBytes n'.committer = o.keyBytes n.committer)
    (haccepted : (n.verify today proof salt claim o).1 = .ok true)
    (haccepted' : (n'.verify today' proof salt' claim' o').1 = .ok true) :
    ∃ d d' s s', claim.CommitsToDay d ∧ claim'.CommitsToDay d' ∧
      claim.canonical = .ok (.text d.text) ∧ claim'.canonical = .ok (.text d'.text) ∧
      salt = .text s ∧ salt' = .text s' ∧
      ((d = d' ∧ s = s') ∨
        Collision (o.keyBytes n.committer) (d.text ++ s) (d'.text ++ s')) := by
  obtain ⟨d, s, hd, rfl, hproof⟩ := Notary.exists_day_of_verify hkind haccepted
  obtain ⟨d', s', hd', rfl, hproof'⟩ := Notary.exists_day_of_verify hkind' haccepted'
  refine ⟨d, d', s, s', hd, hd', Claim.canonical_of_commitsToDay hd,
    Claim.canonical_of_commitsToDay hd', rfl, rfl, ?_⟩
  rw [hproof, hkey, Value.text.injEq, macText_eq_iff] at hproof'
  exact hproof'.imp_left Date.text_append_inj.1

/-- A birth and an event in the year 987 have one proof, which is good for both as it is the same
day, however it is written. -/
theorem a_trial_proof_of_a_birth_is_good_for_an_event :
    ∃ b, (Notary.trial.prove Date.trial (.age (.text "0987-06-05") (.int 18)) Office.trial).1 =
        .ok b ∧
      (Notary.trial.verify Date.trial b.proof b.salt
        (.timeCondition (.date ⟨987, 6, 5, by decide⟩) (.text "0987-01-01")) Office.trial).1 =
          .ok true ∧
      ∃ d d' s s', Claim.CommitsToDay d (.age (.text "0987-06-05") (.int 18)) ∧
        Claim.CommitsToDay d'
          (.timeCondition (.date ⟨987, 6, 5, by decide⟩) (.text "0987-01-01")) ∧
        b.salt = .text s ∧ b.salt = .text s' ∧
        ((d = d' ∧ s = s') ∨ Collision (Office.trial.keyBytes Notary.trial.committer)
          (d.text ++ s) (d'.text ++ s')) := by
  have hopen : Office.trial.isClosed Notary.trial.committer = false := rfl
  have hadmits : Claim.Admits Date.trial (.age (.text "0987-06-05") (.int 18)) "0987-06-05"
      Office.trial.drawSalt.1 := ⟨Office.trial.saltText?_drawSalt, rfl, rfl, rfl⟩
  have hadmits' : Claim.Admits Date.trial
      (.timeCondition (.date ⟨987, 6, 5, by decide⟩) (.text "0987-01-01")) "0987-06-05"
      Office.trial.drawSalt.1 := ⟨Office.trial.saltText?_drawSalt, rfl, rfl, rfl⟩
  have hbirth := (Notary.verify_issued_iff hopen rfl .age "0987-06-05" _).2
    ⟨_, hadmits, Or.inl rfl⟩
  have hevent := (Notary.verify_issued_iff hopen rfl .age "0987-06-05" _).2
    ⟨_, hadmits', Or.inl rfl⟩
  obtain ⟨d, d', s, s', hd, hd', _, _, hs, hs', hbound⟩ :=
    a_proof_of_a_day_is_bound_under_any_salt (Or.inl rfl) (Or.inr rfl) rfl hbirth hevent
  exact ⟨_, Notary.prove_of_admits hopen hadmits, hevent, d, d', s, s', hd, hd', hs, hs', hbound⟩

end Attestation
