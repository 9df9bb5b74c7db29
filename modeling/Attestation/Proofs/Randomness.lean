-- The laws of randomness. The requests of a run are numbered through, each act that draws
-- makes one and puts all of its bytes into its answer, and no other act makes any. So no two
-- bundles share a salt unless the source gives the same bytes twice.
import Attestation.Proofs.Run

namespace Attestation

/-! ## What is drawn -/

/-- There is fresh randomness in an answer. -/
def Answer.isRandom : Answer → Bool
  | .salt _ => true
  | .keyText _ => true
  | .bytes _ => true
  | .bundle _ => true
  | _ => false

/-- The randomness in an answer is of these bytes. -/
def Answer.Uses (bs : List UInt8) : Answer → Prop
  | .salt s => s = Base64.text bs
  | .keyText s => s = Base64.text bs
  | .bytes bs' => bs' = bs
  | .bundle b => b.salt = .text (Base64.text bs)
  | _ => False

/-- The next requests, as many as `count`, give different bytes each. -/
def Entropy.Fresh (e : Entropy) (count : ℕ) : Prop :=
  ∀ i j, i < j → j < count →
    e.block (e.drawn + i) Limits.saltSize ≠ e.block (e.drawn + j) Limits.saltSize

namespace Act

/-- How many requests a run makes. -/
def requests (acts : List Act) : ℕ := acts.countP fun act => act.drawn?.isSome

theorem requests_cons (act : Act) (acts : List Act) :
    requests (act :: acts) = (if act.drawn?.isSome then 1 else 0) + requests acts := by
  rw [requests, List.countP_cons, Nat.add_comm]
  rfl

/-- To verify is to ask only. -/
def verifies : Act → Bool
  | .verify _ _ _ _ _ => true
  | .verifyMembership _ _ _ _ _ _ => true
  | .verifyCommitment _ _ _ _ => true
  | .verifyBatch _ _ _ _ => true
  | _ => false

end Act

namespace Office

variable {o : Office} {act : Act} {a : Answer}

/-! ## One act -/

theorem prove_draws {n : Notary} {today : Date} {claim : Claim} {b : Bundle}
    (h : (n.prove today claim o).1 = .ok b) : claim.drawn? today = some Limits.saltSize := by
  cases hscreen : claim.screen today with
  | error r => simp [Notary.prove_of_screen_error hscreen] at h
  | ok _ =>
    cases hcheck : claim.check today with
    | error r => simp [Notary.prove_of_check_error hscreen hcheck] at h
    | ok _ => simp [Claim.drawn?, hscreen, hcheck, Except.isOk, Except.toBool]

theorem proveMembership_draws {n : Notary} {today : Date} {value validValues : Value} {b : Bundle}
    (h : (n.proveMembership today value validValues o).1 = .ok b) :
    (Act.proveMembership n today value validValues).drawn? = some Limits.saltSize := by
  obtain ⟨claim, hread, hissued⟩ := Notary.exists_prove_of_proveMembership h
  rw [Act.drawn?, hread]
  exact prove_draws hissued

/-- The acts that draw are those with randomness to give. -/
theorem isRandom_perform (h : (o.perform act).1 = .ok a) : a.isRandom = act.drawn?.isSome := by
  cases act with
  | drawSalt | drawKeyText =>
    cases h
    rfl
  | drawBytes size =>
    obtain ⟨bs, hbs, rfl⟩ := map_eq_ok_iff.1 h
    have hsize : ¬ size ≤ 0 := by
      intro hsize
      simp [Entropy.request, hsize] at hbs
    simp [Answer.isRandom, Act.drawn?, hsize]
  | prove n today claim =>
    obtain ⟨b, hb, rfl⟩ := map_eq_ok_iff.1 h
    rw [Act.drawn?, prove_draws hb]
    rfl
  | proveMembership n today value validValues =>
    obtain ⟨b, hb, rfl⟩ := map_eq_ok_iff.1 h
    rw [proveMembership_draws hb]
    rfl
  | makeKey _ | makeKeyOfText _ | hash _ _ | openCommitter _ | commit _ _ | commitAndClose _ _
  | readRequiredAge _ | setRequiredAge _ | engage _ _ | appoint _ _ | verify _ _ _ _ _
  | verifyMembership _ _ _ _ _ _ | verifyCommitment _ _ _ _ | verifyBatch _ _ _ _ =>
    obtain ⟨_, _, rfl⟩ := map_eq_ok_iff.1 h
    rfl
  | _ =>
    cases h
    rfl

/-- An act that draws puts all of the next request into its answer. -/
theorem uses_perform {size : ℕ} (h : (o.perform act).1 = .ok a)
    (hdrawn : act.drawn? = some size) : a.Uses (o.entropy.block o.entropy.drawn size) := by
  cases act with
  | drawSalt | drawKeyText =>
    cases h
    cases hdrawn
    rfl
  | drawBytes count =>
    obtain ⟨bs, hbs, rfl⟩ := map_eq_ok_iff.1 h
    have hcount : (if count ≤ 0 then none else some count.toNat) = some size := hdrawn
    unfold Entropy.request at hbs
    split at hbs
    · cases hbs
    · rename_i hpos
      rw [if_neg hpos] at hcount
      cases hbs
      cases hcount
      rfl
  | prove n today claim =>
    obtain ⟨b, hb, rfl⟩ := map_eq_ok_iff.1 h
    rw [Act.drawn?, prove_draws hb] at hdrawn
    cases hdrawn
    obtain ⟨_, value, _, rfl⟩ := Notary.exists_bundleFor_of_prove hb
    rfl
  | proveMembership n today value validValues =>
    obtain ⟨b, hb, rfl⟩ := map_eq_ok_iff.1 h
    rw [proveMembership_draws hb] at hdrawn
    cases hdrawn
    obtain ⟨claim, _, hissued⟩ := Notary.exists_prove_of_proveMembership hb
    obtain ⟨_, value, _, rfl⟩ := Notary.exists_bundleFor_of_prove hissued
    rfl
  | _ => cases hdrawn

/-- A verification leaves keys, randomness and settings as they are, whatever comes of it. -/
theorem noted_of_verifies (h : act.verifies = true) : Noted o (o.perform act).2 := by
  cases act with
  | verify n today proof salt claim => exact noted_verify n today proof salt claim o
  | verifyMembership n today proof salt value validValues =>
    exact noted_verifyMembership n today proof salt value validValues o
  | verifyCommitment n proof salt data => exact noted_self o
  | verifyBatch n proofs datas salts => exact noted_verifyBatch n proofs datas salts o
  | _ => cases h

/-! ## Runs -/

theorem entropy_after (o : Office) (acts : List Act) :
    (o.after acts).entropy = ⟨o.entropy.byte, o.entropy.drawn + Act.requests acts⟩ := by
  induction acts generalizing o with
  | nil => rfl
  | cons act acts ih =>
    rw [after_cons, ih, (o.effect_perform act).entropy, Act.requests_cons, Nat.add_assoc]

/-- The bundles that a run issues, first one first. -/
def bundles (o : Office) : List Act → List Bundle
  | [] => []
  | act :: acts =>
    match (o.perform act).1 with
    | .ok (.bundle b) => b :: (o.perform act).2.bundles acts
    | _ => (o.perform act).2.bundles acts

/-- An act that issues a bundle makes a request, and the next requests come after it. -/
theorem request_of_issued {b : Bundle} (h : (o.perform act).1 = .ok (.bundle b))
    (acts : List Act) :
    b.salt = .text (Base64.text (o.entropy.block o.entropy.drawn Limits.saltSize)) ∧
      (o.perform act).2.entropy = ⟨o.entropy.byte, o.entropy.drawn + 1⟩ ∧
      Act.requests (act :: acts) = 1 + Act.requests acts := by
  have hissues : act.drawn? = some Limits.saltSize := by
    have hdraws := isRandom_perform h
    cases act with
    | drawSalt | drawKeyText => rfl
    | drawBytes size =>
      obtain ⟨bs, _, hbs⟩ := map_eq_ok_iff.1 h
      cases hbs
    | prove n today claim =>
      obtain ⟨b', hb', _⟩ := map_eq_ok_iff.1 h
      exact prove_draws hb'
    | proveMembership n today value validValues =>
      obtain ⟨b', hb', _⟩ := map_eq_ok_iff.1 h
      exact proveMembership_draws hb'
    | _ => cases hdraws
  refine ⟨uses_perform h hissues, ?_, ?_⟩
  · rw [(o.effect_perform act).entropy, hissues]
    rfl
  · rw [Act.requests_cons, hissues]
    rfl

/-- Every bundle of a run has its salt from one of the run's requests. -/
theorem exists_request_of_mem_bundles {b : Bundle} {acts : List Act} (h : b ∈ o.bundles acts) :
    ∃ i, i < Act.requests acts ∧
      b.salt = .text (Base64.text (o.entropy.block (o.entropy.drawn + i) Limits.saltSize)) := by
  induction acts generalizing o with
  | nil => cases h
  | cons act acts ih =>
    have hlater : b ∈ (o.perform act).2.bundles acts → ∃ i, i < Act.requests (act :: acts) ∧
        b.salt = .text (Base64.text (o.entropy.block (o.entropy.drawn + i) Limits.saltSize)) := by
      intro hmem
      obtain ⟨i, hi, hsalt⟩ := ih hmem
      rw [(o.effect_perform act).entropy] at hsalt
      rw [Act.requests_cons]
      refine ⟨(if act.drawn?.isSome then 1 else 0) + i, Nat.add_lt_add_left hi _, ?_⟩
      rw [← Nat.add_assoc]
      exact hsalt
    unfold bundles at h
    split at h
    · rename_i b' hissued
      rcases List.mem_cons.1 h with rfl | hmem
      · obtain ⟨hsalt, _, hcount⟩ := request_of_issued hissued acts
        exact ⟨0, by omega, hsalt⟩
      · exact hlater hmem
    · exact hlater h

/-- While the source gives new bytes no two bundles of a run share a salt. -/
theorem bundles_pairwise (acts : List Act) (hfresh : o.entropy.Fresh (Act.requests acts)) :
    (o.bundles acts).Pairwise fun b b' => b.salt ≠ b'.salt := by
  induction acts generalizing o with
  | nil => exact List.Pairwise.nil
  | cons act acts ih =>
    have hlater : (o.perform act).2.entropy.Fresh (Act.requests acts) := by
      intro i j hij hj
      rw [(o.effect_perform act).entropy]
      rw [Act.requests_cons] at hfresh
      have hdiffer := hfresh ((if act.drawn?.isSome then 1 else 0) + i)
        ((if act.drawn?.isSome then 1 else 0) + j) (by omega) (by omega)
      rwa [← Nat.add_assoc, ← Nat.add_assoc] at hdiffer
    unfold bundles
    split
    · rename_i b hissued
      refine List.Pairwise.cons ?_ (ih hlater)
      intro b' hmem hsame
      -- this bundle has request 0, and each later one a request from 1 on
      obtain ⟨hsalt, hentropy, hcount⟩ := request_of_issued hissued acts
      obtain ⟨i, hi, hsalt'⟩ := exists_request_of_mem_bundles hmem
      rw [hsalt, hsalt', hentropy, Value.text.injEq, Base64.text_inj, Nat.add_assoc] at hsame
      exact hfresh 0 (1 + i) (by omega) (by omega) hsame
    · exact ih hlater

end Office

/-! ## The use of randomness -/

/-- The requests of a run are numbered through, one for each act that draws. Such an act puts all
of its own request into its answer, and no other answer has randomness in it, so while the source
gives new bytes no two bundles of the run share a salt. A claim that fails its screen or its check
is refused with nothing drawn and nothing changed, and so is one whose valid values fail when they
are read. One that passes both costs a request and gets nothing for it if the key is wiped or its
text is torn: a whole text is refused for the key, and a torn one fails, under an open key too. A
verification never touches keys, randomness or settings. -/
theorem randomness_is_used_once_and_for_what_is_issued (o : Office) (acts : List Act) :
    (o.after acts).entropy = ⟨o.entropy.byte, o.entropy.drawn + Act.requests acts⟩ ∧
    (∀ act a, ((o.after acts).perform act).1 = .ok a → a.isRandom = act.drawn?.isSome ∧
      ∀ size, act.drawn? = some size →
        a.Uses (o.entropy.block (o.entropy.drawn + Act.requests acts) size)) ∧
    (o.after acts).drawSalt =
      (Base64.text (o.entropy.block (o.entropy.drawn + Act.requests acts) Limits.saltSize),
        { o.after acts with
          entropy := ⟨o.entropy.byte, o.entropy.drawn + Act.requests acts + 1⟩ }) ∧
    (o.after acts).drawKeyText =
      (Base64.text (o.entropy.block (o.entropy.drawn + Act.requests acts) Limits.keySize),
        { o.after acts with
          entropy := ⟨o.entropy.byte, o.entropy.drawn + Act.requests acts + 1⟩ }) ∧
    (∀ (n : Notary) today claim b, (n.prove today claim (o.after acts)).1 = .ok b →
      (n.prove today claim (o.after acts)).2.entropy =
        ⟨o.entropy.byte, o.entropy.drawn + Act.requests acts + 1⟩ ∧
      b.salt = .text (Base64.text (o.entropy.block (o.entropy.drawn + Act.requests acts)
        Limits.saltSize))) ∧
    (o.entropy.Fresh (Act.requests acts) →
      (o.bundles acts).Pairwise fun b b' => b.salt ≠ b'.salt) ∧
    (∀ (n : Notary) today claim (o' : Office),
      (∀ r, claim.screen today = .error r → n.prove today claim o' = (.error r, o')) ∧
      (claim.screen today = .ok () → ∀ r, claim.check today = .error r →
        n.prove today claim o' = (.error r, o')) ∧
      (claim.screen today = .ok () → claim.check today = .ok () → ∃ t : Text,
        claim.canonical = .ok (.ofText t) ∧
          (o'.isClosed n.committer = true ∨ (∀ s, t ≠ .whole s) → n.prove today claim o' =
            (.error (Office.refusalOf t),
              { o' with entropy := ⟨o'.entropy.byte, o'.entropy.drawn + 1⟩ })))) ∧
    (∀ (n : Notary) today value validValues (o' : Office) why,
      validValues.readingFailure? = some why →
        n.proveMembership today value validValues o' = (.error (.failed why), o')) ∧
    ∀ (o' : Office) (act : Act), act.verifies = true → (o'.perform act).2.keys = o'.keys ∧
      (o'.perform act).2.entropy = o'.entropy ∧ (o'.perform act).2.settings = o'.settings := by
  have hentropy := o.entropy_after acts
  refine ⟨hentropy, ?_, ?_, ?_, ?_, Office.bundles_pairwise acts, ?_, ?_, ?_⟩
  · intro act a h
    refine ⟨Office.isRandom_perform h, fun size hdrawn => ?_⟩
    have huses := Office.uses_perform h hdrawn
    rw [hentropy] at huses
    exact huses
  · unfold Office.drawSalt Office.drawText
    rw [hentropy]
    rfl
  · unfold Office.drawKeyText Office.drawText
    rw [hentropy]
    rfl
  · intro n today claim b h
    have hstep := ((o.after acts).effect_perform (.prove n today claim)).entropy
    obtain ⟨_, value, _, rfl⟩ := Notary.exists_bundleFor_of_prove h
    rw [Act.drawn?, Office.prove_draws h, hentropy] at hstep
    refine ⟨hstep, ?_⟩
    rw [Notary.bundleFor, Office.drawSalt_fst, hentropy]
    rfl
  · intro n today claim o'
    refine ⟨fun r hscreen => Notary.prove_of_screen_error hscreen, ?_, ?_⟩
    · intro hscreen r hcheck
      exact Notary.prove_of_check_error hscreen hcheck
    · intro hscreen hcheck
      obtain ⟨t, hvalue⟩ := Claim.exists_canonical_of_screen hscreen
      refine ⟨t, hvalue, fun hrefused => ?_⟩
      rw [Notary.prove_of_refused hrefused hscreen hcheck hvalue]
      rfl
  · intro n today value validValues o' why hwhy
    exact Notary.proveMembership_of_readingFailure hwhy
  · intro o' act hverifies
    have hnoted := Office.noted_of_verifies (o := o') hverifies
    exact ⟨hnoted.keys, hnoted.entropy, hnoted.settings⟩

/-- Two bundles for one claim, with a salt drawn between them, have two salts. -/
theorem two_trial_bundles_have_two_salts :
    let gold := Act.prove Notary.trial Date.trial
      (.membership (.text "gold") (.list [.text "gold"]))
    (Office.trial.bundles [gold, .drawSalt, gold]).length = 2 ∧
    (Office.trial.bundles [gold, .drawSalt, gold]).Pairwise fun b b' => b.salt ≠ b'.salt := by
  intro gold
  refine ⟨rfl, ?_⟩
  obtain ⟨_, _, _, _, _, hsalts, _⟩ :=
    randomness_is_used_once_and_for_what_is_issued Office.trial [gold, .drawSalt, gold]
  apply hsalts
  intro i j hij hj hsame
  have hcount : Act.requests [gold, .drawSalt, gold] = 3 := rfl
  have hfirst : some (UInt8.ofNat (215 + 31 * (0 + i))) = some (UInt8.ofNat (215 + 31 * (0 + j))) :=
    congrArg List.head? hsame
  have hbyte := congrArg UInt8.toNat (Option.some.inj hfirst)
  rw [UInt8.toNat_ofNat', UInt8.toNat_ofNat'] at hbyte
  omega

/-- A wiped key is not what a torn text is refused for, although a request was made. -/
theorem a_trial_torn_member_costs_a_request_and_fails :
    let closed := Office.trial.close Notary.trial.committer
    let claim := Claim.ofMembership (.torn ⟨[], 0, []⟩) (.list [.torn ⟨[], 0, []⟩])
    claim.screen Date.trial = .ok () ∧ claim.check Date.trial = .ok () ∧
      closed.isClosed Notary.trial.committer = true ∧
      ∃ r, (Notary.trial.prove Date.trial claim closed).1 = .error r ∧
        r.name ≠ "KeyFormatError" :=
  ⟨rfl, rfl, rfl, _, rfl, by simp [Refusal.name, Failure.name, Failure.ofTorn]⟩

end Attestation
