-- Clients that share a notary. Their calls come one at a time, in whatever order, on one day and
-- under a key that stays open. All that a call leaves behind for the next one is the count of the
-- requests for randomness, and no verification looks at that. So the clients do not disturb each
-- other: an order of the calls decides which request a bundle is made with, and nothing else.
import Attestation.Proofs.BundleBinding
import Attestation.Proofs.Randomness

namespace Attestation

/-- What a client asks of a notary. -/
inductive Call where
  | prove (claim : Claim)
  | verify (proof salt : Value) (claim : Claim)
  | verifyCommitment (proof salt data : Value)
  | verifyBatch (proofs datas salts : Value)

def Call.act (n : Notary) (today : Date) : Call → Act
  | .prove claim => .prove n today claim
  | .verify proof salt claim => .verify n today proof salt claim
  | .verifyCommitment proof salt data => .verifyCommitment n proof salt data
  | .verifyBatch proofs datas salts => .verifyBatch n proofs datas salts

/-- A call in the order of all calls, and whose it is. -/
structure Turn (ι : Type) where
  client : ι
  call : Call

/-- An answer without what randomness made of it. -/
def Answer.plain : Answer → Answer
  | .bundle b => .bundle { b with proof := .none, salt := .none }
  | a => a

namespace Office

variable {ι : Type} {n : Notary} {today : Date} {o o' : Office} {call : Call}

/-- What a call is answered. -/
def told (o : Office) (n : Notary) (today : Date) (call : Call) : Except Refusal Answer :=
  (o.perform (call.act n today)).1

/-- The office after some turns. -/
def reached (o : Office) (n : Notary) (today : Date) (turns : List (Turn ι)) : Office :=
  o.after (turns.map fun turn => turn.call.act n today)

/-- What one of the clients is answered over all turns. -/
def heard [DecidableEq ι] (n : Notary) (today : Date) (client : ι) :
    Office → List (Turn ι) → List (Except Refusal Answer)
  | _, [] => []
  | o, turn :: turns =>
    let rest := heard n today client (o.reached n today [turn]) turns
    if turn.client = client then o.told n today turn.call :: rest else rest

/-- The office with its next request of a given number. -/
def counting (o : Office) (request : ℕ) : Office :=
  { o with entropy := ⟨o.entropy.byte, request⟩ }

/-! ## One call -/

theorem keys_perform_call (o : Office) (call : Call) :
    (o.perform (call.act n today)).2.keys = o.keys := by
  cases call with
  | prove claim => exact Notary.keys_prove n o today claim
  | verify proof salt claim => exact (noted_verify n today proof salt claim o).keys
  | verifyCommitment proof salt data => rfl
  | verifyBatch proofs datas salts => exact (noted_verifyBatch n proofs datas salts o).keys

/-- A verification is answered by the keys alone. -/
theorem told_of_verifies (hkeys : o'.keys = o.keys) (h : (call.act n today).verifies = true) :
    o'.told n today call = o.told n today call := by
  cases call with
  | prove claim => cases h
  | verify proof salt claim =>
    exact congrArg (Except.map Answer.truth)
      (Notary.verify_eq_of_keys rfl hkeys today proof salt claim)
  | verifyCommitment proof salt data =>
    exact congrArg (Except.map Answer.truth)
      (Notary.verifyCommitment_eq_of_keys rfl hkeys proof salt data)
  | verifyBatch proofs datas salts =>
    exact congrArg (Except.map Answer.truth)
      (Notary.verifyBatch_eq_of_keys rfl hkeys proofs datas salts)

/-- To prove takes the keys and one request, whose number is all that the calls before it have
changed. -/
theorem told_prove (hkeys : o'.keys = o.keys) (hbyte : o'.entropy.byte = o.entropy.byte)
    (claim : Claim) : o'.told n today (.prove claim) =
      (o.counting o'.entropy.drawn).told n today (.prove claim) := by
  have hentropy : o'.entropy = (o.counting o'.entropy.drawn).entropy := by
    unfold counting
    rw [← hbyte]
  have hkeys' : o'.keys = (o.counting o'.entropy.drawn).keys := hkeys
  exact congrArg (Except.map Answer.bundle)
    (Notary.prove_eq_of_keys rfl hkeys' hentropy today claim)

/-- Under open keys a claim is proved alike, but for the randomness. -/
theorem plain_prove (hopen : o.isClosed n.committer = false)
    (hopen' : o'.isClosed n.committer = false) (claim : Claim) :
    (o'.told n today (.prove claim)).map Answer.plain =
      (o.told n today (.prove claim)).map Answer.plain := by
  have htold : ∀ o : Office, o.told n today (.prove claim) =
      (n.prove today claim o).1.map .bundle := fun _ => rfl
  rw [htold, htold]
  cases hscreen : claim.screen today with
  | error r => rw [Notary.prove_of_screen_error hscreen, Notary.prove_of_screen_error hscreen]
  | ok _ =>
    cases hcheck : claim.check today with
    | error r =>
      rw [Notary.prove_of_check_error hscreen hcheck, Notary.prove_of_check_error hscreen hcheck]
    | ok _ =>
      obtain ⟨value | t, hvalue⟩ := Claim.exists_canonical_of_screen hscreen
      · rw [Notary.prove_of_check hopen hscreen hcheck hvalue,
          Notary.prove_of_check hopen' hscreen hcheck hvalue]
        simp only [Except.map, Answer.plain, Notary.bundleFor]
      · rw [Notary.prove_of_check_torn hscreen hcheck hvalue,
          Notary.prove_of_check_torn hscreen hcheck hvalue]

/-- But for randomness a call is answered by the keys alone. -/
theorem plain_told (hopen : o.isClosed n.committer = false) (hkeys : o'.keys = o.keys)
    (call : Call) :
    (o'.told n today call).map Answer.plain = (o.told n today call).map Answer.plain := by
  have hopen' : o'.isClosed n.committer = false := (isClosed_of_keys hkeys _).trans hopen
  cases call with
  | prove claim => exact plain_prove hopen hopen' claim
  | verify _ _ _ | verifyCommitment _ _ _ | verifyBatch _ _ _ =>
    rw [told_of_verifies hkeys rfl]

theorem told_eq_error_iff (hopen : o.isClosed n.committer = false) (hkeys : o'.keys = o.keys)
    (call : Call) (r : Refusal) :
    o'.told n today call = .error r ↔ o.told n today call = .error r := by
  rw [← map_eq_error_iff, plain_told hopen hkeys, map_eq_error_iff]

/-! ## Some turns -/

theorem reached_cons (o : Office) (turn : Turn ι) (turns : List (Turn ι)) :
    o.reached n today (turn :: turns) = (o.reached n today [turn]).reached n today turns := rfl

theorem reached_append (o : Office) (turns turns' : List (Turn ι)) :
    o.reached n today (turns ++ turns') = (o.reached n today turns).reached n today turns' := by
  unfold reached
  rw [List.map_append, after_append]

theorem keys_reached (o : Office) (turns : List (Turn ι)) :
    (o.reached n today turns).keys = o.keys := by
  induction turns generalizing o with
  | nil => rfl
  | cons turn turns ih =>
    have hstep : (o.reached n today [turn]).keys = o.keys := o.keys_perform_call turn.call
    rw [reached_cons, ih, hstep]

theorem byte_reached (o : Office) (turns : List (Turn ι)) :
    (o.reached n today turns).entropy.byte = o.entropy.byte := by
  rw [reached, entropy_after]

theorem drawn_le_reached (o : Office) (turns : List (Turn ι)) :
    o.entropy.drawn ≤ (o.reached n today turns).entropy.drawn := by
  rw [reached, entropy_after]
  exact Nat.le_add_right _ _

/-- A turn that ends in a bundle uses a request up. -/
theorem drawn_lt_reached {turn : Turn ι} {b : Bundle}
    (h : o.told n today turn.call = .ok (.bundle b)) (turns : List (Turn ι)) :
    o.entropy.drawn < (o.reached n today (turn :: turns)).entropy.drawn := by
  have hdrawn : (turn.call.act n today).drawn?.isSome = true := (isRandom_perform h).symm
  have hstep : (o.reached n today [turn]).entropy.drawn = o.entropy.drawn + 1 := by
    rw [reached, entropy_after, List.map_singleton, Act.requests_cons, if_pos hdrawn]
    rfl
  rw [reached_cons]
  exact Nat.lt_of_lt_of_le (by omega) (drawn_le_reached _ turns)

/-- What a client is answered is what its calls are answered on their own, but for randomness. -/
theorem heard_plain [DecidableEq ι] (hopen : o.isClosed n.committer = false)
    (hkeys : o'.keys = o.keys) (client : ι) (turns : List (Turn ι)) :
    (heard n today client o' turns).map (Except.map Answer.plain) =
      (turns.filter fun turn => turn.client = client).map fun turn =>
        (o.told n today turn.call).map Answer.plain := by
  induction turns generalizing o' with
  | nil => rfl
  | cons turn turns ih =>
    have hrest := @ih (o'.reached n today [turn]) ((keys_reached o' [turn]).trans hkeys)
    unfold heard
    by_cases hclient : turn.client = client
    · simp only [hclient, if_true, List.map_cons, hrest, plain_told hopen hkeys, decide_true,
        List.filter_cons_of_pos]
    · simp only [hclient, if_false, hrest, decide_false, Bool.false_eq_true, not_false_eq_true,
        List.filter_cons_of_neg]

/-- A bundle that was issued under some keys verifies for its claim wherever the keys are held. -/
theorem told_verify_of_prove (hopen : o.isClosed n.committer = false) (hkeys : o'.keys = o.keys)
    {claim : Claim} {b : Bundle} (h : o.told n today (.prove claim) = .ok (.bundle b)) :
    o'.told n today (.verify b.proof b.salt claim) = .ok (.truth true) := by
  obtain ⟨b', hissued, hbundle⟩ := map_eq_ok_iff.1 h
  cases hbundle
  obtain ⟨hscreen, hcheck, value, hvalue, rfl⟩ := (Notary.prove_eq_ok_iff hopen).1 hissued
  have hopen' : o'.isClosed n.committer = false := (isClosed_of_keys hkeys _).trans hopen
  have hkey : o'.keyBytes n.committer = o.keyBytes n.committer := keyBytes_of_keys hkeys _
  have haccepted := (@Notary.verify_own_salt_iff n n o o' today claim hopen' hkey claim.kind value).2
    ⟨hscreen, Claim.holds_eq_true_iff.2 hcheck, value, hvalue, Or.inl rfl⟩
  have htold : ∀ proof salt, o'.told n today (.verify proof salt claim) =
      (n.verify today proof salt claim o').1.map .truth := fun _ _ => rfl
  rw [htold, haccepted]
  rfl

/-- What the turns of clients mean to each other. A verification is answered as if it were alone,
and so is a refusal to prove. A bundle is made with the request that is next when its turn comes,
as if that were all that came before. From then on it is accepted for its claim, and no later turn
is given its request again. -/
structure Undisturbed (o : Office) (n : Notary) (today : Date) (turns : List (Turn ι)) : Prop where
  verified : ∀ earlier turn later, turns = earlier ++ turn :: later →
    (turn.call.act n today).verifies = true →
    (o.reached n today earlier).told n today turn.call = o.told n today turn.call
  refused : ∀ earlier turn later, turns = earlier ++ turn :: later → ∀ r,
    (o.reached n today earlier).told n today turn.call = .error r ↔
      o.told n today turn.call = .error r
  issued : ∀ earlier client claim later, turns = earlier ++ ⟨client, .prove claim⟩ :: later →
    (o.reached n today earlier).told n today (.prove claim) =
      (o.counting (o.reached n today earlier).entropy.drawn).told n today (.prove claim)
  accepted : ∀ earlier client claim between later b,
    turns = earlier ++ ⟨client, .prove claim⟩ :: (between ++ later) →
    (o.reached n today earlier).told n today (.prove claim) = .ok (.bundle b) →
    (o.reached n today (earlier ++ ⟨client, .prove claim⟩ :: between)).told n today
      (.verify b.proof b.salt claim) = .ok (.truth true)
  apart : ∀ earlier turn between later b, turns = earlier ++ turn :: (between ++ later) →
    (o.reached n today earlier).told n today turn.call = .ok (.bundle b) →
    (o.reached n today earlier).entropy.drawn <
      (o.reached n today (earlier ++ turn :: between)).entropy.drawn

theorem undisturbed (hopen : o.isClosed n.committer = false) (turns : List (Turn ι)) :
    o.Undisturbed n today turns where
  verified := fun earlier _ _ _ h => told_of_verifies (o.keys_reached earlier) h
  refused := fun earlier turn _ _ r => told_eq_error_iff hopen (o.keys_reached earlier) turn.call r
  issued := fun earlier _ claim _ _ =>
    told_prove (o.keys_reached earlier) (o.byte_reached earlier) claim
  accepted := by
    intro earlier client claim between later b _ hissued
    have hreached : (o.reached n today earlier).isClosed n.committer = false :=
      (isClosed_of_keys (o.keys_reached earlier) _).trans hopen
    rw [reached_append]
    exact told_verify_of_prove hreached (keys_reached _ _) hissued
  apart := by
    intro earlier turn between later b _ hissued
    rw [reached_append]
    exact drawn_lt_reached hissued between

end Office

/-! ## Clients of one notary -/

/-- Any number of clients call on a notary whose key is open, each with calls of its own, and
these are carried out one at a time in any order that keeps each client's own. No client can tell
this from being alone, but for what randomness its bundles are made with: verifications and
refusals are as if each call were the only one, and a client that goes through its calls alone
hears the same. Every bundle is accepted for its claim at any later turn, also at the end, and no
two are made with one request. -/
theorem clients_of_a_notary_do_not_disturb_each_other {ι : Type} [DecidableEq ι] (o : Office)
    (n : Notary) (today : Date) (calls : ι → List Call) (turns : List (Turn ι))
    (hopen : o.isClosed n.committer = false)
    (hturns : ∀ client, (turns.filter fun turn => turn.client = client) =
      (calls client).map (Turn.mk client)) :
    o.Undisturbed n today turns ∧
    ∀ client, (Office.heard n today client o turns).map (Except.map Answer.plain) =
      (Office.heard n today client o ((calls client).map (Turn.mk client))).map
        (Except.map Answer.plain) := by
  refine ⟨Office.undisturbed hopen turns, fun client => ?_⟩
  -- alone a client has all the turns, so that none of them is filtered out
  have hown : (((calls client).map (Turn.mk client)).filter fun turn => turn.client = client) =
      (calls client).map (Turn.mk client) := by
    simp [List.filter_map, Function.comp_def]
  rw [Office.heard_plain hopen rfl, Office.heard_plain hopen rfl, hturns, hown]

/-- Two clients have gold proved, and the second one tries an empty proof before. The first
bundle is accepted at the end, and the second is made with another request. -/
theorem two_trial_clients_have_their_own_bundles :
    let gold : Claim := .membership (.text "gold") (.list [.text "gold"])
    let turns : List (Turn Bool) :=
      [⟨true, .prove gold⟩, ⟨false, .verify .none .none gold⟩, ⟨false, .prove gold⟩]
    (∃ b, Office.trial.told Notary.trial Date.trial (.prove gold) = .ok (.bundle b) ∧
      (Office.trial.reached Notary.trial Date.trial turns).told Notary.trial Date.trial
        (.verify b.proof b.salt gold) = .ok (.truth true)) ∧
    Office.trial.entropy.drawn <
      (Office.trial.reached Notary.trial Date.trial (turns.take 2)).entropy.drawn := by
  intro gold turns
  have hopen : Office.trial.isClosed Notary.trial.committer = false := rfl
  have hadmits : gold.Admits Date.trial "gold" Office.trial.drawSalt.1 :=
    ⟨Office.trial.saltText?_drawSalt, rfl, rfl, rfl⟩
  have hproved := Notary.prove_of_admits hopen hadmits
  have hissued : Office.trial.told Notary.trial Date.trial (.prove gold) = .ok (.bundle _) :=
    congrArg (Except.map Answer.bundle) hproved
  obtain ⟨hundisturbed, _⟩ := clients_of_a_notary_do_not_disturb_each_other Office.trial
    Notary.trial Date.trial
    (fun client => if client then [.prove gold] else [.verify .none .none gold, .prove gold])
    turns hopen (by intro client; cases client <;> rfl)
  refine ⟨⟨_, hissued, ?_⟩, ?_⟩
  · exact hundisturbed.accepted [] true gold [⟨false, .verify .none .none gold⟩,
      ⟨false, .prove gold⟩] [] _ rfl hissued
  · exact hundisturbed.apart [] ⟨true, .prove gold⟩ [⟨false, .verify .none .none gold⟩]
      [⟨false, .prove gold⟩] _ rfl hissued

end Attestation
