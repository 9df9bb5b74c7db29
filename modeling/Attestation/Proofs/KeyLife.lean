-- The life of a key over whole runs. A key keeps the bytes that it was made of until anyone
-- wipes it, and zeros from then on. While it has its bytes every hash is one under them, and
-- afterwards there is none. Keys that were made apart know nothing of each other.
import Attestation.Proofs.Run

namespace Attestation

/-! ## The bytes behind a key -/

namespace SecretKey

/-- The bytes that a form of a key stands for. -/
def formBytes? : Value → Option (List UInt8)
  | .text s => Base64.decode s.toList
  | .bytes bs => some bs
  | .buffer bs => some bs
  | _ => none

variable {k : SecretKey} {v : Value}

theorem formBytes?_of_ofBase64 (h : ofBase64 v = .ok k) :
    formBytes? v = some k.buffer ∧ k.wiped = false := by
  unfold ofBase64 at h
  split at h
  · split at h
    · cases h
    · split at h
      · cases h
      · rename_i s _ bs hread
        obtain ⟨hbuffer, hopen⟩ := buffer_of_ofBytes h
        exact ⟨by rw [formBytes?, hread, hbuffer], hopen⟩
  · cases h
  · cases h

theorem formBytes?_of_ofForm (h : ofForm v = .ok k) :
    formBytes? v = some k.buffer ∧ k.wiped = false := by
  unfold ofForm at h
  split at h
  · exact formBytes?_of_ofBase64 h
  · exact formBytes?_of_ofBase64 h
  · obtain ⟨hbuffer, hopen⟩ := buffer_of_ofBytes h
    exact ⟨by rw [formBytes?, hbuffer], hopen⟩
  · obtain ⟨hbuffer, hopen⟩ := buffer_of_ofBytes h
    exact ⟨by rw [formBytes?, hbuffer], hopen⟩
  · cases h

theorem bytes?_of_ofMaterial (h : ofMaterial v = .ok k) :
    v.bytes? = some k.buffer ∧ k.wiped = false := by
  unfold ofMaterial at h
  split at h
  · rename_i bs hbytes
    obtain ⟨hbuffer, hopen⟩ := buffer_of_ofBytes h
    exact ⟨by rw [hbytes, hbuffer], hopen⟩
  · cases h

end SecretKey

theorem Except.toOption_eq_some_iff {ε α : Type} {x : Except ε α} {a : α} :
    x.toOption = some a ↔ x = .ok a := by
  cases x <;> simp [Except.toOption]

/-- The bytes that a source makes a key of. -/
def KeySource.material? : KeySource → Option (List UInt8)
  | .value v => SecretKey.formBytes? v
  | .held _ => none

theorem KeySource.material?_of_newKey? {source : KeySource} {k : SecretKey}
    (h : source.newKey? = some k) : source.material? = some k.buffer ∧ k.wiped = false := by
  cases source with
  | value v => exact SecretKey.formBytes?_of_ofForm (Except.toOption_eq_some_iff.1 h)
  | held place => cases h

/-- Nobody finds a held key for a caller who brings none. -/
theorem Settings.eq_held_of_key {s : Settings} {key : KeySource} {place : ℕ}
    (h : s.key key = some (.held place)) : key = .held place := by
  unfold Settings.key at h
  split at h
  · obtain ⟨t, _, ht⟩ := Option.map_eq_some_iff.1 h
    cases ht
  · exact Option.some.inj h

namespace Act

/-- The bytes that an act makes a key of. -/
def material? (s : Settings) : Act → Option (List UInt8)
  | .makeKey material => material.bytes?
  | .makeKeyOfText text => SecretKey.formBytes? text
  | .openCommitter source => source.material?
  | .appoint key _ => (s.key key).bind KeySource.material?
  | _ => none

/-- The key that an act shares with whoever holds it already. -/
def shared? : Act → Option ℕ
  | .openCommitter (.held place) => some place
  | .appoint (.held place) _ => some place
  | .engage (some c) _ => some c.key
  | _ => none

variable {s : Settings} {act : Act} {k : SecretKey}

theorem material?_of_newKey? (h : act.newKey? s = some k) :
    act.material? s = some k.buffer ∧ k.wiped = false := by
  cases act with
  | makeKey material => exact SecretKey.bytes?_of_ofMaterial (Except.toOption_eq_some_iff.1 h)
  | makeKeyOfText text => exact SecretKey.formBytes?_of_ofBase64 (Except.toOption_eq_some_iff.1 h)
  | openCommitter source => exact KeySource.material?_of_newKey? h
  | appoint key age =>
    obtain ⟨found, hkey, hnew⟩ := Option.bind_eq_some_iff.1 h
    obtain ⟨hmaterial, hopen⟩ := KeySource.material?_of_newKey? hnew
    exact ⟨by simp [material?, hkey, hmaterial], hopen⟩
  | _ => cases h

/-- An act that makes a key of its own shares none. -/
theorem shared?_of_material? {bytes : List UInt8} (h : act.material? s = some bytes) :
    act.shared? = none := by
  cases act with
  | openCommitter source =>
    cases source with
    | value v => rfl
    | held place => cases h
  | appoint key age =>
    cases key with
    | value v => rfl
    | held place => simp [material?, Settings.key, KeySource.isVacant, KeySource.material?] at h
  | engage c age => cases h
  | _ => rfl

end Act

namespace Office

variable {o : Office} {act : Act} {a : Answer} {place : ℕ}

/-! ## Who holds a key -/

/-- Whoever is let use a key brought it in just now, or shares one that is there. -/
inductive Granted (o : Office) (act : Act) (place : ℕ) : Prop
  | made {k : SecretKey} (hnew : act.newKey? o.settings = some k)
      (hplace : place = o.keys.slots.length) : Granted o act place
  | shared (hshared : act.shared? = some place) : Granted o act place

theorem granted_of_keep {k : Except KeyFault SecretKey} (hnew : act.newKey? o.settings = k.toOption)
    (h : (answered .key (o.keep k)).1 = .ok a) (hplace : a.place? = some place) :
    Granted o act place := by
  cases k with
  | error fault => cases h
  | ok k =>
    cases h
    cases hplace
    exact .made hnew rfl

theorem openCommitter_eq_ok {source : KeySource} {c : Committer}
    (h : (o.openCommitter source).1 = .ok c) :
    (∃ k, source.newKey? = some k ∧ c.key = o.keys.slots.length) ∨ source = .held c.key := by
  unfold openCommitter at h
  cases source with
  | held place =>
    simp only at h
    split at h
    · cases h
    · cases h
      exact Or.inr rfl
  | value v =>
    simp only [KeySource.newKey?]
    cases hform : SecretKey.ofForm v with
    | error fault => simp [hform, keep] at h
    | ok k =>
      simp only [hform, keep, Keyring.add] at h
      cases h
      exact Or.inl ⟨k, rfl, rfl⟩

/-- The notary that is appointed has the key that was found for it. -/
theorem appoint_eq_ok {key : KeySource} {age : Value} {n : Notary}
    (h : (o.appoint key age).1 = .ok n) :
    (∃ k, (o.settings.key key).bind KeySource.newKey? = some k ∧
      n.committer.key = o.keys.slots.length) ∨ key = .held n.committer.key := by
  unfold appoint at h
  cases hkey : o.settings.key key with
  | none =>
    rw [hkey] at h
    cases h
  | some found =>
    simp only [hkey] at h
    split at h
    · cases h
    · rename_i c o' hopen
      obtain ⟨years, _, rfl⟩ := map_eq_ok_iff.1 h
      have hkeys : (if key.isAbsent then o.note .keyFromEnvironment else o).keys = o.keys := by
        split <;> rfl
      rcases openCommitter_eq_ok (congrArg Prod.fst hopen) with ⟨k, hnew, hplace⟩ | hheld
      · rw [hkeys] at hplace
        exact Or.inl ⟨k, hnew, hplace⟩
      · rw [hheld] at hkey
        exact Or.inr (Settings.eq_held_of_key hkey)

theorem granted_perform (h : (o.perform act).1 = .ok a) (hplace : a.place? = some place) :
    Granted o act place := by
  cases act with
  | makeKey material => exact granted_of_keep rfl h hplace
  | makeKeyOfText text => exact granted_of_keep rfl h hplace
  | openCommitter source =>
    obtain ⟨c, hc, rfl⟩ := map_eq_ok_iff.1 h
    cases hplace
    rcases openCommitter_eq_ok hc with ⟨k, hnew, hkey⟩ | rfl
    · exact .made hnew hkey
    · exact .shared rfl
  | appoint key age =>
    obtain ⟨n, hn, rfl⟩ := map_eq_ok_iff.1 h
    cases hplace
    rcases appoint_eq_ok hn with ⟨k, hnew, hkey⟩ | rfl
    · exact .made hnew hkey
    · exact .shared rfl
  | engage c age =>
    obtain ⟨n, hn, rfl⟩ := map_eq_ok_iff.1 h
    cases hplace
    cases c with
    | none => cases hn
    | some c =>
      obtain ⟨years, _, rfl⟩ := map_eq_ok_iff.1 hn
      exact .shared rfl
  | hash _ _ | commit _ _ | commitAndClose _ _ | drawBytes _ | readRequiredAge _
  | setRequiredAge _ | prove _ _ _ | proveMembership _ _ _ _ | verify _ _ _ _ _
  | verifyMembership _ _ _ _ _ _ | verifyCommitment _ _ _ _ | verifyBatch _ _ _ _ =>
    obtain ⟨_, _, rfl⟩ := map_eq_ok_iff.1 h
    cases hplace
  | _ =>
    cases h
    cases hplace

theorem exists_place_of_material? {bytes : List UInt8} (h : (o.perform act).1 = .ok a)
    (hmaterial : act.material? o.settings = some bytes) : ∃ place, a.place? = some place := by
  cases act with
  | makeKey _ | makeKeyOfText _ | openCommitter _ | appoint _ _ =>
    obtain ⟨_, _, rfl⟩ := map_eq_ok_iff.1 h
    exact ⟨_, rfl⟩
  | _ => cases hmaterial

/-- A key that is made stands in the next place, open, and with the bytes that it was made of. -/
theorem exists_made_of_perform {bytes : List UInt8} (h : (o.perform act).1 = .ok a)
    (hmaterial : act.material? o.settings = some bytes) :
    a.place? = some o.keys.slots.length ∧
      ((o.perform act).2.keyAt o.keys.slots.length).buffer = bytes ∧
      ((o.perform act).2.keyAt o.keys.slots.length).wiped = false ∧
      o.keys.slots.length < (o.perform act).2.keys.slots.length := by
  obtain ⟨place, hplace⟩ := exists_place_of_material? h hmaterial
  cases granted_perform h hplace with
  | shared hshared => simp [Act.shared?_of_material? hmaterial] at hshared
  | @made k hnew hnext =>
    subst hnext
    obtain ⟨hbytes, hopen⟩ := Act.material?_of_newKey? hnew
    have hkeys := (o.effect_perform act).keys_of_newKey? hnew
    have hkey : (o.perform act).2.keyAt o.keys.slots.length = k := by
      rw [keyAt, hkeys]
      exact Keyring.find_add o.keys k
    rw [hmaterial, Option.some.injEq] at hbytes
    rw [hkey, hkeys, Keyring.length_slots_add]
    exact ⟨hplace, hbytes.symm, hopen, Nat.lt_succ_self _⟩

/-! ## Keys over a run -/

/-- Some act of a run wipes the key at a place. -/
def wipedBy (place : ℕ) (acts : List Act) : Bool := acts.any fun act => act.wiped? == some place

/-- How often a run notes that the key at a place was wiped. -/
def wipeNotes (o : Office) (place : ℕ) : List Act → ℕ
  | [] => 0
  | act :: acts =>
    (if act.closed? = some place then
      (o.perform act).2.journal.count .keyWiped - o.journal.count .keyWiped else 0) +
    (o.perform act).2.wipeNotes place acts

/-- A key over a run is as it was, or wiped. -/
theorem keyAt_after (acts : List Act) (hplace : place < o.keys.slots.length)
    (hcleared : (o.keyAt place).Cleared) : (o.after acts).keyAt place =
      if wipedBy place acts then (o.keyAt place).wipe else o.keyAt place := by
  induction acts generalizing o with
  | nil => rfl
  | cons act acts ih =>
    have heffect := o.effect_perform act
    have hstep := heffect.keyAt hplace hcleared
    have hrun := ih (Nat.lt_of_lt_of_le hplace heffect.length_slots)
      (heffect.cleared hplace hcleared)
    -- two wipes are as good as one, so it does not matter which acts of the run wipe
    rw [after_cons, hrun, hstep]
    by_cases hwiped : act.wiped? = some place
    · simp [wipedBy, hwiped, SecretKey.wipe_wipe]
    · simp [wipedBy, hwiped]

/-- The wipe of an open key is noted once at most, and that of a wiped one never. -/
theorem wipeNotes_le (acts : List Act) (hplace : place < o.keys.slots.length)
    (hcleared : (o.keyAt place).Cleared) :
    o.wipeNotes place acts ≤ if (o.keyAt place).wiped then 0 else 1 := by
  induction acts generalizing o with
  | nil => exact Nat.zero_le _
  | cons act acts ih =>
    have heffect := o.effect_perform act
    have hstep := heffect.keyAt hplace hcleared
    have hrun := ih (Nat.lt_of_lt_of_le hplace heffect.length_slots)
      (heffect.cleared hplace hcleared)
    rw [hstep] at hrun
    unfold wipeNotes
    by_cases hclosed : act.closed? = some place
    · rw [if_pos (Act.wiped?_of_closed? hclosed)] at hrun
      rw [if_pos hclosed, heffect.count_keyWiped.2 place hclosed, Nat.add_sub_cancel_left]
      exact Nat.add_le_add_left hrun _
    · rw [if_neg hclosed, Nat.zero_add]
      -- a bare wipe takes the note away from every later close
      refine Nat.le_trans hrun ?_
      by_cases hwiped : act.wiped? = some place
      · simp [hwiped, SecretKey.wipe]
      · simp [hwiped]

/-! ## What a key is good for -/

/-- A key and all that its holders get from it: `bytes` is what it was made of, and `wiped` says
whether anyone wiped it. -/
structure Lives (o : Office) (place : ℕ) (bytes : List UInt8) (wiped : Bool) : Prop where
  sized : (o.keyAt place).buffer.length = Limits.keySize
  buffer : (o.keyAt place).buffer = if wiped then List.replicate Limits.keySize 0 else bytes
  closed : ∀ c : Committer, c.key = place → o.isClosed c = wiped
  hash : ∀ message, o.keyMac place message =
    if wiped then .error (.key .wiped) else .ok (Hmac.mac bytes message)
  commit : ∀ (c : Committer) message, c.key = place → o.commitText c (.whole message) =
    if wiped then .error (.key .wiped) else .ok (macText bytes message)
  torn : ∀ (c : Committer) t, c.key = place →
    o.commitText c (.torn t) = .error (.failed (.ofTorn t))
  issued : ∀ (n : Notary) today claim b, n.committer.key = place →
    (n.prove today claim o).1 = .ok b → wiped = false ∧ ∃ value salt,
      claim.canonical = .ok (.text value) ∧ b.salt = .text salt ∧
      b.proof = .text (macText bytes (value ++ salt))
  expected : ∀ (n : Notary) today claim salt expected holds, n.committer.key = place →
    n.expectation o today claim salt = .ok (expected, holds) → wiped = false ∧ ∃ value,
      claim.canonical = .ok (.text value) ∧ expected = macText bytes (value ++ salt)
  compared : ∀ (n : Notary) proof salt p s d, n.committer.key = place →
    proofText? proof = some p → saltText? salt = some s →
    n.verifyCommitment o proof salt (.text d) =
      if wiped then .error (.key .wiped)
      else .ok (Comparison.sameText (.whole (macText bytes (d ++ s))) p)
  refused : wiped = true → ∀ n : Notary, n.committer.key = place →
    (∀ today claim t, claim.screen today = .ok () → claim.check today = .ok () →
      claim.canonical = .ok (.ofText t) → (n.prove today claim o).1 = .error (refusalOf t)) ∧
    (∀ today proof salt claim, RefusedJustWhen (fun t => Presentable proof salt ∧
        claim.screen today = .ok () ∧ claim.canonical = .ok (.ofText t))
      (n.verify today proof salt claim o).1) ∧
    (∀ proof salt data, RefusedJustWhen (fun t => Presentable proof salt ∧ data = .ofText t)
      (n.verifyCommitment o proof salt data)) ∧
    ∀ proofs datas salts, Notary.sizingFailure? proofs datas salts = none →
      RefusedJustWhen (Notary.BatchStarts proofs datas salts)
        (n.verifyBatch proofs datas salts o).1
  noted : ∀ act : Act, act.closed? = some place → (o.perform act).2.journal.count .keyWiped =
    o.journal.count .keyWiped + if wiped then 0 else 1

theorem lives_of_open (hopen : (o.keyAt place).wiped = false) :
    Lives o place (o.keyAt place).buffer false where
  sized := (o.keyAt place).sized
  buffer := rfl
  closed := by
    rintro c rfl
    exact hopen
  hash := by
    intro message
    simp [keyMac, SecretKey.mac, hopen, Except.mapError]
  commit := by
    rintro c message rfl
    exact commit_of_open hopen message
  torn := fun _ _ _ => rfl
  issued := by
    rintro n today claim b rfl h
    obtain ⟨_, value, hvalue, rfl⟩ := Notary.exists_bundleFor_of_prove h
    exact ⟨rfl, value, o.drawSalt.1, hvalue, rfl, rfl⟩
  expected := by
    rintro n today claim salt expected holds rfl h
    obtain ⟨_, _, value, hvalue, rfl⟩ := (Notary.expectation_eq_ok_iff hopen).1 h
    exact ⟨rfl, value, hvalue, rfl⟩
  compared := by
    rintro n proof salt p s d rfl hp hs
    rw [← Value.ofText_whole, Notary.verifyCommitment_of_texts hp hs, commitText_whole_append,
      commit_of_open hopen]
    rfl
  refused := nofun
  noted := by
    intro act hclosed
    rw [(o.effect_perform act).count_keyWiped.2 place hclosed, hopen]

theorem lives_of_wiped (bytes : List UInt8) (hwiped : (o.keyAt place).wiped = true)
    (hcleared : (o.keyAt place).Cleared) : Lives o place bytes true where
  sized := (o.keyAt place).sized
  buffer := by
    rw [← hcleared hwiped]
    simp [SecretKey.wipe, (o.keyAt place).sized]
  closed := by
    rintro c rfl
    exact hwiped
  hash := by
    intro message
    simp [keyMac, SecretKey.mac, hwiped, Except.mapError]
  commit := by
    rintro c message rfl
    exact commit_of_closed hwiped message
  torn := fun _ _ _ => rfl
  issued := by
    rintro n today claim b rfl h
    have hopen := (Notary.exists_bundleFor_of_prove h).1
    rw [isClosed, hwiped] at hopen
    cases hopen
  expected := by
    rintro n today claim salt expected holds rfl h
    cases hscreen : claim.screen today with
    | error r => simp [Notary.expectation_of_screen_error hscreen] at h
    | ok _ =>
      obtain ⟨value | t, hvalue⟩ := Claim.exists_canonical_of_screen hscreen
      · simp [Notary.expectation_of_closed hwiped hscreen hvalue] at h
      · simp [Notary.expectation_of_torn hscreen hvalue] at h
  compared := by
    rintro n proof salt p s d rfl hp hs
    exact (Notary.verifyCommitment_of_closed hwiped).whole d ⟨presentable_iff.2 ⟨p, s, hp, hs⟩, rfl⟩
  refused := by
    rintro _ n rfl
    refine ⟨?_, fun today proof salt claim => Notary.verify_of_closed hwiped,
      fun proof salt data => Notary.verifyCommitment_of_closed hwiped,
      fun proofs datas salts => Notary.verifyBatch_of_closed hwiped⟩
    intro today claim t hscreen hcheck hvalue
    rw [Notary.prove_of_refused (Or.inl hwiped) hscreen hcheck hvalue]
  noted := by
    intro act hclosed
    rw [(o.effect_perform act).count_keyWiped.2 place hclosed, hwiped]

/-- A key lives on over a run until some act of the run wipes it. -/
theorem lives_after (acts : List Act) (hplace : place < o.keys.slots.length)
    (hopen : (o.keyAt place).wiped = false) :
    Lives (o.after acts) place (o.keyAt place).buffer (wipedBy place acts) := by
  have hkey := keyAt_after acts hplace (SecretKey.cleared_of_open hopen)
  cases hwiped : wipedBy place acts with
  | false =>
    rw [if_neg (by simp [hwiped])] at hkey
    rw [← hkey] at hopen ⊢
    exact lives_of_open hopen
  | true =>
    rw [if_pos hwiped] at hkey
    apply lives_of_wiped
    · rw [hkey]
      rfl
    · rw [hkey]
      exact SecretKey.cleared_wipe _

/-! ## Blocks -/

theorem isClosed_close (o : Office) (c : Committer) : (o.close c).isClosed c = true := by
  unfold close
  split
  · assumption
  · exact Keyring.wiped_find_wipe o.keys c.key

end Office

/-! ## The life of a key -/

/-- A key has its 32 bytes, those that it was made of, until any act of the run wipes it, and
zeros ever after. Until then every hash that is given out or compared is one under those bytes,
and from then on every hash is refused; that of a torn text, which has no bytes, fails at any time,
before the key is looked at. A committer is closed just when its key is wiped. Whoever
is let use a key shares one by its place or brought in a new one at a place apart, so equal bytes
do not tie two keys together. The note of a wipe is made once at most for a key, and only by an
act that closes. A block closes its committer at its end, also when an act in it is refused, and
it is a run like any other. -/
theorem a_key_lives_until_it_is_wiped (o : Office) (made : Act) (a : Answer) (bytes : List UInt8)
    (hmade : (o.perform made).1 = .ok a) (hbytes : made.material? o.settings = some bytes) :
    (∃ place, a.place? = some place ∧ ∀ acts,
      Office.Lives ((o.perform made).2.after acts) place bytes (Office.wipedBy place acts) ∧
      (o.perform made).2.wipeNotes place acts ≤ 1 ∧
      ∀ act a' place', (((o.perform made).2.after acts).perform act).1 = .ok a' →
        a'.place? = some place' → act.shared? = some place' ∨
          (∃ bytes', act.material? ((o.perform made).2.after acts).settings = some bytes') ∧
            place' ≠ place) ∧
    (∀ o' : Office, ∀ act : Act, act.closed? = none →
      (o'.perform act).2.journal.count .keyWiped = o'.journal.count .keyWiped) ∧
    ∀ (o' : Office) c, (∀ message, (o'.commitAndClose c message).2.isClosed c = true) ∧
      ∀ acts, (o'.within c acts).2.isClosed c = true ∧
        ∃ performed omitted, acts = performed ++ omitted ∧
          (o'.within c acts).2 = o'.after (performed ++ [.close c]) := by
  obtain ⟨hplace, hbuffer, hopen, hheld⟩ := Office.exists_made_of_perform hmade hbytes
  refine ⟨⟨_, hplace, fun acts => ⟨?_, ?_, ?_⟩⟩, ?_, ?_⟩
  · rw [← hbuffer]
    exact Office.lives_after acts hheld hopen
  · have hnotes := Office.wipeNotes_le acts hheld (SecretKey.cleared_of_open hopen)
    rwa [hopen] at hnotes
  · intro act a' place' h' hplace'
    cases Office.granted_perform h' hplace' with
    | shared hshared => exact Or.inl hshared
    | made hnew hnext =>
      refine Or.inr ⟨⟨_, (Act.material?_of_newKey? hnew).1⟩, ?_⟩
      have hheld' := Office.length_slots_after (o.perform made).2 acts
      omega
  · intro o' act hclosed
    exact (o'.effect_perform act).count_keyWiped.1 hclosed
  · intro o' c
    refine ⟨fun message => o'.isClosed_close c, fun acts => ?_⟩
    exact ⟨Office.isClosed_close _ c, o'.exists_after_of_within c acts⟩

/-- A committer with the bytes of the trial key makes proofs after that one is closed, and none
after its own is. -/
theorem a_trial_key_outlives_its_equal :
    let opened := Office.trial.perform (.openCommitter (.value (.bytes (List.replicate 32 7))))
    opened.1 = .ok (.committer ⟨1⟩) ∧
    (opened.2.after [.close ⟨0⟩]).commitText ⟨1⟩ "gold" =
      .ok (macText (List.replicate 32 7) "gold") ∧
    (opened.2.after [.close ⟨0⟩, .wipe 1]).commitText ⟨1⟩ "gold" = .error (.key .wiped) := by
  intro opened
  have hmade : opened.1 = .ok (.committer ⟨1⟩) := rfl
  obtain ⟨⟨place, hplace, hlife⟩, _⟩ :=
    a_key_lives_until_it_is_wiped Office.trial _ _ (List.replicate 32 7) hmade rfl
  cases hplace
  exact ⟨hmade, (hlife [.close ⟨0⟩]).1.commit ⟨1⟩ "gold" rfl,
    (hlife [.close ⟨0⟩, .wipe 1]).1.commit ⟨1⟩ "gold" rfl⟩

/-- A committer that is closed does not refuse the hash of a torn text for its key. -/
theorem a_trial_torn_text_is_not_refused_for_its_key :
    let closed := Office.trial.after [.close ⟨0⟩]
    closed.isClosed ⟨0⟩ = true ∧
      ∃ r, (closed.perform (.commit ⟨0⟩ (.torn ⟨[], 0, []⟩))).1 = .error r ∧
        r.name ≠ "KeyFormatError" :=
  ⟨rfl, _, rfl, by simp [Refusal.name, Failure.name, Failure.ofTorn]⟩

end Attestation
