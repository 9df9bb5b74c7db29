-- Runs of an office: acts of any kind, by whoever holds a key, a committer or a notary, one
-- after another. What a single act does to the keys, the randomness, the settings and the
-- journal is said once for all acts, and what holds of whole runs follows from that.
import Attestation.Appointment
import Attestation.Batch
import Attestation.Proofs.Verification

namespace Attestation

/-! ## Keys by place -/

namespace SecretKey

theorem wipe_wipe (k : SecretKey) : k.wipe.wipe = k.wipe := by
  simp [wipe]

/-- A key that was wiped holds nothing that another wipe could take. -/
def Cleared (k : SecretKey) : Prop := k.wiped = true → k.wipe = k

theorem cleared_wipe (k : SecretKey) : k.wipe.Cleared := fun _ => k.wipe_wipe

theorem cleared_of_open {k : SecretKey} (h : k.wiped = false) : k.Cleared := by
  intro hwiped
  rw [h] at hwiped
  cases hwiped

end SecretKey

/-- A wipe reaches the key at its place; where no key is, the absent one is as good as wiped. -/
theorem Keyring.find_wipe (r : Keyring) (place : ℕ) :
    (r.wipe place).find place = (r.find place).wipe := by
  unfold find wipe
  cases h : r.slots[place]? with
  | none => simp [List.getD, h, SecretKey.wipe, SecretKey.absent]
  | some k => simp [List.getD, h]

@[simp]
theorem Keyring.length_slots_add (r : Keyring) (k : SecretKey) :
    (r.add k).2.slots.length = r.slots.length + 1 := by
  simp [add]

@[simp]
theorem Keyring.length_slots_wipe (r : Keyring) (place : ℕ) :
    (r.wipe place).slots.length = r.slots.length := by
  simp [wipe]

/-! ## Acts -/

/-- One act in an office. Keys, committers and notaries are named outright, so a run may use
those that it was handed, those of others, and those that never were. -/
inductive Act where
  | makeKey (material : Value)
  | makeKeyOfText (text : Value)
  | hash (place : ℕ) (message : List UInt8)
  | wipe (place : ℕ)
  | openCommitter (source : KeySource)
  | drawSalt
  | commit (c : Committer) (message : Text)
  | commitAndClose (c : Committer) (message : Text)
  | close (c : Committer)
  | isClosed (c : Committer)
  | display (c : Committer)
  | drawKeyText
  | drawBytes (size : ℤ)
  | readRequiredAge (prefer : Value)
  | setRequiredAge (v : Value)
  | setEnvironment (ageText keyText : Option Text)
  | engage (c : Option Committer) (age : Value)
  | appoint (key : KeySource) (age : Value)
  | prove (n : Notary) (today : Date) (claim : Claim)
  | proveMembership (n : Notary) (today : Date) (value validValues : Value)
  | verify (n : Notary) (today : Date) (proof salt : Value) (claim : Claim)
  | verifyMembership (n : Notary) (today : Date) (proof salt value validValues : Value)
  | verifyCommitment (n : Notary) (proof salt data : Value)
  | verifyBatch (n : Notary) (proofs datas salts : Value)

/-- What an act that succeeds gives back. -/
inductive Answer where
  | done
  | key (place : ℕ)
  | committer (c : Committer)
  | notary (n : Notary)
  | mac (bs : List UInt8)
  | macText (text : String)
  | salt (text : String)
  | keyText (text : String)
  | bytes (bs : List UInt8)
  | age (years : ℕ)
  | truth (b : Bool)
  | text (s : String)
  | bundle (b : Bundle)

/-- The key that an answer lets its holder use. -/
def Answer.place? : Answer → Option ℕ
  | .key place => some place
  | .committer c => some c.key
  | .notary n => some n.committer.key
  | _ => none

namespace Office

variable {α : Type}

/-- An operation's answer among the answers of all acts. -/
def answered (f : α → Answer) (p : Except Refusal α × Office) : Except Refusal Answer × Office :=
  (p.1.map f, p.2)

def perform (o : Office) : Act → Except Refusal Answer × Office
  | .makeKey material => answered .key (o.keep (SecretKey.ofMaterial material))
  | .makeKeyOfText text => answered .key (o.keep (SecretKey.ofBase64 text))
  | .hash place message => answered .mac (o.keyMac place message, o)
  | .wipe place => (.ok .done, o.wipeKey place)
  | .openCommitter source => answered .committer (o.openCommitter source)
  | .drawSalt => (.ok (.salt o.drawSalt.1), o.drawSalt.2)
  | .commit c message => answered .macText (o.commitText c message, o)
  | .commitAndClose c message => answered .macText (o.commitAndClose c message)
  | .close c => (.ok .done, o.close c)
  | .isClosed c => (.ok (.truth (o.isClosed c)), o)
  | .display c => (.ok (.text (o.shown c)), o)
  | .drawKeyText => (.ok (.keyText o.drawKeyText.1), o.drawKeyText.2)
  | .drawBytes size =>
    answered .bytes ((o.entropy.request size).1, { o with entropy := (o.entropy.request size).2 })
  | .readRequiredAge prefer => answered .age (o.settings.requiredAge prefer, o)
  | .setRequiredAge v => answered (fun _ => .done) (o.setRequiredAge v)
  | .setEnvironment ageText keyText =>
    (.ok .done, { o with settings := { o.settings with ageText, keyText } })
  | .engage c age => answered .notary (Notary.appoint c age o.settings, o)
  | .appoint key age => answered .notary (o.appoint key age)
  | .prove n today claim => answered .bundle (n.prove today claim o)
  | .proveMembership n today value validValues =>
    answered .bundle (n.proveMembership today value validValues o)
  | .verify n today proof salt claim => answered .truth (n.verify today proof salt claim o)
  | .verifyMembership n today proof salt value validValues =>
    answered .truth (n.verifyMembership today proof salt value validValues o)
  | .verifyCommitment n proof salt data =>
    answered .truth (n.verifyCommitment o proof salt data, o)
  | .verifyBatch n proofs datas salts => answered .truth (n.verifyBatch proofs datas salts o)

/-! ## Runs -/

/-- The office after a run. A refused act does not end it. -/
def after (o : Office) (acts : List Act) : Office := acts.foldl (fun o act => (o.perform act).2) o

@[simp]
theorem after_nil (o : Office) : o.after [] = o := rfl

@[simp]
theorem after_cons (o : Office) (act : Act) (acts : List Act) :
    o.after (act :: acts) = (o.perform act).2.after acts := rfl

theorem after_append (o : Office) (acts acts' : List Act) :
    o.after (acts ++ acts') = (o.after acts).after acts' := by
  simp [after]

/-- Acts up to the first that is refused, whose refusal is handed on. -/
def attempt (o : Office) : List Act → Except Refusal (List Answer) × Office
  | [] => (.ok [], o)
  | act :: acts =>
    match o.perform act with
    | (.error r, o) => (.error r, o)
    | (.ok answer, o) => ((o.attempt acts).1.map (answer :: ·), (o.attempt acts).2)

/-- Acts inside a block that closes a committer at its end, whatever came of them. -/
def within (o : Office) (c : Committer) (acts : List Act) :
    Except Refusal (List Answer) × Office :=
  ((o.attempt acts).1, (o.attempt acts).2.close c)

/-- An attempt goes through its acts up to some point. -/
theorem exists_after_of_attempt (o : Office) (acts : List Act) :
    ∃ performed omitted, acts = performed ++ omitted ∧
      (o.attempt acts).2 = o.after performed := by
  induction acts generalizing o with
  | nil => exact ⟨[], [], rfl, rfl⟩
  | cons act acts ih =>
    unfold attempt
    split
    · rename_i r o' hact
      exact ⟨[act], acts, rfl, by simp [hact]⟩
    · rename_i answer o' hact
      obtain ⟨performed, omitted, hacts, hafter⟩ := ih o'
      exact ⟨act :: performed, omitted, by simp [hacts], by simp [hact, hafter]⟩

/-- A block is a run too: the acts that came about, and the close. -/
theorem exists_after_of_within (o : Office) (c : Committer) (acts : List Act) :
    ∃ performed omitted, acts = performed ++ omitted ∧
      (o.within c acts).2 = o.after (performed ++ [.close c]) := by
  obtain ⟨performed, omitted, hacts, hafter⟩ := o.exists_after_of_attempt acts
  refine ⟨performed, omitted, hacts, ?_⟩
  rw [after_append, ← hafter]
  rfl

end Office

/-! ## What an act is about -/

/-- The key that a source brings with it; a held key is shared and no new one. -/
def KeySource.newKey? : KeySource → Option SecretKey
  | .value v => (SecretKey.ofForm v).toOption
  | .held _ => none

/-- How many random bytes it takes to issue a bundle for a claim, if it passes its screen and its
check. -/
def Claim.drawn? (today : Date) (claim : Claim) : Option ℕ :=
  if (claim.screen today).isOk && (claim.check today).isOk then some Limits.saltSize else none

namespace Act

/-- The key that an act makes. -/
def newKey? (s : Settings) : Act → Option SecretKey
  | .makeKey material => (SecretKey.ofMaterial material).toOption
  | .makeKeyOfText text => (SecretKey.ofBase64 text).toOption
  | .openCommitter source => source.newKey?
  | .appoint key _ => (s.key key).bind KeySource.newKey?
  | _ => none

/-- The key that an act closes. -/
def closed? : Act → Option ℕ
  | .close c => some c.key
  | .commitAndClose c _ => some c.key
  | _ => none

/-- The key that an act wipes, whether it closes a committer or not. -/
def wiped? : Act → Option ℕ
  | .wipe place => some place
  | .close c => some c.key
  | .commitAndClose c _ => some c.key
  | _ => none

/-- How many random bytes an act asks for, if any. -/
def drawn? : Act → Option ℕ
  | .drawSalt => some Limits.saltSize
  | .drawKeyText => some Limits.keySize
  | .drawBytes size => if size ≤ 0 then none else some size.toNat
  | .prove _ today claim => claim.drawn? today
  | .proveMembership _ today value validValues =>
    (Claim.readMembership value validValues).toOption.bind (·.drawn? today)
  | _ => none

/-- What is closed is wiped. -/
theorem wiped?_of_closed? {act : Act} {place : ℕ} (h : act.closed? = some place) :
    act.wiped? = some place := by
  cases act with
  | close c => exact h
  | commitAndClose c message => exact h
  | _ => cases h

end Act

/-! ## What an act does -/

namespace Office

/-- The office with some more entries, none of which tells of a wiped key. -/
inductive Noted (o : Office) : Office → Prop
  | intro (es : List Entry) (hes : .keyWiped ∉ es) :
      Noted o { o with journal := o.journal ++ es }

/-- The office with a key more, if there is one to take in. -/
def taking (o : Office) : Option SecretKey → Office
  | some k => { o with keys := (o.keys.add k).2 }
  | none => o

/-- What an act does, apart from its answer. It brings a key in, draws once, wipes a key, closes
a committer or changes the settings, and it may note something down about that. -/
inductive Effect (o : Office) (act : Act) : Office → Prop
  | taken {o' : Office} (hwiped : act.wiped? = none) (hdrawn : act.drawn? = none)
      (hnoted : Noted (o.taking (act.newKey? o.settings)) o') : Effect o act o'
  | drawn {size : ℕ} {o' : Office} (hnew : act.newKey? o.settings = none)
      (hwiped : act.wiped? = none) (hdrawn : act.drawn? = some size)
      (hnoted : Noted { o with entropy := (o.entropy.draw size).2 } o') : Effect o act o'
  | wiped {place : ℕ} (hnew : act.newKey? o.settings = none) (hdrawn : act.drawn? = none)
      (hclosed : act.closed? = none) (hwiped : act.wiped? = some place) :
      Effect o act (o.wipeKey place)
  | closed {c : Committer} (hnew : act.newKey? o.settings = none) (hdrawn : act.drawn? = none)
      (hclosed : act.closed? = some c.key) (hwiped : act.wiped? = some c.key) :
      Effect o act (o.close c)
  | set {settings : Settings} (hnew : act.newKey? o.settings = none) (hdrawn : act.drawn? = none)
      (hwiped : act.wiped? = none) : Effect o act { o with settings }

variable {o o' o'' : Office} {act : Act}

theorem noted_self (o : Office) : Noted o o := by
  simpa using Noted.intro (o := o) [] List.not_mem_nil

theorem noted_note (o : Office) (e : Entry) (h : e ≠ .keyWiped) : Noted o (o.note e) :=
  .intro [e] (by simpa using h.symm)

theorem Noted.trans (h : Noted o o') (h' : Noted o' o'') : Noted o o'' := by
  cases h with
  | intro es hes =>
    cases h' with
    | intro es' hes' =>
      simpa using Noted.intro (o := o) (es ++ es') (by simp [hes, hes'])

theorem Noted.taking (h : Noted o o') (k? : Option SecretKey) :
    Noted (o.taking k?) (o'.taking k?) := by
  cases h with
  | intro es hes =>
    cases k? with
    | none => exact .intro es hes
    | some k => exact .intro es hes

theorem keep_snd (o : Office) (k : Except KeyFault SecretKey) :
    (o.keep k).2 = o.taking k.toOption := by
  cases k <;> rfl

theorem noted_openCommitter (o : Office) (source : KeySource) :
    Noted (o.taking source.newKey?) (o.openCommitter source).2 := by
  unfold openCommitter
  cases source with
  | held place =>
    simp only
    split
    · exact noted_self o
    · exact o.noted_note .committerReady nofun
  | value v =>
    simp only [KeySource.newKey?]
    cases SecretKey.ofForm v with
    | error fault => exact noted_self o
    | ok k => exact (o.taking (some k)).noted_note .committerReady nofun

/-- A notary is appointed with the key of the committer that is opened for it. -/
theorem noted_appoint (o : Office) (key : KeySource) (age : Value) :
    Noted (o.taking ((o.settings.key key).bind KeySource.newKey?)) (o.appoint key age).2 := by
  unfold appoint
  cases o.settings.key key with
  | none => exact noted_self o
  | some found =>
    have htold : Noted o (if key.isAbsent then o.note .keyFromEnvironment else o) := by
      split
      · exact o.noted_note .keyFromEnvironment nofun
      · exact noted_self o
    have hopened := (htold.taking found.newKey?).trans (noted_openCommitter _ found)
    simp only [Option.bind_some]
    split
    · rename_i r o' hopen
      rwa [hopen] at hopened
    · rename_i c o' hopen
      rwa [hopen] at hopened

theorem noted_verify (n : Notary) (today : Date) (proof salt : Value) (claim : Claim)
    (o : Office) : Noted o (n.verify today proof salt claim o).2 := by
  unfold Notary.verify
  split
  · exact noted_self o
  · rename_i verdict hverdict
    cases verdict with
    | accepted => exact noted_self o
    | unusable => exact o.noted_note (.unusable claim.kind) nofun
    | invalid field => exact o.noted_note (.invalid claim.kind field) nofun
    | mismatched => exact o.noted_note (.mismatched claim.kind) nofun
    | lapsed => exact o.noted_note (.lapsed claim.kind) nofun

theorem noted_verifyMembership (n : Notary) (today : Date) (proof salt value validValues : Value)
    (o : Office) : Noted o (n.verifyMembership today proof salt value validValues o).2 := by
  unfold Notary.verifyMembership
  split
  · exact noted_self o
  · exact noted_verify n today proof salt _ o

theorem noted_verifyBatch (n : Notary) (proofs datas salts : Value) (o : Office) :
    Noted o (n.verifyBatch proofs datas salts o).2 := by
  unfold Notary.verifyBatch
  split
  · exact noted_self o
  split
  · exact noted_self o
  · exact o.noted_note .batchLengths nofun
  · rename_i size hsize
    split
    · exact o.noted_note (.batchSize size) nofun
    · split
      · exact noted_self o
      · exact noted_self o
      · rename_i index hindex
        exact o.noted_note (.batchItem index) nofun

/-- To issue a bundle for a claim draws a salt if the claim is one to be issued for, and does
nothing else but note it down. -/
theorem effect_prove (n : Notary) (today : Date) (claim : Claim) (o : Office) {act : Act}
    (hnew : act.newKey? o.settings = none) (hwiped : act.wiped? = none)
    (hdrawn : act.drawn? = claim.drawn? today) : Effect o act (n.prove today claim o).2 := by
  have hnone : Noted (o.taking (act.newKey? o.settings)) o := by
    rw [hnew]
    exact noted_self o
  cases hscreen : claim.screen today with
  | error r =>
    rw [Notary.prove_of_screen_error hscreen]
    refine .taken hwiped ?_ hnone
    simp [hdrawn, Claim.drawn?, hscreen, Except.isOk, Except.toBool]
  | ok _ =>
    cases hcheck : claim.check today with
    | error r =>
      rw [Notary.prove_of_check_error hscreen hcheck]
      refine .taken hwiped ?_ hnone
      simp [hdrawn, Claim.drawn?, hcheck, Except.isOk, Except.toBool]
    | ok _ =>
      have hsize : act.drawn? = some Limits.saltSize := by
        simp [hdrawn, Claim.drawn?, hscreen, hcheck, Except.isOk, Except.toBool]
      refine .drawn hnew hwiped hsize ?_
      unfold Notary.prove
      rw [hscreen, hcheck]
      simp only
      split
      · exact noted_self _
      · exact o.drawSalt.2.noted_note (.issued claim.kind) nofun

/-- Where the valid values cannot be read, nothing is drawn. -/
theorem effect_proveMembership (n : Notary) (today : Date) (value validValues : Value)
    (o : Office) : Effect o (.proveMembership n today value validValues)
      (n.proveMembership today value validValues o).2 := by
  unfold Notary.proveMembership
  cases hread : Claim.readMembership value validValues with
  | error r => exact .taken rfl (by rw [Act.drawn?, hread]; rfl) (noted_self o)
  | ok claim => exact effect_prove n today claim o rfl rfl (by rw [Act.drawn?, hread]; rfl)

/-- Every act has the one effect that it is about. -/
theorem effect_perform (o : Office) (act : Act) : Effect o act (o.perform act).2 := by
  cases act with
  | makeKey material =>
    refine .taken rfl rfl ?_
    rw [perform, answered, keep_snd]
    exact noted_self _
  | makeKeyOfText text =>
    refine .taken rfl rfl ?_
    rw [perform, answered, keep_snd]
    exact noted_self _
  | openCommitter source => exact .taken rfl rfl (o.noted_openCommitter source)
  | appoint key age => exact .taken rfl rfl (o.noted_appoint key age)
  | wipe place => exact .wiped rfl rfl rfl rfl
  | close c => exact .closed rfl rfl rfl rfl
  | commitAndClose c message => exact .closed rfl rfl rfl rfl
  | drawSalt => exact .drawn rfl rfl rfl (noted_self _)
  | drawKeyText => exact .drawn rfl rfl rfl (noted_self _)
  | drawBytes size =>
    by_cases hsize : size ≤ 0
    · refine .taken rfl (by simp [Act.drawn?, hsize]) ?_
      simp only [perform, answered, Entropy.request, hsize, if_true]
      exact noted_self o
    · have hdrawn : (Act.drawBytes size).drawn? = some size.toNat := by
        simp [Act.drawn?, hsize]
      refine .drawn rfl rfl hdrawn ?_
      simpa [perform, answered, Entropy.request, hsize] using noted_self _
  | setRequiredAge v => exact .set rfl rfl rfl
  | setEnvironment ageText keyText => exact .set rfl rfl rfl
  | prove n today claim => exact effect_prove n today claim o rfl rfl rfl
  | proveMembership n today value validValues =>
    exact effect_proveMembership n today value validValues o
  | verify n today proof salt claim =>
    exact .taken rfl rfl (noted_verify n today proof salt claim o)
  | verifyMembership n today proof salt value validValues =>
    exact .taken rfl rfl (noted_verifyMembership n today proof salt value validValues o)
  | verifyBatch n proofs datas salts =>
    exact .taken rfl rfl (noted_verifyBatch n proofs datas salts o)
  | _ => exact .taken rfl rfl (noted_self o)

/-! ## What follows from that -/

variable {place : ℕ}

theorem Noted.keys (h : Noted o o') : o'.keys = o.keys := by
  cases h
  rfl

theorem Noted.entropy (h : Noted o o') : o'.entropy = o.entropy := by
  cases h
  rfl

theorem Noted.settings (h : Noted o o') : o'.settings = o.settings := by
  cases h
  rfl

theorem Noted.count_keyWiped (h : Noted o o') :
    o'.journal.count .keyWiped = o.journal.count .keyWiped := by
  cases h with
  | intro es hes => simp [List.count_append, List.count_eq_zero.2 hes]

theorem keys_close (o : Office) (c : Committer) :
    (o.close c).keys = if o.isClosed c then o.keys else o.keys.wipe c.key := by
  unfold close
  split <;> rfl

theorem count_keyWiped_close (o : Office) (c : Committer) :
    (o.close c).journal.count .keyWiped =
      o.journal.count .keyWiped + if o.isClosed c then 0 else 1 := by
  unfold close
  split
  · rfl
  · simp [note, wipeKey]

/-- No place is ever given up. -/
theorem Effect.length_slots (h : Effect o act o') :
    o.keys.slots.length ≤ o'.keys.slots.length := by
  cases h with
  | taken hwiped hdrawn hnoted =>
    rw [hnoted.keys]
    cases act.newKey? o.settings with
    | none => exact Nat.le_refl _
    | some k => simp [Office.taking]
  | drawn hnew hwiped hdrawn hnoted => rw [hnoted.keys]
  | wiped hnew hdrawn hclosed hwiped => simp [wipeKey]
  | @closed c hnew hdrawn hclosed hwiped =>
    rw [keys_close]
    split <;> simp
  | set hnew hdrawn hwiped => exact Nat.le_refl _

/-- A key that is held stays as it is, unless the act wipes it. -/
theorem Effect.keyAt (h : Effect o act o') (hplace : place < o.keys.slots.length)
    (hcleared : (o.keyAt place).Cleared) : o'.keyAt place =
      if act.wiped? = some place then (o.keyAt place).wipe else o.keyAt place := by
  have hwipe : ∀ place', (o.keys.wipe place').find place =
      if some place' = some place then (o.keyAt place).wipe else o.keyAt place := by
    intro place'
    by_cases hsame : place' = place
    · subst hsame
      simp [Keyring.find_wipe, Office.keyAt]
    · simp [Keyring.find_wipe_of_ne hsame, hsame, Office.keyAt]
  cases h with
  | taken hwiped hdrawn hnoted =>
    rw [hwiped, Office.keyAt, hnoted.keys]
    cases act.newKey? o.settings with
    | none => rfl
    | some k => exact Keyring.find_add_of_lt hplace k
  | drawn hnew hwiped hdrawn hnoted =>
    rw [hwiped, Office.keyAt, hnoted.keys]
    rfl
  | wiped hnew hdrawn hclosed hwiped =>
    rw [hwiped]
    exact hwipe _
  | @closed c hnew hdrawn hcloses hwiped =>
    rw [hwiped, Office.keyAt, keys_close]
    split
    -- a close that comes too late does nothing, and there is nothing left to wipe
    · rename_i hclosed
      by_cases hsame : c.key = place
      · subst hsame
        rw [if_pos rfl, hcleared hclosed]
        rfl
      · simp [hsame, Office.keyAt]
    · exact hwipe _
  | set hnew hdrawn hwiped =>
    rw [hwiped]
    rfl

theorem Effect.cleared (h : Effect o act o') (hplace : place < o.keys.slots.length)
    (hcleared : (o.keyAt place).Cleared) : (o'.keyAt place).Cleared := by
  rw [h.keyAt hplace hcleared]
  split
  · exact SecretKey.cleared_wipe _
  · exact hcleared

theorem Effect.keys_of_newKey? {k : SecretKey} (h : Effect o act o')
    (hk : act.newKey? o.settings = some k) : o'.keys = (o.keys.add k).2 := by
  cases h with
  | taken hwiped hdrawn hnoted =>
    rw [hnoted.keys, hk]
    rfl
  | drawn hnew => simp [hk] at hnew
  | wiped hnew => simp [hk] at hnew
  | closed hnew => simp [hk] at hnew
  | set hnew => simp [hk] at hnew

/-- An act uses up one request if it draws, and none if it does not. -/
theorem Effect.entropy (h : Effect o act o') :
    o'.entropy = ⟨o.entropy.byte, o.entropy.drawn + if act.drawn?.isSome then 1 else 0⟩ := by
  cases h with
  | taken hwiped hdrawn hnoted =>
    rw [hnoted.entropy, hdrawn]
    cases act.newKey? o.settings <;> rfl
  | drawn hnew hwiped hdrawn hnoted =>
    rw [hnoted.entropy, hdrawn]
    rfl
  | wiped hnew hdrawn =>
    rw [hdrawn]
    rfl
  | @closed c hnew hdrawn =>
    rw [hdrawn]
    unfold close
    split <;> rfl
  | set hnew hdrawn =>
    rw [hdrawn]
    rfl

/-- That a key was wiped is noted by an act that closes it, and only while it is open. -/
theorem Effect.count_keyWiped (h : Effect o act o') :
    (act.closed? = none → o'.journal.count .keyWiped = o.journal.count .keyWiped) ∧
    ∀ place, act.closed? = some place → o'.journal.count .keyWiped =
      o.journal.count .keyWiped + if (o.keyAt place).wiped then 0 else 1 := by
  cases h with
  | taken hwiped hdrawn hnoted =>
    refine ⟨fun _ => ?_, fun place hclosed => ?_⟩
    · rw [hnoted.count_keyWiped]
      cases act.newKey? o.settings <;> rfl
    · simp [Act.wiped?_of_closed? hclosed] at hwiped
  | drawn hnew hwiped hdrawn hnoted =>
    refine ⟨fun _ => hnoted.count_keyWiped, fun place hclosed => ?_⟩
    simp [Act.wiped?_of_closed? hclosed] at hwiped
  | wiped hnew hdrawn hnone hwiped =>
    refine ⟨fun _ => rfl, fun place hclosed => ?_⟩
    simp [hclosed] at hnone
  | @closed c hnew hdrawn hsome hwiped =>
    refine ⟨fun hclosed => ?_, fun place hclosed => ?_⟩
    · simp [hclosed] at hsome
    · rw [hsome] at hclosed
      cases hclosed
      exact o.count_keyWiped_close c
  | set hnew hdrawn hwiped =>
    refine ⟨fun _ => rfl, fun place hclosed => ?_⟩
    simp [Act.wiped?_of_closed? hclosed] at hwiped

theorem length_slots_after (o : Office) (acts : List Act) :
    o.keys.slots.length ≤ (o.after acts).keys.slots.length := by
  induction acts generalizing o with
  | nil => exact Nat.le_refl _
  | cons act acts ih => exact Nat.le_trans (o.effect_perform act).length_slots (ih _)

end Office

end Attestation
