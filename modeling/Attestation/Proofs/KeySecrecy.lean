-- The law of what a key shows of itself. Two offices are twins if nothing but the bytes of their
-- keys and the key texts of their settings can tell them apart. Twins that go through the same
-- acts, each with its own keys, are seen to do the same: the hashes aside, every answer, refusal,
-- entry and shown key is one and the same in both.
import Attestation.Proofs.BundleTransport
import Attestation.Proofs.KeyLife
import Attestation.Proofs.Randomness

namespace Attestation

/-! ## Keys in one form -/

/-- A text of strict Base64 for the bytes of a key. -/
def IsKeyText (s : String) : Prop :=
  ∃ bs, Base64.decode s.toList = some bs ∧ bs.length = Limits.keySize

/-- Two values are the same, or they are keys in the same form. -/
inductive Value.KeyTwin : Value → Value → Prop
  | same (v : Value) : KeyTwin v v
  | bytes {bs bs' : List UInt8} : bs.length = Limits.keySize → bs'.length = Limits.keySize →
      KeyTwin (.bytes bs) (.bytes bs')
  | buffer {bs bs' : List UInt8} : bs.length = Limits.keySize → bs'.length = Limits.keySize →
      KeyTwin (.buffer bs) (.buffer bs')
  | text {s s' : String} : IsKeyText s → IsKeyText s' → KeyTwin (.text s) (.text s')

/-- Two sources bring keys in the same form, or share the key at one place. -/
inductive KeySource.Twin : KeySource → KeySource → Prop
  | value {v v' : Value} : v.KeyTwin v' → Twin (.value v) (.value v')
  | held (place : ℕ) : Twin (.held place) (.held place)

theorem IsKeyText.isEmpty_eq {s : String} (h : IsKeyText s) : s.isEmpty = false := by
  rw [String.isEmpty_eq_false_iff]
  rintro rfl
  obtain ⟨bs, hread, hsize⟩ := h
  cases hread
  cases hsize

theorem isKeyText_text {bs : List UInt8} (h : bs.length = Limits.keySize) :
    IsKeyText (Base64.text bs) :=
  ⟨bs, by rw [Base64.toList_text, Base64.decode_encode], h⟩

theorem isEmpty_eq_false_of_length {bs : List UInt8} (h : bs.length = Limits.keySize) :
    bs.isEmpty = false := by
  cases bs with
  | nil => cases h
  | cons b rest => rfl

theorem Value.KeyTwin.isVacant_eq {v v' : Value} (h : v.KeyTwin v') : v.isVacant = v'.isVacant := by
  cases h with
  | same v => rfl
  | bytes hsize hsize' | buffer hsize hsize' =>
    simp only [isVacant, isEmpty_eq_false_of_length hsize, isEmpty_eq_false_of_length hsize']
  | text hs hs' => simp only [isVacant, hs.isEmpty_eq, hs'.isEmpty_eq]

namespace SecretKey

variable {v v' : Value}

theorem map_wiped_ofBytes {bs : List UInt8} (h : bs.length = Limits.keySize) :
    (ofBytes bs).map wiped = .ok false := by
  simp [ofBytes, h, Except.map]

theorem map_wiped_ofBase64 {s : String} (h : IsKeyText s) :
    (ofBase64 (.text s)).map wiped = .ok false := by
  have hne := h.isEmpty_eq
  obtain ⟨bs, hread, hsize⟩ := h
  simp only [ofBase64, hne, hread]
  exact map_wiped_ofBytes hsize

/-- Of keys in one form either both are made or neither is, and for the same fault. -/
theorem map_wiped_ofForm_eq (h : v.KeyTwin v') :
    (ofForm v).map wiped = (ofForm v').map wiped := by
  cases h with
  | same v => rfl
  | bytes hsize hsize' | buffer hsize hsize' =>
    simp only [ofForm, map_wiped_ofBytes hsize, map_wiped_ofBytes hsize']
  | text hs hs' => simp only [ofForm, map_wiped_ofBase64 hs, map_wiped_ofBase64 hs']

theorem map_wiped_ofMaterial_eq (h : v.KeyTwin v') :
    (ofMaterial v).map wiped = (ofMaterial v').map wiped := by
  cases h with
  | same v => rfl
  | bytes hsize hsize' | buffer hsize hsize' =>
    simp only [ofMaterial, Value.bytes?, map_wiped_ofBytes hsize, map_wiped_ofBytes hsize']
  | text hs hs' => rfl

theorem map_wiped_ofBase64_eq (h : v.KeyTwin v') :
    (ofBase64 v).map wiped = (ofBase64 v').map wiped := by
  cases h with
  | same v => rfl
  | bytes hsize hsize' | buffer hsize hsize' => rfl
  | text hs hs' => rw [map_wiped_ofBase64 hs, map_wiped_ofBase64 hs']

/-- Whether a key is wiped is all that is shown of it. -/
theorem exists_shown_eq : ∃ label : Bool → String, shown = label ∘ wiped :=
  ⟨fun b => if b then "SecretKey(<wiped>)" else "SecretKey(<redacted>)", rfl⟩

end SecretKey

/-! ## Twins -/

/-- Two environments name the same key text or none, or they name keys. -/
def KeyTexts : Option Text → Option Text → Prop :=
  Option.Rel fun t t' => (Value.ofText t).KeyTwin (.ofText t')

/-- The settings differ in the text of a key at most. -/
structure Settings.Twin (s s' : Settings) : Prop where
  override : s.override = s'.override
  ageText : s.ageText = s'.ageText
  keyText : KeyTexts s.keyText s'.keyText

/-- The offices differ in the bytes of their keys and in the text of a key at most. -/
structure Office.Twin (o o' : Office) : Prop where
  wiped : o.keys.slots.map SecretKey.wiped = o'.keys.slots.map SecretKey.wiped
  entropy : o.entropy = o'.entropy
  settings : o.settings.Twin o'.settings
  journal : o.journal = o'.journal

/-- Two acts are the same and ask for no verification, or they bring in keys of the same form. -/
inductive Act.Twin : Act → Act → Prop
  | same {act : Act} : act.verifies = false → Twin act act
  | makeKey {v v' : Value} : v.KeyTwin v' → Twin (.makeKey v) (.makeKey v')
  | makeKeyOfText {v v' : Value} : v.KeyTwin v' → Twin (.makeKeyOfText v) (.makeKeyOfText v')
  | openCommitter {source source' : KeySource} : source.Twin source' →
      Twin (.openCommitter source) (.openCommitter source')
  | appoint {key key' : KeySource} (age : Value) : key.Twin key' →
      Twin (.appoint key age) (.appoint key' age)
  | setEnvironment (ageText : Option Text) {keyText keyText' : Option Text} :
      KeyTexts keyText keyText' →
        Twin (.setEnvironment ageText keyText) (.setEnvironment ageText keyText')

theorem KeyTexts.refl (keyText : Option Text) : KeyTexts keyText keyText := by
  cases keyText with
  | none => exact .none
  | some t => exact .some (.same _)

/-- An empty text is taken for none, and no key is one. -/
theorem KeyTexts.filter {keyText keyText' : Option Text} (h : KeyTexts keyText keyText') :
    KeyTexts (keyText.filter fun t => !t.isEmpty) (keyText'.filter fun t => !t.isEmpty) := by
  cases h with
  | none => exact .none
  | @some t t' htexts =>
    have hvacant : t.isEmpty = t'.isEmpty := by simpa using htexts.isVacant_eq
    simp only [Option.filter, hvacant]
    split
    · exact .some htexts
    · exact .none

theorem KeyTexts.rel_sources {keyText keyText' : Option Text} (h : KeyTexts keyText keyText') :
    Option.Rel KeySource.Twin (keyText.map fun t => .value (.ofText t))
      (keyText'.map fun t => .value (.ofText t)) := by
  cases h with
  | none => exact .none
  | some htexts => exact .some (.value htexts)

theorem KeySource.Twin.refl (key : KeySource) : key.Twin key := by
  cases key with
  | value v => exact .value (.same v)
  | held place => exact .held place

theorem KeySource.Twin.isVacant_eq {key key' : KeySource} (h : key.Twin key') :
    key.isVacant = key'.isVacant := by
  cases h with
  | value hv => exact hv.isVacant_eq
  | held place => rfl

theorem KeySource.Twin.isAbsent_eq {key key' : KeySource} (h : key.Twin key') :
    key.isAbsent = key'.isAbsent := by
  cases h with
  | value hv => cases hv <;> rfl
  | held place => rfl

namespace Settings.Twin

theorem refl (s : Settings) : s.Twin s := ⟨rfl, rfl, .refl s.keyText⟩

variable {s s' : Settings} {key key' : KeySource}

theorem requiredAge_eq (h : s.Twin s') (prefer : Value) :
    s.requiredAge prefer = s'.requiredAge prefer := by
  unfold Settings.requiredAge environmentAge
  rw [h.override, h.ageText]

/-- The keys that count are found in the same place and have the same form. -/
theorem rel_key (h : s.Twin s') (hkey : key.Twin key') :
    Option.Rel KeySource.Twin (s.key key) (s'.key key') := by
  unfold Settings.key
  rw [hkey.isVacant_eq]
  split
  · exact h.keyText.filter.rel_sources
  · exact .some hkey

theorem setOverride (h : s.Twin s') (v : Value) :
    (s.setOverride v).1 = (s'.setOverride v).1 ∧ (s.setOverride v).2.Twin (s'.setOverride v).2 := by
  unfold Settings.setOverride
  cases readAge v with
  | error r => exact ⟨rfl, h⟩
  | ok found => exact ⟨rfl, rfl, h.ageText, h.keyText⟩

end Settings.Twin

/-! ## What is seen -/

/-- Of a text nothing is seen but its length. -/
def veil (s : String) : String := String.ofList (List.replicate s.length '*')

/-- A bundle with its proof veiled. -/
def Bundle.veiled (b : Bundle) : Bundle :=
  match b.proof with
  | .text proof => { b with proof := .text (veil proof) }
  | _ => b

/-- An answer with the hashes in it veiled, be they bytes, texts or proofs. All else is seen. -/
def Answer.veiled : Answer → Answer
  | .mac bs => .mac (List.replicate bs.length 0)
  | .macText s => .macText (veil s)
  | .bundle b => .bundle b.veiled
  | a => a

/-- What is seen after an act: its answer or its refusal, all entries, and each key as it is
shown. -/
structure Sight where
  answer : Except Refusal Answer
  journal : List Entry
  keys : List String

namespace Office

/-- What is seen of a run, act by act. -/
def sights (o : Office) : List Act → List Sight
  | [] => []
  | act :: acts =>
    ⟨(o.perform act).1.map Answer.veiled, (o.perform act).2.journal,
      (o.perform act).2.keys.slots.map SecretKey.shown⟩ :: (o.perform act).2.sights acts

/-- Two operations come out alike: their answers are the same but for what is veiled, or they
have one refusal, and they leave twins behind. -/
structure ComeAlike {α β : Type} (veiled : α → β) (p p' : Except Refusal α × Office) : Prop where
  answer : p.1.map veiled = p'.1.map veiled
  office : p.2.Twin p'.2

variable {α β : Type} {o o' : Office}

/-- Where nothing is veiled there is one answer, and the offices behind it are twins. -/
theorem ComeAlike.exists_eq {p p' : Except Refusal α × Office} (h : ComeAlike id p p') :
    ∃ x o o', p = (x, o) ∧ p' = (x, o') ∧ o.Twin o' := by
  obtain ⟨x, o⟩ := p
  obtain ⟨x', o'⟩ := p'
  have hanswer := h.answer
  rw [Except.map_id, id, id] at hanswer
  cases hanswer
  exact ⟨x, o, o', rfl, rfl, h.office⟩

theorem ComeAlike.of_eq {x x' : Except Refusal α} (hx : x = x') (ho : o.Twin o') :
    ComeAlike id (x, o) (x', o') := ⟨congrArg (Except.map id) hx, ho⟩

theorem ComeAlike.told {a a' : Answer} (ha : a.veiled = a'.veiled) (ho : o.Twin o') :
    ComeAlike Answer.veiled (.ok a, o) (.ok a', o') := ⟨congrArg Except.ok ha, ho⟩

/-- What is veiled in an answer is what is veiled in the operation. -/
theorem ComeAlike.answered {veiled : α → β} {p p' : Except Refusal α × Office}
    (h : ComeAlike veiled p p') {f : α → Answer} {g : β → Answer}
    (hf : ∀ a, (f a).veiled = g (veiled a)) :
    ComeAlike Answer.veiled (answered f p) (answered f p') := by
  have hmap : ∀ x : Except Refusal α, (x.map f).map Answer.veiled = (x.map veiled).map g := by
    intro x
    cases x with
    | ok a => exact congrArg Except.ok (hf a)
    | error r => rfl
  refine ⟨?_, h.office⟩
  rw [Office.answered, Office.answered, hmap, hmap, h.answer]

/-! ## Twins at work -/

namespace Twin

theorem refl (o : Office) : o.Twin o := ⟨rfl, rfl, .refl o.settings, rfl⟩

theorem wiped_keyAt (h : o.Twin o') (place : ℕ) :
    (o.keyAt place).wiped = (o'.keyAt place).wiped := by
  have hslots : ∀ r : Keyring,
      (r.find place).wiped = (r.slots.map SecretKey.wiped).getD place true := by
    intro r
    unfold Keyring.find
    cases hslot : r.slots[place]? <;> simp [List.getD, hslot, SecretKey.absent]
  rw [keyAt, keyAt, hslots, hslots, h.wiped]

theorem isClosed_eq (h : o.Twin o') (c : Committer) : o.isClosed c = o'.isClosed c :=
  h.wiped_keyAt c.key

theorem shown_eq (h : o.Twin o') (c : Committer) : o.shown c = o'.shown c := by
  unfold Office.shown SecretKey.shown
  rw [h.wiped_keyAt c.key]

theorem map_shown_eq (h : o.Twin o') :
    o.keys.slots.map SecretKey.shown = o'.keys.slots.map SecretKey.shown := by
  obtain ⟨label, hlabel⟩ := SecretKey.exists_shown_eq
  rw [hlabel, ← List.map_map, h.wiped, List.map_map]

theorem note (h : o.Twin o') (e : Entry) : (o.note e).Twin (o'.note e) :=
  ⟨h.wiped, h.entropy, h.settings, congrArg (· ++ [e]) h.journal⟩

theorem wipeKey (h : o.Twin o') (place : ℕ) : (o.wipeKey place).Twin (o'.wipeKey place) := by
  have hslots : ∀ r : Keyring, (r.wipe place).slots.map SecretKey.wiped =
      (r.slots.map SecretKey.wiped).modify place fun _ => true := by
    intro r
    apply List.ext_getElem?
    intro i
    simp only [Keyring.wipe, List.getElem?_map, List.getElem?_modify]
    split
    · cases r.slots[i]? <;> rfl
    · cases r.slots[i]? <;> rfl
  refine ⟨?_, h.entropy, h.settings, h.journal⟩
  rw [Office.wipeKey, Office.wipeKey, hslots, hslots, h.wiped]

theorem close (h : o.Twin o') (c : Committer) : (o.close c).Twin (o'.close c) := by
  unfold Office.close
  rw [h.isClosed_eq c]
  split
  · exact h
  · exact (h.wipeKey c.key).note .keyWiped

theorem drawText (h : o.Twin o') (size : ℕ) :
    (o.drawText size).1 = (o'.drawText size).1 ∧ (o.drawText size).2.Twin (o'.drawText size).2 := by
  unfold Office.drawText
  rw [h.entropy]
  exact ⟨rfl, h.wiped, rfl, h.settings, h.journal⟩

/-! ## Keys -/

/-- Keys of one form find their way in alike. -/
theorem keep (h : o.Twin o') {k k' : Except KeyFault SecretKey}
    (hk : k.map SecretKey.wiped = k'.map SecretKey.wiped) :
    ComeAlike id (o.keep k) (o'.keep k') := by
  have hcount : o.keys.slots.length = o'.keys.slots.length := by
    simpa using congrArg List.length h.wiped
  cases k with
  | error fault =>
    cases k' with
    | error fault' =>
      cases hk
      exact .of_eq rfl h
    | ok k' => cases hk
  | ok k =>
    cases k' with
    | error fault' => cases hk
    | ok k' =>
      have hwiped : k.wiped = k'.wiped := Except.ok.inj hk
      refine .of_eq (by rw [hcount]) ⟨?_, h.entropy, h.settings, h.journal⟩
      simp [h.wiped, hwiped]

theorem openCommitter (h : o.Twin o') {source source' : KeySource} (hsource : source.Twin source') :
    ComeAlike id (o.openCommitter source) (o'.openCommitter source') := by
  unfold Office.openCommitter
  cases hsource with
  | held place =>
    simp only [h.wiped_keyAt place]
    split
    · exact .of_eq rfl h
    · exact .of_eq rfl (h.note .committerReady)
  | value hv =>
    obtain ⟨x, o₁, o₁', hkeep, hkeep', hafter⟩ :=
      (h.keep (SecretKey.map_wiped_ofForm_eq hv)).exists_eq
    simp only [hkeep, hkeep']
    cases x with
    | error r => exact .of_eq rfl hafter
    | ok place => exact .of_eq rfl (hafter.note .committerReady)

theorem engage_eq (h : o.Twin o') (c : Option Committer) (age : Value) :
    Notary.appoint c age o.settings = Notary.appoint c age o'.settings := by
  unfold Notary.appoint
  rw [h.settings.requiredAge_eq]

theorem appoint (h : o.Twin o') {key key' : KeySource} (hkey : key.Twin key') (age : Value) :
    ComeAlike id (o.appoint key age) (o'.appoint key' age) := by
  have htold : (if key.isAbsent then o.note .keyFromEnvironment else o).Twin
      (if key'.isAbsent then o'.note .keyFromEnvironment else o') := by
    rw [hkey.isAbsent_eq]
    split
    · exact h.note .keyFromEnvironment
    · exact h
  have hfound := h.settings.rel_key hkey
  unfold Office.appoint
  generalize o.settings.key key = found? at hfound
  generalize o'.settings.key key' = found?' at hfound
  cases hfound with
  | none => exact .of_eq rfl h
  | some hfound =>
    obtain ⟨x, o₁, o₁', hopen, hopen', hafter⟩ := (htold.openCommitter hfound).exists_eq
    simp only [hopen, hopen']
    cases x with
    | error r => exact .of_eq rfl hafter
    | ok c => exact .of_eq (hafter.engage_eq (some c) age) hafter

/-! ## Hashes -/

theorem keyMac (h : o.Twin o') (place : ℕ) (message : List UInt8) :
    ComeAlike (fun bs => List.replicate bs.length (0 : UInt8)) (o.keyMac place message, o)
      (o'.keyMac place message, o') := by
  refine ⟨?_, h⟩
  unfold Office.keyMac SecretKey.mac
  rw [h.wiped_keyAt place]
  split
  · rfl
  · simp [Except.mapError, Except.map, Hmac.mac_length]

theorem commitText (h : o.Twin o') (c : Committer) (message : Text) :
    (o.commitText c message).map veil = (o'.commitText c message).map veil := by
  cases message with
  | torn t => rfl
  | whole message =>
    simp only [Office.commitText]
    cases hclosed : o.isClosed c with
    | true => rw [commit_of_closed hclosed, commit_of_closed (h.isClosed_eq c ▸ hclosed)]
    | false =>
      rw [commit_of_open hclosed, commit_of_open (h.isClosed_eq c ▸ hclosed)]
      simp [Except.map, veil, Bundle.length_macText]

/-- A claim is proved alike, and only the proof of a bundle is another one. -/
theorem prove (h : o.Twin o') (n : Notary) (today : Date) (claim : Claim) :
    ComeAlike Bundle.veiled (n.prove today claim o) (n.prove today claim o') := by
  obtain ⟨hsalt, hdrawn⟩ := h.drawText Limits.saltSize
  cases hscreen : claim.screen today with
  | error r =>
    rw [Notary.prove_of_screen_error hscreen, Notary.prove_of_screen_error hscreen]
    exact ⟨rfl, h⟩
  | ok _ =>
    cases hcheck : claim.check today with
    | error r =>
      rw [Notary.prove_of_check_error hscreen hcheck, Notary.prove_of_check_error hscreen hcheck]
      exact ⟨rfl, h⟩
    | ok _ =>
      have hsame := h.isClosed_eq n.committer
      obtain ⟨t, hvalue⟩ := Claim.exists_canonical_of_screen hscreen
      by_cases hrefused : o.isClosed n.committer = true ∨ ∀ s, t ≠ .whole s
      · rw [Notary.prove_of_refused hrefused hscreen hcheck hvalue,
          Notary.prove_of_refused (hsame ▸ hrefused) hscreen hcheck hvalue]
        exact ⟨rfl, hdrawn⟩
      · simp only [not_or, Bool.not_eq_true, not_forall, not_not] at hrefused
        obtain ⟨hopen, value, rfl⟩ := hrefused
        rw [Notary.prove_of_check hopen hscreen hcheck hvalue,
          Notary.prove_of_check (hsame ▸ hopen) hscreen hcheck hvalue]
        refine ⟨congrArg Except.ok ?_, hdrawn.note (.issued claim.kind)⟩
        simp only [Bundle.veiled, Notary.bundleFor, veil, Bundle.length_macText]
        rw [Office.drawSalt, Office.drawSalt, hsalt]

theorem proveMembership (h : o.Twin o') (n : Notary) (today : Date) (value validValues : Value) :
    ComeAlike Bundle.veiled (n.proveMembership today value validValues o)
      (n.proveMembership today value validValues o') := by
  unfold Notary.proveMembership
  cases Claim.readMembership value validValues with
  | error r => exact ⟨rfl, h⟩
  | ok claim => exact h.prove n today claim

end Twin

/-! ## Acts and runs -/

/-- One act comes out alike for twins, unless it verifies. -/
theorem Twin.perform_self (h : o.Twin o') {act : Act} (hquiet : act.verifies = false) :
    ComeAlike Answer.veiled (o.perform act) (o'.perform act) := by
  cases act with
  | makeKey material => exact (h.keep rfl).answered fun _ => rfl
  | makeKeyOfText text => exact (h.keep rfl).answered fun _ => rfl
  | hash place message => exact (h.keyMac place message).answered fun _ => rfl
  | wipe place => exact ⟨rfl, h.wipeKey place⟩
  | openCommitter source => exact (h.openCommitter (.refl source)).answered fun _ => rfl
  | drawSalt =>
    obtain ⟨hsalt, hdrawn⟩ := h.drawText Limits.saltSize
    exact .told (congrArg Answer.salt hsalt) hdrawn
  | commit c message =>
    have hcommit : ComeAlike veil (o.commitText c message, o) (o'.commitText c message, o') :=
      ⟨h.commitText c message, h⟩
    exact hcommit.answered fun _ => rfl
  | commitAndClose c message =>
    have hcommit : ComeAlike veil (o.commitAndClose c message) (o'.commitAndClose c message) :=
      ⟨h.commitText c message, h.close c⟩
    exact hcommit.answered fun _ => rfl
  | close c => exact ⟨rfl, h.close c⟩
  | isClosed c => exact .told (congrArg Answer.truth (h.isClosed_eq c)) h
  | display c => exact .told (congrArg Answer.text (h.shown_eq c)) h
  | drawKeyText =>
    obtain ⟨htext, hdrawn⟩ := h.drawText Limits.keySize
    exact .told (congrArg Answer.keyText htext) hdrawn
  | drawBytes size =>
    have hbytes : (o.entropy.request size).1 = (o'.entropy.request size).1 := by rw [h.entropy]
    have hdrawn : ({ o with entropy := (o.entropy.request size).2 } : Office).Twin
        { o' with entropy := (o'.entropy.request size).2 } :=
      ⟨h.wiped, congrArg (fun e => (e.request size).2) h.entropy, h.settings, h.journal⟩
    exact (ComeAlike.of_eq hbytes hdrawn).answered fun _ => rfl
  | readRequiredAge prefer =>
    exact (ComeAlike.of_eq (h.settings.requiredAge_eq prefer) h).answered fun _ => rfl
  | setRequiredAge v =>
    obtain ⟨hanswer, hset⟩ := h.settings.setOverride v
    have hafter : (o.setRequiredAge v).2.Twin (o'.setRequiredAge v).2 :=
      ⟨h.wiped, h.entropy, hset, h.journal⟩
    exact (ComeAlike.of_eq hanswer hafter).answered (g := fun _ => .done) fun _ => rfl
  | setEnvironment ageText keyText =>
    exact ⟨rfl, h.wiped, h.entropy, ⟨h.settings.override, rfl, .refl keyText⟩, h.journal⟩
  | engage c age => exact (ComeAlike.of_eq (h.engage_eq c age) h).answered fun _ => rfl
  | appoint key age => exact (h.appoint (.refl key) age).answered fun _ => rfl
  | prove n today claim => exact (h.prove n today claim).answered fun _ => rfl
  | proveMembership n today value validValues =>
    exact (h.proveMembership n today value validValues).answered fun _ => rfl
  | verify | verifyMembership | verifyCommitment | verifyBatch => cases hquiet

/-- An act of twins, each with keys of its own, comes out alike. -/
theorem Twin.perform (h : o.Twin o') {act act' : Act} (hact : act.Twin act') :
    ComeAlike Answer.veiled (o.perform act) (o'.perform act') := by
  cases hact with
  | same hquiet => exact h.perform_self hquiet
  | makeKey hv => exact (h.keep (SecretKey.map_wiped_ofMaterial_eq hv)).answered fun _ => rfl
  | makeKeyOfText hv => exact (h.keep (SecretKey.map_wiped_ofBase64_eq hv)).answered fun _ => rfl
  | openCommitter hsource => exact (h.openCommitter hsource).answered fun _ => rfl
  | appoint age hkey => exact (h.appoint hkey age).answered fun _ => rfl
  | setEnvironment ageText htexts =>
    exact ⟨rfl, h.wiped, h.entropy, ⟨h.settings.override, rfl, htexts⟩, h.journal⟩

end Office

/-- Twins that go through the same acts, each with keys of its own, are seen to do the same, act by
act. They give the same answers but for the hashes in them, of which only the length is the same;
they are refused for the same cause, and their entries and their keys as shown are the same. So
no entry, refusal or shown key tells anything about the bytes of a key. -/
theorem only_hashes_depend_on_the_bytes_of_a_key {o o' : Office} {acts acts' : List Act}
    (hoffices : o.Twin o') (hacts : List.Forall₂ Act.Twin acts acts') :
    o.sights acts = o'.sights acts' := by
  induction hacts generalizing o o' with
  | nil => rfl
  | @cons act act' acts acts' hact _ ih =>
    obtain ⟨hanswer, hafter⟩ := hoffices.perform hact
    unfold Office.sights
    rw [hanswer, hafter.journal, hafter.map_shown_eq, ih hafter]

/-- One key brought in as text and as bytes, used, closed and used again, and another one in its
place: nothing that is seen tells which of the two it was. -/
theorem two_trial_keys_are_seen_to_do_the_same :
    let acts (key : List UInt8) : List Act :=
      [.openCommitter (.value (.text (Base64.text key))), .appoint (.value (.bytes key)) .none,
        .prove ⟨⟨2⟩, 18⟩ Date.trial (.membership (.text "gold") (.list [.text "gold"])),
        .commit ⟨1⟩ "gold", .display ⟨2⟩, .close ⟨2⟩,
        .prove ⟨⟨2⟩, 18⟩ Date.trial (.membership (.text "gold") (.list [.text "gold"]))]
    Office.trial.sights (acts (List.replicate 32 1)) =
      Office.trial.sights (acts (List.replicate 32 2)) := by
  intro acts
  have hone : (List.replicate 32 (1 : UInt8)).length = Limits.keySize := rfl
  have htwo : (List.replicate 32 (2 : UInt8)).length = Limits.keySize := rfl
  have hsame : ∀ act : Act, act.verifies = false → act.Twin act := fun _ => .same
  refine only_hashes_depend_on_the_bytes_of_a_key (.refl Office.trial) ?_
  refine .cons (.openCommitter (.value (.text (isKeyText_text hone) (isKeyText_text htwo)))) ?_
  refine .cons (.appoint .none (.value (.bytes hone htwo))) ?_
  exact .cons (hsame _ rfl) (.cons (hsame _ rfl) (.cons (hsame _ rfl) (.cons (hsame _ rfl)
    (.cons (hsame _ rfl) .nil))))

end Attestation
