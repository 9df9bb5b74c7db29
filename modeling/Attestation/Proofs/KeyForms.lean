-- The forms of a key. Bytes, a buffer, their Base64 text and a key that was made of either one
-- before: a committer that is opened with any of these hashes under the same 32 bytes. As text
-- there is one way only to write so many bytes, and whatever is written in another way is refused.
import Attestation.Proofs.Base64Language
import Attestation.Proofs.KeyLife
import Attestation.Proofs.KeySecrecy

namespace Attestation

/-! ## Keys as text -/

/-- A key as it is written: 43 characters of the alphabet, and one character of padding. -/
def WrittenAsKey (s : String) : Prop :=
  ∃ ds, s.toList = ds ++ ['='] ∧ ds.length = 43 ∧ ∀ c ∈ ds, c ∈ Base64.alphabet

/-- Of all the texts that are read, those with the bytes of a key are written in one way. -/
theorem isKeyText_iff {s : String} : IsKeyText s ↔ WrittenAsKey s := by
  unfold IsKeyText WrittenAsKey
  rw [Base64.exists_decode_iff]
  constructor
  · rintro ⟨ds, k, hs, hds, hpadded, hsize⟩
    have hlength : ds.length = 43 ∧ k = 1 := by
      unfold Base64.Padded at hpadded
      have hkey : Limits.keySize = 32 := rfl
      omega
    obtain ⟨hcount, rfl⟩ := hlength
    exact ⟨ds, hs, hcount, hds⟩
  · rintro ⟨ds, hs, hcount, hds⟩
    exact ⟨ds, 1, hs, hds, by rw [hcount]; decide, by rw [hcount]; rfl⟩

namespace SecretKey

variable {bs : List UInt8} {s : String}

theorem ofBytes_of_length (h : bs.length = Limits.keySize) : ofBytes bs = .ok ⟨bs, false, h⟩ :=
  dif_pos h

theorem ofBytes_of_length_ne (h : bs.length ≠ Limits.keySize) :
    ofBytes bs = .error (.wrongSize bs.length) := dif_neg h

theorem ofBase64_text (hfilled : s ≠ "") (hread : Base64.decode s.toList = some bs) :
    ofBase64 (.text s) = ofBytes bs := by
  have hnonempty : s.isEmpty = false := String.isEmpty_eq_false_iff.2 hfilled
  simp only [ofBase64, hnonempty, hread]
  rfl

theorem ofBase64_text_text (h : bs.length = Limits.keySize) :
    ofBase64 (.text (Base64.text bs)) = .ok ⟨bs, false, h⟩ := by
  have hread : Base64.decode (Base64.text bs).toList = some bs := by
    rw [Base64.toList_text, Base64.decode_encode]
  have hfilled := String.isEmpty_eq_false_iff.1 (isKeyText_text h).isEmpty_eq
  rw [ofBase64_text hfilled hread, ofBytes_of_length h]

/-- A text is a key just when it is written as one. -/
theorem exists_ofBase64_iff : (∃ k, ofBase64 (.text s) = .ok k) ↔ WrittenAsKey s := by
  rw [← isKeyText_iff]
  constructor
  · rintro ⟨k, hk⟩
    exact ⟨k.buffer, (formBytes?_of_ofBase64 hk).1, k.sized⟩
  · intro hkey
    have hfilled := String.isEmpty_eq_false_iff.1 hkey.isEmpty_eq
    obtain ⟨bs, hread, hsize⟩ := hkey
    exact ⟨_, (ofBase64_text hfilled hread).trans (ofBytes_of_length hsize)⟩

end SecretKey

/-! ## Opening a committer -/

/-- The forms that the bytes of a key may have. The last two are keys that are made first, of
bytes or of text. -/
inductive KeyForm where
  | bytes
  | buffer
  | text
  | held
  | heldOfText
  deriving DecidableEq, Repr

namespace Office

variable {o : Office} {v : Value}

/-- A committer for a key that is made just now. -/
def openMade (o : Office) (k : Except KeyFault SecretKey) : Except Refusal Committer × Office :=
  match o.keep k with
  | (.error r, o) => (.error r, o)
  | (.ok place, o) => o.openCommitter (.held place)

/-- A committer for some bytes, in one of the forms of a key. -/
def openForm (o : Office) (bs : List UInt8) : KeyForm → Except Refusal Committer × Office
  | .bytes => o.openCommitter (.value (.bytes bs))
  | .buffer => o.openCommitter (.value (.buffer bs))
  | .text => o.openCommitter (.value (.text (Base64.text bs)))
  | .held => o.openMade (SecretKey.ofMaterial (.bytes bs))
  | .heldOfText => o.openMade (SecretKey.ofBase64 (.text (Base64.text bs)))

/-- The office with a new key, and the note of a committer for it. -/
def welcoming (o : Office) (k : SecretKey) : Office := (o.taking (some k)).note .committerReady

theorem keyAt_welcoming (o : Office) (k : SecretKey) :
    (o.welcoming k).keyAt o.keys.slots.length = k := Keyring.find_add o.keys k

theorem openCommitter_of_ofForm {k : SecretKey} (h : SecretKey.ofForm v = .ok k) :
    o.openCommitter (.value v) = (.ok ⟨o.keys.slots.length⟩, o.welcoming k) := by
  simp only [openCommitter, h]
  rfl

theorem openCommitter_of_held {place : ℕ} (hopen : (o.keyAt place).wiped = false) :
    o.openCommitter (.held place) = (.ok ⟨place⟩, o.note .committerReady) := by
  simp [openCommitter, hopen]

theorem openMade_ok {k : SecretKey} (hopen : k.wiped = false) :
    o.openMade (.ok k) = (.ok ⟨o.keys.slots.length⟩, o.welcoming k) := by
  have hkey : (o.taking (some k)).keyAt o.keys.slots.length = k := Keyring.find_add o.keys k
  refine openCommitter_of_held (o := o.taking (some k)) ?_
  rw [hkey, hopen]

/-- Whatever the form, the same committer stands in the same office afterwards. -/
theorem openForm_eq {bs : List UInt8} (h : bs.length = Limits.keySize) (form : KeyForm) :
    o.openForm bs form = (.ok ⟨o.keys.slots.length⟩, o.welcoming ⟨bs, false, h⟩) := by
  have hbytes := SecretKey.ofBytes_of_length h
  have htext := SecretKey.ofBase64_text_text h
  cases form with
  | bytes => exact openCommitter_of_ofForm hbytes
  | buffer => exact openCommitter_of_ofForm hbytes
  | text => exact openCommitter_of_ofForm htext
  | held =>
    have hmaterial : SecretKey.ofMaterial (.bytes bs) = .ok ⟨bs, false, h⟩ := hbytes
    rw [openForm, hmaterial]
    exact openMade_ok rfl
  | heldOfText =>
    rw [openForm, htext]
    exact openMade_ok rfl

theorem commit_after_welcoming {k : SecretKey} (hopen : k.wiped = false) {acts : List Act}
    (hkept : wipedBy o.keys.slots.length acts = false) (message : String) :
    ((o.welcoming k).after acts).commit ⟨o.keys.slots.length⟩ message =
      .ok (macText k.buffer message) := by
  have hkey := o.keyAt_welcoming k
  have hheld : o.keys.slots.length < (o.welcoming k).keys.slots.length := by
    simp [welcoming, note, taking]
  rw [← hkey] at hopen
  have hcommit := (lives_after acts hheld hopen).commit ⟨o.keys.slots.length⟩ message rfl
  rwa [hkept, hkey] at hcommit

/-! ## What is no key -/

/-- The answer is the fault of a key, and the office is left as it was. -/
def RefusesKey {α : Type} (o : Office) (p : Except Refusal α × Office) : Prop :=
  ∃ fault, p = (.error (.key fault), o)

/-- A fault is found before anything is done. -/
theorem refusesKey_of_fault {k : Except KeyFault SecretKey} {fault : KeyFault}
    (h : k = .error fault) : o.RefusesKey (o.keep k) :=
  ⟨fault, by rw [h]; rfl⟩

theorem refusesKey_openCommitter {fault : KeyFault} (h : SecretKey.ofForm v = .error fault) :
    o.RefusesKey (o.openCommitter (.value v)) := by
  refine ⟨fault, ?_⟩
  simp only [openCommitter, h]
  rfl

end Office

/-! ## One key in many forms -/

/-- Whatever form the 32 bytes of a key come in, a committer is opened for them. Until its key is
wiped it makes the same proof texts for all forms, 44 characters of strict Base64 with 32 bytes
in them. A text that the office draws for a key is one. Bytes of any other count are refused, and
a text is refused just when it is not 43 characters of the alphabet and one of padding, and a torn
one at any rate. A refusal is a fault of the key, and it changes nothing. -/
theorem a_key_is_the_same_in_every_form (o : Office) :
    (∀ bs, bs.length = 32 → ∀ form, ∃ c o', o.openForm bs form = (.ok c, o') ∧
      ∀ acts, Office.wipedBy c.key acts = false → ∀ message,
        (o'.after acts).commit c message = .ok (macText bs message)) ∧
    (∀ bs message, (macText bs message).length = 44 ∧
      ∃ mac, Base64.decode (macText bs message).toList = some mac ∧ mac.length = 32) ∧
    (∀ o' : Office, (∃ c, (o'.openCommitter (.value (.text o.drawKeyText.1))).1 = .ok c) ∧
      ∃ place, (o'.keep (SecretKey.ofBase64 (.text o.drawKeyText.1))).1 = .ok place) ∧
    (∀ bs, bs.length ≠ 32 → ∀ v, v = .bytes bs ∨ v = .buffer bs →
      o.RefusesKey (o.openCommitter (.value v)) ∧ o.RefusesKey (o.keep (SecretKey.ofMaterial v))) ∧
    (∀ s, (WrittenAsKey s → (∃ c, (o.openCommitter (.value (.text s))).1 = .ok c) ∧
        ∃ place, (o.keep (SecretKey.ofBase64 (.text s))).1 = .ok place) ∧
      (¬ WrittenAsKey s → o.RefusesKey (o.openCommitter (.value (.text s))) ∧
        o.RefusesKey (o.keep (SecretKey.ofBase64 (.text s))))) ∧
    (∀ t, o.RefusesKey (o.openCommitter (.value (.torn t))) ∧
      o.RefusesKey (o.keep (SecretKey.ofBase64 (.torn t)))) ∧
    ∀ fault, (Refusal.key fault).name = "KeyFormatError" := by
  -- a text that is written as a key opens a committer, and is kept as a key
  have htaken : ∀ (o' : Office) {s : String}, WrittenAsKey s →
      (∃ c, (o'.openCommitter (.value (.text s))).1 = .ok c) ∧
        ∃ place, (o'.keep (SecretKey.ofBase64 (.text s))).1 = .ok place := by
    intro o' s hs
    obtain ⟨k, hk⟩ := SecretKey.exists_ofBase64_iff.2 hs
    refine ⟨⟨⟨o'.keys.slots.length⟩, ?_⟩, ⟨o'.keys.slots.length, ?_⟩⟩
    · rw [Office.openCommitter_of_ofForm (v := .text s) hk]
    · rw [hk]
      rfl
  refine ⟨?_, ?_, ?_, ?_, ?_, ?_, fun _ => rfl⟩
  · intro bs hsize form
    refine ⟨_, _, o.openForm_eq hsize form, fun acts hkept message => ?_⟩
    exact Office.commit_after_welcoming rfl hkept message
  · intro bs message
    refine ⟨Bundle.length_macText bs message, Hmac.mac bs (Utf8.ofString message), ?_,
      Hmac.mac_length _ _⟩
    unfold macText
    rw [Base64.toList_text, Base64.decode_encode]
  · intro o'
    exact htaken o' (isKeyText_iff.1 (isKeyText_text (Entropy.block_length _ _ _)))
  · rintro bs hsize v (rfl | rfl)
    · have hfault := SecretKey.ofBytes_of_length_ne hsize
      exact ⟨Office.refusesKey_openCommitter hfault, Office.refusesKey_of_fault hfault⟩
    · have hfault := SecretKey.ofBytes_of_length_ne hsize
      exact ⟨Office.refusesKey_openCommitter hfault, Office.refusesKey_of_fault hfault⟩
  · intro s
    refine ⟨htaken o, fun hs => ?_⟩
    cases hkey : SecretKey.ofBase64 (.text s) with
    | ok k => exact absurd (SecretKey.exists_ofBase64_iff.1 ⟨k, hkey⟩) hs
    | error fault =>
      exact ⟨Office.refusesKey_openCommitter hkey, Office.refusesKey_of_fault rfl⟩
  · intro t
    exact ⟨Office.refusesKey_openCommitter rfl, Office.refusesKey_of_fault rfl⟩

/-- A key that is made of its text first makes the proof that its bytes make. A text of A's and
one character of padding is taken as a key, and without the padding it is not. -/
theorem a_trial_key_is_the_same_in_text :
    let letters := List.replicate 43 'A'
    (∃ c o', Office.trial.openForm (List.replicate 32 9) .heldOfText = (.ok c, o') ∧
      o'.commit c "gold" = .ok (macText (List.replicate 32 9) "gold")) ∧
    (∃ c, (Office.trial.openCommitter (.value (.text (String.ofList (letters ++ ['=']))))).1 =
      .ok c) ∧
    Office.trial.RefusesKey
      (Office.trial.openCommitter (.value (.text (String.ofList letters)))) := by
  intro letters
  obtain ⟨hforms, _, _, _, htexts, _⟩ := a_key_is_the_same_in_every_form Office.trial
  refine ⟨?_, ?_, ?_⟩
  · obtain ⟨c, o', hopened, hcommits⟩ := hforms (List.replicate 32 9) rfl .heldOfText
    exact ⟨c, o', hopened, hcommits [] rfl "gold"⟩
  · have hletter : 'A' ∈ Base64.alphabet := by decide +kernel
    apply ((htexts _).1 ?_).1
    refine ⟨letters, String.toList_ofList, rfl, fun c hc => ?_⟩
    rw [List.eq_of_mem_replicate hc]
    exact hletter
  · apply ((htexts _).2 ?_).1
    rintro ⟨ds, hs, hcount, _⟩
    have hlength := congrArg List.length hs
    rw [String.toList_ofList, List.length_append, hcount] at hlength
    cases hlength

end Attestation
