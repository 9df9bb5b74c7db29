-- The law of where a notary's key comes from. What a caller hands in counts, unless it is blank,
-- and the environment's key counts otherwise. Two tests ask whether the caller handed in a key:
-- one finds the key, for which an empty text is none, and one writes the journal, for which an
-- empty text is a key like any other. So with an empty text the environment's key is taken, and
-- the journal does not tell.
import Attestation.Proofs.AgeSetting
import Attestation.Proofs.KeyForms

namespace Attestation

/-! ## What is handed in -/

namespace KeySource

/-- What a caller may hand in: nothing, a text, bytes that may change or not, or a held key. -/
inductive IsArgument : KeySource → Prop
  | nothing : IsArgument (.value .none)
  | text (t : Text) : IsArgument (.value (.ofText t))
  | bytes {v : Value} {bs : List UInt8} (hbytes : v.bytes? = some bs) : IsArgument (.value v)
  | held (place : ℕ) : IsArgument (.held place)

/-- A text without characters, or no bytes at all. -/
def IsEmpty (key : KeySource) : Prop :=
  key = .value (.text "") ∨ ∃ v, key = .value v ∧ v.bytes? = some []

def IsBlank (key : KeySource) : Prop := key = .value .none ∨ key.IsEmpty

variable {key : KeySource}

theorem not_isEmpty_none : ¬ IsEmpty (.value .none) := by
  rintro (⟨⟨⟩⟩ | ⟨v, ⟨⟩, hbytes⟩)
  cases hbytes

theorem not_isBlank_held (place : ℕ) : ¬ IsBlank (.held place) := by
  rintro (⟨⟨⟩⟩ | ⟨⟨⟩⟩ | ⟨v, ⟨⟩, _⟩)

theorem isBlank_text_iff {t : Text} : IsBlank (.value (.ofText t)) ↔ t = .whole "" := by
  constructor
  · cases t <;> rintro (⟨⟨⟩⟩ | ⟨⟨⟩⟩ | ⟨v, ⟨⟩, ⟨⟩⟩)
    rfl
  · rintro rfl
    exact Or.inr (Or.inl rfl)

theorem isBlank_iff_of_bytes? {v : Value} {bs : List UInt8} (hbytes : v.bytes? = some bs) :
    IsBlank (.value v) ↔ bs = [] := by
  constructor
  · rintro (⟨⟨⟩⟩ | ⟨⟨⟩⟩ | ⟨w, ⟨⟩, hempty⟩)
    · cases hbytes
    · cases hbytes
    · exact Option.some.inj (hbytes.symm.trans hempty)
  · rintro rfl
    exact Or.inr (Or.inr ⟨v, rfl, hbytes⟩)

/-- Of the arguments the blank ones are those that cannot be a key. -/
theorem isVacant_iff (hargument : key.IsArgument) : key.isVacant = true ↔ key.IsBlank := by
  cases hargument with
  | nothing => exact iff_of_true rfl (Or.inl rfl)
  | text t =>
    rw [isBlank_text_iff, isVacant, Value.isVacant_ofText, Text.isEmpty_iff]
  | @bytes v bs hbytes =>
    rw [isBlank_iff_of_bytes? hbytes]
    cases v with
    | bytes _ =>
      cases hbytes
      exact List.isEmpty_iff
    | buffer _ =>
      cases hbytes
      exact List.isEmpty_iff
    | _ => cases hbytes
  | held place => exact iff_of_false Bool.false_ne_true (not_isBlank_held place)

theorem isAbsent_iff : key.isAbsent = true ↔ key = .value .none := by
  unfold isAbsent
  split
  · exact iff_of_true rfl rfl
  · rename_i hpresent
    exact iff_of_false Bool.false_ne_true hpresent

/-- A source offers the 32 bytes of a key: it is a form of them, or the place of a key with them
that was not wiped. -/
inductive Offers (keys : Keyring) : KeySource → List UInt8 → Prop
  | form {v : Value} {bs : List UInt8} (hform : SecretKey.formBytes? v = some bs)
      (hsize : bs.length = Limits.keySize) : Offers keys (.value v) bs
  | held {place : ℕ} (hopen : (keys.find place).wiped = false) :
      Offers keys (.held place) (keys.find place).buffer

end KeySource

/-- What is read as 32 bytes is a key. -/
theorem SecretKey.ofForm_of_formBytes? {v : Value} {bs : List UInt8}
    (hform : formBytes? v = some bs) (hsize : bs.length = Limits.keySize) :
    ofForm v = .ok ⟨bs, false, hsize⟩ := by
  cases v with
  | text s =>
    have hfilled := String.isEmpty_eq_false_iff.1 (IsKeyText.isEmpty_eq ⟨bs, hform, hsize⟩)
    exact (ofBase64_text hfilled hform).trans (ofBytes_of_length hsize)
  | bytes _ =>
    cases hform
    exact ofBytes_of_length hsize
  | buffer _ =>
    cases hform
    exact ofBytes_of_length hsize
  | _ => cases hform

/-! ## The key that counts -/

namespace Settings

variable {s : Settings} {key : KeySource} {t : Text}

/-- The key is taken from the environment: what was handed in is blank, and the environment has a
text that is not. -/
def TakesEnvironment (s : Settings) (key : KeySource) : Prop :=
  key.IsBlank ∧ ∃ t, s.keyText = some t ∧ t ≠ .whole ""

theorem environmentKey_eq_some_iff :
    s.environmentKey = some t ↔ s.keyText = some t ∧ t ≠ .whole "" := by
  simp [environmentKey, Option.filter_eq_some_iff, ← Text.isEmpty_iff]

theorem key_of_not_isBlank (hargument : key.IsArgument) (hfilled : ¬ key.IsBlank) :
    s.key key = some key := by
  rw [← KeySource.isVacant_iff hargument] at hfilled
  exact if_neg hfilled

theorem key_of_isBlank (hargument : key.IsArgument) (hblank : key.IsBlank) :
    s.key key = s.environmentKey.map fun t => .value (.ofText t) :=
  if_pos ((KeySource.isVacant_iff hargument).2 hblank)

theorem key_of_environment (hargument : key.IsArgument) (hblank : key.IsBlank)
    (htext : s.keyText = some t) (hfilled : t ≠ .whole "") :
    s.key key = some (.value (.ofText t)) := by
  rw [key_of_isBlank hargument hblank, environmentKey_eq_some_iff.2 ⟨htext, hfilled⟩]
  rfl

/-- No key is found just when neither the caller nor the environment has one. -/
theorem key_eq_none_iff (hargument : key.IsArgument) :
    s.key key = none ↔ key.IsBlank ∧ ∀ t, s.keyText = some t → t = .whole "" := by
  by_cases hblank : key.IsBlank
  · rw [key_of_isBlank hargument hblank, Option.map_eq_none_iff, Option.eq_none_iff_forall_ne_some]
    simp [environmentKey_eq_some_iff, hblank]
  · rw [key_of_not_isBlank hargument hblank]
    exact iff_of_false nofun fun h => hblank h.1

theorem takesEnvironment_iff (hargument : key.IsArgument) :
    s.TakesEnvironment key ↔ key.IsBlank ∧ s.key key ≠ none := by
  rw [TakesEnvironment, ne_eq, key_eq_none_iff hargument]
  constructor
  · rintro ⟨hblank, t, htext, hfilled⟩
    exact ⟨hblank, fun hnone => hfilled (hnone.2 t htext)⟩
  · rintro ⟨hblank, hsome⟩
    refine ⟨hblank, ?_⟩
    by_contra hno
    exact hsome ⟨hblank, fun t htext => by_contra fun hfilled => hno ⟨t, htext, hfilled⟩⟩

theorem name_of_requiredAge_error {age : Value} {r : Refusal} (h : s.requiredAge age = .error r) :
    r.name = "ValueError" := by
  obtain ⟨v, _, _, rfl⟩ := ((s.followsSources age).refused r).1 h
  exact name_ageRefusal v

end Settings

namespace Office

variable {o : Office} {key source : KeySource} {age : Value} {bs : List UInt8}

/-! ## A committer for a source -/

/-- The committer of a source that offers a key commits under its bytes, and one entry tells of
it. -/
theorem openCommitter_of_offers (hoffers : source.Offers o.keys bs) :
    ∃ c o', o.openCommitter source = (.ok c, o') ∧ o'.settings = o.settings ∧
      o'.journal = o.journal ++ [.committerReady] ∧
      ∀ message, o'.commit c message = .ok (macText bs message) := by
  cases hoffers with
  | form hform hsize =>
    have hkey := o.keyAt_welcoming ⟨bs, false, hsize⟩
    have hmade := SecretKey.ofForm_of_formBytes? hform hsize
    refine ⟨_, _, openCommitter_of_ofForm hmade, rfl, rfl, ?_⟩
    intro message
    rw [commit_of_open, keyBytes, hkey]
    rw [isClosed, hkey]
  | held hopen =>
    refine ⟨_, _, openCommitter_of_held hopen, rfl, rfl, ?_⟩
    intro message
    exact commit_of_open (o := o.note .committerReady) hopen message

theorem openCommitter_of_not_offers (hnone : ∀ bs, ¬ source.Offers o.keys bs) :
    o.RefusesKey (o.openCommitter source) := by
  cases source with
  | held place =>
    refine ⟨.wiped, if_pos ?_⟩
    by_contra hopen
    exact hnone _ (.held (Bool.eq_false_iff.2 hopen))
  | value v =>
    cases hform : SecretKey.ofForm v with
    | error fault => exact refusesKey_openCommitter hform
    | ok k => exact absurd (.form (SecretKey.formBytes?_of_ofForm hform).1 k.sized) (hnone _)

/-! ## The appointment -/

/-- The office after its note of where the key comes from, of which there is one only if nothing was
handed in. -/
def noteSource (o : Office) (key : KeySource) : Office :=
  if key.isAbsent then o.note .keyFromEnvironment else o

theorem keys_noteSource (o : Office) (key : KeySource) : (o.noteSource key).keys = o.keys := by
  unfold noteSource
  split <;> rfl

theorem settings_noteSource (o : Office) (key : KeySource) :
    (o.noteSource key).settings = o.settings := by
  unfold noteSource
  split <;> rfl

theorem exists_journal_noteSource (o : Office) (key : KeySource) :
    ∃ added, (o.noteSource key).journal = o.journal ++ added ∧
      ∀ e, e ∈ added ↔ e = .keyFromEnvironment ∧ key = .value .none := by
  unfold noteSource
  by_cases habsent : key.isAbsent = true
  · rw [if_pos habsent]
    exact ⟨[.keyFromEnvironment], rfl, by simp [KeySource.isAbsent_iff.1 habsent]⟩
  · rw [if_neg habsent]
    exact ⟨[], (List.append_nil _).symm, by simp [mt KeySource.isAbsent_iff.2 habsent]⟩

theorem appoint_of_offers (h : o.settings.key key = some source)
    (hoffers : source.Offers o.keys bs) (age : Value) :
    ∃ c o', o.appoint key age = ((o.settings.requiredAge age).map fun years => ⟨c, years⟩, o') ∧
      o'.journal = (o.noteSource key).journal ++ [.committerReady] ∧
      ∀ message, o'.commit c message = .ok (macText bs message) := by
  rw [← o.keys_noteSource key] at hoffers
  obtain ⟨c, o', hopened, hsettings, hjournal, hcommits⟩ := openCommitter_of_offers hoffers
  rw [settings_noteSource] at hsettings
  refine ⟨c, o', ?_, hjournal, hcommits⟩
  unfold noteSource at hopened
  simp [appoint, h, hopened, hsettings, Notary.appoint]

theorem appoint_of_not_offers (h : o.settings.key key = some source)
    (hnone : ∀ bs, ¬ source.Offers o.keys bs) (age : Value) :
    ∃ fault, o.appoint key age = (.error (.key fault), o.noteSource key) := by
  rw [← o.keys_noteSource key] at hnone
  obtain ⟨fault, hrefused⟩ := openCommitter_of_not_offers hnone
  refine ⟨fault, ?_⟩
  unfold noteSource at hrefused ⊢
  simp [appoint, h, hrefused]

/-- All ways that an appointment may end: there is no key, or the key that was found is none, or
a committer stands, and the age decides. -/
theorem appoint_cases (o : Office) (key : KeySource) (age : Value) :
    (o.settings.key key = none ∧ o.appoint key age = (.error (.setup .noKey), o)) ∨
    (o.settings.key key ≠ none ∧
      ∃ fault, o.appoint key age = (.error (.key fault), o.noteSource key)) ∨
    (o.settings.key key ≠ none ∧ ∃ c o',
      o.appoint key age = ((o.settings.requiredAge age).map fun years => ⟨c, years⟩, o') ∧
      o'.journal = (o.noteSource key).journal ++ [.committerReady]) := by
  cases h : o.settings.key key with
  | none => exact Or.inl ⟨rfl, by simp [appoint, h]⟩
  | some source =>
    right
    by_cases hnone : ∀ bs, ¬ source.Offers o.keys bs
    · exact Or.inl ⟨nofun, appoint_of_not_offers h hnone age⟩
    · obtain ⟨bs, hoffers⟩ := not_forall_not.1 hnone
      obtain ⟨c, o', happointed, hjournal, _⟩ := appoint_of_offers h hoffers age
      exact Or.inr ⟨nofun, c, o', happointed, hjournal⟩

/-- How a notary is appointed under a source. It commits under the bytes of the source, and asks
for the age of the settings. A source that offers no key is refused, and so is an age that the
settings refuse. -/
structure AppointsUnder (o : Office) (key source : KeySource) (age : Value) : Prop where
  appointed : ∀ bs years, source.Offers o.keys bs → o.settings.requiredAge age = .ok years →
    ∃ c o', o.appoint key age = (.ok ⟨c, years⟩, o') ∧
      ∀ message, o'.commit c message = .ok (macText bs message)
  badKey : (∀ bs, ¬ source.Offers o.keys bs) →
    ∃ r, (o.appoint key age).1 = .error r ∧ r.name = "KeyFormatError"
  badAge : ∀ bs r, source.Offers o.keys bs → o.settings.requiredAge age = .error r →
    (o.appoint key age).1 = .error r ∧ r.name = "ValueError"

theorem appointsUnder (h : o.settings.key key = some source) : o.AppointsUnder key source age where
  appointed := by
    intro bs years hoffers hyears
    obtain ⟨c, o', happointed, _, hcommits⟩ := appoint_of_offers h hoffers age
    rw [hyears] at happointed
    exact ⟨c, o', happointed, hcommits⟩
  badKey := by
    intro hnone
    obtain ⟨fault, hrefused⟩ := appoint_of_not_offers h hnone age
    exact ⟨.key fault, congrArg Prod.fst hrefused, rfl⟩
  badAge := by
    intro bs r hoffers hage
    obtain ⟨c, o', happointed, _⟩ := appoint_of_offers h hoffers age
    rw [hage] at happointed
    exact ⟨congrArg Prod.fst happointed, Settings.name_of_requiredAge_error hage⟩

/-- Only the want of a key is a fault of the setup. -/
theorem appoint_eq_setup_iff :
    (∃ r, (o.appoint key age).1 = .error r ∧ r.name = "ConfigurationError") ↔
      o.settings.key key = none := by
  constructor
  · rintro ⟨r, hr, hname⟩
    rcases o.appoint_cases key age with
      ⟨hnone, _⟩ | ⟨_, fault, hrefused⟩ | ⟨_, c, o', happointed, _⟩
    · exact hnone
    · rw [hrefused] at hr
      cases hr
      have hsame : "KeyFormatError" = "ConfigurationError" := hname
      exact absurd hsame (by decide)
    · rw [happointed] at hr
      have hvalue := Settings.name_of_requiredAge_error (map_eq_error_iff.1 hr)
      rw [hvalue] at hname
      exact absurd hname (by decide)
  · intro hnone
    exact ⟨.setup .noKey, by simp [appoint, hnone], rfl⟩

/-- An appointment tells of the environment's key when nothing was handed in and a key was found.
The only other entry is that of a committer. -/
theorem exists_journal_appoint (o : Office) (key : KeySource) (age : Value) :
    ∃ added, (o.appoint key age).2.journal = o.journal ++ added ∧
      ("Using HMAC key from ZKP_HMAC_KEY" ∈ added.map Entry.message ↔
        key = .value .none ∧ o.settings.key key ≠ none) := by
  obtain ⟨first, hnoted, hfirst⟩ := o.exists_journal_noteSource key
  have hmessage : "Using HMAC key from ZKP_HMAC_KEY" ∈ first.map Entry.message ↔
      key = .value .none := by
    rw [List.mem_map]
    constructor
    · rintro ⟨e, he, _⟩
      exact ((hfirst e).1 he).2
    · intro habsent
      exact ⟨.keyFromEnvironment, (hfirst _).2 ⟨rfl, habsent⟩, rfl⟩
  rcases o.appoint_cases key age with
    ⟨hnone, hrefused⟩ | ⟨hfound, fault, hrefused⟩ | ⟨hfound, c, o', happointed, hjournal⟩
  · exact ⟨[], by rw [hrefused, List.append_nil], by simp [hnone]⟩
  · exact ⟨first, by rw [hrefused, hnoted], hmessage.trans (and_iff_left hfound).symm⟩
  · have hready : "Using HMAC key from ZKP_HMAC_KEY" ∉ [Entry.committerReady.message] := by
      decide
    refine ⟨first ++ [.committerReady], ?_, ?_⟩
    · rw [happointed, hjournal, hnoted, List.append_assoc]
    · rw [List.map_append, List.mem_append, hmessage, and_iff_left hfound]
      exact or_iff_left hready

/-! ## The first source -/

/-- A notary works under the key that the caller hands in, unless it is blank, and else under that
of the environment, unless it is empty too. It cannot be set up just when there is neither. The
journal tells of the environment's key just when it is taken, as long as what the caller hands in
is not empty. With an empty text, or with no bytes, it never tells. -/
theorem a_notary_works_under_the_first_key (o : Office) (age : Value) {key : KeySource}
    (hargument : key.IsArgument) :
    (¬ key.IsBlank → o.AppointsUnder key key age) ∧
    (key.IsBlank → ∀ t, o.settings.keyText = some t → t ≠ .whole "" →
      o.AppointsUnder key (.value (.ofText t)) age) ∧
    ((∃ r, (o.appoint key age).1 = .error r ∧ r.name = "ConfigurationError") ↔
      key.IsBlank ∧ ∀ t, o.settings.keyText = some t → t = .whole "") ∧
    ∃ added, (o.appoint key age).2.journal = o.journal ++ added ∧
      (¬ key.IsEmpty → ("Using HMAC key from ZKP_HMAC_KEY" ∈ added.map Entry.message ↔
        o.settings.TakesEnvironment key)) ∧
      (key.IsEmpty → "Using HMAC key from ZKP_HMAC_KEY" ∉ added.map Entry.message) := by
  refine ⟨?_, ?_, ?_, ?_⟩
  · intro hfilled
    exact appointsUnder (Settings.key_of_not_isBlank hargument hfilled)
  · intro hblank t htext hfilled
    exact appointsUnder (Settings.key_of_environment hargument hblank htext hfilled)
  · rw [appoint_eq_setup_iff, Settings.key_eq_none_iff hargument]
  · obtain ⟨added, hjournal, htells⟩ := o.exists_journal_appoint key age
    refine ⟨added, hjournal, ?_, ?_⟩
    · intro hnotEmpty
      rw [htells, Settings.takesEnvironment_iff hargument]
      exact and_congr_left' ⟨Or.inl, fun hblank => hblank.resolve_right hnotEmpty⟩
    · intro hempty htold
      rw [(htells.1 htold).1] at hempty
      exact KeySource.not_isEmpty_none hempty

/-- The trial office, with a key in the environment. -/
def trialWithKey : Office :=
  { Office.trial with settings := ⟨none, none, some (Base64.text (List.replicate 32 9))⟩ }

theorem offers_keyText_trialWithKey :
    KeySource.Offers trialWithKey.keys (.value (.text (Base64.text (List.replicate 32 9))))
      (List.replicate 32 9) := by
  refine .form ?_ rfl
  rw [SecretKey.formBytes?, Base64.toList_text, Base64.decode_encode]

theorem keyText_trialWithKey_filled :
    Text.whole (Base64.text (List.replicate 32 9)) ≠ .whole "" := by
  rw [ne_eq, Text.whole.injEq]
  exact String.isEmpty_eq_false_iff.1 (isKeyText_text rfl).isEmpty_eq

/-- Where nothing is handed in, the notary commits under the environment's key, and the journal
tells. -/
theorem a_trial_notary_works_under_the_key_of_the_environment :
    KeySource.IsArgument (.value .none) ∧
    (∃ c o', trialWithKey.appoint (.value .none) .none = (.ok ⟨c, 18⟩, o') ∧
      o'.commit c "gold" = .ok (macText (List.replicate 32 9) "gold")) ∧
    ∃ added, (trialWithKey.appoint (.value .none) .none).2.journal = added ∧
      "Using HMAC key from ZKP_HMAC_KEY" ∈ added.map Entry.message := by
  have hblank : KeySource.IsBlank (.value .none) := Or.inl rfl
  obtain ⟨_, henvironment, _, added, hjournal, htells, _⟩ :=
    a_notary_works_under_the_first_key trialWithKey .none .nothing
  refine ⟨.nothing, ?_, added, hjournal, ?_⟩
  · obtain ⟨c, o', happointed, hcommits⟩ :=
      (henvironment hblank _ rfl keyText_trialWithKey_filled).appointed _ 18
        offers_keyText_trialWithKey rfl
    exact ⟨c, o', happointed, hcommits "gold"⟩
  · exact (htells KeySource.not_isEmpty_none).2 ⟨hblank, _, rfl, keyText_trialWithKey_filled⟩

/-- With an empty text the environment's key is taken, and all that the journal tells is that a
committer stands. -/
theorem an_empty_text_takes_the_key_of_the_environment_untold :
    trialWithKey.settings.TakesEnvironment (.value (.text "")) ∧
      ∃ c o', trialWithKey.appoint (.value (.text "")) .none = (.ok ⟨c, 18⟩, o') ∧
        o'.commit c "gold" = .ok (macText (List.replicate 32 9) "gold") ∧
        o'.journal.map Entry.message = ["CommitmentProvider initialized"] := by
  have hblank : KeySource.IsBlank (.value (.text "")) := Or.inr (Or.inl rfl)
  have hkey := Settings.key_of_environment (s := trialWithKey.settings) (.text "") hblank rfl
    keyText_trialWithKey_filled
  obtain ⟨c, o', happointed, hjournal, hcommits⟩ :=
    appoint_of_offers hkey offers_keyText_trialWithKey .none
  refine ⟨⟨hblank, _, rfl, keyText_trialWithKey_filled⟩, c, o', happointed, hcommits "gold", ?_⟩
  rw [hjournal]
  rfl

end Office

end Attestation
