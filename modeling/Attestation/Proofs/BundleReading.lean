-- The laws of reading a bundle from anything at all. Whatever value a reader is handed, it gives
-- a sound bundle or refuses the value as malformed, and it names the part that is at fault. Only a
-- kind too deep to be written out and a version without an order make it fail, and only a kind of
-- claims itself passes without being a name. What is sound comes back from its mapping. From the
-- forms that are sent it comes back if its texts are whole, and what becomes of torn ones is said
-- for each form.
import Attestation.Proofs.BundleTransport

namespace Attestation.Bundle

/-! ## Answers of readers -/

/-- The parts of a bundle that a refusal can name: all of it, its version, or one of its texts. -/
def parts : List String := ["bundle", "v", "proof", "salt", "predicate"]

/-- A reader answers as it should: with a sound bundle, or with the refusal of a malformed input
that names a part of the bundle. -/
inductive WellRead : Except Refusal Bundle → Prop
  | sound {b : Bundle} : b.Sound → WellRead (.ok b)
  | malformed {r : Refusal} {field : String} : r.name = "MalformedInputError" →
      r.field? = some field → field ∈ parts → WellRead (.error r)

/-- A reader fails with what it is said to fail with, keeps the bundle that it is said to keep
although it is not sound, and else answers as it should. -/
structure WellReadUnless (fails : Failure → Prop) (keeps : Bundle → Prop)
    (answer : Except Refusal Bundle) : Prop where
  failing : ∀ why, fails why → answer = .error (.failed why)
  keeping : ∀ b, keeps b → answer = .ok b
  reading : (∀ why, ¬ fails why) → (∀ b, ¬ keeps b) → WellRead answer

theorem WellReadUnless.of_wellRead {fails : Failure → Prop} {keeps : Bundle → Prop}
    {answer : Except Refusal Bundle} (hnever : ∀ why, ¬ fails why) (hnone : ∀ b, ¬ keeps b)
    (h : WellRead answer) : WellReadUnless fails keeps answer where
  failing why hwhy := absurd hwhy (hnever why)
  keeping b hb := absurd hb (hnone b)
  reading _ _ := h

theorem wellRead_unreadable {field : String} (h : field ∈ parts) (raw : Value) (why : Unreadable) :
    WellRead (.error (.unreadable field raw why)) :=
  .malformed rfl rfl h

/-- A failure is no refusal of a malformed input. -/
theorem not_wellRead_failed (why : Failure) : ¬ WellRead (.error (.failed why)) := by
  rintro (_ | ⟨_, hfield, _⟩)
  cases hfield

theorem not_wellRead_of_not_sound {b : Bundle} (h : ¬ b.Sound) : ¬ WellRead (.ok b) := by
  rintro ⟨hsound⟩
  exact h hsound

/-- The fields of a bundle come to a kind that nobody knows, with values too deep within each other
to be written out. -/
structure TooDeep (room : ℕ) (b : Bundle) : Prop where
  proof_filled : IsFilledText b.proof
  salt_filled : IsFilledText b.salt
  kind_unnamed : ¬ NamesKind b.predicate
  kind_unknown : ¬ IsKind b.predicate
  deep : b.predicate.literalFailure? (some room) = some .depth

/-- The fields of a bundle with a kind of claims itself in place of its name. -/
structure HoldsKind (b : Bundle) : Prop where
  proof_filled : IsFilledText b.proof
  salt_filled : IsFilledText b.salt
  kind_itself : IsKind b.predicate

theorem HoldsKind.not_sound {b : Bundle} (h : b.HoldsKind) : ¬ b.Sound :=
  fun hsound => hsound.kind_named.not_isKind h.kind_itself

/-- What stands under the three names of a bundle's fields. -/
def underNames (proof salt predicate : String) (entries : List (Value × Value)) : Bundle :=
  ⟨Value.lookup proof entries, Value.lookup salt entries, Value.lookup predicate entries⟩

/-- A mapping fails if its kind lies too deep. -/
def MappingFails (room : ℕ) (v : Value) (why : Failure) : Prop :=
  ∃ entries, v = .mapping entries ∧
    (underNames "proof" "salt" "predicate" entries).TooDeep room ∧ why = .depth

/-- A mapping is kept if it holds a kind of claims itself. -/
def MappingKeeps (v : Value) (b : Bundle) : Prop :=
  ∃ entries, v = .mapping entries ∧ b = underNames "proof" "salt" "predicate" entries ∧ b.HoldsKind

/-- A decoded item fails if its version has no order, or else if it is of the right version and
its kind lies too deep. -/
def ItemFails (room : ℕ) (item : Value) (why : Failure) : Prop :=
  ∃ entries, item = .mapping entries ∧
    ((Value.lookup "v" entries).isSignal = true ∧ why = .unordered ∨
      (Value.lookup "v" entries).isSignal = false ∧
        (Value.lookup "v" entries).same (.int Limits.bundleVersion) = true ∧
        (underNames "p" "s" "t" entries).TooDeep room ∧ why = .depth)

/-- A decoded item is kept if it is of the right version and holds a kind of claims itself. -/
def ItemKeeps (item : Value) (b : Bundle) : Prop :=
  ∃ entries, item = .mapping entries ∧ (Value.lookup "v" entries).isSignal = false ∧
    (Value.lookup "v" entries).same (.int Limits.bundleVersion) = true ∧
    b = underNames "p" "s" "t" entries ∧ b.HoldsKind

/-! ## Readers -/

section Readers

variable {room : ℕ}

theorem withinRoom_ok (b : Bundle) : withinRoom room (.ok b) = .ok b := rfl

/-- A refusal of anything but a kind is worded at any depth. -/
theorem withinRoom_unreadable {field : String} {raw : Value} {why : Unreadable}
    (h : why ≠ .predicate) : withinRoom room (.error (.unreadable field raw why)) =
      .error (.unreadable field raw why) := by
  have hworded : (Refusal.unreadable field raw why).wordingFailure? (some room) = none := by
    unfold Refusal.wordingFailure?
    split
    · rename_i heq
      cases heq
      exact absurd rfl h
    · rfl
  exact congrArg Except.error (Refusal.raisedWithin_of_worded hworded)

theorem withinRoom_unknown (raw : Value) :
    withinRoom room (.error (.unreadable "predicate" raw .predicate)) =
      if raw.literalFailure? (some room) = some .depth then .error (.failed .depth)
      else .error (.unreadable "predicate" raw .predicate) := by
  have hworded : (Refusal.unreadable "predicate" raw .predicate).wordingFailure? (some room) =
      if raw.literalFailure? (some room) = some .depth then some .depth else none := rfl
  by_cases hdeep : raw.literalFailure? (some room) = some .depth
  · rw [if_pos hdeep] at hworded ⊢
    exact congrArg Except.error (Refusal.raisedWithin_of_unworded hworded)
  · rw [if_neg hdeep] at hworded ⊢
    exact congrArg Except.error (Refusal.raisedWithin_of_worded hworded)

/-- The reader of the fields of a bundle fails if their kind lies too deep, and keeps a kind of
claims itself. -/
theorem wellReadUnless_of_ends {b : Bundle} {answer : Except Refusal Bundle} (h : b.Ends answer) :
    WellReadUnless (fun why => b.TooDeep room ∧ why = .depth) (fun kept => kept = b ∧ b.HoldsKind)
      (withinRoom room answer) := by
  have hread : ∀ {answer : Except Refusal Bundle}, ¬ b.TooDeep room → ¬ b.HoldsKind →
      WellRead answer → WellReadUnless (fun why => b.TooDeep room ∧ why = .depth)
        (fun kept => kept = b ∧ b.HoldsKind) answer :=
    fun hshallow hnot => .of_wellRead (fun _ hfails => hshallow hfails.1)
      fun _ hkeeps => hnot hkeeps.2
  cases h with
  | sound h =>
    rw [withinRoom_ok]
    exact hread (fun hdeep => hdeep.kind_unnamed h.kind_named) (fun hholds => hholds.not_sound h)
      (.sound h)
  | kept hp hs hkind =>
    rw [withinRoom_ok]
    refine ⟨fun _ hfails => absurd hkind hfails.1.kind_unknown, ?_, fun _ hnot => ?_⟩
    · rintro _ ⟨rfl, _⟩
      rfl
    · exact absurd ⟨rfl, hp, hs, hkind⟩ (hnot b)
  | proof hp =>
    rw [withinRoom_unreadable (show Unreadable.notText ≠ .predicate from nofun)]
    exact hread (fun hdeep => hp hdeep.proof_filled) (fun hholds => hp hholds.proof_filled)
      (wellRead_unreadable (by decide) _ _)
  | salt hp hs =>
    rw [withinRoom_unreadable (show Unreadable.notText ≠ .predicate from nofun)]
    exact hread (fun hdeep => hs hdeep.salt_filled) (fun hholds => hs hholds.salt_filled)
      (wellRead_unreadable (by decide) _ _)
  | predicate hp hs hname hkind =>
    have hnot : ¬ b.HoldsKind := fun hholds => hkind hholds.kind_itself
    rw [withinRoom_unknown]
    split
    · rename_i hdeep
      refine ⟨fun why hfails => by rw [hfails.2], fun _ hkeeps => absurd hkeeps.2 hnot,
        fun hnever _ => ?_⟩
      exact absurd ⟨⟨hp, hs, hname, hkind, hdeep⟩, rfl⟩ (hnever .depth)
    · rename_i hshallow
      exact hread (fun hdeep => hshallow hdeep.deep) hnot (wellRead_unreadable (by decide) _ _)

theorem wellReadUnless_unreadable {fails : Failure → Prop} {keeps : Bundle → Prop}
    (hnever : ∀ why, ¬ fails why) (hnone : ∀ b, ¬ keeps b) {field : String} (hpart : field ∈ parts)
    (raw : Value) {why : Unreadable} (hwhy : why ≠ .predicate) :
    WellReadUnless fails keeps (withinRoom room (.error (.unreadable field raw why))) := by
  rw [withinRoom_unreadable hwhy]
  exact .of_wellRead hnever hnone (wellRead_unreadable hpart raw _)

theorem WellReadUnless.congr {fails fails' : Failure → Prop} {keeps keeps' : Bundle → Prop}
    {answer : Except Refusal Bundle} (h : WellReadUnless fails keeps answer)
    (hfails : ∀ why, fails why ↔ fails' why) (hkeeps : ∀ b, keeps b ↔ keeps' b) :
    WellReadUnless fails' keeps' answer where
  failing why hwhy := h.failing why ((hfails why).2 hwhy)
  keeping b hb := h.keeping b ((hkeeps b).2 hb)
  reading hnever hnone := h.reading (fun why hwhy => hnever why ((hfails why).1 hwhy))
    fun b hb => hnone b ((hkeeps b).1 hb)

theorem wellReadUnless_ofMapping (v : Value) :
    WellReadUnless (MappingFails room v) (MappingKeeps v) (withinRoom room (ofMapping v)) := by
  unfold ofMapping
  split
  · rename_i entries
    have hends : (underNames "proof" "salt" "predicate" entries).Ends (ofEntries entries) :=
      ends_ofEntries rfl rfl rfl
    refine (wellReadUnless_of_ends hends).congr (fun why => by simp [MappingFails]) fun b => ?_
    constructor
    · rintro ⟨rfl, hholds⟩
      exact ⟨entries, rfl, rfl, hholds⟩
    · rintro ⟨_, ⟨⟩, rfl, hholds⟩
      exact ⟨rfl, hholds⟩
  · rename_i hnot
    refine wellReadUnless_unreadable ?_ ?_ (by decide) _ nofun
    · rintro why ⟨entries, rfl, _⟩
      exact hnot entries rfl
    · rintro b ⟨entries, rfl, _⟩
      exact hnot entries rfl

theorem wellReadUnless_ofParsed (v : Value) (parsed : Option Value) :
    WellReadUnless (fun why => ∃ data, parsed = some data ∧ MappingFails room data why)
      (fun b => ∃ data, parsed = some data ∧ MappingKeeps data b)
      (withinRoom room (ofParsed v parsed)) := by
  cases parsed with
  | none => exact wellReadUnless_unreadable (by simp) (by simp) (by decide) _ nofun
  | some data =>
    exact (wellReadUnless_ofMapping data).congr (fun why => by simp) fun b => by simp

theorem wellReadUnless_ofItem (item : Value) :
    WellReadUnless (ItemFails room item) (ItemKeeps item) (withinRoom room (ofItem item)) := by
  unfold ofItem
  split
  · rename_i entries
    simp only
    split
    · rename_i hsignal
      refine ⟨?_, ?_, fun hnot _ => absurd ⟨entries, rfl, Or.inl ⟨hsignal, rfl⟩⟩ (hnot .unordered)⟩
      · rintro why ⟨_, ⟨⟩, ⟨_, rfl⟩ | ⟨hnone, _⟩⟩
        · rfl
        · rw [hsignal] at hnone
          cases hnone
      · rintro b ⟨_, ⟨⟩, hnone, _⟩
        rw [hsignal] at hnone
        cases hnone
    rename_i hsignal
    split
    · rename_i hversion
      have hends : (underNames "p" "s" "t" entries).Ends (ofEntries
          [(.text "proof", Value.lookup "p" entries), (.text "salt", Value.lookup "s" entries),
            (.text "predicate", Value.lookup "t" entries)]) := ends_ofEntries rfl rfl rfl
      refine (wellReadUnless_of_ends hends).congr
        (fun why => by simp [ItemFails, hsignal, hversion]) fun b => ?_
      constructor
      · rintro ⟨rfl, hholds⟩
        exact ⟨entries, rfl, by simpa using hsignal, hversion, rfl, hholds⟩
      · rintro ⟨_, ⟨⟩, _, _, rfl, hholds⟩
        exact ⟨rfl, hholds⟩
    · rename_i hversion
      refine wellReadUnless_unreadable ?_ ?_ (by decide) _ nofun
      · rintro why ⟨_, ⟨⟩, ⟨hsome, _⟩ | ⟨_, hsame, _⟩⟩
        · exact hsignal hsome
        · exact hversion hsame
      · rintro b ⟨_, ⟨⟩, _, hsame, _⟩
        exact hversion hsame
  · rename_i hnot
    refine wellReadUnless_unreadable ?_ ?_ (by decide) _ nofun
    · rintro why ⟨entries, rfl, _⟩
      exact hnot entries rfl
    · rintro b ⟨entries, rfl, _⟩
      exact hnot entries rfl

theorem wellReadUnless_ofDecoded (v : Value) (decoded : Option Value) :
    WellReadUnless (fun why => ∃ item, decoded = some item ∧ ItemFails room item why)
      (fun b => ∃ item, decoded = some item ∧ ItemKeeps item b)
      (withinRoom room (ofDecoded v decoded)) := by
  cases decoded with
  | none => exact wellReadUnless_unreadable (by simp) (by simp) (by decide) _ nofun
  | some item =>
    exact (wellReadUnless_ofItem item).congr (fun why => by simp) fun b => by simp

end Readers

/-! ## There and back -/

/-- A value as it comes back from JSON. -/
def mended (v : Value) : Value :=
  match v.toText? with
  | some t => .ofText (Json.pairedText t)
  | none => v

/-- The bundle has a torn text in which two halves make a character. -/
def HasCouple (b : Bundle) : Prop :=
  ∃ t : Text, (b.proof = .ofText t ∨ b.salt = .ofText t) ∧ Json.Coupled t.points

/-- What becomes of a bundle that a reader lets through. It comes back from its mapping. From its
JSON it comes back with halves joined to characters, so as it is just when there are none to be
joined. The binary form has no bytes for a torn text, and gives all others back, if they are such
that a head can tell their size. -/
structure Returns (b : Bundle) : Prop where
  mapping : ofMapping (.mapping b.entries) = .ok b
  json : ∃ text, b.toJson = .ok text ∧ ∀ held : Value, Json.Holds held text →
    ofJson held = .ok ⟨mended b.proof, mended b.salt, b.predicate⟩
  json_same : (⟨mended b.proof, mended b.salt, b.predicate⟩ : Bundle) = b ↔ ¬ b.HasCouple
  cbor : (∀ t, ¬ b.TornFirst t) → (∀ s, b.proof = .text s ∨ b.salt = .text s → Cbor.Fits s) →
    ∃ bytes, b.toCbor = .ok bytes ∧ ∀ held : Value, held.bytes? = some bytes → ofCbor held = .ok b
  cbor_torn : ∀ t, b.TornFirst t → b.toCbor = .error (.failed (.ofTorn t))

/-- What becomes of a bundle with a kind of claims itself. It comes back from its mapping, and has
no form to be sent in. A torn text in it is met first where it has no bytes. -/
structure Stays (b : Bundle) : Prop where
  mapping : ofMapping (.mapping b.entries) = .ok b
  json : b.toJson = .error (.mismatch (.encoding "PredicateType"))
  cbor : (∀ t, ¬ b.TornFirst t) → b.toCbor = .error (.mismatch (.encoding "PredicateType"))
  cbor_torn : ∀ t, b.TornFirst t → b.toCbor = .error (.failed (.ofTorn t))

theorem fits_of_mem_predicateNames {name : String} (h : name ∈ predicateNames) :
    Cbor.Fits name := by
  rw [← Claim.names_listed] at h
  obtain ⟨kind, _, rfl⟩ := List.mem_map.1 h
  exact fits_kind_name kind

section Texts

variable (proof salt : Text) (predicate : Option String)

theorem mended_ofAnyTexts :
    (⟨mended (ofAnyTexts proof salt (predicate.map .whole)).proof,
      mended (ofAnyTexts proof salt (predicate.map .whole)).salt,
      (ofAnyTexts proof salt (predicate.map .whole)).predicate⟩ : Bundle) =
      ofAnyTexts (Json.pairedText proof) (Json.pairedText salt) (predicate.map .whole) := by
  cases predicate <;> simp [ofAnyTexts, mended]

theorem hasCouple_ofAnyTexts_iff {predicate : Option Text} :
    (ofAnyTexts proof salt predicate).HasCouple ↔
      Json.Coupled proof.points ∨ Json.Coupled salt.points := by
  unfold HasCouple
  simp only [proof_ofAnyTexts, salt_ofAnyTexts, Value.ofText_inj]
  constructor
  · rintro ⟨t, rfl | rfl, h⟩
    · exact Or.inl h
    · exact Or.inr h
  · rintro (h | h)
    · exact ⟨proof, Or.inl rfl, h⟩
    · exact ⟨salt, Or.inr rfl, h⟩

end Texts

/-- A sound bundle is one of texts that are not empty, and its kind, if it names one, is known. -/
theorem Sound.exists_ofAnyTexts {b : Bundle} (h : b.Sound) :
    ∃ (proof salt : Text) (predicate : Option String),
      b = ofAnyTexts proof salt (predicate.map .whole) ∧ proof ≠ .whole "" ∧ salt ≠ .whole "" ∧
        ∀ name ∈ predicate, name ∈ predicateNames := by
  obtain ⟨⟨proof, hproof, hfilled⟩, ⟨salt, hsalt, hfilled'⟩, hkind⟩ := h
  obtain ⟨proof', salt', predicate'⟩ := b
  cases hproof
  cases hsalt
  rcases hkind with hnone | ⟨name, hname, htext⟩
  · cases hnone
    exact ⟨proof, salt, none, rfl, hfilled, hfilled', nofun⟩
  · cases htext
    refine ⟨proof, salt, some name, rfl, hfilled, hfilled', fun other hother => ?_⟩
    cases hother
    exact hname

theorem sound_ofAnyTexts {proof salt : Text} {predicate : Option String}
    (hproof : proof ≠ .whole "") (hsalt : salt ≠ .whole "")
    (hnames : ∀ name ∈ predicate, name ∈ predicateNames) :
    (ofAnyTexts proof salt (predicate.map .whole)).Sound where
  proof_filled := ⟨proof, proof_ofAnyTexts _ _ _, hproof⟩
  salt_filled := ⟨salt, salt_ofAnyTexts _ _ _, hsalt⟩
  kind_named := by
    cases predicate with
    | none => exact Or.inl rfl
    | some name => exact Or.inr ⟨name, hnames name rfl, rfl⟩

theorem pairedText_ne_empty {t : Text} (h : t ≠ .whole "") : Json.pairedText t ≠ .whole "" := by
  rw [ne_eq, ← Text.isEmpty_iff, Json.isEmpty_pairedText, Text.isEmpty_iff]
  exact h

/-- What a reader lets through can be written and read again, as far as its texts are whole. -/
theorem Sound.returns {b : Bundle} (h : b.Sound) : b.Returns := by
  have hread := h.ofMapping_entries
  obtain ⟨proof, salt, predicate, rfl, hproof, hsalt, hnames⟩ := h.exists_ofAnyTexts
  refine ⟨hread, ?_, ?_, fun hwhole hfits => ?_, fun t => toCbor_of_tornFirst⟩
  · obtain ⟨text, hwrite, htext⟩ := ofJson_toJson proof salt (predicate.map .whole)
    rw [Option.map_map, pairedText_comp_whole] at htext
    rw [mended_ofAnyTexts]
    have hmended := sound_ofAnyTexts (pairedText_ne_empty hproof) (pairedText_ne_empty hsalt) hnames
    exact ⟨text, hwrite, fun held hheld =>
      (htext held hheld).trans hmended.ofMapping_entries⟩
  · rw [mended_ofAnyTexts, hasCouple_ofAnyTexts_iff, not_or, ← Json.pairedText_eq_self_iff,
      ← Json.pairedText_eq_self_iff]
    constructor
    · intro heq
      have hproofs := congrArg Bundle.proof heq
      have hsalts := congrArg Bundle.salt heq
      rw [proof_ofAnyTexts, proof_ofAnyTexts, Value.ofText_inj] at hproofs
      rw [salt_ofAnyTexts, salt_ofAnyTexts, Value.ofText_inj] at hsalts
      exact ⟨hproofs, hsalts⟩
    · rintro ⟨hproofs, hsalts⟩
      rw [hproofs, hsalts]
  · cases proof with
    | torn t => exact absurd (.proof (proof_ofAnyTexts _ _ _)) (hwhole t)
    | whole proof =>
      cases salt with
      | torn t =>
        exact absurd (.salt (proof_ofAnyTexts _ _ _) (salt_ofAnyTexts _ _ _)) (hwhole t)
      | whole salt =>
        obtain ⟨bytes, hwrite, hagree⟩ := ofCbor_toCbor proof salt predicate
          (hfits proof (Or.inl (proof_ofAnyTexts _ _ _)))
          (hfits salt (Or.inr (salt_ofAnyTexts _ _ _)))
          fun name hname => fits_of_mem_predicateNames (hnames name hname)
        rw [ofAnyTexts_whole] at hread ⊢
        exact ⟨bytes, hwrite, fun held hheld => (hagree held hheld).trans hread⟩

/-- A kind of claims itself is kept, and cannot be written. -/
theorem HoldsKind.stays {b : Bundle} (h : b.HoldsKind) : b.Stays := by
  have hread := b.ends_ofMapping_entries.eq_ok h.proof_filled h.salt_filled (Or.inr h.kind_itself)
  obtain ⟨⟨proof, hproof, _⟩, ⟨salt, hsalt, _⟩, ⟨kind, hkind⟩⟩ := h
  obtain ⟨_, _, _⟩ := b
  cases hproof
  cases hsalt
  cases hkind
  refine ⟨hread, ?_, fun hwhole => ?_, fun t => toCbor_of_tornFirst⟩
  · cases proof <;> cases salt <;> rfl
  · cases proof with
    | torn t => exact absurd (.proof rfl) (hwhole t)
    | whole proof =>
      cases salt with
      | torn t => exact absurd (.salt rfl rfl) (hwhole t)
      | whole salt => rfl

/-! ## The law -/

/-- Whatever value is handed to the reader of mappings, of JSON or of the binary form, and whatever
a decoder finds in it, the reader gives a sound bundle or refuses the value as malformed. It fails
just where a kind that nobody knows lies too deep to be written out, and in the binary form where
the version is a number without an order; and it keeps a bundle that is not sound just where a
kind of claims itself stands in place of its name. Every sound bundle comes back from its mapping.
If its texts are whole it comes back from its JSON and its binary form too; torn ones come back
from JSON just where no two halves make a character, and have no binary form. With a kind itself
there is neither. -/
theorem every_reader_gives_a_sound_bundle_refuses_or_fails (room : ℕ) (v : Value)
    (parsed decoded : Option Value) :
    WellReadUnless (MappingFails room v) (MappingKeeps v) (withinRoom room (ofMapping v)) ∧
    WellReadUnless (fun why => ∃ data, parsed = some data ∧ MappingFails room data why)
      (fun b => ∃ data, parsed = some data ∧ MappingKeeps data b)
      (withinRoom room (ofParsed v parsed)) ∧
    WellReadUnless (fun why => ∃ item, decoded = some item ∧ ItemFails room item why)
      (fun b => ∃ item, decoded = some item ∧ ItemKeeps item b)
      (withinRoom room (ofDecoded v decoded)) ∧
    ∀ b : Bundle, (b.Sound → b.Returns) ∧ (b.HoldsKind → b.Stays) :=
  ⟨wellReadUnless_ofMapping v, wellReadUnless_ofParsed v parsed, wellReadUnless_ofDecoded v decoded,
    fun _ => ⟨Sound.returns, HoldsKind.stays⟩⟩

/-- A bundle with a kind that is no text at all is refused as malformed, and one with a known kind
comes back from its JSON, and from its binary form in a buffer. -/
theorem a_trial_bundle_is_refused_or_comes_back :
    (∃ r, withinRoom 2 (ofMapping (.mapping [(.text "proof", .text "MAC"),
        (.text "salt", .text "salt"), (.text "predicate", .list [.text "age"])])) = .error r ∧
      r.name = "MalformedInputError") ∧
    (∃ text, (ofTexts "MAC" "salt\x00é€😀" (some "age")).toJson = .ok text ∧
      ofJson (.text text) = .ok (ofTexts "MAC" "salt\x00é€😀" (some "age"))) ∧
    ∃ bytes, (ofTexts "MAC" "salt\x00é€😀" (some "age")).toCbor = .ok bytes ∧
      ofCbor (.buffer bytes) = .ok (ofTexts "MAC" "salt\x00é€😀" (some "age")) := by
  obtain ⟨hmapping, _, _, hback⟩ := every_reader_gives_a_sound_bundle_refuses_or_fails 2
    (.mapping [(.text "proof", .text "MAC"), (.text "salt", .text "salt"),
      (.text "predicate", .list [.text "age"])]) none none
  have hsound : (ofTexts "MAC" "salt\x00é€😀" (some "age")).Sound :=
    @sound_ofAnyTexts (.whole "MAC") (.whole "salt\x00é€😀") (some "age") (by decide) (by decide)
      (fun name hname => by cases hname; decide)
  obtain ⟨_, ⟨text, hwrite, htext⟩, _, hcbor, _⟩ := (hback _).1 hsound
  have hwhole : ∀ t, ¬ (ofTexts "MAC" "salt\x00é€😀" (some "age")).TornFirst t := by
    rintro t (h | ⟨_, h⟩ | ⟨_, _, h⟩) <;> cases h
  have hfits : ∀ s, (Value.text "MAC" = .text s ∨ Value.text "salt\x00é€😀" = .text s) →
      Cbor.Fits s := by
    rintro s (h | h)
    · cases h
      exact Cbor.fits_of_length_lt (by decide)
    · cases h
      exact Cbor.fits_of_length_lt (by decide)
  obtain ⟨bytes, hwrite', hbytes⟩ := hcbor hwhole hfits
  refine ⟨?_, ⟨text, hwrite, ?_⟩, bytes, hwrite', hbytes _ rfl⟩
  · have hrefused := hmapping.reading
      (by
        rintro why ⟨_, ⟨⟩, hdeep, _⟩
        cases hdeep.deep)
      (by
        rintro b ⟨_, ⟨⟩, rfl, hholds⟩
        obtain ⟨kind, hkind⟩ := hholds.kind_itself
        cases hkind)
    generalize hanswer : withinRoom 2 (ofMapping _) = answer at hrefused ⊢
    cases hrefused with
    | sound hsound => cases hanswer
    | malformed hname hfield hpart => exact ⟨_, rfl, hname⟩
  · have hmended := htext _ (Or.inl rfl)
    rwa [← ofAnyTexts_whole, mended_ofAnyTexts, Json.pairedText_whole, Json.pairedText_whole]
      at hmended

/-- A bundle whose proof is two halves is let through, comes back from its JSON with a character in
their place, and has no binary form. A kind that lies too deep and a version without an order are
not refused as malformed, and a kind of claims itself is not refused at all. -/
theorem a_trial_bundle_of_two_halves_comes_back_as_a_character :
    (ofMapping (.mapping (ofAnyTexts (.torn ⟨[], 0, [.half 1024]⟩) "salt" none).entries) =
        .ok (ofAnyTexts (.torn ⟨[], 0, [.half 1024]⟩) "salt" none) ∧
      (∃ text, (ofAnyTexts (.torn ⟨[], 0, [.half 1024]⟩) "salt" none).toJson = .ok text ∧
        ofJson (.text text) ≠ .ok (ofAnyTexts (.torn ⟨[], 0, [.half 1024]⟩) "salt" none)) ∧
      ¬ ∃ bytes, (ofAnyTexts (.torn ⟨[], 0, [.half 1024]⟩) "salt" none).toCbor = .ok bytes) ∧
    ¬ WellRead (withinRoom 1 (ofMapping (.mapping [(.text "proof", .text "MAC"),
      (.text "salt", .text "salt"), (.text "predicate", .list [.text "age"])]))) ∧
    ¬ WellRead (withinRoom 1 (ofDecoded .none
      (some (.mapping [(.text "v", .decimal (.nan false true 0))])))) ∧
    ¬ WellRead (withinRoom 1 (ofMapping (.mapping [(.text "proof", .text "MAC"),
      (.text "salt", .text "salt"), (.text "predicate", .claimKind .age)]))) := by
  have hsound : (ofAnyTexts (.torn ⟨[], 0, [.half 1024]⟩) "salt" none).Sound :=
    @sound_ofAnyTexts _ _ none nofun (by decide) nofun
  obtain ⟨hmapping, ⟨text, hwrite, htext⟩, hsame, _, htorn⟩ := hsound.returns
  have hcouple : (ofAnyTexts (.torn ⟨[], 0, [.half 1024]⟩) "salt" none).HasCouple :=
    ⟨.torn ⟨[], 0, [.half 1024]⟩, Or.inl rfl, [], 0, 1024, [], rfl, by decide⟩
  refine ⟨⟨hmapping, ⟨text, hwrite, ?_⟩, ?_⟩, ?_, ?_, ?_⟩
  · rw [htext _ (Or.inl rfl)]
    exact fun heq => hsame.1 (Except.ok.inj heq) hcouple
  · rw [htorn _ (.proof rfl)]
    rintro ⟨_, ⟨⟩⟩
  · exact not_wellRead_failed .depth
  · exact not_wellRead_failed .unordered
  · apply not_wellRead_of_not_sound
    rintro ⟨_, _, hkind⟩
    exact hkind.not_isKind ⟨.age, rfl⟩

end Attestation.Bundle
