-- The laws of bundles on their way. A bundle of texts comes back from JSON and from the binary
-- form as from its own mapping: it is let through whole if it is sound, and else refused for
-- its first fault. What a notary issues is sound. A reader also keeps a kind of claims itself in
-- place of its name, though no form that is sent has room for that.
import Attestation.Proofs.BinaryForm
import Attestation.Proofs.JsonForm
import Attestation.Proofs.Verification

namespace Attestation.Bundle

/-! ## Sound bundles -/

def IsFilledText (v : Value) : Prop := ∃ t : Text, v = .ofText t ∧ t ≠ .whole ""

/-- A value that names a kind of claim, or nothing. -/
def NamesKind (v : Value) : Prop := v = .none ∨ ∃ name ∈ predicateNames, v = .text name

/-- A kind of claims itself, in place of its name. -/
def IsKind (v : Value) : Prop := ∃ kind : Claim.Kind, v = .claimKind kind

theorem NamesKind.not_isKind {v : Value} (h : NamesKind v) : ¬ IsKind v := by
  rintro ⟨kind, rfl⟩
  rcases h with h | ⟨_, _, h⟩ <;> cases h

/-- What every reader asks of a bundle. -/
structure Sound (b : Bundle) : Prop where
  proof_filled : IsFilledText b.proof
  salt_filled : IsFilledText b.salt
  kind_named : NamesKind b.predicate

theorem filledEntry_eq_ok {name : String} {entries : List (Value × Value)} {v : Value}
    (hv : Value.lookup name entries = v) (h : IsFilledText v) :
    filledEntry name entries = .ok v := by
  obtain ⟨t, rfl, ht⟩ := h
  simp [filledEntry, hv, ht]

theorem filledEntry_eq_error {name : String} {entries : List (Value × Value)} {v : Value}
    (hv : Value.lookup name entries = v) (h : ¬ IsFilledText v) :
    filledEntry name entries = .error (.unreadable name v .notText) := by
  unfold filledEntry
  simp only [hv]
  split
  · rename_i t ht
    split
    · rfl
    · rename_i hfilled
      exact absurd ⟨t, Value.toText?_eq_some_iff.1 ht, by simpa using hfilled⟩ h
  · rfl

theorem isSome_ofValue?_iff (v : Value) :
    (Claim.Kind.ofValue? v).isSome ↔ (∃ name ∈ predicateNames, v = .text name) ∨ IsKind v := by
  unfold Claim.Kind.ofValue?
  split
  · rename_i s
    rw [List.find?_isSome, ← Claim.names_listed]
    simp [IsKind]
  · simp [IsKind]
  · rename_i hnotText hnotKind
    simp only [Option.isSome_none, Bool.false_eq_true, false_iff]
    rintro (⟨name, _, rfl⟩ | ⟨kind, rfl⟩)
    · exact hnotText name rfl
    · exact hnotKind kind rfl

theorem predicateEntry_eq_ok {v : Value} (h : NamesKind v) : predicateEntry v = .ok v := by
  rcases h with rfl | hname
  · rfl
  · obtain ⟨kind, hkind⟩ := Option.isSome_iff_exists.1 ((isSome_ofValue?_iff v).2 (Or.inl hname))
    obtain ⟨name, _, rfl⟩ := hname
    simp [predicateEntry, hkind]

theorem predicateEntry_isKind {v : Value} (h : IsKind v) : predicateEntry v = .ok v := by
  obtain ⟨kind, rfl⟩ := h
  rfl

theorem predicateEntry_eq_error {v : Value} (hname : ¬ NamesKind v) (hkind : ¬ IsKind v) :
    predicateEntry v = .error (.unreadable "predicate" v .predicate) := by
  have hnone : Claim.Kind.ofValue? v = none := by
    rw [← Option.not_isSome_iff_eq_none, isSome_ofValue?_iff, not_or]
    exact ⟨fun h => hname (Or.inr h), hkind⟩
  unfold predicateEntry
  split
  · exact absurd (Or.inl rfl) hname
  · rw [hnone]

/-! ## From the entries -/

/-- How a reader of a bundle's fields ends: it takes them one by one, and stops at the first that is
at fault. A kind of claims itself passes as its name does. -/
inductive Ends (b : Bundle) : Except Refusal Bundle → Prop
  | sound (h : b.Sound) : Ends b (.ok b)
  | kept (hproof : IsFilledText b.proof) (hsalt : IsFilledText b.salt)
      (hkind : IsKind b.predicate) : Ends b (.ok b)
  | proof (hproof : ¬ IsFilledText b.proof) :
      Ends b (.error (.unreadable "proof" b.proof .notText))
  | salt (hproof : IsFilledText b.proof) (hsalt : ¬ IsFilledText b.salt) :
      Ends b (.error (.unreadable "salt" b.salt .notText))
  | predicate (hproof : IsFilledText b.proof) (hsalt : IsFilledText b.salt)
      (hname : ¬ NamesKind b.predicate) (hkind : ¬ IsKind b.predicate) :
      Ends b (.error (.unreadable "predicate" b.predicate .predicate))

/-- A reader of entries looks at three of them. -/
theorem ends_ofEntries {entries : List (Value × Value)} {b : Bundle}
    (hproof : Value.lookup "proof" entries = b.proof)
    (hsalt : Value.lookup "salt" entries = b.salt)
    (hpredicate : Value.lookup "predicate" entries = b.predicate) :
    b.Ends (ofEntries entries) := by
  unfold ofEntries
  rw [hpredicate]
  by_cases hp : IsFilledText b.proof
  · rw [filledEntry_eq_ok hproof hp]
    by_cases hs : IsFilledText b.salt
    · rw [filledEntry_eq_ok hsalt hs]
      by_cases hname : NamesKind b.predicate
      · rw [predicateEntry_eq_ok hname]
        exact .sound ⟨hp, hs, hname⟩
      by_cases hkind : IsKind b.predicate
      · rw [predicateEntry_isKind hkind]
        exact .kept hp hs hkind
      · rw [predicateEntry_eq_error hname hkind]
        exact .predicate hp hs hname hkind
    · rw [filledEntry_eq_error hsalt hs]
      exact .salt hp hs
  · rw [filledEntry_eq_error hproof hp]
    exact .proof hp

theorem Ends.eq_ok {b : Bundle} {answer : Except Refusal Bundle} (h : b.Ends answer)
    (hproof : IsFilledText b.proof) (hsalt : IsFilledText b.salt)
    (hkind : NamesKind b.predicate ∨ IsKind b.predicate) : answer = .ok b := by
  cases h with
  | sound | kept => rfl
  | proof hnot => exact absurd hproof hnot
  | salt _ hnot => exact absurd hsalt hnot
  | predicate _ _ hname hnot => exact absurd hkind (not_or.2 ⟨hname, hnot⟩)

theorem ofEntries_congr {entries entries' : List (Value × Value)}
    (h : ∀ name ∈ ["proof", "salt", "predicate"],
      Value.lookup name entries = Value.lookup name entries') :
    ofEntries entries = ofEntries entries' := by
  unfold ofEntries filledEntry
  rw [h "proof" (by decide), h "salt" (by decide), h "predicate" (by decide)]

theorem lookup_predicate_entries (b : Bundle) :
    Value.lookup "predicate" b.entries = b.predicate := by
  unfold entries
  split
  · rename_i hnone
    rw [hnone]
    rfl
  · rfl

theorem ends_ofMapping_entries (b : Bundle) : b.Ends (ofMapping (.mapping b.entries)) :=
  ends_ofEntries rfl rfl b.lookup_predicate_entries

theorem Sound.ofMapping_entries {b : Bundle} (h : b.Sound) :
    ofMapping (.mapping b.entries) = .ok b :=
  b.ends_ofMapping_entries.eq_ok h.proof_filled h.salt_filled (Or.inl h.kind_named)

/-! ## Bundles of texts -/

/-- A bundle of two whole texts, with one for its kind or without it. -/
def ofTexts (proof salt : String) : Option String → Bundle
  | none => ⟨.text proof, .text salt, .none⟩
  | some predicate => ⟨.text proof, .text salt, .text predicate⟩

/-- A bundle of any texts, whole or torn. -/
def ofAnyTexts (proof salt : Text) : Option Text → Bundle
  | none => ⟨.ofText proof, .ofText salt, .none⟩
  | some predicate => ⟨.ofText proof, .ofText salt, .ofText predicate⟩

theorem ofAnyTexts_whole (proof salt : String) (predicate : Option String) :
    ofAnyTexts (.whole proof) (.whole salt) (predicate.map .whole) =
      ofTexts proof salt predicate := by
  cases predicate <;> rfl

/-- The entries of a bundle of texts. -/
def textEntries (proof salt : Text) : Option Text → List (String × Text)
  | none => [("proof", proof), ("salt", salt)]
  | some predicate => [("proof", proof), ("salt", salt), ("predicate", predicate)]

section Texts

variable (proof salt : Text) (predicate : Option Text)

theorem proof_ofAnyTexts : (ofAnyTexts proof salt predicate).proof = .ofText proof := by
  cases predicate <;> rfl

theorem salt_ofAnyTexts : (ofAnyTexts proof salt predicate).salt = .ofText salt := by
  cases predicate <;> rfl

theorem entries_ofAnyTexts :
    (ofAnyTexts proof salt predicate).entries =
      Json.ofTexts (textEntries proof salt predicate) := by
  match predicate with
  | none => rfl
  | some (.whole _) => rfl
  | some (.torn _) => rfl

theorem pairedEntries_textEntries :
    Json.pairedEntries (textEntries proof salt predicate) =
      textEntries (Json.pairedText proof) (Json.pairedText salt)
        (predicate.map Json.pairedText) := by
  cases predicate <;> rfl

theorem ofEntries_textEntries :
    Value.ofEntries (Json.ofTexts (textEntries proof salt predicate)) =
      .mapping (ofAnyTexts proof salt predicate).entries := by
  rw [entries_ofAnyTexts]
  cases predicate <;> rfl

theorem pairedText_comp_whole : Json.pairedText ∘ Text.whole = Text.whole :=
  funext Json.pairedText_whole

/-! ## JSON -/

theorem toJson_ofAnyTexts :
    (ofAnyTexts proof salt predicate).toJson =
      .ok (String.ofList (Json.mappingOfTexts (textEntries proof salt predicate))) := by
  unfold toJson
  rw [entries_ofAnyTexts, Json.write_ofTexts]

/-- A bundle of texts comes back from JSON, held as text or as bytes, as from its own mapping, but
with characters for the halves that make some. -/
theorem ofJson_toJson :
    ∃ text, (ofAnyTexts proof salt predicate).toJson = .ok text ∧
      ∀ held : Value, Json.Holds held text → ofJson held =
        ofMapping (.mapping (ofAnyTexts (Json.pairedText proof) (Json.pairedText salt)
          (predicate.map Json.pairedText)).entries) := by
  refine ⟨_, toJson_ofAnyTexts proof salt predicate, fun held hheld => ?_⟩
  have hparse := Json.ofValue?_of_holds hheld (by
    rw [Utf8.ofString, String.toList_ofList, Json.decodeText_mappingOfTexts])
  unfold ofJson ofParsed
  rw [hparse, String.toList_ofList, Json.parse_mappingOfTexts, pairedEntries_textEntries,
    ofEntries_textEntries]

end Texts

/-! ## The binary form -/

/-- The entries of the binary form. -/
def shortEntries (b : Bundle) : List (String × Value) :=
  [("v", .int Limits.bundleVersion), ("p", b.proof), ("s", b.salt), ("t", b.predicate)]

theorem ofItem_shortEntries (b : Bundle) :
    ofItem (.mapping (b.shortEntries.map fun e => (.text e.1, e.2))) =
      ofMapping (.mapping b.entries) := by
  have hfields : ofItem (.mapping (b.shortEntries.map fun e => (.text e.1, e.2))) =
      ofEntries [(.text "proof", b.proof), (.text "salt", b.salt),
        (.text "predicate", b.predicate)] := rfl
  rw [hfields]
  apply ofEntries_congr
  intro name hname
  simp only [List.mem_cons, List.not_mem_nil, or_false] at hname
  rcases hname with rfl | rfl | rfl
  · rfl
  · rfl
  · exact b.lookup_predicate_entries.symm

/-- A bundle whose parts the binary form carries fills its bytes. -/
theorem exists_fills_of_carries {b : Bundle} (hproof : ∃ bytes, Cbor.Carries bytes b.proof)
    (hsalt : ∃ bytes, Cbor.Carries bytes b.salt)
    (hpredicate : ∃ bytes, Cbor.Carries bytes b.predicate) :
    ∃ bytes, b.toCbor = .ok bytes ∧
      Cbor.Fills bytes (.mapping (b.shortEntries.map fun e => (.text e.1, e.2))) := by
  have hparts : ∀ e ∈ b.shortEntries, Cbor.Fits e.1 ∧ ∃ bytes, Cbor.Carries bytes e.2 := by
    intro e he
    simp only [shortEntries, List.mem_cons, List.not_mem_nil, or_false] at he
    rcases he with rfl | rfl | rfl | rfl
    · exact ⟨Cbor.fits_of_length_lt (show "v".length < 2 ^ 62 by decide), _,
        Cbor.carries_int (by decide)⟩
    · exact ⟨Cbor.fits_of_length_lt (show "p".length < 2 ^ 62 by decide), hproof⟩
    · exact ⟨Cbor.fits_of_length_lt (show "s".length < 2 ^ 62 by decide), hsalt⟩
    · exact ⟨Cbor.fits_of_length_lt (show "t".length < 2 ^ 62 by decide), hpredicate⟩
  have hcount : b.shortEntries.length < 2 ^ 64 := show 4 < 2 ^ 64 by decide
  obtain ⟨bytes, hwrite, hfills⟩ := Cbor.exists_fills_mapping hcount hparts
  refine ⟨bytes, ?_, hfills⟩
  unfold shortEntries at hwrite
  unfold toCbor
  simp only [List.map_cons, List.map_nil] at hwrite
  simp only [hwrite]

theorem exists_fills_toCbor (proof salt : String) (predicate : Option String)
    (hproof : Cbor.Fits proof) (hsalt : Cbor.Fits salt)
    (hpredicate : ∀ name ∈ predicate, Cbor.Fits name) :
    ∃ bytes, (ofTexts proof salt predicate).toCbor = .ok bytes ∧
      Cbor.Fills bytes (.mapping
        ((ofTexts proof salt predicate).shortEntries.map fun e => (.text e.1, e.2))) := by
  cases predicate with
  | none =>
    exact exists_fills_of_carries ⟨_, Cbor.carries_text hproof⟩ ⟨_, Cbor.carries_text hsalt⟩
      ⟨_, Cbor.carries_none⟩
  | some name =>
    exact exists_fills_of_carries ⟨_, Cbor.carries_text hproof⟩ ⟨_, Cbor.carries_text hsalt⟩
      ⟨_, Cbor.carries_text (hpredicate name rfl)⟩

theorem ofCbor_of_parse {b : Bundle} {held : Value} {bytes : List UInt8}
    (hheld : held.bytes? = some bytes)
    (hparse : Cbor.parse bytes =
      some (.mapping (b.shortEntries.map fun e => (.text e.1, e.2)))) :
    ofCbor held = ofMapping (.mapping b.entries) := by
  unfold ofCbor
  rw [hheld, Option.bind_some, hparse, ofDecoded]
  exact b.ofItem_shortEntries

/-- A bundle of texts comes back from the binary form as from its own mapping. -/
theorem ofCbor_toCbor (proof salt : String) (predicate : Option String)
    (hproof : Cbor.Fits proof) (hsalt : Cbor.Fits salt)
    (hpredicate : ∀ name ∈ predicate, Cbor.Fits name) :
    ∃ bytes, (ofTexts proof salt predicate).toCbor = .ok bytes ∧
      ∀ held : Value, held.bytes? = some bytes →
        ofCbor held = ofMapping (.mapping (ofTexts proof salt predicate).entries) := by
  obtain ⟨bytes, hwrite, hfills⟩ :=
    exists_fills_toCbor proof salt predicate hproof hsalt hpredicate
  exact ⟨bytes, hwrite, fun _ hheld => ofCbor_of_parse hheld (Cbor.parse_of_fills hfills)⟩

/-- The first torn text of a bundle. -/
inductive TornFirst (b : Bundle) (t : Torn) : Prop
  | proof (h : b.proof = .torn t)
  | salt {p : String} (hproof : b.proof = .text p) (h : b.salt = .torn t)
  | predicate {p s : String} (hproof : b.proof = .text p) (hsalt : b.salt = .text s)
      (h : b.predicate = .torn t)

/-- The binary form fails with the first torn text. -/
theorem toCbor_of_tornFirst {b : Bundle} {t : Torn} (h : b.TornFirst t) :
    b.toCbor = .error (.failed (.ofTorn t)) := by
  unfold toCbor
  cases h with
  | proof h =>
    rw [h]
    rfl
  | salt hproof h =>
    rw [hproof, h]
    rfl
  | predicate hproof hsalt h =>
    rw [hproof, hsalt, h]
    rfl

/-! ## Issued bundles -/

theorem length_macText (key : List UInt8) (message : String) :
    (macText key message).length = 44 := by
  unfold macText
  rw [Base64.length_text, Hmac.mac_length]

theorem fits_kind_name (kind : Claim.Kind) : Cbor.Fits kind.name := by
  apply Cbor.fits_of_length_lt
  cases kind <;> decide

end Attestation.Bundle
