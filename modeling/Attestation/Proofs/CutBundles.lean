-- The laws of bundles that were cut or lengthened on their way. No front of a bundle's binary
-- form or of its JSON is taken for a bundle. Bytes behind the binary form go unseen; behind the
-- JSON only blanks may stand.
import Attestation.Proofs.BinaryFronts
import Attestation.Proofs.BundleTransport
import Attestation.Proofs.JsonFronts

namespace Attestation.Bundle

/-! ## The binary form -/

theorem ofCbor_of_parse_eq_none {held : Value} {bytes : List UInt8}
    (hheld : held.bytes? = some bytes) (h : Cbor.parse bytes = none) :
    ofCbor held = .error (.unreadable "bundle" held .invalidCbor) := by
  unfold ofCbor
  rw [hheld, Option.bind_some, h]
  rfl

/-- Bytes that an item fills are read as a bundle neither from a front nor from what was put
behind them. -/
structure StandsAloneInBytes (bytes : List UInt8) : Prop where
  front_refused : ∀ front held, front <+: bytes → front ≠ bytes → held.bytes? = some front →
    ofCbor held = .error (.unreadable "bundle" held .invalidCbor)
  more_unseen : ∀ more held, held.bytes? = some (bytes ++ more) →
    ofCbor held = ofCbor (.bytes bytes)

theorem standsAloneInBytes_of_fills {bytes : List UInt8} {item : Value}
    (h : Cbor.Fills bytes item) : StandsAloneInBytes bytes := by
  refine ⟨?_, ?_⟩
  · intro front held hfront hne hheld
    exact ofCbor_of_parse_eq_none hheld (Cbor.parse_eq_none_of_front h hfront hne)
  · intro more held hheld
    unfold ofCbor
    rw [hheld, Value.bytes?, Option.bind_some, Option.bind_some, Cbor.parse_of_fills h,
      Cbor.parse_append_of_fills h]
    rfl

/-! ## JSON -/

/-- The bytes of what starts as a mapping of texts does are taken for what they are. -/
theorem decodeText_encode_front {cs front : List Char} (h : front <+: '\x7b' :: '"' :: cs) :
    Json.decodeText (Utf8.encode front) = some (Point.ofChars front) := by
  obtain ⟨cut, hcut⟩ := h
  match front with
  | [] => rfl
  | [c] =>
    cases hcut
    rfl
  | c :: d :: front =>
    cases hcut
    exact Json.decodeText_encode_of_brace front

theorem ofJson_of_parse_eq_none {held : Value} {text : String} (hheld : Json.Holds held text)
    (hdecode : Json.decodeText (Utf8.ofString text) = some (Point.ofChars text.toList))
    (h : Json.parse (Point.ofChars text.toList) = none) :
    ofJson held = .error (.unreadable "bundle" held .invalidJson) := by
  unfold ofJson
  rw [Json.ofValue?_of_holds hheld hdecode, h]
  rfl

/-- The characters that may stand between the parts of JSON. -/
def blanks : List Char := [' ', '\t', '\n', '\r']

theorem isEmpty_skip_iff (cs : List Char) :
    (Json.skip (Point.ofChars cs)).isEmpty = true ↔ ∀ c ∈ cs, c ∈ blanks := by
  have hblank : ∀ c, Json.isBlank (.char c) = true ↔ c ∈ blanks := by
    intro c
    simp [Json.isBlank, blanks, or_assoc]
  rw [Json.skip, List.isEmpty_iff, List.dropWhile_eq_nil_iff, Point.ofChars]
  simp only [List.forall_mem_map, hblank]

/-- A half is no blank. -/
theorem isEmpty_skip_points (t : Torn) : (Json.skip t.points).isEmpty = false := by
  rw [Bool.eq_false_iff, ne_eq, Json.skip, List.isEmpty_iff, List.dropWhile_eq_nil_iff]
  intro hblank
  have hhalf := hblank (.half t.half) (by simp [Torn.points])
  cases hhalf

/-- A torn text behind a whole one. -/
def behind (text : String) (more : Torn) : Torn := { more with front := text.toList ++ more.front }

theorem points_behind (text : String) (more : Torn) :
    (behind text more).points = Point.ofChars text.toList ++ more.points := by
  simp [behind, Torn.points]

/-- A text that a mapping fills is read as a bundle neither from a front nor with more than blanks
behind it. -/
structure StandsAloneInJson (text : String) : Prop where
  front_refused : ∀ front held, front.toList <+: text.toList → front ≠ text →
    Json.Holds held front → ofJson held = .error (.unreadable "bundle" held .invalidJson)
  blanks_unseen : ∀ more held, (∀ c ∈ more.toList, c ∈ blanks) →
    Json.Holds held (text ++ more) → ofJson held = ofJson (.text text)
  more_refused : ∀ more held, ¬ (∀ c ∈ more.toList, c ∈ blanks) →
    Json.Holds held (text ++ more) →
      ofJson held = .error (.unreadable "bundle" held .invalidJson)
  torn_refused : ∀ more, ofJson (.torn (behind text more)) =
    .error (.unreadable "bundle" (.torn (behind text more)) .invalidJson)

theorem standsAloneInJson_of_fills {text : String} {cs : List Char} {v : Value}
    (htext : text.toList = '\x7b' :: '"' :: cs) (h : Json.Fills ('\x7b' :: '"' :: cs) v) :
    StandsAloneInJson text := by
  have hdecode : ∀ more : String, Json.decodeText (Utf8.ofString (text ++ more)) =
      some (Point.ofChars (text ++ more).toList) := by
    intro more
    rw [Utf8.ofString, String.toList_append, htext]
    exact Json.decodeText_encode_of_brace _
  have hparse : ∀ more : List Point, Json.parse (Point.ofChars text.toList ++ more) =
      if (Json.skip more).isEmpty then some v else none := by
    intro more
    rw [htext, Json.parse_append_of_fills h]
  have hparse' : ∀ more : String, Json.parse (Point.ofChars (text ++ more).toList) =
      if (Json.skip (Point.ofChars more.toList)).isEmpty then some v else none := by
    intro more
    rw [String.toList_append, Point.ofChars_append, hparse]
  refine ⟨?_, ?_, ?_, ?_⟩
  · intro front held hfront hne hheld
    rw [htext] at hfront
    have hshort : front.toList ≠ '\x7b' :: '"' :: cs := by
      rw [← htext]
      exact fun heq => hne (String.toList_injective heq)
    exact ofJson_of_parse_eq_none hheld (decodeText_encode_front hfront)
      (Json.parse_eq_none_of_front h hfront hshort)
  · intro more held hmore hheld
    have hall := (isEmpty_skip_iff more.toList).2 hmore
    have hwhole : Json.ofValue? (.text text) = some v := by
      have hempty := hparse' ""
      rw [String.append_empty] at hempty
      exact hempty
    unfold ofJson
    rw [Json.ofValue?_of_holds hheld (hdecode more), hparse', if_pos hall, hwhole]
    rfl
  · intro more held hmore hheld
    rw [← isEmpty_skip_iff] at hmore
    apply ofJson_of_parse_eq_none hheld (hdecode more)
    rw [hparse', if_neg hmore]
  · intro more
    have hnone : Json.ofValue? (.torn (behind text more)) = none := by
      have htorn := hparse more.points
      rw [isEmpty_skip_points, ← points_behind] at htorn
      exact htorn
    unfold ofJson
    rw [hnone]
    rfl

/-! ## The law -/

theorem exists_textEntries_eq_cons (proof salt : Text) (predicate : Option Text) :
    ∃ e entries, textEntries proof salt predicate = e :: entries := by
  cases predicate <;> exact ⟨_, _, rfl⟩

/-- The bytes of a bundle of whole texts, each of a size that the heads of the binary form can tell,
stand alone: cut anywhere they are refused as no binary form, and with any bytes behind them they
give what they give themselves. So does the JSON of any bundle of texts, held as text or as bytes:
cut anywhere it is refused as no JSON, with blanks behind it gives what it gives itself, and with
anything else behind it is refused. Of a bundle with a torn text there are no bytes to be cut. -/
theorem a_cut_bundle_is_refused :
    (∀ (proof salt : String) (predicate : Option String),
      Cbor.Fits proof → Cbor.Fits salt → (∀ name ∈ predicate, Cbor.Fits name) →
      ∃ bytes, (ofTexts proof salt predicate).toCbor = .ok bytes ∧ StandsAloneInBytes bytes) ∧
    (∀ b t, TornFirst b t → ∀ bytes, b.toCbor ≠ .ok bytes) ∧
    ∀ (proof salt : Text) (predicate : Option Text),
      ∃ text, (ofAnyTexts proof salt predicate).toJson = .ok text ∧ StandsAloneInJson text := by
  refine ⟨?_, ?_, ?_⟩
  · intro proof salt predicate hproof hsalt hpredicate
    obtain ⟨bytes, hwrite, hfills⟩ :=
      exists_fills_toCbor proof salt predicate hproof hsalt hpredicate
    exact ⟨bytes, hwrite, standsAloneInBytes_of_fills hfills⟩
  · intro b t htorn bytes hwrite
    rw [toCbor_of_tornFirst htorn] at hwrite
    cases hwrite
  · intro proof salt predicate
    refine ⟨_, toJson_ofAnyTexts proof salt predicate, ?_⟩
    obtain ⟨e, entries, hentries⟩ := exists_textEntries_eq_cons proof salt predicate
    obtain ⟨cs, hcs⟩ := Json.exists_mappingOfTexts_eq_brace e entries
    have hfills := Json.fills_mappingOfTexts (e :: entries)
    rw [hcs] at hfills
    rw [hentries, hcs]
    exact standsAloneInJson_of_fills String.toList_ofList hfills

/-- The bytes of a bundle cut within a character of its salt, and its JSON cut between the two
escapes of that character. -/
theorem a_trial_bundle_is_cut_within_a_character :
    ofCbor (.bytes [164, 97, 118, 1, 97, 112, 99, 77, 65, 67, 97, 115, 104, 115, 97, 108, 116, 240,
        159]) =
      .error (.unreadable "bundle" (.bytes [164, 97, 118, 1, 97, 112, 99, 77, 65, 67, 97, 115, 104,
        115, 97, 108, 116, 240, 159]) .invalidCbor) ∧
    ofJson (.text "\x7b\"proof\": \"MAC\", \"salt\": \"salt\\ud83d") =
      .error (.unreadable "bundle"
        (.text "\x7b\"proof\": \"MAC\", \"salt\": \"salt\\ud83d") .invalidJson) := by
  have hshort : ∀ s : String, s.length < 2 ^ 62 → Cbor.Fits s := fun _ => Cbor.fits_of_length_lt
  have hcbor : (ofTexts "MAC" "salt😀" none).toCbor = .ok [164, 97, 118, 1, 97, 112, 99, 77, 65, 67,
      97, 115, 104, 115, 97, 108, 116, 240, 159, 152, 128, 97, 116, 246] := rfl
  have hjson : (ofAnyTexts "MAC" "salt😀" none).toJson =
      .ok "\x7b\"proof\": \"MAC\", \"salt\": \"salt\\ud83d\\ude00\"\x7d" := rfl
  obtain ⟨hbytes, _, hwritten⟩ := a_cut_bundle_is_refused
  obtain ⟨text, hwrite, hstands⟩ := hwritten "MAC" "salt😀" none
  obtain ⟨bytes, hwrite', hstands'⟩ := hbytes "MAC" "salt😀" none (hshort _ (by decide))
    (hshort _ (by decide)) (fun _ h => nomatch h)
  rw [hcbor] at hwrite'
  rw [hjson] at hwrite
  cases hwrite
  cases hwrite'
  constructor
  · exact hstands'.front_refused _ (.bytes _) (by decide) (by decide) rfl
  · exact hstands.front_refused _ (.text _) (by decide) (by decide) (Or.inl rfl)

end Attestation.Bundle
