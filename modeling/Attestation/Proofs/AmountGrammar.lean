-- The grammar of amounts. A text is an amount just when it is a sign or none, digits with at
-- most one point among them, and a power of ten or none, and it is read to the last digit.
-- Callers may hand in those amounts that are not too large and not too fine.
import Attestation.Reading
import Attestation.Proofs.AmountValue
import Attestation.Proofs.DigitText
import Attestation.Proofs.Guards

namespace Attestation.Decimal

open DecimalDigit

/-! ## The grammar -/

/-- A sign or none, and whether it is a minus. -/
inductive SignForm : List Char → Bool → Prop
  | absent : SignForm [] false
  | plus : SignForm ['+'] false
  | minus : SignForm ['-'] true

/-- Digits with at most one point among them: those before the point and those behind it. The
point may stand first or last, but not alone. -/
inductive MantissaForm : List Char → List Char → List Char → Prop
  | whole {ds : List Char} : AreDigits ds → ds ≠ [] → MantissaForm ds ds []
  | pointed {ds fs : List Char} : AreDigits ds → ds ≠ [] → AreDigits fs →
      MantissaForm (ds ++ '.' :: fs) ds fs
  | bare {fs : List Char} : AreDigits fs → fs ≠ [] → MantissaForm ('.' :: fs) [] fs

/-- A power of ten or none: e or E, a sign or none, and one to six digits. -/
inductive PowerForm : List Char → ℤ → Prop
  | absent : PowerForm [] 0
  | marked {mark : Char} {sign ds : List Char} {negative : Bool} :
      mark = 'e' ∨ mark = 'E' → SignForm sign negative → AreDigits ds →
      1 ≤ ds.length → ds.length ≤ 6 →
      PowerForm (mark :: (sign ++ ds))
        ((if negative then -1 else 1) * (Nat.ofDigitChars 10 ds 0 : ℤ))

/-- A whole text in the form of an amount. All its digits are kept, as one whole number, and the
exponent makes up for those behind the point. -/
inductive AmountForm : List Char → Decimal → Prop
  | mk {sign mantissa power whole fraction : List Char} {negative : Bool} {e : ℤ} :
      SignForm sign negative → MantissaForm mantissa whole fraction → PowerForm power e →
      AmountForm (sign ++ (mantissa ++ power))
        ⟨negative, Nat.ofDigitChars 10 (whole ++ fraction) 0, e - fraction.length⟩

theorem signForm_minus (negative : Bool) : SignForm (if negative then ['-'] else []) negative := by
  cases negative
  · exact .absent
  · exact .minus

/-- Digits, with a point only where more digits follow it. -/
theorem mantissaForm_append {ds fs : List Char} (hds : AreDigits ds) (hfilled : ds ≠ [])
    (hfs : AreDigits fs) : MantissaForm (ds ++ (if fs = [] then [] else '.' :: fs)) ds fs := by
  by_cases hnil : fs = []
  · rw [hnil, if_pos rfl, List.append_nil]
    exact .whole hds hfilled
  · rw [if_neg hnil]
    exact .pointed hds hfilled hfs

/-- A power of ten with its sign written out, and with zeros before its digits or without. -/
theorem powerForm_signed {mark : Char} (hmark : mark = 'e' ∨ mark = 'E') {e : ℤ} (zeros : ℕ)
    (hshort : zeros + (write e.natAbs).length ≤ 6) :
    PowerForm (mark :: (if e < 0 then '-' else '+') ::
      (List.replicate zeros '0' ++ write e.natAbs)) e := by
  have hdigits := areDigits_append (areDigits_replicate_zero zeros) (areDigits_write e.natAbs)
  have hvalue : Nat.ofDigitChars 10 (List.replicate zeros '0' ++ write e.natAbs) 0 = e.natAbs := by
    rw [← ofAscii_eq_ofDigitChars, ofAscii_replicate_append, ofAscii_write]
  have hcount : (List.replicate zeros '0' ++ write e.natAbs).length =
      zeros + (write e.natAbs).length := by
    rw [List.length_append, List.length_replicate]
  have hpos := length_write_pos e.natAbs
  rcases lt_or_ge e 0 with hneg | hnonneg
  · have hform := PowerForm.marked hmark .minus hdigits (by omega) (by omega)
    rw [hvalue, if_pos rfl, show (-1 : ℤ) * (e.natAbs : ℤ) = e by omega] at hform
    rw [if_pos hneg]
    exact hform
  · have hform := PowerForm.marked hmark .plus hdigits (by omega) (by omega)
    rw [hvalue, if_neg (by decide), show (1 : ℤ) * (e.natAbs : ℤ) = e by omega] at hform
    rw [if_neg (not_lt.2 hnonneg)]
    exact hform

/-- The last digit of an amount stands in the 400th place behind the point or before it, and the
leading one at most 400 places away from the units. Zero has one digit. -/
def InReach (d : Decimal) : Prop :=
  -d.exponent ≤ 400 ∧ |d.exponent + (max 1 (Nat.digits 10 d.coefficient).length : ℕ) - 1| ≤ 400

/-! ## Digits and signs -/

/-- The text starts with no digit. -/
def NoDigitFirst (cs : List Char) : Prop := ∀ c more, cs = c :: more → isAscii c = false

theorem noDigitFirst_nil : NoDigitFirst [] := nofun

theorem spanDigits_append {ds rest : List Char} (hds : ∀ c ∈ ds, isAscii c = true)
    (hrest : NoDigitFirst rest) : spanDigits (ds ++ rest) = (ds, rest) := by
  unfold spanDigits
  rw [List.takeWhile_append_of_pos hds, List.dropWhile_append_of_pos hds]
  cases rest with
  | nil => simp
  | cons c more =>
    have hc := hrest c more rfl
    simp [hc]

theorem areDigits_of_spanDigits {cs ds rest : List Char} (h : spanDigits cs = (ds, rest)) :
    AreDigits ds ∧ cs = ds ++ rest := by
  unfold spanDigits at h
  cases h
  refine ⟨areDigits_iff.2 ?_, List.takeWhile_append_dropWhile.symm⟩
  intro c hc
  exact List.mem_takeWhile_imp hc

/-- The text starts with no sign. -/
def NoSignFirst (cs : List Char) : Prop := ∀ c more, cs = c :: more → c ≠ '+' ∧ c ≠ '-'

theorem noSignFirst_of_isAscii {c : Char} (h : isAscii c = true) (rest : List Char) :
    NoSignFirst (c :: rest) := by
  rintro _ _ ⟨⟩
  constructor
  · rintro rfl
    cases h
  · rintro rfl
    cases h

theorem readSign_append {sign rest : List Char} {negative : Bool} (h : SignForm sign negative)
    (hrest : NoSignFirst rest) : readSign (sign ++ rest) = (negative, rest) := by
  cases h with
  | plus => rfl
  | minus => rfl
  | absent =>
    rw [List.nil_append]
    unfold readSign
    split
    · exact absurd rfl (hrest _ _ rfl).2
    · exact absurd rfl (hrest _ _ rfl).1
    · rfl

theorem exists_signForm_of_readSign {cs rest : List Char} {negative : Bool}
    (h : readSign cs = (negative, rest)) : ∃ sign, SignForm sign negative ∧ cs = sign ++ rest := by
  unfold readSign at h
  split at h
  · cases h
    exact ⟨_, .minus, rfl⟩
  · cases h
    exact ⟨_, .plus, rfl⟩
  · cases h
    exact ⟨_, .absent, rfl⟩

/-! ## The digits of an amount -/

/-- The text starts with nothing that could belong to the digits before it. -/
structure EndsMantissa (rest : List Char) : Prop where
  no_digit : NoDigitFirst rest
  no_point : ∀ more, rest ≠ '.' :: more

theorem noDigitFirst_point (more : List Char) : NoDigitFirst ('.' :: more) := by
  rintro _ _ ⟨⟩
  rfl

theorem readMantissa_append {mantissa whole fraction rest : List Char}
    (h : MantissaForm mantissa whole fraction) (hrest : EndsMantissa rest) :
    readMantissa (mantissa ++ rest) = some (whole, fraction, rest) := by
  unfold readMantissa
  cases h with
  | whole hds hfilled =>
    simp only [spanDigits_append (areDigits_iff.1 hds) hrest.no_digit]
    split
    · rename_i more
      exact absurd rfl (hrest.no_point more)
    · simp [hfilled]
  | pointed hds hfilled hfs =>
    simp only [List.append_assoc, List.cons_append,
      spanDigits_append (areDigits_iff.1 hds) (noDigitFirst_point _),
      spanDigits_append (areDigits_iff.1 hfs) hrest.no_digit]
    simp [hfilled]
  | bare hfs hfilled =>
    have hspan := @spanDigits_append [] _ nofun (noDigitFirst_point (fraction ++ rest))
    rw [List.nil_append] at hspan
    simp only [List.cons_append, hspan, spanDigits_append (areDigits_iff.1 hfs) hrest.no_digit]
    simp [hfilled]

theorem exists_mantissaForm_of_readMantissa {cs whole fraction rest : List Char}
    (h : readMantissa cs = some (whole, fraction, rest)) :
    ∃ mantissa, MantissaForm mantissa whole fraction ∧ cs = mantissa ++ rest := by
  unfold readMantissa at h
  cases hspan : spanDigits cs with
  | mk ds behind =>
    obtain ⟨hds, rfl⟩ := areDigits_of_spanDigits hspan
    simp only [hspan] at h
    split at h
    · rename_i more
      cases hmore : spanDigits more with
      | mk fs last =>
        obtain ⟨hfs, rfl⟩ := areDigits_of_spanDigits hmore
        simp only [hmore] at h
        split at h
        · cases h
        · rename_i hfilled
          cases h
          by_cases hnil : whole = []
          · subst hnil
            exact ⟨_, .bare hfs (by simpa using hfilled), rfl⟩
          · exact ⟨_, .pointed hds hnil hfs, by simp⟩
    · split at h
      · cases h
      · rename_i hfilled
        cases h
        exact ⟨_, .whole hds (by simpa using hfilled), rfl⟩

/-! ## The power of ten -/

theorem endsMantissa_of_powerForm {power : List Char} {e : ℤ} (h : PowerForm power e) :
    EndsMantissa power := by
  cases h with
  | absent => exact ⟨noDigitFirst_nil, nofun⟩
  | marked hmark _ _ _ _ =>
    rcases hmark with rfl | rfl
    · exact ⟨by rintro _ _ ⟨⟩; rfl, nofun⟩
    · exact ⟨by rintro _ _ ⟨⟩; rfl, nofun⟩

theorem readExponent_of_powerForm {power : List Char} {e : ℤ} (h : PowerForm power e) :
    readExponent (· ≤ 6) power = some e := by
  cases h with
  | absent => rfl
  | @marked mark sign ds negative hmark hsign hds hfilled hshort =>
    obtain ⟨c, more, rfl⟩ := List.exists_cons_of_length_pos hfilled
    have hc := areDigits_iff.1 hds c List.mem_cons_self
    have hspan := spanDigits_append (areDigits_iff.1 hds) noDigitFirst_nil
    rw [List.append_nil] at hspan
    unfold readExponent
    simp only [if_pos hmark, readSign_append hsign (noSignFirst_of_isAscii hc more), hspan,
      ofAscii_eq_ofDigitChars]
    rw [List.length_cons] at hshort
    cases negative <;> simp [hshort]

theorem powerForm_of_readExponent {power : List Char} {e : ℤ}
    (h : readExponent (· ≤ 6) power = some e) : PowerForm power e := by
  unfold readExponent at h
  split at h
  · cases h
    exact .absent
  · rename_i mark rest
    split at h
    · rename_i hmark
      cases hsigned : readSign rest with
      | mk negative more =>
        obtain ⟨sign, hsign, rfl⟩ := exists_signForm_of_readSign hsigned
        cases hspan : spanDigits more with
        | mk ds last =>
          obtain ⟨hds, rfl⟩ := areDigits_of_spanDigits hspan
          simp only [hsigned, hspan] at h
          split at h
          · cases h
          · rename_i hfits
            simp only [Bool.or_eq_true, List.isEmpty_iff, Bool.not_eq_true', not_or,
              decide_eq_false_iff_not, not_not, List.isEmpty_eq_false_iff] at hfits
            obtain ⟨⟨hfilled, hlast⟩, hshort⟩ := hfits
            subst hlast
            have hform := PowerForm.marked hmark hsign hds (List.length_pos_iff.2 hfilled) hshort
            cases h
            rw [List.append_nil, ofAscii_eq_ofDigitChars]
            cases negative <;> simpa using hform
    · cases h

/-! ## Whole amounts -/

theorem noSignFirst_of_mantissaForm {mantissa whole fraction : List Char}
    (h : MantissaForm mantissa whole fraction) (rest : List Char) :
    NoSignFirst (mantissa ++ rest) := by
  have hdigits : ∀ ds more : List Char, AreDigits ds → ds ≠ [] → NoSignFirst (ds ++ more) := by
    intro ds more hds hfilled
    obtain ⟨c, others, rfl⟩ := List.exists_cons_of_ne_nil hfilled
    exact noSignFirst_of_isAscii (areDigits_iff.1 hds c List.mem_cons_self) _
  cases h with
  | whole hds hfilled => exact hdigits _ _ hds hfilled
  | pointed hds hfilled _ =>
    rw [List.append_assoc]
    exact hdigits _ _ hds hfilled
  | bare _ _ =>
    rintro _ _ ⟨⟩
    exact ⟨nofun, nofun⟩

/-- The reader of amounts takes just what the grammar allows, and as the grammar has it. -/
theorem ofChars?_eq_some_iff {cs : List Char} {d : Decimal} :
    ofChars? cs = some d ↔ AmountForm cs d := by
  unfold ofChars? readWith
  constructor
  · intro h
    cases hsigned : readSign cs with
    | mk negative rest =>
      obtain ⟨sign, hsign, rfl⟩ := exists_signForm_of_readSign hsigned
      simp only [hsigned] at h
      split at h
      · cases h
      · rename_i whole fraction power hmantissa
        obtain ⟨mantissa, hform, rfl⟩ := exists_mantissaForm_of_readMantissa hmantissa
        split at h
        · cases h
        · rename_i e hpower
          cases h
          exact .mk hsign hform (powerForm_of_readExponent hpower)
  · rintro ⟨hsign, hmantissa, hpower⟩
    simp only [readSign_append hsign (noSignFirst_of_mantissaForm hmantissa _),
      readMantissa_append hmantissa (endsMantissa_of_powerForm hpower),
      readExponent_of_powerForm hpower, ofAscii_eq_ofDigitChars]

/-! ## The bounds -/

theorem isBounded_iff (d : Decimal) :
    d.isBounded = true ↔ d.adjusted.natAbs ≤ 400 ∧ -d.exponent ≤ 400 := by
  rw [isBounded, Bool.and_eq_true, decide_eq_true_eq, decide_eq_true_eq]
  rfl

theorem isBounded_iff_inReach (d : Decimal) : d.isBounded = true ↔ d.InReach := by
  rw [isBounded_iff, InReach, adjusted, digits, length_write, Int.abs_eq_natAbs]
  omega

end Attestation.Decimal

namespace Attestation.Reading

open Decimal

/-! ## Texts that callers hand in -/

variable {field t : String}

theorem amount_text_of_ofChars? {d : Decimal} (h : ofChars? t.toList = some d) :
    amount field (.text t) =
      if d.isBounded then .ok d else .error (.unreadable field (.text t) .beyondBounds) := by
  unfold amount Value.amount Value.writtenAmount
  simp only [h]
  split <;> rfl

theorem amount_text_of_ofChars?_none (h : ofChars? t.toList = none) :
    amount field (.text t) = .error (.unreadable field (.text t) .unparsed) := by
  unfold amount Value.amount Value.writtenAmount
  simp only [h]
  rfl

theorem amount_text_eq_ok_iff {d : Decimal} :
    amount field (.text t) = .ok d ↔ AmountForm t.toList d ∧ d.InReach := by
  rw [← ofChars?_eq_some_iff, ← isBounded_iff_inReach]
  cases hread : ofChars? t.toList with
  | none => simp [amount_text_of_ofChars?_none hread]
  | some e =>
    rw [amount_text_of_ofChars? hread, Option.some.injEq]
    by_cases h : e.isBounded = true
    · rw [if_pos h, Except.ok.injEq]
      refine ⟨fun heq => ⟨heq, ?_⟩, And.left⟩
      rwa [← heq]
    · rw [if_neg h]
      refine ⟨nofun, ?_⟩
      rintro ⟨rfl, hbounded⟩
      exact absurd hbounded h

/-- A text is read as an amount just when it has the form of one and is in reach. What is read
are its sign, all its digits as one whole number and its power of ten, so no digit of the value is
lost. A text of another form is refused as one that cannot be parsed, and so is every torn one; an
amount out of reach is refused as one out of bounds. Every refusal is of a malformed input. -/
theorem an_amount_is_read_just_as_it_is_written (field t : String) :
    (∀ d, amount field (.text t) = .ok d ↔ AmountForm t.toList d ∧ d.InReach) ∧
    (∀ d, amount field (.text t) = .ok d →
      d.value = (if d.negative then -1 else 1) * d.coefficient * 10 ^ d.exponent) ∧
    ((¬ ∃ d, AmountForm t.toList d) →
      amount field (.text t) = .error (.unreadable field (.text t) .unparsed)) ∧
    (∀ d, AmountForm t.toList d → ¬ d.InReach →
      amount field (.text t) = .error (.unreadable field (.text t) .beyondBounds)) ∧
    (∀ r, amount field (.text t) = .error r →
      r.name = "MalformedInputError" ∧ r.field? = some field) ∧
    ∀ t : Torn, amount field (.torn t) = .error (.unreadable field (.torn t) .unparsed) := by
  refine ⟨fun d => amount_text_eq_ok_iff, ?_, ?_, ?_, ?_, fun _ => rfl⟩
  · intro d _
    unfold value
    cases d.negative <;> simp
  · intro hform
    apply amount_text_of_ofChars?_none
    rw [Option.eq_none_iff_forall_not_mem]
    intro d hd
    exact hform ⟨d, ofChars?_eq_some_iff.1 hd⟩
  · intro d hform hreach
    rw [amount_text_of_ofChars? (ofChars?_eq_some_iff.2 hform), if_neg]
    rwa [isBounded_iff_inReach]
  · intro r hr
    obtain ⟨why, _, rfl⟩ := mapError_eq_error_iff.1 hr
    exact ⟨rfl, rfl⟩

/-- The least place in reach is read without a digit before the point, the next power of ten is
refused, and a line end behind a number makes it another text. -/
theorem an_amount_with_a_line_end_is_refused :
    amount "value" (.text "-.50E-398") = .ok ⟨true, 50, -400⟩ ∧
      amount "value" (.text "0e401") = .error (.unreadable "value" (.text "0e401") .beyondBounds) ∧
      amount "value" (.text "1\n") = .error (.unreadable "value" (.text "1\n") .unparsed) := by
  have hsmall : AmountForm "-.50E-398".toList ⟨true, 50, -400⟩ :=
    ofChars?_eq_some_iff.1 (by decide)
  have hlarge : AmountForm "0e401".toList ⟨false, 0, 401⟩ := ofChars?_eq_some_iff.1 (by decide)
  refine ⟨?_, ?_, ?_⟩
  · exact ((an_amount_is_read_just_as_it_is_written _ _).1 _).2 ⟨hsmall, by norm_num [InReach]⟩
  · exact (an_amount_is_read_just_as_it_is_written _ _).2.2.2.1 _ hlarge (by norm_num [InReach])
  · apply (an_amount_is_read_just_as_it_is_written _ _).2.2.1
    rintro ⟨d, hd⟩
    have hread := ofChars?_eq_some_iff.2 hd
    rw [show ofChars? "1\n".toList = none by decide] at hread
    cases hread

end Attestation.Reading
