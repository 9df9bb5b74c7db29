-- The law of comparison. A bit of the gathered difference is set just when the two sequences
-- differ in that bit at some place, so differences never cancel out, wherever they stand and
-- however many there are. So nothing is gathered just when all places agree, and the comparison
-- of two values is the equality of what they hold.
import Attestation.Comparison
import Mathlib

namespace Attestation.Comparison

/-! ## The gathered difference -/

/-- A bit that was gathered stays, and a bit is gathered where a pair differs in it. -/
theorem testBit_gathered (pairs : List (ℕ × ℕ)) (start k : ℕ) :
    (pairs.foldl (fun gathered (x, y) => gathered ||| (x ^^^ y)) start).testBit k = true ↔
      start.testBit k = true ∨ ∃ p ∈ pairs, p.1.testBit k ≠ p.2.testBit k := by
  induction pairs generalizing start with
  | nil => simp
  | cons p rest ih =>
    rw [List.foldl_cons, ih, Nat.testBit_or, Nat.testBit_xor, Bool.or_eq_true, bne_iff_ne, or_assoc,
      List.exists_mem_cons_iff]

theorem mem_zip_iff {xs ys : List ℕ} {p : ℕ × ℕ} :
    p ∈ xs.zip ys ↔ ∃ i : ℕ, xs[i]? = some p.1 ∧ ys[i]? = some p.2 := by
  simp only [List.mem_iff_getElem?, List.getElem?_zip_eq_some]

/-- The gathered difference has the bits in which some place differs, and no others. -/
theorem testBit_difference_iff (xs ys : List ℕ) (k : ℕ) :
    (difference xs ys).testBit k = true ↔
      ∃ (i x y : ℕ), xs[i]? = some x ∧ ys[i]? = some y ∧ x.testBit k ≠ y.testBit k := by
  rw [difference, testBit_gathered, Nat.zero_testBit]
  constructor
  · rintro (h | ⟨⟨x, y⟩, hmem, hdiffers⟩)
    · cases h
    · obtain ⟨i, hx, hy⟩ := mem_zip_iff.1 hmem
      exact ⟨i, x, y, hx, hy, hdiffers⟩
  · rintro ⟨i, x, y, hx, hy, hdiffers⟩
    exact Or.inr ⟨(x, y), mem_zip_iff.2 ⟨i, hx, hy⟩, hdiffers⟩

/-- Of sequences of one length nothing is gathered just when they are one sequence. -/
theorem difference_eq_zero_iff_eq {xs ys : List ℕ} (h : xs.length = ys.length) :
    difference xs ys = 0 ↔ xs = ys := by
  rw [← agree_iff, agree, h, beq_self_eq_true, Bool.true_and, beq_iff_eq]

/-! ## What is compared -/

/-- The values that proofs and their like come as: nothing, a text, bytes, or bytes that may
change. -/
def IsComparable (v : Value) : Prop :=
  v = .none ∨ (∃ t, v = .ofText t) ∨ ∃ bs, v.bytes? = some bs

/-- The numbers of a text's code points. -/
def codePoints (t : Text) : List ℕ := t.points.map Point.toNat

/-- Both values are nothing, or both are texts of the same code points in the same order, or both
hold the same bytes, whether or not these may change. -/
def HoldSame (a b : Value) : Prop :=
  (a = .none ∧ b = .none) ∨
    (∃ s t, a = .ofText s ∧ b = .ofText t ∧ codePoints s = codePoints t) ∨
      ∃ bs, a.bytes? = some bs ∧ b.bytes? = some bs

variable {a b : Value} {bs cs : List UInt8}

theorem mapM_whole?_bytes (bs : List UInt8) :
    (bs.map fun b => Value.int b.toNat).mapM Value.whole? =
      some (bs.map fun b => (b.toNat : ℤ)) := by
  induction bs with
  | nil => rfl
  | cons b rest ih => simp [List.mapM_cons, Value.whole?, ih]

theorem wholes?_of_bytes? (h : a.bytes? = some bs) :
    wholes? a = some (bs.map fun b => (b.toNat : ℤ)) := by
  cases a with
  | bytes _ =>
    cases h
    exact mapM_whole?_bytes bs
  | buffer _ =>
    cases h
    exact mapM_whole?_bytes bs
  | _ => cases h

theorem toInt_bytes_inj :
    (bs.map fun b => (b.toNat : ℤ)) = cs.map (fun c => (c.toNat : ℤ)) ↔ bs = cs :=
  List.map_inj_right fun _ _ h => UInt8.toNat_inj.1 (Int.ofNat_inj.1 h)

theorem toNat_bytes_inj : bs.map UInt8.toNat = cs.map UInt8.toNat ↔ bs = cs :=
  List.map_inj_right fun _ _ => UInt8.toNat_inj.1

/-- Two values are the same whole numbers. -/
theorem sameWholes_iff :
    (match wholes? a, wholes? b with
      | some xs, some ys => agree (xs.map code) (ys.map code)
      | _, _ => false) = true ↔ ∃ xs, wholes? a = some xs ∧ wholes? b = some xs := by
  cases wholes? a with
  | none => simp
  | some xs =>
    cases wholes? b with
    | none => simp
    | some ys =>
      rw [agree_iff, List.map_inj_right fun _ _ => code_inj.1]
      simp [eq_comm]

theorem toText?_eq_none_iff {v : Value} : v.toText? = none ↔ ∀ t, v ≠ .ofText t := by
  simp only [Option.eq_none_iff_forall_ne_some, ne_eq, Value.toText?_eq_some_iff]

/-- A text equals itself and nothing else, -/
theorem equal_ofText_iff (s : Text) : equal (.ofText s) b = true ↔ b = .ofText s := by
  unfold equal
  rw [Value.toText?_ofText, ← Value.toText?_eq_some_iff]
  cases b.toText? with
  | none => simp
  | some t => rw [sameText_iff, Option.some.injEq, eq_comm]

/-- on whichever side it stands. -/
theorem equal_ofText_right_iff (t : Text) : equal a (.ofText t) = true ↔ a = .ofText t := by
  unfold equal
  rw [Value.toText?_ofText, ← Value.toText?_eq_some_iff]
  cases a.toText? with
  | none => simp
  | some s => rw [sameText_iff, Option.some.injEq]

/-- Nothing is compared with nothing, a text with a text, and all else as whole numbers. -/
theorem equal_eq_true_iff : equal a b = true ↔ (a = .none ∧ b = .none) ∨
    (∃ t, a = .ofText t ∧ b = .ofText t) ∨
      (a.toText? = none ∧ b.toText? = none ∧ ∃ xs, wholes? a = some xs ∧ wholes? b = some xs) := by
  have htext : ∀ t, Value.ofText t ≠ .none := fun t => by cases t <;> exact nofun
  cases ha : a.toText? with
  | some s =>
    rw [Value.toText?_eq_some_iff] at ha
    subst ha
    simp [equal_ofText_iff, htext, Value.ofText_inj]
  | none =>
    cases hb : b.toText? with
    | some t =>
      rw [Value.toText?_eq_some_iff] at hb
      subst hb
      simp [equal_ofText_right_iff, htext, Value.ofText_inj]
    | none =>
      have hnotText : ¬ ∃ t, a = .ofText t ∧ b = .ofText t := fun ⟨t, h, _⟩ =>
        toText?_eq_none_iff.1 ha t h
      unfold equal
      simp only [ha, hb]
      split
      · exact iff_of_true rfl (Or.inl ⟨rfl, rfl⟩)
      · rename_i hnone
        rw [or_iff_right fun h => hnone h.1 h.2, or_iff_right hnotText]
        exact sameWholes_iff.trans ⟨fun h => ⟨trivial, trivial, h⟩, fun h => h.2.2⟩

/-! ## Equality of what is held -/

theorem codePoints_inj {s t : Text} : codePoints s = codePoints t ↔ s = t := by
  rw [← sameText_iff, Comparison.sameText, agree_iff]
  rfl

/-- What may be compared and is no text has whole numbers only if it has bytes. -/
theorem exists_bytes?_of_wholes? {xs : List ℤ} (ha : IsComparable a) (htext : a.toText? = none)
    (h : wholes? a = some xs) : ∃ bs, a.bytes? = some bs ∧ xs = bs.map fun b => (b.toNat : ℤ) := by
  rcases ha with rfl | ⟨t, rfl⟩ | ⟨bs, hbs⟩
  · cases h
  · exact absurd rfl (toText?_eq_none_iff.1 htext t)
  · rw [wholes?_of_bytes? hbs] at h
    exact ⟨bs, hbs, (Option.some.inj h).symm⟩

theorem toText?_of_bytes? (h : a.bytes? = some bs) : a.toText? = none := by
  cases a <;> first | rfl | cases h

theorem equal_iff_holdSame (ha : IsComparable a) (hb : IsComparable b) :
    equal a b = true ↔ HoldSame a b := by
  rw [equal_eq_true_iff]
  refine or_congr Iff.rfl (or_congr ?_ ?_)
  · constructor
    · rintro ⟨t, ha, hb⟩
      exact ⟨t, t, ha, hb, rfl⟩
    · rintro ⟨s, t, ha, hb, h⟩
      exact ⟨s, ha, by rw [hb, codePoints_inj.1 h]⟩
  · constructor
    · rintro ⟨hatext, hbtext, xs, hxs, hys⟩
      obtain ⟨bs, hbs, rfl⟩ := exists_bytes?_of_wholes? ha hatext hxs
      obtain ⟨cs, hcs, h⟩ := exists_bytes?_of_wholes? hb hbtext hys
      exact ⟨bs, hbs, by rw [hcs, toInt_bytes_inj.1 h]⟩
    · rintro ⟨bs, hbs, hcs⟩
      exact ⟨toText?_of_bytes? hbs, toText?_of_bytes? hcs, _, wholes?_of_bytes? hbs,
        wholes?_of_bytes? hcs⟩

theorem isComparable_of_bytes? (h : a.bytes? = some bs) : IsComparable a := Or.inr (Or.inr ⟨bs, h⟩)

theorem equal_bytes_iff (ha : a.bytes? = some bs) (hb : b.bytes? = some cs) :
    equal a b = true ↔ bs = cs := by
  rw [equal_iff_holdSame (isComparable_of_bytes? ha) (isComparable_of_bytes? hb)]
  constructor
  · rintro (⟨rfl, _⟩ | ⟨s, _, rfl, _⟩ | ⟨ds, hds, hes⟩)
    · cases ha
    · have hnone := toText?_of_bytes? ha
      rw [Value.toText?_ofText] at hnone
      cases hnone
    · rw [ha] at hds
      rw [hb] at hes
      exact (Option.some.inj hds).trans (Option.some.inj hes).symm
  · rintro rfl
    exact Or.inr (Or.inr ⟨bs, ha, hb⟩)

/-! ## Comparison is equality -/

/-- Of nothing, texts and bytes two are found equal just when both are nothing, or both are texts
of the same code points, or both hold the same bytes. That is so just when they have one length and
nothing is gathered. Of two sequences of one length nothing is gathered just when they agree at
every place, and a bit is gathered just when some place differs in it, so that no difference takes
another away. -/
theorem a_comparison_is_equality :
    (∀ a b, IsComparable a → IsComparable b → (equal a b = true ↔ HoldSame a b)) ∧
    (∀ s t : Text, equal (.ofText s) (.ofText t) = true ↔ s.points.length = t.points.length ∧
      difference (codePoints s) (codePoints t) = 0) ∧
    (∀ (a b : Value) bs cs, a.bytes? = some bs → b.bytes? = some cs →
      (equal a b = true ↔ bs.length = cs.length ∧
        difference (bs.map UInt8.toNat) (cs.map UInt8.toNat) = 0)) ∧
    (∀ xs ys : List ℕ, xs.length = ys.length →
      (difference xs ys = 0 ↔ ∀ i : ℕ, xs[i]? = ys[i]?)) ∧
    ∀ (xs ys : List ℕ) k, (difference xs ys).testBit k = true ↔
      ∃ (i x y : ℕ), xs[i]? = some x ∧ ys[i]? = some y ∧ x.testBit k ≠ y.testBit k := by
  refine ⟨fun _ _ => equal_iff_holdSame, fun s t => ?_, fun a b bs cs ha hb => ?_,
    fun xs ys hlength => ?_, testBit_difference_iff⟩
  · have hagree : equal (.ofText s) (.ofText t) = agree (codePoints s) (codePoints t) := by
      unfold equal
      rw [Value.toText?_ofText, Value.toText?_ofText]
      rfl
    simp [hagree, agree, codePoints]
  · have hagree : equal a b = true ↔ agree (bs.map UInt8.toNat) (cs.map UInt8.toNat) = true := by
      rw [equal_bytes_iff ha hb, agree_iff, toNat_bytes_inj]
    simp [hagree, agree]
  · rw [difference_eq_zero_iff_eq hlength, List.ext_getElem?_iff]

/-- Two letters that change places differ in the same bits at both, and these bits are gathered
and stay. Bytes equal the same bytes that may change, and empty ones are not nothing. -/
theorem two_letters_that_change_places_are_told_apart :
    equal (.text "ab") (.text "ba") = false ∧
      (difference [97, 98] [98, 97]).testBit 0 = true ∧
      equal (.bytes [97, 98]) (.buffer [97, 98]) = true ∧ equal (.bytes []) .none = false := by
  obtain ⟨hvalues, htexts, _, _, hbits⟩ := a_comparison_is_equality
  refine ⟨?_, ?_, ?_, ?_⟩
  · rw [Bool.eq_false_iff, ne_eq, ← Value.ofText_whole, ← Value.ofText_whole, htexts]
    rintro ⟨_, h⟩
    cases h
  · exact (hbits [97, 98] [98, 97] 0).2 ⟨0, 97, 98, rfl, rfl, by decide⟩
  · have hbytes := isComparable_of_bytes? (a := .bytes [97, 98]) rfl
    have hbuffer := isComparable_of_bytes? (a := .buffer [97, 98]) rfl
    exact (hvalues _ _ hbytes hbuffer).2 (Or.inr (Or.inr ⟨_, rfl, rfl⟩))
  · rw [Bool.eq_false_iff, ne_eq, hvalues _ _ (isComparable_of_bytes? rfl) (Or.inl rfl)]
    rintro (⟨⟨⟩, _⟩ | ⟨_, t, _, h, _⟩ | ⟨_, _, ⟨⟩⟩)
    cases t <;> cases h

end Attestation.Comparison
