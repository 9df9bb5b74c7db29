-- The laws of cut JSON. A text, a list or a mapping has an end of its own, so a reader that gives
-- one has seen all of it, and behind more characters it gives the same and leaves the more. A
-- number or a word may go on; it is settled only when something stands behind it, as it always
-- does within a list or a mapping. So a whole mapping is read from none of its fronts.
import Mathlib.Tactic.SplitIfs
import Attestation.Proofs.JsonForm

namespace Attestation.Json

open Point (ofChars)

/-! ## Texts -/

section
variable {ps : List Point}

theorem readText_append {place : Place} {done found rest : List Point}
    (h : readText place done ps = some (found, rest)) (more : List Point) :
    readText place done (ps ++ more) = some (found, rest ++ more) := by
  induction ps generalizing place done with
  | nil => cases h
  | cons p ps ih =>
    rw [List.cons_append]
    cases place with
    | plain =>
      unfold readText at h ⊢
      split_ifs at h ⊢
      · cases h
        rfl
      · exact ih h
      · exact ih h
    | escape =>
      unfold readText at h ⊢
      split_ifs at h ⊢
      · exact ih h
      · split at h
        · cases h
        · exact ih h
    | digits left value high =>
      unfold readText at h ⊢
      split at h
      · cases h
      · split_ifs at h ⊢
        · exact ih h
        · split at h
          · cases h
          · exact ih h
          · exact ih h
    | half high =>
      unfold readText at h ⊢
      split_ifs at h ⊢
      · cases h
        rfl
      · exact ih h
      · exact ih h
    | halfEscape high =>
      unfold readText at h ⊢
      split_ifs at h ⊢
      · exact ih h
      · split at h
        · cases h
        · exact ih h

/-! ## Blanks and digits -/

/-- More behind a list changes nothing about its first part. -/
theorem append_ne_cons {α : Type} {a : α} {xs : List α} (hxs : xs ≠ [])
    (h : ∀ tail, xs ≠ a :: tail) (more tail : List α) : xs ++ more ≠ a :: tail := by
  obtain ⟨b, left, rfl⟩ := List.exists_cons_of_ne_nil hxs
  intro heq
  exact h left (congrArg (· :: left) (List.cons.inj heq).1)

theorem skip_append_of_eq_cons {p : Point} {tail : List Point} (h : skip ps = p :: tail)
    (more : List Point) : skip (ps ++ more) = p :: (tail ++ more) := by
  unfold skip at h ⊢
  rw [List.dropWhile_append, h]
  rfl

theorem skip_append_of_ne_nil (h : skip ps ≠ []) (more : List Point) :
    skip (ps ++ more) = skip ps ++ more := by
  obtain ⟨p, tail, hskip⟩ := List.exists_cons_of_ne_nil h
  rw [skip_append_of_eq_cons hskip, hskip]
  rfl

end

section
variable {cs rest : List Char}

theorem spanDigits_append_of_ne_nil {ds : List Char} (h : Decimal.spanDigits cs = (ds, rest))
    (hrest : rest ≠ []) (more : List Char) :
    Decimal.spanDigits (cs ++ more) = (ds, rest ++ more) := by
  obtain ⟨hds, hdrop⟩ := Prod.mk.inj h
  have hempty : (cs.dropWhile DecimalDigit.isAscii).isEmpty = false := by
    rw [hdrop]
    exact List.isEmpty_eq_false_iff.2 hrest
  have hlength : ¬ (cs.takeWhile DecimalDigit.isAscii).length = cs.length := by
    intro hall
    have hsum := congrArg List.length (List.takeWhile_append_dropWhile (p := DecimalDigit.isAscii)
      (l := cs))
    rw [List.length_append, hall, hdrop] at hsum
    exact hrest (List.length_eq_zero_iff.1 (by omega))
  unfold Decimal.spanDigits
  rw [List.takeWhile_append, if_neg hlength, List.dropWhile_append, hempty, hds, hdrop]
  rfl

/-! ## Numbers -/

theorem readFraction_append {fraction : Option (List Char)}
    (h : readFraction cs = some (fraction, rest)) (hrest : rest ≠ []) (more : List Char) :
    readFraction (cs ++ more) = some (fraction, rest ++ more) := by
  unfold readFraction at h
  split at h
  · rename_i digits
    cases hspan : Decimal.spanDigits digits with
    | mk ds behind =>
      simp only [hspan, Option.ite_none_left_eq_some, Option.some.injEq, Prod.mk.injEq] at h
      obtain ⟨hds, rfl, rfl⟩ := h
      rw [List.cons_append, readFraction, spanDigits_append_of_ne_nil hspan hrest]
      exact if_neg hds
  · rename_i hpoint
    cases h
    unfold readFraction
    split
    · rename_i heq
      exact absurd heq (append_ne_cons hrest hpoint more _)
    · rfl

theorem readSign_append {negative : Bool} (h : Decimal.readSign cs = (negative, rest))
    (hcs : cs ≠ []) (more : List Char) :
    Decimal.readSign (cs ++ more) = (negative, rest ++ more) := by
  unfold Decimal.readSign at h
  split at h
  · cases h
    rfl
  · cases h
    rfl
  · rename_i hminus hplus
    cases h
    unfold Decimal.readSign
    split
    · rename_i heq
      exact absurd heq (append_ne_cons hcs hminus more _)
    · rename_i heq
      exact absurd heq (append_ne_cons hcs hplus more _)
    · rfl

theorem readPower_append {power : Option Int} (h : readPower cs = some (power, rest))
    (hrest : rest ≠ []) (more : List Char) :
    readPower (cs ++ more) = some (power, rest ++ more) := by
  cases cs with
  | nil =>
    cases h
    exact absurd rfl hrest
  | cons c cs =>
    rw [List.cons_append]
    by_cases hmark : c = 'e' ∨ c = 'E'
    · simp only [readPower, if_pos hmark] at h ⊢
      cases hsign : Decimal.readSign cs with
      | mk negative behind =>
        cases hspan : Decimal.spanDigits behind with
        | mk ds left =>
          simp only [hsign, hspan, Option.ite_none_left_eq_some, Option.some.injEq,
            Prod.mk.injEq] at h
          obtain ⟨hds, rfl, rfl⟩ := h
          have hcs : cs ≠ [] := by
            rintro rfl
            cases hsign
            cases hspan
            exact hrest rfl
          rw [readSign_append hsign hcs]
          simp only
          rw [spanDigits_append_of_ne_nil hspan hrest]
          exact if_neg hds
    · simp only [readPower, if_neg hmark] at h ⊢
      cases h
      rfl

theorem readUnsigned_append {negative : Bool} {v : Value}
    (h : readUnsigned negative cs = some (v, rest)) (hrest : rest ≠ []) (more : List Char) :
    readUnsigned negative (cs ++ more) = some (v, rest ++ more) := by
  cases hspan : Decimal.spanDigits cs with
  | mk whole behind =>
    unfold readUnsigned at h
    simp only [hspan] at h
    split at h
    · cases h
    · rename_i hwhole
      obtain ⟨⟨fraction, left⟩, hfraction, hnumber⟩ := Option.bind_eq_some_iff.1 h
      obtain ⟨⟨power, last⟩, hpower, hfound⟩ := Option.bind_eq_some_iff.1 hnumber
      have hlast : last = rest := by
        split at hfound
        · split at hfound
          · cases hfound
          · exact congrArg Prod.snd (Option.some.inj hfound)
        · exact congrArg Prod.snd (Option.some.inj hfound)
      subst hlast
      have hleft : left ≠ [] := by
        rintro rfl
        cases hpower
        exact hrest rfl
      have hbehind : behind ≠ [] := by
        rintro rfl
        cases hfraction
        exact hleft rfl
      unfold readUnsigned
      simp only [spanDigits_append_of_ne_nil hspan hbehind, if_neg hwhole,
        readFraction_append hfraction hleft, readPower_append hpower hrest,
        Option.bind_eq_bind, Option.bind_some]
      cases fraction with
      | none =>
        cases power with
        | none =>
          obtain ⟨hdigits, hint⟩ := Option.ite_none_left_eq_some.1 hfound
          cases hint
          exact if_neg hdigits
        | some e =>
          cases hfound
          rfl
      | some ds =>
        cases hfound
        rfl

/-! ## Words -/

theorem readWord_word {e : List Char × Value} (he : e ∈ words) (rest : List Char) :
    readWord (e.1 ++ rest) = some (e.2, rest) := by
  simp only [words, List.mem_cons, List.not_mem_nil, or_false] at he
  rcases he with rfl | rfl | rfl | rfl | rfl | rfl <;> rfl

theorem readWord_append {v : Value} (h : readWord cs = some (v, rest)) (more : List Char) :
    readWord (cs ++ more) = some (v, rest ++ more) := by
  obtain ⟨e, he, hfound⟩ := List.exists_of_findSome?_eq_some h
  simp only [Option.ite_none_right_eq_some, Option.some.injEq, Prod.mk.injEq] at hfound
  obtain ⟨hword, rfl, rfl⟩ := hfound
  obtain ⟨tail, rfl⟩ := List.isPrefixOf_iff_prefix.1 hword
  rw [List.drop_left, List.append_assoc]
  exact readWord_word he (tail ++ more)

/-- A digit starts no word, not even behind a minus. -/
theorem readWord_of_isAscii {c : Char} (h : DecimalDigit.isAscii c = true) (tail : List Char) :
    readWord (c :: tail) = none ∧ readWord ('-' :: c :: tail) = none := by
  have hne : ∀ letter : Char, DecimalDigit.isAscii letter = false → letter ≠ c := by
    rintro letter hletter rfl
    rw [h] at hletter
    cases hletter
  have hn := hne 'n' (by decide)
  have ht := hne 't' (by decide)
  have hf := hne 'f' (by decide)
  have hN := hne 'N' (by decide)
  have hI := hne 'I' (by decide)
  have hminus := hne '-' (by decide)
  constructor
  · simp [readWord, words, hn, ht, hf, hN, hI, hminus]
  · simp [readWord, words, hI]

theorem exists_isAscii_of_readUnsigned {negative : Bool} {found : Value × List Char}
    (h : readUnsigned negative cs = some found) :
    ∃ c tail, cs = c :: tail ∧ DecimalDigit.isAscii c = true := by
  cases cs with
  | nil => cases h
  | cons c tail =>
    refine ⟨c, tail, rfl, ?_⟩
    cases hc : DecimalDigit.isAscii c with
    | true => rfl
    | false => simp [readUnsigned, Decimal.spanDigits, hc] at h

theorem readLeafChars_append {v : Value} (h : readLeafChars cs = some (v, rest)) (hrest : rest ≠ [])
    (more : List Char) : readLeafChars (cs ++ more) = some (v, rest ++ more) := by
  unfold readLeafChars at h
  split at h
  · rename_i found hword
    cases h
    unfold readLeafChars
    rw [readWord_append hword]
  · split at h
    · rename_i tail _
      obtain ⟨c, digits, rfl, hc⟩ := exists_isAscii_of_readUnsigned h
      have hword := (readWord_of_isAscii hc (digits ++ more)).2
      have hnumber := readUnsigned_append h hrest more
      unfold readLeafChars
      simp only [List.cons_append, hword] at hnumber ⊢
      exact hnumber
    · rename_i hminus
      obtain ⟨c, digits, rfl, hc⟩ := exists_isAscii_of_readUnsigned h
      have hword := (readWord_of_isAscii hc (digits ++ more)).1
      have hnumber := readUnsigned_append h hrest more
      unfold readLeafChars
      simp only [List.cons_append, hword] at hnumber ⊢
      split
      · rename_i heq
        exact absurd heq (append_ne_cons (List.cons_ne_nil c digits) hminus more _)
      · exact hnumber

end

/-! ## Leaves -/

theorem charsBefore_ofChars_append (cs : List Char) (tail : List Point) :
    charsBefore (ofChars cs ++ tail) = cs ++ charsBefore tail := by
  induction cs with
  | nil => rfl
  | cons c cs ih => rw [Point.ofChars_cons, List.cons_append, charsBefore, ih, List.cons_append]

/-- Code points are characters, and behind them nothing or a half with the rest. -/
theorem exists_eq_ofChars_append (ps : List Point) :
    ∃ cs tail, ps = ofChars cs ++ tail ∧ (tail = [] ∨ ∃ n rest, tail = .half n :: rest) := by
  induction ps with
  | nil => exact ⟨[], [], rfl, Or.inl rfl⟩
  | cons p ps ih =>
    cases p with
    | char c =>
      obtain ⟨cs, tail, rfl, htail⟩ := ih
      exact ⟨c :: cs, tail, rfl, htail⟩
    | half n => exact ⟨[], .half n :: ps, rfl, Or.inr ⟨n, ps, rfl⟩⟩

theorem readLeaf_ofChars_append (cs : List Char) {tail : List Point} (h : charsBefore tail = []) :
    readLeaf (ofChars cs ++ tail) =
      (readLeafChars cs).map fun (v, rest) => (v, ofChars rest ++ tail) := by
  have hdrop : (ofChars cs ++ tail).drop cs.length = tail := by
    rw [← Point.length_ofChars cs, List.drop_left]
  rw [readLeaf, charsBefore_ofChars_append, h, List.append_nil]
  simp only [hdrop]

theorem readLeaf_append {ps rest : List Point} {v : Value} (h : readLeaf ps = some (v, rest))
    (hrest : rest ≠ []) (more : List Point) : readLeaf (ps ++ more) = some (v, rest ++ more) := by
  obtain ⟨cs, tail, rfl, rfl | ⟨n, behind, rfl⟩⟩ := exists_eq_ofChars_append ps
  · rw [readLeaf_ofChars_append cs rfl] at h
    obtain ⟨⟨found, left⟩, hread, heq⟩ := Option.map_eq_some_iff.1 h
    cases heq
    have hleft : left ≠ [] := by
      rintro rfl
      exact hrest rfl
    obtain ⟨ds, last, rfl, hlast⟩ := exists_eq_ofChars_append more
    have hbefore : charsBefore last = [] := by
      rcases hlast with rfl | ⟨n, behind, rfl⟩
      · rfl
      · rfl
    have hlong : ofChars cs ++ [] ++ (ofChars ds ++ last) = ofChars (cs ++ ds) ++ last := by simp
    rw [hlong, readLeaf_ofChars_append _ hbefore, readLeafChars_append hread hleft]
    simp
  · rw [readLeaf_ofChars_append cs rfl] at h
    obtain ⟨⟨found, left⟩, hread, heq⟩ := Option.map_eq_some_iff.1 h
    cases heq
    rw [List.append_assoc, readLeaf_ofChars_append cs rfl, hread]
    simp

/-! ## Values -/

section
variable {more ps rest : List Point}

/-- What was read has an end of its own, or something stands behind it. -/
def Settled (ps rest : List Point) : Prop :=
  rest ≠ [] ∨ ∃ c ∈ ['"', '[', '\x7b'], ps.head? = some (.char c)

/-- What is read under the first bound is read under the second one too, whatever follows. -/
structure ReadsOn (fuel wide : Nat) (more : List Point) : Prop where
  value : ∀ {ps v rest}, readValue fuel ps = some (v, rest) → Settled ps rest →
    readValue wide (ps ++ more) = some (v, rest ++ more)
  items : ∀ {done ps v rest}, readItems fuel done ps = some (v, rest) →
    readItems wide done (ps ++ more) = some (v, rest ++ more)
  entries : ∀ {done ps v rest}, readEntries fuel done ps = some (v, rest) →
    readEntries wide done (ps ++ more) = some (v, rest ++ more)

theorem settled_of_skip {p : Point} {tail : List Point} (h : skip rest = p :: tail) :
    Settled ps rest := by
  left
  rintro rfl
  cases h

theorem ne_nil_of_readValue {fuel : Nat} {found : Value × List Point}
    (h : readValue fuel ps = some found) : ps ≠ [] := by
  rintro rfl
  cases fuel <;> cases h

theorem ne_nil_of_readItems {fuel : Nat} {done : List Value} {found : Value × List Point}
    (h : readItems fuel done ps = some found) : ps ≠ [] := by
  rintro rfl
  cases fuel with
  | zero => cases h
  | succ fuel => cases fuel <;> cases h

theorem ne_nil_of_readEntries {fuel : Nat} {done : List (Value × Value)}
    {found : Value × List Point} (h : readEntries fuel done ps = some found) : ps ≠ [] := by
  rintro rfl
  cases fuel <;> cases h

section
variable {fuel wide : Nat} {v : Value}

theorem readValue_append_of_readsOn (ih : ReadsOn fuel wide more)
    (h : readValue (fuel + 1) ps = some (v, rest)) (hend : Settled ps rest) :
    readValue (wide + 1) (ps ++ more) = some (v, rest ++ more) := by
  cases ps with
  | nil => cases h
  | cons c ps =>
    rw [List.cons_append]
    unfold readValue at h ⊢
    simp only at h ⊢
    split at h
    · rename_i hquote
      rw [if_pos hquote]
      obtain ⟨⟨text, left⟩, htext, hfound⟩ := Option.map_eq_some_iff.1 h
      cases hfound
      rw [readText_append htext]
      rfl
    rename_i hquote
    rw [if_neg hquote]
    split at h
    · rename_i hlist
      rw [if_pos hlist]
      split at h
      · rename_i behind hclosed
        rw [skip_append_of_eq_cons hclosed]
        cases h
        rfl
      · rename_i hopen
        have hitems := ne_nil_of_readItems h
        rw [skip_append_of_ne_nil hitems]
        split
        · rename_i heq
          exact absurd heq (append_ne_cons hitems hopen more _)
        · exact ih.items h
    rename_i hlist
    rw [if_neg hlist]
    split at h
    · rename_i hmapping
      rw [if_pos hmapping]
      split at h
      · rename_i behind hclosed
        rw [skip_append_of_eq_cons hclosed]
        cases h
        rfl
      · rename_i hopen
        have hentries := ne_nil_of_readEntries h
        rw [skip_append_of_ne_nil hentries]
        split
        · rename_i heq
          exact absurd heq (append_ne_cons hentries hopen more _)
        · exact ih.entries h
    · rename_i hmapping
      rw [if_neg hmapping]
      have hrest : rest ≠ [] := by
        rcases hend with hrest | ⟨opener, hmem, hhead⟩
        · exact hrest
        · cases hhead
          rw [Point.char.injEq] at hquote hlist hmapping
          simp [hquote, hlist, hmapping] at hmem
      exact readLeaf_append h hrest more

theorem readItems_append_of_readsOn (ih : ReadsOn fuel wide more) {done : List Value}
    (h : readItems (fuel + 1) done ps = some (v, rest)) :
    readItems (wide + 1) done (ps ++ more) = some (v, rest ++ more) := by
  unfold readItems at h ⊢
  split at h
  · cases h
  · rename_i item left hitem
    split at h
    · rename_i behind hskip
      rw [ih.value hitem (settled_of_skip hskip)]
      simp only [skip_append_of_eq_cons hskip]
      cases h
      rfl
    · rename_i behind hskip
      rw [ih.value hitem (settled_of_skip hskip)]
      simp only [skip_append_of_eq_cons hskip]
      rw [skip_append_of_ne_nil (ne_nil_of_readItems h)]
      exact ih.items h
    · cases h

theorem readEntries_append_of_readsOn (ih : ReadsOn fuel wide more)
    {done : List (Value × Value)} (h : readEntries (fuel + 1) done ps = some (v, rest)) :
    readEntries (wide + 1) done (ps ++ more) = some (v, rest ++ more) := by
  unfold readEntries at h
  split at h
  · rename_i tail
    rw [List.cons_append, readEntries]
    split at h
    · cases h
    · rename_i key left hkey
      rw [readText_append hkey]
      split at h
      · rename_i behind hcolon
        simp only [skip_append_of_eq_cons hcolon]
        split at h
        · cases h
        · rename_i item after hitem
          rw [skip_append_of_ne_nil (ne_nil_of_readValue hitem)]
          split at h
          · rename_i last hskip
            rw [ih.value hitem (settled_of_skip hskip)]
            simp only [skip_append_of_eq_cons hskip]
            cases h
            rfl
          · rename_i next hskip
            rw [ih.value hitem (settled_of_skip hskip)]
            simp only [skip_append_of_eq_cons hskip]
            rw [skip_append_of_ne_nil (ne_nil_of_readEntries h)]
            exact ih.entries h
          · cases h
      · cases h
  · cases h

end

theorem readsOn (more : List Point) {fuel wide : Nat} (hwide : fuel ≤ wide) :
    ReadsOn fuel wide more := by
  induction fuel generalizing wide with
  | zero => exact ⟨(nomatch ·), (nomatch ·), (nomatch ·)⟩
  | succ fuel ih =>
    obtain ⟨wide, rfl⟩ := Nat.exists_eq_add_of_le' (Nat.le_of_add_left_le hwide)
    have hless := ih (Nat.le_of_succ_le_succ hwide)
    exact ⟨readValue_append_of_readsOn hless, readItems_append_of_readsOn hless,
      readEntries_append_of_readsOn hless⟩

end

/-! ## Fronts -/

section
variable {cs : List Char}

theorem skip_brace (ps : List Point) : skip (.char '\x7b' :: ps) = .char '\x7b' :: ps := rfl

theorem settled_brace (ps rest : List Point) : Settled (.char '\x7b' :: ps) rest :=
  Or.inr ⟨'\x7b', by decide, rfl⟩

/-- Behind a whole mapping only blanks may stand. -/
theorem parse_append_of_fills {v : Value} (h : Fills ('\x7b' :: cs) v) (more : List Point) :
    parse (ofChars ('\x7b' :: cs) ++ more) = if (skip more).isEmpty then some v else none := by
  have hbound : 2 * ('\x7b' :: cs).length + 2 ≤
      2 * (ofChars ('\x7b' :: cs) ++ more).length + 2 := by
    rw [List.length_append, Point.length_ofChars]
    omega
  have hwhole := (readsOn more hbound).value h (settled_brace _ [])
  unfold parse
  rw [Point.ofChars_cons, List.cons_append, skip_brace]
  rw [Point.ofChars_cons, List.cons_append] at hwhole
  rw [hwhole]
  rfl

/-- A mapping that is read from a front is read from the whole, and leaves what was cut off. -/
theorem parse_eq_none_of_front {front : List Char} {v : Value} (h : Fills ('\x7b' :: cs) v)
    (hfront : front <+: '\x7b' :: cs) (hne : front ≠ '\x7b' :: cs) :
    parse (ofChars front) = none := by
  obtain ⟨cut, hcut⟩ := hfront
  cases front with
  | nil => rfl
  | cons c front =>
    rw [List.cons_append] at hcut
    obtain ⟨rfl, rfl⟩ := List.cons.inj hcut
    have hbound : 2 * (ofChars ('\x7b' :: front)).length + 2 ≤
        2 * ('\x7b' :: (front ++ cut)).length + 2 := by
      rw [Point.length_ofChars, List.length_cons, List.length_cons, List.length_append]
      omega
    unfold parse
    rw [Point.ofChars_cons, skip_brace]
    split
    · rename_i item left hread
      have hwhole := (readsOn (ofChars cut) hbound).value hread (settled_brace _ left)
      rw [List.cons_append, ← Point.ofChars_append, ← Point.ofChars_cons, h] at hwhole
      have hleft : left ++ ofChars cut = [] := (congrArg Prod.snd (Option.some.inj hwhole)).symm
      have hcut : cut = [] := by
        simpa [Point.ofChars] using (List.append_eq_nil_iff.1 hleft).2
      rw [hcut, List.append_nil] at hne
      exact absurd rfl hne
    · rfl

end

end Attestation.Json
