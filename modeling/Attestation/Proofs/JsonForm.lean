-- The laws of JSON text. Every escape of the writer is undone by the reader, those of two units
-- too, so a text comes back code point by code point. Two halves that make a character have the
-- escapes of that character, and come back as it. A mapping of texts comes back entry by entry,
-- from its text and from the bytes of that text.
import Mathlib.Algebra.Group.Nat.Defs
import Attestation.Json
import Attestation.Proofs.TextBytes

namespace Attestation.Json

open Point (ofChars)
open WideUnits (High lone unit? apart? high? isLow join)

/-! ## Units -/

theorem digitValue?_digit_mod (n : Nat) : Hex.digitValue? (Hex.digit (n % 16)) = some (n % 16) :=
  Hex.digitValue?_digit ⟨n % 16, Nat.mod_lt n (by decide)⟩

/-- Digits that are not the last ones of a unit add to its value. -/
theorem readText_fixed (places n due value : Nat) (high : Option High) (done rest : List Point)
    (hdue : 0 < due) :
    readText (.digits (places + due) value high) done (ofChars (Hex.fixed places n) ++ rest) =
      readText (.digits due (16 ^ places * value + n % 16 ^ places) high) done rest := by
  induction places generalizing n due rest with
  | zero => simp [Hex.fixed, Nat.mod_one]
  | succ places ih =>
    have hshift : places + 1 + due = places + (due + 1) := by omega
    have hvalue : 16 * (16 ^ places * value + n / 16 % 16 ^ places) + n % 16 =
        16 ^ (places + 1) * value + n % 16 ^ (places + 1) := by
      rw [Nat.pow_succ, Nat.mul_comm (16 ^ places) 16, Nat.mod_mul, Nat.mul_assoc]
      omega
    have hmore : 1 < due + 1 := by omega
    rw [Hex.fixed, Point.ofChars_append, List.append_assoc, hshift, ih _ _ _ (by omega),
      Point.ofChars_cons, Point.ofChars_nil, List.singleton_append]
    simp only [readText, Point.char?, Option.bind_some, digitValue?_digit_mod, if_pos hmore,
      Nat.add_sub_cancel, hvalue]

/-- Where the reader stands behind a unit. -/
def Place.after : Option High → Place
  | none => .plain
  | some high => .half high

/-- A whole unit adds what it stands for, or waits. -/
theorem readText_unit {n : Nat} (h : n < 65536) {high next : Option High} {added : List Point}
    (hunit : unit? n high = some (added, next)) (done rest : List Point) :
    readText (.digits 4 0 high) done (ofChars (Hex.fixed 4 n) ++ rest) =
      readText (.after next) (added ++ done) rest := by
  have hlast : 16 * (16 ^ 3 * 0 + n / 16 % 16 ^ 3) + n % 16 = n := by omega
  have hsplit : ofChars (Hex.fixed 4 n) ++ rest =
      ofChars (Hex.fixed 3 (n / 16)) ++ (.char (Hex.digit (n % 16)) :: rest) := by
    simp [Hex.fixed]
  rw [hsplit, readText_fixed 3 (n / 16) 1 0 high done _ (by decide)]
  simp only [readText, Point.char?, Option.bind_some, digitValue?_digit_mod, hlast, hunit]
  cases next <;> rfl

theorem high?_eq_none {n : Nat} (h : n < 0xD800 ∨ 0xDC00 ≤ n) : high? n = none := by
  unfold high?
  rw [dif_neg (by omega)]

theorem high?_add (high : High) : high? (0xD800 + high.val) = some high := by
  have hbound := high.isLt
  unfold high?
  rw [dif_pos (by omega)]
  simp

/-- A code point that is no first half is its own unit. -/
theorem apart?_toNat {p : Point} (h : high? p.toNat = none) :
    apart? p.toNat = some ([p], none) := by
  simp [apart?, h, Point.ofNat?_toNat]

theorem apart?_add (high : High) : apart? (0xD800 + high.val) = some ([], some high) := by
  simp [apart?, high?_add]

theorem high?_toNat_char (c : Char) : high? c.toNat = none := by
  apply high?_eq_none
  have hvalid := Utf8.toNat_valid c
  omega

/-- The two halves of a character above U+FFFF are joined to it. -/
theorem unit?_join {c : Char} (h : 65536 ≤ c.toNat) :
    ∃ high : High, high.val = (c.toNat - 65536) / 1024 ∧
      unit? (0xDC00 + (c.toNat - 65536) % 1024) (some high) = some ([.char c], none) := by
  have htop := Utf8.toNat_lt c
  obtain ⟨high, hhigh⟩ : ∃ high : High, high.val = (c.toNat - 65536) / 1024 :=
    ⟨⟨_, by omega⟩, rfl⟩
  have hlow : isLow (0xDC00 + (c.toNat - 65536) % 1024) = true := by
    simp only [isLow, Bool.and_eq_true, decide_eq_true_eq]
    omega
  have hjoin : join high (0xDC00 + (c.toNat - 65536) % 1024) = c.toNat := by
    unfold join
    omega
  have hpoint : Point.ofNat? c.toNat = some (.char c) := Point.ofNat?_toNat (.char c)
  exact ⟨high, hhigh, by simp [unit?, hlow, hjoin, hpoint]⟩

/-! ## Characters -/

/-- A backslash and a letter stand for one code point. -/
theorem readText_escape {letter p : Point} (hletter : letter ≠ .char 'u')
    (h : escaped? letter = some p) (done rest : List Point) :
    readText .plain done (.char '\\' :: letter :: rest) = readText .plain (p :: done) rest := by
  simp [readText, hletter, h]

theorem ofChars_unitEscape (n : Nat) (rest : List Point) :
    ofChars (unitEscape n) ++ rest =
      .char '\\' :: .char 'u' :: (ofChars (Hex.fixed 4 n) ++ rest) := rfl

theorem readText_unitEscape {n : Nat} (h : n < 65536) {next : Option High} {added : List Point}
    (hunit : apart? n = some (added, next)) (done rest : List Point) :
    readText .plain done (ofChars (unitEscape n) ++ rest) =
      readText (.after next) (added ++ done) rest := by
  have hread := @readText_unit n h none next added hunit done rest
  rw [ofChars_unitEscape]
  simpa [readText] using hread

theorem readText_half_unitEscape {n : Nat} (h : n < 65536) {high : High} {next : Option High}
    {added : List Point} (hunit : unit? n (some high) = some (added, next))
    (done rest : List Point) :
    readText (.half high) done (ofChars (unitEscape n) ++ rest) =
      readText (.after next) (added ++ done) rest := by
  have hread := readText_unit h hunit done rest
  rw [ofChars_unitEscape]
  simpa [readText] using hread

/-- The ways in which a character is written. -/
inductive CharForm (c : Char) : List Char → Prop
  | itself (hquote : c ≠ '"') (hslash : c ≠ '\\') (hlow : 32 ≤ c.toNat) : CharForm c [c]
  | letter {letter : Char} (hletter : letter ≠ 'u') (h : escaped? (.char letter) = some (.char c)) :
      CharForm c ['\\', letter]
  | unit (h : c.toNat < 65536) : CharForm c (unitEscape c.toNat)
  | pair (h : 65536 ≤ c.toNat) : CharForm c (unitEscape (0xD800 + (c.toNat - 65536) / 1024) ++
      unitEscape (0xDC00 + (c.toNat - 65536) % 1024))

theorem charForm_writeChar (c : Char) : CharForm c (writeChar c) := by
  have hnumber : ∀ d : Char, c.toNat = d.toNat → c = d := fun d h => Char.toNat_inj.1 h
  unfold writeChar
  simp only
  split
  · rename_i h
    rcases h with rfl | rfl
    · exact .letter (by decide) rfl
    · exact .letter (by decide) rfl
  rename_i hquote
  split
  · rename_i h
    exact .letter (by decide) (hnumber '\n' h ▸ rfl)
  split
  · rename_i h
    exact .letter (by decide) (hnumber '\r' h ▸ rfl)
  split
  · rename_i h
    exact .letter (by decide) (hnumber '\t' h ▸ rfl)
  split
  · rename_i h
    exact .letter (by decide) (hnumber (Char.ofNat 8) h ▸ rfl)
  split
  · rename_i h
    exact .letter (by decide) (hnumber (Char.ofNat 12) h ▸ rfl)
  split
  · rename_i h
    rw [not_or] at hquote
    exact .itself hquote.1 hquote.2 h.1
  split
  · rename_i h
    exact .unit h
  · rename_i h
    exact .pair (Nat.not_lt.1 h)

/-- What is written for a character is read as that character. -/
theorem readText_writeChar (c : Char) (done rest : List Point) :
    readText .plain done (ofChars (writeChar c) ++ rest) =
      readText .plain (.char c :: done) rest := by
  have hform := charForm_writeChar c
  generalize writeChar c = cs at hform ⊢
  cases hform with
  | itself hquote hslash hlow =>
    have hnumber : ¬ (Point.char c).toNat < 32 := Nat.not_lt.2 hlow
    simp [readText, hquote, hslash, hnumber]
  | letter hletter h => exact readText_escape (by simpa using hletter) h done rest
  | unit h =>
    exact readText_unitEscape h (apart?_toNat (p := .char c) (high?_toNat_char c)) done rest
  | pair h =>
    have htop := Utf8.toNat_lt c
    obtain ⟨high, hfirst, hsecond⟩ := unit?_join h
    rw [Point.ofChars_append, List.append_assoc, ← hfirst,
      readText_unitEscape (by omega) (apart?_add high), Place.after,
      readText_half_unitEscape (by omega) hsecond]
    rfl

/-! ## Halves -/

/-- What stands behind a first half, and holds no second half that it could be joined with. -/
inductive Apart : List Point → Prop
  | other {p : Point} {rest : List Point} (h : p ≠ .char '\\') : Apart (p :: rest)
  | letter {p : Point} {rest : List Point} (h : p ≠ .char 'u') : Apart (.char '\\' :: p :: rest)
  | unit {n : Nat} {rest : List Point} (h : n < 65536) (hlow : isLow n = false) :
      Apart (ofChars (unitEscape n) ++ rest)

theorem exists_apart? {n : Nat} (h : n < 65536) : ∃ added next, apart? n = some (added, next) := by
  unfold apart?
  split
  · exact ⟨_, _, rfl⟩
  · unfold Point.ofNat?
    split
    · exact ⟨_, _, rfl⟩
    · rw [if_pos (by omega)]
      exact ⟨_, _, rfl⟩

/-- A first half that waits stays alone before what is apart from it. -/
theorem readText_half {ps : List Point} (h : Apart ps) (high : High) (done : List Point) :
    readText (.half high) done ps = readText .plain (lone high :: done) ps := by
  cases h with
  | other h => simp [readText, h]
  | letter h => simp [readText, h]
  | unit h hlow =>
    rename_i n rest
    obtain ⟨added, next, hunit⟩ := exists_apart? h
    have hwaiting : unit? n (some high) = some (added ++ [lone high], next) := by
      simp [unit?, hlow, hunit]
    rw [readText_half_unitEscape h hwaiting, readText_unitEscape h hunit]
    simp

theorem apart_writeChar (c : Char) (rest : List Point) : Apart (ofChars (writeChar c) ++ rest) := by
  have hform := charForm_writeChar c
  generalize writeChar c = cs at hform ⊢
  cases hform with
  | itself hquote hslash hlow => exact .other (by simpa using hslash)
  | letter hletter h => exact .letter (by simpa using hletter)
  | unit h =>
    have hvalid := Utf8.toNat_valid c
    refine .unit h ?_
    simp only [isLow, Bool.and_eq_false_iff, decide_eq_false_iff_not]
    omega
  | pair h =>
    have htop := Utf8.toNat_lt c
    rw [Point.ofChars_append, List.append_assoc]
    refine .unit (by omega) ?_
    simp only [isLow, Bool.and_eq_false_iff, decide_eq_false_iff_not]
    omega

theorem apart_writePoint_half {n : Fin 2048} (h : n.val < 1024) (rest : List Point) :
    Apart (ofChars (writePoint (.half n)) ++ rest) := by
  rw [writePoint, Point.toNat, Point.firstHalf]
  refine .unit (by omega) ?_
  simp only [isLow, Bool.and_eq_false_iff, decide_eq_false_iff_not]
  omega

/-- A half is read as it was written, unless it is a first one and is joined with what follows. -/
theorem readText_writePoint_half (n : Fin 2048) {tail : List Point} (h : n.val < 1024 → Apart tail)
    (done : List Point) :
    readText .plain done (ofChars (writePoint (.half n)) ++ tail) =
      readText .plain (.half n :: done) tail := by
  rw [writePoint]
  by_cases hfirst : n.val < 1024
  · have hunit := apart?_add ⟨n.val, hfirst⟩
    rw [Point.toNat, Point.firstHalf, readText_unitEscape (by omega) hunit, Place.after,
      readText_half (h hfirst)]
    rfl
  · have hnumber : (Point.half n).toNat < 65536 ∧ 0xDC00 ≤ (Point.half n).toNat := by
      simp only [Point.toNat, Point.firstHalf]
      omega
    rw [readText_unitEscape hnumber.1 (apart?_toNat (high?_eq_none (Or.inr hnumber.2)))]
    rfl

/-- The character of two halves, if the one is a first half and the other a second one. -/
def couple? (a b : Fin 2048) : Option Char :=
  if a.val < 1024 ∧ 1024 ≤ b.val then
    some (Char.ofNat (0x10000 + 1024 * a.val + (b.val - 1024)))
  else none

theorem readText_couple {a b : Fin 2048} {c : Char} (h : couple? a b = some c)
    (done rest : List Point) :
    readText .plain done
        (ofChars (writePoint (.half a)) ++ (ofChars (writePoint (.half b)) ++ rest)) =
      readText .plain (.char c :: done) rest := by
  obtain ⟨⟨ha, hb⟩, hc⟩ := Option.ite_none_right_eq_some.1 h
  have hbound := b.isLt
  obtain ⟨high, hhigh⟩ : ∃ high : High, high.val = a.val := ⟨⟨a.val, ha⟩, rfl⟩
  have hlow : isLow (0xD800 + b.val) = true := by
    simp only [isLow, Bool.and_eq_true, decide_eq_true_eq]
    omega
  have hjoin : join high (0xD800 + b.val) = 0x10000 + 1024 * a.val + (b.val - 1024) := by
    unfold join
    omega
  have hpoint : Point.ofNat? (0x10000 + 1024 * a.val + (b.val - 1024)) = some (.char c) := by
    unfold Point.ofNat? Point.firstHalf
    rw [dif_neg (by omega), if_pos (by omega), Option.some.inj hc]
  have hunit : unit? (0xD800 + b.val) (some high) = some ([.char c], none) := by
    simp [unit?, hlow, hjoin, hpoint]
  simp only [writePoint, Point.toNat, Point.firstHalf]
  rw [← hhigh, readText_unitEscape (by omega) (apart?_add high), Place.after,
    readText_half_unitEscape (by omega) hunit]
  rfl

/-- The code points that come back from those that were written: two halves that make a character
come back as it. -/
def paired : List Point → List Point
  | .half a :: .half b :: rest =>
    match couple? a b with
    | some c => .char c :: paired rest
    | none => .half a :: paired (.half b :: rest)
  | p :: rest => p :: paired rest
  | [] => []

/-- The text between its quotes. -/
def quotedPoints (ps : List Point) : List Char := '"' :: (ps.flatMap writePoint ++ ['"'])

/-- A text is read up to its closing quote. -/
theorem readText_flatMap_writePoint (ps done rest : List Point) :
    readText .plain done (ofChars (ps.flatMap writePoint) ++ .char '"' :: rest) =
      some (done.reverse ++ paired ps, rest) := by
  have hquote : Apart (.char '"' :: rest) := .other (by decide)
  fun_induction paired ps generalizing done with
  | case1 a b tail c hcouple ih =>
    rw [List.flatMap_cons, List.flatMap_cons, Point.ofChars_append, Point.ofChars_append,
      List.append_assoc, List.append_assoc, readText_couple hcouple, ih]
    simp
  | case2 a b tail hcouple ih =>
    have hapart : a.val < 1024 →
        Apart (ofChars ((Point.half b :: tail).flatMap writePoint) ++ .char '"' :: rest) := by
      intro ha
      have hb : b.val < 1024 := Nat.lt_of_not_le fun hb => by simp [couple?, ha, hb] at hcouple
      rw [List.flatMap_cons, Point.ofChars_append, List.append_assoc]
      exact apart_writePoint_half hb _
    rw [List.flatMap_cons, Point.ofChars_append, List.append_assoc,
      readText_writePoint_half a hapart, ih]
    simp
  | case3 p tail hnot ih =>
    rw [List.flatMap_cons, Point.ofChars_append, List.append_assoc]
    cases p with
    | char c =>
      rw [writePoint, readText_writeChar, ih]
      simp
    | half a =>
      have hapart : Apart (ofChars (tail.flatMap writePoint) ++ .char '"' :: rest) := by
        match tail with
        | [] => exact hquote
        | .char c :: tail =>
          rw [List.flatMap_cons, Point.ofChars_append, List.append_assoc]
          exact apart_writeChar c _
        | .half b :: tail => exact absurd rfl (hnot a b tail rfl)
      rw [readText_writePoint_half a fun _ => hapart, ih]
      simp
  | case4 => simp [readText]

/-! ## What comes back -/

@[simp]
theorem paired_char (c : Char) (ps : List Point) :
    paired (.char c :: ps) = .char c :: paired ps := rfl

theorem paired_ofChars (cs : List Char) : paired (ofChars cs) = ofChars cs := by
  induction cs with
  | nil => rfl
  | cons c cs ih => rw [Point.ofChars_cons, paired_char, ih]

/-- The text that comes back from a written one. -/
def pairedText (t : Text) : Text := .ofPoints (paired t.points)

@[simp]
theorem pairedText_whole (s : String) : pairedText (.whole s) = .whole s := by
  rw [pairedText, Text.points, paired_ofChars]
  exact Text.ofPoints_points (.whole s)

/-- A first half stands right before a second one. -/
def Coupled (ps : List Point) : Prop :=
  ∃ front a b rest, ps = front ++ .half a :: .half b :: rest ∧ (couple? a b).isSome

theorem coupled_cons_iff {p : Point} {rest : List Point} : Coupled (p :: rest) ↔
    (∃ a b behind, p = .half a ∧ rest = .half b :: behind ∧ (couple? a b).isSome) ∨
      Coupled rest := by
  constructor
  · rintro ⟨front, a, b, behind, heq, hcouple⟩
    cases front with
    | nil =>
      obtain ⟨rfl, rfl⟩ := List.cons.inj heq
      exact Or.inl ⟨a, b, behind, rfl, rfl, hcouple⟩
    | cons q front =>
      obtain ⟨rfl, rfl⟩ := List.cons.inj heq
      exact Or.inr ⟨front, a, b, behind, rfl, hcouple⟩
  · rintro (⟨a, b, behind, rfl, rfl, hcouple⟩ | ⟨front, a, b, behind, rfl, hcouple⟩)
    · exact ⟨[], a, b, behind, rfl, hcouple⟩
    · exact ⟨p :: front, a, b, behind, rfl, hcouple⟩

/-- All code points come back as they are just when no two of them make a character. -/
theorem paired_eq_self_iff (ps : List Point) : paired ps = ps ↔ ¬ Coupled ps := by
  fun_induction paired ps with
  | case1 a b rest c hcouple ih =>
    constructor
    · intro heq
      cases (List.cons.inj heq).1
    · exact fun hnot => absurd ⟨[], a, b, rest, rfl, by simp [hcouple]⟩ hnot
  | case2 a b rest hcouple ih =>
    rw [List.cons_inj_right, coupled_cons_iff]
    refine ih.trans (not_congr ⟨Or.inr, ?_⟩)
    rintro (⟨_, _, _, ha, hb, hsome⟩ | hcoupled)
    · cases ha
      cases hb
      rw [hcouple] at hsome
      cases hsome
    · exact hcoupled
  | case3 p rest hnot ih =>
    rw [List.cons_inj_right, coupled_cons_iff]
    refine ih.trans (not_congr ⟨Or.inr, ?_⟩)
    rintro (⟨a, b, behind, rfl, rfl, hsome⟩ | hcoupled)
    · exact absurd rfl (hnot a b behind rfl)
    · exact hcoupled
  | case4 =>
    refine ⟨?_, fun _ => rfl⟩
    rintro - ⟨front, a, b, rest, heq, -⟩
    cases front <;> cases heq

theorem pairedText_eq_self_iff (t : Text) : pairedText t = t ↔ ¬ Coupled t.points := by
  rw [← paired_eq_self_iff, ← Text.points_inj, pairedText, Text.points_ofPoints]

theorem isEmpty_paired (ps : List Point) : (paired ps).isEmpty = ps.isEmpty := by
  fun_cases paired ps <;> rfl

theorem isEmpty_pairedText (t : Text) : (pairedText t).isEmpty = t.isEmpty := by
  rw [← Text.isEmpty_points, pairedText, Text.points_ofPoints, isEmpty_paired, Text.isEmpty_points]

/-! ## Mappings of texts -/

theorem writeText_eq (s : String) : writeText s = quotedPoints (ofChars s.toList) := by
  rw [writeText, quotedPoints, Point.ofChars, List.flatMap_map]
  rfl

/-- Every text is written between quotes, code point by code point. -/
theorem write_ofText (t : Text) : write (.ofText t) = .ok (quotedPoints t.points) := by
  cases t with
  | whole s => rw [Text.points, ← writeText_eq, Value.ofText_whole, write]
  | torn t => rw [Text.points, Value.ofText_torn, write, writeTorn, quotedPoints]

theorem readText_quotedPoints (ps rest : List Point) : ∃ tail,
    ofChars (quotedPoints ps) ++ rest = .char '"' :: tail ∧
      readText .plain [] tail = some (paired ps, rest) := by
  refine ⟨ofChars (ps.flatMap writePoint) ++ .char '"' :: rest, ?_, ?_⟩
  · simp [quotedPoints]
  · exact readText_flatMap_writePoint ps [] rest

theorem readValue_quotedPoints (fuel : Nat) (t : Text) (rest : List Point) :
    readValue (fuel + 1) (ofChars (quotedPoints t.points) ++ rest) =
      some (.ofText (pairedText t), rest) := by
  obtain ⟨tail, htail, hread⟩ := readText_quotedPoints t.points rest
  rw [htail, readValue]
  simp [hread, pairedText]

/-- An entry of a whole key and any text, written. -/
def textEntry (e : String × Text) : List Char :=
  quotedPoints (Text.whole e.1).points ++ ':' :: ' ' :: quotedPoints e.2.points

/-- A mapping of texts. -/
def ofTexts (entries : List (String × Text)) : List (Value × Value) :=
  entries.map fun e => (.text e.1, .ofText e.2)

/-- The entries that come back. -/
def pairedEntries (entries : List (String × Text)) : List (String × Text) :=
  entries.map fun e => (e.1, pairedText e.2)

theorem writeEntries_ofTexts (entries : List (String × Text)) :
    writeEntries (ofTexts entries) = .ok (entries.map textEntry) := by
  induction entries with
  | nil => rfl
  | cons e entries ih =>
    have hkey : keyText (.text e.1) = .ok (quotedPoints (Text.whole e.1).points) :=
      congrArg Except.ok (writeText_eq e.1)
    rw [ofTexts, List.map_cons, writeEntries, ← ofTexts, ih, hkey, write_ofText]
    rfl

/-- A written entry starts with its key in quotes. -/
theorem exists_readText_textEntry (e : String × Text) (rest : List Point) :
    ∃ ps, ofChars (textEntry e) ++ rest = .char '"' :: ps ∧
      readText .plain [] ps = some (ofChars e.1.toList,
        .char ':' :: .char ' ' :: (ofChars (quotedPoints e.2.points) ++ rest)) := by
  obtain ⟨tail, htail, hread⟩ := readText_quotedPoints (Text.whole e.1).points
    (.char ':' :: .char ' ' :: (ofChars (quotedPoints e.2.points) ++ rest))
  refine ⟨tail, ?_, ?_⟩
  · rw [← htail, textEntry]
    simp
  · rw [hread, Text.points, paired_ofChars]

section
variable (fuel : Nat) (done : List (Value × Value)) (e : String × Text) (rest : List Point)

theorem skip_char_colon (ps : List Point) : skip (.char ':' :: ps) = .char ':' :: ps := rfl

theorem skip_blank_quotedPoints (ps : List Point) :
    skip (.char ' ' :: (ofChars (quotedPoints ps) ++ rest)) = ofChars (quotedPoints ps) ++ rest :=
  rfl

theorem readEntries_textEntry_last :
    readEntries (fuel + 2) done (ofChars (textEntry e) ++ .char '\x7d' :: rest) =
      some (Value.ofEntries ((.text e.1, .ofText (pairedText e.2)) :: done).reverse, rest) := by
  obtain ⟨ps, hentry, hkey⟩ := exists_readText_textEntry e (.char '\x7d' :: rest)
  have hwhole : Text.ofPoints (ofChars e.1.toList) = .whole e.1 :=
    Text.ofPoints_points (.whole e.1)
  rw [hentry, readEntries.eq_def]
  simp only [hkey, skip_char_colon, skip_blank_quotedPoints, readValue_quotedPoints, hwhole]
  rfl

theorem readEntries_textEntry_more :
    readEntries (fuel + 2) done (ofChars (textEntry e) ++ .char ',' :: rest) =
      readEntries (fuel + 1) ((.text e.1, .ofText (pairedText e.2)) :: done) (skip rest) := by
  obtain ⟨ps, hentry, hkey⟩ := exists_readText_textEntry e (.char ',' :: rest)
  have hwhole : Text.ofPoints (ofChars e.1.toList) = .whole e.1 :=
    Text.ofPoints_points (.whole e.1)
  rw [hentry, readEntries.eq_def]
  simp only [hkey, skip_char_colon, skip_blank_quotedPoints, readValue_quotedPoints, hwhole]
  rfl

end

/-- Written entries start with the quote of the first key. -/
theorem exists_joined_eq_cons (e : String × Text) (entries : List (String × Text)) :
    ∃ cs, joined ((e :: entries).map textEntry) = '"' :: cs := by
  cases entries with
  | nil => exact ⟨_, rfl⟩
  | cons next entries => exact ⟨_, rfl⟩

/-- Entries with commas between are read to the end of the mapping. -/
theorem readEntries_joined (e : String × Text) (entries : List (String × Text)) (fuel : Nat)
    (done : List (Value × Value)) (rest : List Point) (hfuel : entries.length + 1 < fuel) :
    readEntries fuel done
        (ofChars (joined ((e :: entries).map textEntry)) ++ .char '\x7d' :: rest) =
      some (Value.ofEntries (done.reverse ++ ofTexts (pairedEntries (e :: entries))), rest) := by
  induction entries generalizing e fuel done with
  | nil =>
    obtain ⟨fuel, rfl⟩ : ∃ k, fuel = k + 2 := ⟨fuel - 2, by simp at hfuel; omega⟩
    rw [List.map_cons, List.map_nil, joined, readEntries_textEntry_last, List.reverse_cons]
    rfl
  | cons next entries ih =>
    rw [List.length_cons] at hfuel
    obtain ⟨fuel, rfl⟩ : ∃ k, fuel = k + 2 := ⟨fuel - 2, by omega⟩
    have hnext := ih next (fuel + 1) ((.text e.1, .ofText (pairedText e.2)) :: done) (by omega)
    have hjoined : ofChars (joined ((e :: next :: entries).map textEntry)) ++ .char '\x7d' :: rest =
        ofChars (textEntry e) ++ (.char ',' :: .char ' ' ::
          (ofChars (joined ((next :: entries).map textEntry)) ++ .char '\x7d' :: rest)) := by
      simp [joined]
    obtain ⟨cs, hcs⟩ := exists_joined_eq_cons next entries
    have hblank : skip (.char ' ' ::
          (ofChars (joined ((next :: entries).map textEntry)) ++ .char '\x7d' :: rest)) =
        ofChars (joined ((next :: entries).map textEntry)) ++ .char '\x7d' :: rest := by
      rw [hcs]
      rfl
    rw [hjoined, readEntries_textEntry_more, hblank, hnext, List.reverse_cons,
      List.append_assoc]
    rfl

theorem length_le_length_joined (parts : List (List Char)) :
    parts.length ≤ (joined parts).length + 1 := by
  fun_induction joined parts with
  | case1 => simp
  | case2 part => simp
  | case3 part rest hne ih =>
    simp only [List.length_cons, List.length_append]
    omega

/-! ## Whole texts -/

/-- A mapping of texts, written. -/
def mappingOfTexts (entries : List (String × Text)) : List Char :=
  '\x7b' :: (joined (entries.map textEntry) ++ ['\x7d'])

theorem write_ofTexts (entries : List (String × Text)) :
    write (.mapping (ofTexts entries)) = .ok (mappingOfTexts entries) := by
  rw [write, writeEntries_ofTexts]
  rfl

theorem readValue_mappingOfTexts (e : String × Text) (entries : List (String × Text))
    {fuel : Nat} (hfuel : entries.length + 1 < fuel) :
    readValue (fuel + 1) (ofChars (mappingOfTexts (e :: entries))) =
      some (Value.ofEntries (ofTexts (pairedEntries (e :: entries))), []) := by
  have hread := readEntries_joined e entries fuel [] [] hfuel
  obtain ⟨cs, hcs⟩ := exists_joined_eq_cons e entries
  have hskip : skip (.char '"' :: (ofChars cs ++ [.char '\x7d'])) =
      .char '"' :: (ofChars cs ++ [.char '\x7d']) := rfl
  rw [hcs] at hread
  rw [mappingOfTexts, hcs, Point.ofChars_cons, Point.ofChars_append, Point.ofChars_cons,
    Point.ofChars_cons, Point.ofChars_nil, List.cons_append, readValue, if_neg (by decide),
    if_neg (by decide), if_pos rfl, hskip]
  exact hread

/-- The text starts with a value, which reaches to the last character. -/
def Fills (cs : List Char) (v : Value) : Prop :=
  readValue (2 * cs.length + 2) (ofChars cs) = some (v, [])

theorem fills_mappingOfTexts (entries : List (String × Text)) :
    Fills (mappingOfTexts entries) (Value.ofEntries (ofTexts (pairedEntries entries))) := by
  cases entries with
  | nil => rfl
  | cons e entries =>
    have hlength := length_le_length_joined ((e :: entries).map textEntry)
    have hfuel : entries.length + 1 < 2 * (mappingOfTexts (e :: entries)).length + 1 := by
      simp only [mappingOfTexts, List.length_cons, List.length_map, List.length_append] at hlength ⊢
      omega
    exact readValue_mappingOfTexts e entries hfuel

/-- A mapping of texts is read back entry by entry. -/
theorem parse_mappingOfTexts (entries : List (String × Text)) :
    parse (ofChars (mappingOfTexts entries)) =
      some (Value.ofEntries (ofTexts (pairedEntries entries))) := by
  have hstart : skip (ofChars (mappingOfTexts entries)) = ofChars (mappingOfTexts entries) := rfl
  unfold parse
  rw [hstart, Point.length_ofChars, fills_mappingOfTexts entries]
  rfl

/-! ## Text from bytes -/

/-- Bytes that start with a brace and a quote are taken for UTF-8. -/
theorem decodeText_of_brace (rest : List UInt8) :
    decodeText (0x7B :: 0x22 :: rest) = Utf8.decodePoints (0x7B :: 0x22 :: rest) := by
  cases rest with
  | nil => rfl
  | cons c rest =>
    cases rest with
    | nil => rfl
    | cons d rest => rfl

theorem decodeText_encode_of_brace (cs : List Char) :
    decodeText (Utf8.encode ('\x7b' :: '"' :: cs)) = some (ofChars ('\x7b' :: '"' :: cs)) := by
  have hbytes : Utf8.encode ('\x7b' :: '"' :: cs) = 0x7B :: 0x22 :: Utf8.encode cs := rfl
  rw [hbytes, decodeText_of_brace, ← hbytes, Utf8.decodePoints_encode]

/-- A written mapping starts with its brace and the quote of the first key. -/
theorem exists_mappingOfTexts_eq_brace (e : String × Text) (entries : List (String × Text)) :
    ∃ cs, mappingOfTexts (e :: entries) = '\x7b' :: '"' :: cs := by
  obtain ⟨cs, hcs⟩ := exists_joined_eq_cons e entries
  rw [mappingOfTexts, hcs]
  exact ⟨_, rfl⟩

/-- The bytes of a written mapping are taken for what they are. -/
theorem decodeText_mappingOfTexts (entries : List (String × Text)) :
    decodeText (Utf8.encode (mappingOfTexts entries)) = some (ofChars (mappingOfTexts entries)) := by
  cases entries with
  | nil => rfl
  | cons e entries =>
    obtain ⟨cs, hcs⟩ := exists_mappingOfTexts_eq_brace e entries
    rw [hcs, decodeText_encode_of_brace]

/-- The value is the text, or holds the bytes of it. -/
def Holds (held : Value) (text : String) : Prop :=
  held = .text text ∨ held.bytes? = some (Utf8.ofString text)

theorem ofValue?_of_holds {held : Value} {text : String} (h : Holds held text)
    (hdecode : decodeText (Utf8.ofString text) = some (ofChars text.toList)) :
    ofValue? held = parse (ofChars text.toList) := by
  rcases h with rfl | hbytes
  · rfl
  · have hnone : held.toText? = none := by
      cases held <;> first | rfl | cases hbytes
    unfold ofValue?
    rw [hnone, hbytes]
    simp [hdecode]

end Attestation.Json
