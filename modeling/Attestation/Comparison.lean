-- Comparison of proof texts. Two texts of one length are compared to the end: the
-- differences of all places are gathered, and only the sum of them is looked at. So the
-- time tells the length and nothing else, and the answer is plain equality. Bytes are
-- compared as the whole numbers that they are, and so is every other sequence of numbers.
import Attestation.Value

namespace Attestation.Comparison

/-- The differing bits of all places, gathered. -/
def difference (xs ys : List Nat) : Nat :=
  (xs.zip ys).foldl (fun gathered (x, y) => gathered ||| (x ^^^ y)) 0

/-- Two sequences of numbers agree in length and in every place. -/
def agree (xs ys : List Nat) : Bool := xs.length == ys.length && difference xs ys == 0

theorem xor_eq_zero_iff (x y : Nat) : x ^^^ y = 0 ↔ x = y := by
  constructor
  · intro h
    have := congrArg (· ^^^ y) h
    simpa [Nat.xor_assoc] using this
  · rintro rfl
    exact Nat.xor_self x

/-- Gathered bits are never lost again. -/
theorem gathered_eq_zero_iff (pairs : List (Nat × Nat)) (start : Nat) :
    pairs.foldl (fun gathered (x, y) => gathered ||| (x ^^^ y)) start = 0 ↔
      start = 0 ∧ ∀ p ∈ pairs, p.1 = p.2 := by
  induction pairs generalizing start with
  | nil => simp
  | cons p rest ih =>
    simp only [List.foldl_cons, ih, Nat.or_eq_zero_iff, xor_eq_zero_iff, and_assoc,
      List.forall_mem_cons]

/-- Nothing is gathered just when the two sequences are equal as far as both go. -/
theorem difference_eq_zero_iff (xs ys : List Nat) :
    difference xs ys = 0 ↔ ∀ p ∈ xs.zip ys, p.1 = p.2 := by
  simp [difference, gathered_eq_zero_iff]

theorem agree_iff (xs ys : List Nat) : agree xs ys = true ↔ xs = ys := by
  induction xs generalizing ys with
  | nil => cases ys <;> simp [agree, difference]
  | cons x xs ih =>
    cases ys with
    | nil => simp [agree]
    | cons y ys =>
      have := ih ys
      simp only [agree, Bool.and_eq_true, beq_iff_eq, difference_eq_zero_iff] at this ⊢
      simp [← this, and_left_comm]

/-- Two texts agree in length and in every code point. -/
def sameText (s t : Text) : Bool := agree (s.points.map Point.toNat) (t.points.map Point.toNat)

theorem sameText_iff (s t : Text) : sameText s t = true ↔ s = t := by
  rw [sameText, agree_iff]
  constructor
  · intro h
    exact Text.points_inj.1 ((List.map_inj_right fun _ _ => Point.toNat_inj.1).1 h)
  · exact fun h => h ▸ rfl

/-! ## Any two values -/

/-- The whole numbers in a sequence that has a size, if there is nothing else in it. -/
def wholes? (v : Value) : Option (List Int) :=
  match v.size?, v.elements? with
  | some _, some items => items.mapM Value.whole?
  | _, _ => none

/-- Whole numbers as natural ones, the negative ones in between. -/
def code : Int → Nat
  | .ofNat n => 2 * n
  | .negSucc n => 2 * n + 1

theorem code_inj {m n : Int} : code m = code n ↔ m = n := by
  cases m <;> cases n <;> simp [code] <;> omega

/-- Compares two values: nothing with nothing, text with text, numbers with numbers. -/
def equal (a b : Value) : Bool :=
  match a.toText?, b.toText? with
  | some s, some t => sameText s t
  | some _, none => false
  | none, some _ => false
  | none, none =>
    match a, b with
    | .none, .none => true
    | a, b =>
      match wholes? a, wholes? b with
      | some xs, some ys => agree (xs.map code) (ys.map code)
      | _, _ => false

end Attestation.Comparison
