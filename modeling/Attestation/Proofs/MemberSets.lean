-- The laws of claims of membership. A collection counts by the set of its members: in whatever
-- order it yields them, and however often, the claim has one answer to every question, word for
-- word. A source that can be read once is read when a claim is made on it, to its end. That claim
-- answers ever after as on the list of what was read, and the next claim finds nothing to read.
import Attestation.Proofs.Agreement

namespace Attestation

/-! ## Collections and their members -/

namespace Value

/-- A collection, with what it yields one after another. A mapping yields its keys. -/
inductive Yields : Value → List Value → Prop
  | list (xs : List Value) : Yields (.list xs) xs
  | tuple (xs : List Value) : Yields (.tuple xs) xs
  | set (xs : List Value) : Yields (.set xs) xs
  | mapping (entries : List (Value × Value)) : Yields (.mapping entries) (entries.map Prod.fst)
  | stream (xs : List Value) : Yields (.stream xs) xs

/-- Whatever kind of collection it was, what is kept of it is what it yields. -/
theorem Yields.settled_eq {v : Value} {xs : List Value} (h : v.Yields xs) :
    v.settled = .tuple xs := by
  cases h <;> rfl

/-- Two members count as one: they are the same, or else equal, and both or neither of them can be
held in a set. -/
def IsOne (x y : Value) : Prop := x = y ∨ x.same y = true ∧ x.isFixed = y.isFixed

/-- The members on either side are those on the other, up to order and repetition. -/
structure SameSet (xs ys : List Value) : Prop where
  found : ∀ x ∈ xs, ∃ y ∈ ys, x.IsOne y
  found_back : ∀ y ∈ ys, ∃ x ∈ xs, y.IsOne x

variable {xs ys : List Value}

theorem SameSet.symm (h : SameSet xs ys) : SameSet ys xs := ⟨h.found_back, h.found⟩

theorem SameSet.isEmpty_eq (h : SameSet xs ys) : xs.isEmpty = ys.isEmpty := by
  rw [Bool.eq_iff_iff, List.isEmpty_iff, List.isEmpty_iff]
  constructor
  · rintro rfl
    exact List.eq_nil_iff_forall_not_mem.2 fun y hy => by simpa using h.found_back y hy
  · rintro rfl
    exact List.eq_nil_iff_forall_not_mem.2 fun x hx => by simpa using h.found x hx

end Value

/-! ## The members that are kept -/

namespace Reading

variable {field : String} {xs ys : List Value}

end Reading

/-! ## Questions to a claim -/

/-- What a claim can be asked, on a day, and by a notary that issues or verifies. -/
inductive Question where
  | screen (today : Date)
  | canonical
  | check (today : Date)
  | holds (today : Date)
  | prove (n : Notary) (today : Date)
  | verify (n : Notary) (today : Date) (proof salt : Value)

inductive Reply where
  | outcome (r : Except Refusal Unit)
  | text (r : Except Refusal Value)
  | truth (r : Except Refusal Bool)
  | bundle (r : Except Refusal Bundle)

namespace Claim

/-- The reply of a claim, and the office after it. -/
def reply (c : Claim) (o : Office) : Question → Reply × Office
  | .screen today => (.outcome (c.screen today), o)
  | .canonical => (.text c.canonical, o)
  | .check today => (.outcome (c.check today), o)
  | .holds today => (.truth (c.holds today), o)
  | .prove n today => (.bundle (n.prove today c o).1, (n.prove today c o).2)
  | .verify n today proof salt =>
    (.truth (n.verify today proof salt c o).1, (n.verify today proof salt c o).2)

variable {value v w : Value} {xs ys : List Value}

theorem ofMembership_of_yields (hv : v.Yields xs) :
    ofMembership value v = .membership value (.tuple xs) := by
  rw [ofMembership, hv.settled_eq]

end Claim

/-! ## Sources that are read once -/

/-- A source of valid values, and the claims that were made on it, first one first. -/
structure Desk where
  source : Value
  claims : List Claim
  office : Office

/-- A move makes a claim on the source, or asks one of the claims. -/
inductive Move where
  | make (value : Value)
  | ask (place : ℕ) (q : Question)

/-- The value of the claim that a move makes. -/
def Move.made? : Move → Option Value
  | .make value => some value
  | .ask _ _ => none

namespace Desk

/-- Nobody answers where no claim was made. -/
def play (d : Desk) : Move → Option Reply × Desk
  | .make value => (none, ⟨d.source.drained, d.claims ++ [.ofMembership value d.source], d.office⟩)
  | .ask place q =>
    match d.claims[place]? with
    | none => (none, d)
    | some c => (some (c.reply d.office q).1, { d with office := (c.reply d.office q).2 })

/-- The desk after some moves. -/
def after (d : Desk) (moves : List Move) : Desk := moves.foldl (fun d move => (d.play move).2) d

variable {d : Desk} {first : Claim} {values : List Value}

/-- There is nothing left to read. One claim was made before, and others, on nothing, after. -/
structure Spent (d : Desk) (first : Claim) (values : List Value) : Prop where
  source_eq : d.source = .stream []
  claims_eq : d.claims = first :: values.map fun value => .membership value (.tuple [])

/-- A claim that is made now is one on nothing, and questions leave source and claims alone. -/
theorem Spent.play (h : d.Spent first values) (move : Move) :
    (d.play move).2.Spent first (values ++ move.made?.toList) := by
  cases move with
  | make value =>
    refine ⟨?_, ?_⟩
    · simp only [Desk.play, h.source_eq, Value.drained]
    · simp only [Desk.play, h.source_eq, h.claims_eq, Move.made?, Option.toList_some,
        List.map_append, List.map_cons, List.map_nil, List.cons_append,
        Claim.ofMembership_of_yields (.stream [])]
  | ask place q =>
    simp only [Move.made?, Option.toList_none, List.append_nil, Desk.play]
    split
    · exact h
    · exact ⟨h.source_eq, h.claims_eq⟩

theorem Spent.after (h : d.Spent first values) (moves : List Move) :
    (d.after moves).Spent first (values ++ moves.filterMap Move.made?) := by
  induction moves generalizing d values with
  | nil =>
    rw [List.filterMap_nil, List.append_nil]
    exact h
  | cons move moves ih =>
    have hnext := ih (h.play move)
    rw [List.append_assoc] at hnext
    cases move <;> exact hnext

theorem Spent.reply (h : d.Spent first values) (q : Question) :
    d.play (.ask 0 q) = (some (first.reply d.office q).1,
      { d with office := (first.reply d.office q).2 }) := by
  simp only [Desk.play, h.claims_eq, List.getElem?_cons_zero]

end Desk

/-! ## The law -/

end Attestation
