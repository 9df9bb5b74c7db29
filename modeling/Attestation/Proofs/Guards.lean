-- The laws of the preconditions. A guard lets a value through just when its precondition
-- holds, and every refusal of a guard names the field that it was asked about.
import Attestation.Claim
import Attestation.Proofs.AmountValue

namespace Attestation

/-! ## Steps that may be refused -/

section Steps

variable {ε ε' α β : Type}

theorem bind_eq_ok_iff {x : Except ε α} {f : α → Except ε β} {b : β} :
    (x >>= f) = .ok b ↔ ∃ a, x = .ok a ∧ f a = .ok b := by
  cases x <;> simp [bind, Except.bind]

theorem mapError_eq_ok_iff {x : Except ε α} {f : ε → ε'} {a : α} :
    x.mapError f = .ok a ↔ x = .ok a := by
  cases x <;> simp [Except.mapError]

theorem mapError_eq_error_iff {x : Except ε α} {f : ε → ε'} {r : ε'} :
    x.mapError f = .error r ↔ ∃ why, x = .error why ∧ f why = r := by
  cases x <;> simp [Except.mapError]

theorem map_eq_ok_iff {x : Except ε α} {f : α → β} {b : β} :
    x.map f = .ok b ↔ ∃ a, x = .ok a ∧ f a = b := by
  cases x <;> simp [Except.map]

theorem map_eq_error_iff {x : Except ε α} {f : α → β} {r : ε} :
    x.map f = .error r ↔ x = .error r := by
  cases x <;> simp [Except.map]

/-- A test that refuses lets through what it does not apply to. -/
theorem refuse_eq_ok_iff {c : Prop} [Decidable c] {r : ε} {a b : α} :
    (if c then .error r else .ok a) = (.ok b : Except ε α) ↔ a = b ∧ ¬ c := by
  split <;> simp [*]

theorem refuse_eq_error_iff {c : Prop} [Decidable c] {r r' : ε} {a : α} :
    (if c then .error r else .ok a) = (.error r' : Except ε α) ↔ c ∧ r = r' := by
  split <;> simp [*]

end Steps

/-! ## Refusals of a field -/

/-- An input is refused, and the field is named. -/
def Refusal.Faults (r : Refusal) (field : String) : Prop :=
  (r.name = "InvalidArgumentError" ∨ r.name = "MalformedInputError") ∧ r.field? = some field

theorem Refusal.faults_argument (field : String) (fault : ArgumentFault) :
    (Refusal.argument field fault).Faults field := ⟨Or.inl rfl, rfl⟩

theorem Refusal.faults_unreadable (field : String) (raw : Value) (why : Unreadable) :
    (Refusal.unreadable field raw why).Faults field := ⟨Or.inr rfl, rfl⟩

/-- Where a test on a field is all that refuses, the field is named. -/
theorem Refusal.faults_of_refuse {α : Type} {c : Prop} [Decidable c] {field : String}
    {fault : ArgumentFault} {a : α} {r : Refusal}
    (h : (if c then .error (.argument field fault) else .ok a) = (.error r : Except Refusal α)) :
    r.Faults field := by
  obtain ⟨_, rfl⟩ := refuse_eq_error_iff.1 h
  exact faults_argument field fault

/-- A collection that claims of membership can be made on: at least one text, and none of
them empty. A text is no collection. -/
def Value.ListsTexts (v : Value) : Prop :=
  (∀ t, v ≠ .ofText t) ∧
    ∃ texts : List Text, v.elements? = some (texts.map .ofText) ∧ texts ≠ [] ∧
      ∀ t ∈ texts, t ≠ .whole ""

namespace Reading

/-! ## Days and amounts -/

theorem day_eq_ok_iff {field : String} {v : Value} {d : Date} :
    day field v = .ok d ↔ v.day = .ok d := mapError_eq_ok_iff

theorem amount_eq_ok_iff {field : String} {v : Value} {d : Decimal} :
    amount field v = .ok d ↔ v.amount = .ok d := mapError_eq_ok_iff

theorem dayText_of_day {field : String} {v : Value} {d : Date} (h : day field v = .ok d) :
    dayText field v = .ok d.text := by
  simp [dayText, h, Except.map]

theorem day_error_faults {field : String} {v : Value} {r : Refusal}
    (h : day field v = .error r) : r.Faults field := by
  obtain ⟨why, _, rfl⟩ := mapError_eq_error_iff.1 h
  exact Refusal.faults_unreadable field v why

theorem amount_error_faults {field : String} {v : Value} {r : Refusal}
    (h : amount field v = .error r) : r.Faults field := by
  obtain ⟨why, _, rfl⟩ := mapError_eq_error_iff.1 h
  exact Refusal.faults_unreadable field v why

theorem nonNegative_eq_ok_iff {field : String} {v : Value} {d : Decimal} :
    nonNegative field v = .ok d ↔ v.amount = .ok d ∧ 0 ≤ d.value := by
  rw [← @amount_eq_ok_iff field]
  unfold nonNegative
  cases hread : amount field v with
  | error r => simp
  | ok e =>
    simp only [refuse_eq_ok_iff, Decimal.lt_iff_value_lt, Decimal.value_ofInt, Int.cast_zero,
      not_lt, Except.ok.injEq]
    exact and_congr_right fun h => by rw [h]

theorem nonNegative_error_faults {field : String} {v : Value} {r : Refusal}
    (h : nonNegative field v = .error r) : r.Faults field := by
  unfold nonNegative at h
  split at h
  · rename_i r' hread
    cases h
    exact amount_error_faults hread
  · exact Refusal.faults_of_refuse h

theorem notFuture_eq_ok_iff {field : String} {v : Value} {today d : Date} :
    notFuture field v today = .ok d ↔ v.day = .ok d ∧ today.lt d = false := by
  rw [← @day_eq_ok_iff field]
  unfold notFuture
  cases hread : day field v with
  | error r => simp
  | ok e =>
    simp only [refuse_eq_ok_iff, Bool.not_eq_true, Except.ok.injEq]
    exact and_congr_right fun h => by rw [h]

theorem notFuture_error_faults {field : String} {v : Value} {today : Date} {r : Refusal}
    (h : notFuture field v today = .error r) : r.Faults field := by
  unfold notFuture at h
  split at h
  · rename_i r' hread
    cases h
    exact day_error_faults hread
  · exact Refusal.faults_of_refuse h

/-! ## Texts and collections -/

theorem filledText_eq_ok_iff {field : String} {v : Value} {t : Text} :
    filledText field v = .ok t ↔ v = .ofText t ∧ t ≠ .whole "" := by
  rw [← Value.toText?_eq_some_iff]
  unfold filledText
  cases hread : v.toText? with
  | none => simp
  | some u =>
    simp only [refuse_eq_ok_iff, Text.isEmpty_iff, Option.some.injEq]
    exact and_congr_right fun h => by rw [h]

theorem filledText_error_faults {field : String} {v : Value} {r : Refusal}
    (h : filledText field v = .error r) : r.Faults field := by
  unfold filledText at h
  split at h
  · exact Refusal.faults_of_refuse h
  · cases h
    exact Refusal.faults_argument field _

theorem filledTexts?_eq_some_iff {items : List Value} {texts : List Text} :
    filledTexts? items = some texts ↔ items = texts.map .ofText ∧ ∀ t ∈ texts, t ≠ .whole "" := by
  fun_induction filledTexts? items generalizing texts with
  | case1 => cases texts <;> simp
  | case2 v rest t htext hblank =>
    obtain rfl := Value.toText?_eq_some_iff.1 htext
    rw [Text.isEmpty_iff] at hblank
    cases texts with
    | nil => simp
    | cons u more =>
      simp only [reduceCtorEq, List.map_cons, List.cons.injEq, Value.ofText_inj, false_iff, not_and]
      rintro ⟨rfl, _⟩ hfilled
      exact hfilled t (by simp) hblank
  | case3 v rest t htext hfilled ih =>
    obtain rfl := Value.toText?_eq_some_iff.1 htext
    rw [Text.isEmpty_iff] at hfilled
    cases texts with
    | nil => simp
    | cons u more =>
      simp only [Option.map_eq_some_iff, List.cons.injEq, List.map_cons, Value.ofText_inj,
        List.forall_mem_cons, ih]
      constructor
      · rintro ⟨_, ⟨hrest, hmore⟩, rfl, rfl⟩
        exact ⟨⟨rfl, hrest⟩, hfilled, hmore⟩
      · rintro ⟨⟨rfl, hrest⟩, _, hmore⟩
        exact ⟨more, ⟨hrest, hmore⟩, rfl, rfl⟩
  | case4 v rest htext =>
    cases texts with
    | nil => simp
    | cons u more =>
      simp only [reduceCtorEq, List.map_cons, List.cons.injEq, false_iff, not_and]
      rintro ⟨rfl, _⟩
      rw [Value.toText?_ofText] at htext
      cases htext

theorem allFixed_texts (texts : List Text) : Value.allFixed (texts.map .ofText) = true := by
  induction texts with
  | nil => rfl
  | cons t more ih => simp [Value.allFixed, Value.isFixed_ofText, ih]

/-- The members of a collection are its texts, each once. -/
theorem members_eq_ok_iff {field : String} {v : Value} {kept : List Text} :
    members field v = .ok kept ↔ (∀ t, v ≠ .ofText t) ∧
      ∃ texts : List Text, v.elements? = some (texts.map .ofText) ∧ texts ≠ [] ∧
        (∀ t ∈ texts, t ≠ .whole "") ∧ texts.eraseDups = kept := by
  unfold members
  split
  · simp [Value.elements?]
  · rename_i s
    simp only [reduceCtorEq, false_iff, not_and]
    exact fun h => absurd rfl (h (.whole s))
  · rename_i t
    simp only [reduceCtorEq, false_iff, not_and]
    exact fun h => absurd rfl (h (.torn t))
  · rename_i bs
    simp only [reduceCtorEq, Value.elements?, Option.some.injEq, false_iff, not_and, not_exists]
    rintro - texts htexts hne
    cases texts with
    | nil => exact absurd rfl hne
    | cons t more => cases bs <;> cases t <;> simp at htexts
  · rename_i hnone hwhole htorn hbytes
    have htext : ∀ t, v ≠ .ofText t := by
      rintro (s | t) rfl
      · exact hwhole s rfl
      · exact htorn t rfl
    cases hitems : v.elements? with
    | none => simp
    | some items =>
      constructor
      · intro h
        refine ⟨htext, ?_⟩
        simp only at h
        split at h
        · cases h
        split at h
        · cases h
        rename_i hempty
        split at h
        · cases h
        rename_i texts hread
        cases h
        obtain ⟨rfl, hfilled⟩ := filledTexts?_eq_some_iff.1 hread
        exact ⟨texts, rfl, by simpa using hempty, hfilled, rfl⟩
      · rintro ⟨-, texts, htexts, hne, hfilled, rfl⟩
        cases htexts
        have hread := filledTexts?_eq_some_iff.2 ⟨rfl, hfilled⟩
        simp [allFixed_texts, hread, hne]

/-- A guard of collections lets through just the collections of filled texts. -/
theorem exists_members_iff {field : String} {v : Value} :
    (∃ kept, members field v = .ok kept) ↔ v.ListsTexts := by
  simp only [members_eq_ok_iff, Value.ListsTexts]
  constructor
  · rintro ⟨_, htext, texts, helements, hne, hfilled, _⟩
    exact ⟨htext, texts, helements, hne, hfilled⟩
  · rintro ⟨htext, texts, helements, hne, hfilled⟩
    exact ⟨_, htext, texts, helements, hne, hfilled, rfl⟩

theorem mem_members_iff {field : String} {v : Value} {kept : List Text} {items : List Value}
    (h : members field v = .ok kept) (hitems : v.elements? = some items) (t : Text) :
    t ∈ kept ↔ .ofText t ∈ items := by
  obtain ⟨_, texts, helements, _, _, rfl⟩ := members_eq_ok_iff.1 h
  rw [hitems] at helements
  cases helements
  simp [List.mem_eraseDups, Value.ofText_inj]

theorem exists_fault_of_members_error {field : String} {v : Value} {r : Refusal}
    (h : members field v = .error r) : ∃ fault, r = .argument field fault := by
  unfold members at h
  repeat' split at h
  all_goals first
    | cases h; exact ⟨_, rfl⟩
    | cases h

theorem members_error_faults {field : String} {v : Value} {r : Refusal}
    (h : members field v = .error r) : r.Faults field := by
  obtain ⟨fault, rfl⟩ := exists_fault_of_members_error h
  exact Refusal.faults_argument field fault

/-! ## Bounds -/

theorem bounds_eq_bind (low high : Value) :
    bounds low high = amount "min_value" low >>= fun l => amount "max_value" high >>= fun h =>
      if h.lt l then .error (.argument "min_value" (.crossed l h)) else .ok (l, h) := by
  unfold bounds
  cases amount "min_value" low with
  | error r => rfl
  | ok l => cases amount "max_value" high <;> rfl

end Reading

end Attestation
