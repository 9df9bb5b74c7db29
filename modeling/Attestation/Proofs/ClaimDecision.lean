-- The laws of the decision on a claim. A claim makes demands on its inputs, one after
-- another, and then says something about them. What comes of a proof follows from the two: the
-- first broken demand is named, a false claim is refused, a true one is attested. Beside them
-- there are two inputs that pass all demands and fail: an age of too many digits for the words of
-- a refusal, and a torn text, which has no bytes to be hashed.
import Attestation.Proofs.DayText
import Attestation.Proofs.Issuing
import Attestation.Calendar.Age

namespace Attestation

/-! ## Demands, one after another -/

/-- The demand on a field is broken, and those before it in the list are met. -/
inductive BrokenFirst : List (String × Prop) → String → Prop
  | here {field : String} {demand : Prop} {more : List (String × Prop)} :
      ¬ demand → BrokenFirst ((field, demand) :: more) field
  | later {first : String × Prop} {more : List (String × Prop)} {field : String} :
      first.2 → BrokenFirst more field → BrokenFirst (first :: more) field

/-- No demand of the list is broken. -/
def AllMet (demands : List (String × Prop)) : Prop := ∀ d ∈ demands, d.2

/-- A step goes through just when its demands are met, and otherwise names the first broken one. -/
def Enforces {α : Type} (x : Except Refusal α) (demands : List (String × Prop)) : Prop :=
  match x with
  | .ok _ => AllMet demands
  | .error r => ∃ field, r.Faults field ∧ BrokenFirst demands field

section Demands

variable {α β : Type} {demands more : List (String × Prop)} {field other : String}

theorem BrokenFirst.not_allMet (h : BrokenFirst demands field) : ¬ AllMet demands := by
  induction h with
  | here hbroken => exact fun hall => hbroken (hall _ List.mem_cons_self)
  | later _ _ ih => exact fun hall => ih fun d hd => hall d (List.mem_cons_of_mem _ hd)

theorem exists_brokenFirst_iff : (∃ field, BrokenFirst demands field) ↔ ¬ AllMet demands := by
  refine ⟨fun ⟨field, h⟩ => h.not_allMet, fun h => ?_⟩
  induction demands with
  | nil => exact absurd (fun d hd => by cases hd) h
  | cons d rest ih =>
    by_cases hd : d.2
    · have hrest : ¬ AllMet rest := fun hrest => h (List.forall_mem_cons.2 ⟨hd, hrest⟩)
      obtain ⟨field, hbroken⟩ := ih hrest
      exact ⟨field, .later hd hbroken⟩
    · exact ⟨d.1, .here hd⟩

theorem BrokenFirst.unique (h : BrokenFirst demands field) (h' : BrokenFirst demands other) :
    field = other := by
  induction h with
  | here hbroken =>
    cases h' with
    | here _ => rfl
    | later hmet _ => exact absurd hmet hbroken
  | later hmet _ ih =>
    cases h' with
    | here hbroken => exact absurd hmet hbroken
    | later _ hrest => exact ih hrest

theorem BrokenFirst.append_left (h : BrokenFirst demands field) :
    BrokenFirst (demands ++ more) field := by
  induction h with
  | here hbroken => exact .here hbroken
  | later hmet _ ih => exact .later hmet ih

theorem BrokenFirst.append_right (hall : AllMet demands) (h : BrokenFirst more field) :
    BrokenFirst (demands ++ more) field := by
  induction demands with
  | nil => exact h
  | cons d rest ih =>
    exact .later (hall d List.mem_cons_self) (ih fun e he => hall e (List.mem_cons_of_mem d he))

theorem enforces_done : Enforces (.ok () : Except Refusal Unit) [] := by
  intro d hd
  cases hd

theorem enforces_single {x : Except Refusal α} {demand : Prop} (hok : (∃ a, x = .ok a) ↔ demand)
    (herror : ∀ r, x = .error r → r.Faults field) : Enforces x [(field, demand)] := by
  cases x with
  | ok a =>
    intro d hd
    rw [List.mem_singleton.1 hd]
    exact hok.1 ⟨a, rfl⟩
  | error r =>
    refine ⟨field, herror r rfl, .here fun hdemand => ?_⟩
    obtain ⟨a, ha⟩ := hok.2 hdemand
    cases ha

/-- Steps one after another enforce their demands in that order. -/
theorem enforces_bind {x : Except Refusal α} {f : α → Except Refusal β} (hx : Enforces x demands)
    (hf : ∀ a, x = .ok a → Enforces (f a) more) : Enforces (x >>= f) (demands ++ more) := by
  cases x with
  | error r =>
    obtain ⟨field, hfaults, hbroken⟩ := hx
    exact ⟨field, hfaults, hbroken.append_left⟩
  | ok a =>
    have hrest := hf a rfl
    change Enforces (f a) (demands ++ more)
    cases hstep : f a with
    | ok b =>
      rw [hstep] at hrest
      intro d hd
      rcases List.mem_append.1 hd with hd | hd
      · exact hx d hd
      · exact hrest d hd
    | error r =>
      rw [hstep] at hrest
      obtain ⟨field, hfaults, hbroken⟩ := hrest
      exact ⟨field, hfaults, hbroken.append_right hx⟩

end Demands

/-! ## Days in their order -/

/-- The day is the named one or a later one. -/
def Date.Reaches (d : Date) (year month day : ℕ) : Prop :=
  year < d.year ∨ year = d.year ∧ (month < d.month ∨ month = d.month ∧ day ≤ d.day)

theorem Date.lt_eq_false_iff (d e : Date) : d.lt e = false ↔ d.Reaches e.year e.month e.day := by
  have hd := d.month_day_le
  have he := e.month_day_le
  unfold lt order Reaches
  rw [decide_eq_false_iff_not]
  omega

/-- Full years are those whose anniversaries have come. -/
theorem le_fullYears_iff (birth today : Date) (years : ℕ) :
    (years : ℤ) ≤ fullYears birth today ↔
      today.Reaches (birth.year + years) birth.month birth.day := by
  have hbirth := birth.month_day_le
  have htoday := today.month_day_le
  unfold fullYears Date.season Date.Reaches
  simp only
  split <;> omega

namespace Claim

/-! ## What a claim demands and what it says -/

/-- The demands of a claim on its inputs, in the order in which they are looked at. -/
def demands (today : Date) : Claim → List (String × Prop)
  | .age dateOfBirth requiredAge =>
    [("date_of_birth", ∃ d, dateOfBirth.day = .ok d ∧ today.Reaches d.year d.month d.day),
     ("required_age", ∃ years : ℕ, requiredAge = .int years)]
  | .balance held wanted =>
    [("balance", ∃ d, held.amount = .ok d ∧ 0 ≤ d.value),
     ("requested", ∃ d, wanted.amount = .ok d ∧ 0 ≤ d.value)]
  | .membership value validValues =>
    [("value", ∃ t, value = .ofText t ∧ t ≠ .whole ""), ("valid_values", validValues.ListsTexts)]
  | .range value low high =>
    [("value", ∃ d, value.amount = .ok d), ("min_value", ∃ d, low.amount = .ok d),
     ("max_value", ∃ d, high.amount = .ok d),
     ("min_value", ∃ l h, low.amount = .ok l ∧ high.amount = .ok h ∧ l.value ≤ h.value)]
  | .timeCondition event condition =>
    [("event_date", ∃ d, event.day = .ok d), ("condition_date", ∃ d, condition.day = .ok d)]

/-- What a claim says of its inputs. -/
def IsTrue (today : Date) : Claim → Prop
  | .age dateOfBirth requiredAge => ∃ d, ∃ years : ℕ, dateOfBirth.day = .ok d ∧
    requiredAge = .int years ∧ today.Reaches (d.year + years) d.month d.day
  | .balance held wanted =>
    ∃ h w, held.amount = .ok h ∧ wanted.amount = .ok w ∧ w.value ≤ h.value
  | .membership value validValues => ∃ items, validValues.elements? = some items ∧ value ∈ items
  | .range value low high => ∃ v l h, value.amount = .ok v ∧ low.amount = .ok l ∧
    high.amount = .ok h ∧ l.value ≤ v.value ∧ v.value ≤ h.value
  | .timeCondition event condition =>
    ∃ e c, event.day = .ok e ∧ condition.day = .ok c ∧ e.Reaches c.year c.month c.day

/-- What a claim can fail with though its demands are met. -/
inductive FailsWith : Claim → Failure → Prop
  | age {dateOfBirth : Value} {years : ℕ} (h : 10 ^ Limits.maxDigits ≤ years) :
      FailsWith (.age dateOfBirth (.int years)) (.digits none)
  | membership {t : Torn} {validValues : Value} :
      FailsWith (.membership (.torn t) validValues) (.ofTorn t)

/-- The name of the refusal of a false claim. -/
def Kind.refusalName : Kind → String
  | .age => "InsufficientAgeError"
  | .balance => "InsufficientBalanceError"
  | .membership => "ValueNotInSetError"
  | .range => "ValueOutOfRangeError"
  | .timeCondition => "ConditionNotMetError"

end Claim

/-- A refusal denies what claims of the kind say. -/
def Refusal.Denies (r : Refusal) (kind : Claim.Kind) : Prop :=
  r.isUnsatisfied = true ∧ r.name = kind.refusalName

namespace Claim

/-! ## The screen -/

theorem enforces_nonNegative (field : String) (v : Value) :
    Enforces (Reading.nonNegative field v) [(field, ∃ d, v.amount = .ok d ∧ 0 ≤ d.value)] :=
  enforces_single (by simp only [Reading.nonNegative_eq_ok_iff])
    fun _ => Reading.nonNegative_error_faults

theorem enforces_notFuture (field : String) (v : Value) (today : Date) :
    Enforces (Reading.notFuture field v today)
      [(field, ∃ d, v.day = .ok d ∧ today.Reaches d.year d.month d.day)] :=
  enforces_single (by simp only [Reading.notFuture_eq_ok_iff, Date.lt_eq_false_iff])
    fun _ => Reading.notFuture_error_faults

theorem enforces_day (field : String) (v : Value) :
    Enforces (Reading.day field v) [(field, ∃ d, v.day = .ok d)] :=
  enforces_single (by simp only [Reading.day_eq_ok_iff]) fun _ => Reading.day_error_faults

theorem enforces_amount (field : String) (v : Value) :
    Enforces (Reading.amount field v) [(field, ∃ d, v.amount = .ok d)] :=
  enforces_single (by simp only [Reading.amount_eq_ok_iff]) fun _ => Reading.amount_error_faults

theorem enforces_bounds (low high : Value) :
    Enforces (Reading.bounds low high)
      [("min_value", ∃ d, low.amount = .ok d), ("max_value", ∃ d, high.amount = .ok d),
       ("min_value", ∃ l h, low.amount = .ok l ∧ high.amount = .ok h ∧ l.value ≤ h.value)] := by
  rw [Reading.bounds_eq_bind]
  refine enforces_bind (enforces_amount _ _) fun l hl => ?_
  refine enforces_bind (enforces_amount _ _) fun h hh => ?_
  rw [Reading.amount_eq_ok_iff] at hl hh
  refine enforces_single ?_ fun r hr => Refusal.faults_of_refuse hr
  simp [refuse_eq_ok_iff, hl, hh, Decimal.lt_iff_value_lt]

theorem isThreshold_iff (v : Value) : isThreshold v = true ↔ ∃ years : ℕ, v = .int years := by
  unfold isThreshold
  split
  · rename_i k
    rw [decide_eq_true_iff]
    constructor
    · intro hk
      exact ⟨k.toNat, by rw [Int.toNat_of_nonneg hk]⟩
    · rintro ⟨years, hyears⟩
      cases hyears
      exact Int.natCast_nonneg years
  · rename_i hkind
    simp only [Bool.false_eq_true, false_iff, not_exists]
    exact fun years => hkind years

/-- The screen of a claim enforces the claim's demands in their order. -/
theorem enforces_screen (today : Date) (claim : Claim) :
    Enforces (claim.screen today) (claim.demands today) := by
  cases claim with
  | age dateOfBirth requiredAge =>
    refine enforces_bind (enforces_notFuture _ _ _) fun _ _ => ?_
    refine enforces_single ?_ fun r hr => ?_
    · simp [← isThreshold_iff]
    · split at hr
      · cases hr
      · cases hr
        exact Refusal.faults_argument _ _
  | balance held wanted =>
    exact enforces_bind (enforces_nonNegative _ _) fun _ _ =>
      enforces_bind (enforces_nonNegative _ _) fun _ _ => enforces_done
  | membership value validValues =>
    refine enforces_bind (enforces_single (by simp only [Reading.filledText_eq_ok_iff])
      fun _ => Reading.filledText_error_faults) fun _ _ => ?_
    exact enforces_bind (enforces_single Reading.exists_members_iff
      fun _ => Reading.members_error_faults) fun _ _ => enforces_done
  | range value low high =>
    exact enforces_bind (enforces_amount _ _) fun _ _ =>
      enforces_bind (enforces_bounds _ _) fun _ _ => enforces_done
  | timeCondition event condition =>
    exact enforces_bind (enforces_day _ _) fun _ _ =>
      enforces_bind (enforces_day _ _) fun _ _ => enforces_done

theorem screen_eq_ok_iff {today : Date} {claim : Claim} :
    claim.screen today = .ok () ↔ AllMet (claim.demands today) := by
  have henforces := enforces_screen today claim
  cases hscreen : claim.screen today with
  | ok _ =>
    rw [hscreen] at henforces
    exact ⟨fun _ => henforces, fun _ => rfl⟩
  | error r =>
    rw [hscreen] at henforces
    obtain ⟨field, _, hbroken⟩ := henforces
    exact ⟨nofun, fun h => absurd h hbroken.not_allMet⟩

/-! ## Wording -/

theorem isWritable_iff (n : ℤ) : Value.isWritable n = true ↔ n.natAbs < 10 ^ Limits.maxDigits := by
  rw [Value.isWritable, decide_eq_true_iff, Nat.pow_eq]

/-- Nobody on the calendar is of an age that cannot be written. -/
theorem isWritable_fullYears (birth today : Date) :
    Value.isWritable (fullYears birth today) = true := by
  have hbirth := birth.bounds
  have htoday := today.bounds
  have hsmall : (fullYears birth today).natAbs < 10 ^ 5 := by
    unfold fullYears
    simp only
    split <;> omega
  have hpow : 10 ^ 5 ≤ 10 ^ Limits.maxDigits := Nat.pow_le_pow_right (by decide) (by decide)
  exact (isWritable_iff _).2 (lt_of_lt_of_le hsmall hpow)

/-- A refusal for an age is made if the age that was asked for can be written. -/
theorem raised_tooYoung (birth today : Date) (years : ℕ) :
    (Refusal.tooYoung (.int years) (.int (fullYears birth today))).raised =
      if 10 ^ Limits.maxDigits ≤ years then .failed (.digits none)
      else .tooYoung (.int years) (.int (fullYears birth today)) := by
  have hactual := isWritable_fullYears birth today
  by_cases hlarge : 10 ^ Limits.maxDigits ≤ years
  · have hrequired : Value.isWritable years = false := by
      rw [← Bool.not_eq_true, isWritable_iff, Int.natAbs_natCast]
      exact not_lt.2 hlarge
    rw [if_pos hlarge]
    exact Refusal.raisedWithin_of_unworded (by simp [Value.literalFailure?, hrequired])
  · have hrequired : Value.isWritable years = true := by
      rw [isWritable_iff, Int.natAbs_natCast]
      exact not_le.1 hlarge
    rw [if_neg hlarge]
    exact Refusal.raisedWithin_of_worded (by simp [Value.literalFailure?, hrequired, hactual])

/-- A text can always be written, -/
theorem literalFailure?_ofText (t : Text) : (Value.ofText t).literalFailure? none = none := by
  cases t <;> rfl

/-- and so it is refused as what it is. -/
theorem raised_notMember (t : Text) :
    (Refusal.notMember (.ofText t)).raised = .notMember (.ofText t) := by
  refine Refusal.raisedWithin_of_worded ?_
  rw [Refusal.wordingFailure?_notMember, literalFailure?_ofText]

/-! ## The check -/

section Checks

variable {today : Date}

/-! Once its inputs were read, a check is one comparison. -/

theorem check_age {birth : Date} {dateOfBirth : Value} (hbirth : dateOfBirth.day = .ok birth)
    (years : ℕ) : check today (.age dateOfBirth (.int years)) =
      if fullYears birth today < years then
        .error (Refusal.tooYoung (.int years) (.int (fullYears birth today))).raised
      else .ok () := by
  have hday : Reading.day "date_of_birth" dateOfBirth = .ok birth := Reading.day_eq_ok_iff.2 hbirth
  have hshort : (Decimal.ofInt (fullYears birth today)).lt (.ofInt years) = true ↔
      fullYears birth today < years := by
    rw [Decimal.lt_iff_value_lt, Decimal.value_ofInt, Decimal.value_ofInt, Int.cast_lt]
  simp [check, hday, fallsShort, Value.number?, bind, Except.bind, hshort]

theorem check_balance {held wanted : Value} {h w : Decimal} (hheld : held.amount = .ok h)
    (hwanted : wanted.amount = .ok w) : check today (.balance held wanted) =
      if h.lt w = true then
        .error (.balanceShort (.decimal (.finite h)) (.decimal (.finite w))) else .ok () := by
  have hh : Reading.amount "balance" held = .ok h := Reading.amount_eq_ok_iff.2 hheld
  have hw : Reading.amount "requested" wanted = .ok w := Reading.amount_eq_ok_iff.2 hwanted
  simp [check, hh, hw, bind, Except.bind]

theorem check_membership_text {validValues : Value} {kept : List Text}
    (hkept : Reading.members "valid_values" validValues = .ok kept) (t : Text) :
    check today (.membership (.ofText t) validValues) =
      if ¬ t ∈ kept then .error (.notMember (.ofText t)) else .ok () := by
  have hsought : (Value.ofText t).isSought = true := by
    cases t <;> rfl
  rw [ite_not]
  simp [check, hkept, hsought, raised_notMember, bind, Except.bind]

theorem check_range {value low high : Value} {v l h : Decimal} (hvalue : value.amount = .ok v)
    (hlow : low.amount = .ok l) (hhigh : high.amount = .ok h) :
    check today (.range value low high) =
      if ¬ (l.le v && v.le h) = true then
        .error (.outOfRange (.decimal (.finite v)) (.decimal (.finite l)) (.decimal (.finite h)))
      else .ok () := by
  have hv : Reading.amount "value" value = .ok v := Reading.amount_eq_ok_iff.2 hvalue
  have hl : Reading.amount "min_value" low = .ok l := Reading.amount_eq_ok_iff.2 hlow
  have hh : Reading.amount "max_value" high = .ok h := Reading.amount_eq_ok_iff.2 hhigh
  rw [ite_not]
  simp [check, hv, hl, hh, bind, Except.bind]

theorem check_timeCondition {e c : Date} {event condition : Value} (hevent : event.day = .ok e)
    (hcondition : condition.day = .ok c) : check today (.timeCondition event condition) =
      if e.lt c = true then .error (.tooEarly (.date e) (.date c)) else .ok () := by
  have he : Reading.day "event_date" event = .ok e := Reading.day_eq_ok_iff.2 hevent
  have hc : Reading.day "condition_date" condition = .ok c := Reading.day_eq_ok_iff.2 hcondition
  simp [check, he, hc, bind, Except.bind]

end Checks

/-- A check comes out as what its claim says does: it passes, or it refuses the claim as false, or
that refusal cannot be worded. -/
def Settles (today : Date) (claim : Claim) : Prop :=
  match claim.check today with
  | .ok _ => claim.IsTrue today
  | .error r => ¬ claim.IsTrue today ∧
      (r.Denies claim.kind ∧ (claim.kind = .age → ∀ why, ¬ claim.FailsWith why) ∨
        claim.kind = .age ∧ ∃ why, claim.FailsWith why ∧ r = .failed why)

theorem settles_of_check {today : Date} {claim : Claim} {isFalse : Prop} [Decidable isFalse]
    {r : Refusal} (hcheck : claim.check today = if isFalse then .error r else .ok ())
    (hdenies : r.Denies claim.kind) (hkind : claim.kind ≠ .age)
    (htrue : claim.IsTrue today ↔ ¬ isFalse) : Settles today claim := by
  unfold Settles
  rw [hcheck, htrue]
  by_cases h : isFalse
  · rw [if_pos h]
    exact ⟨not_not.2 h, Or.inl ⟨hdenies, fun hage => absurd hage hkind⟩⟩
  · rw [if_neg h]
    exact h

theorem settles_age {today birth : Date} {dateOfBirth : Value}
    (hbirth : dateOfBirth.day = .ok birth) (years : ℕ) :
    Settles today (.age dateOfBirth (.int years)) := by
  have htrue : (age dateOfBirth (.int years)).IsTrue today ↔ ¬ fullYears birth today < years := by
    rw [not_lt, le_fullYears_iff]
    simp [IsTrue, hbirth]
  unfold Settles
  rw [check_age hbirth, raised_tooYoung, htrue]
  by_cases hshort : fullYears birth today < years
  · rw [if_pos hshort]
    refine ⟨not_not.2 hshort, ?_⟩
    by_cases hlarge : 10 ^ Limits.maxDigits ≤ years
    · rw [if_pos hlarge]
      exact Or.inr ⟨rfl, _, .age hlarge, rfl⟩
    · rw [if_neg hlarge]
      refine Or.inl ⟨⟨rfl, rfl⟩, fun _ why hfails => ?_⟩
      cases hfails with
      | age h => exact hlarge h
  · rw [if_neg hshort]
    exact hshort

theorem settles_balance {today : Date} {held wanted : Value} {h w : Decimal}
    (hheld : held.amount = .ok h) (hwanted : wanted.amount = .ok w) :
    Settles today (.balance held wanted) := by
  refine settles_of_check (check_balance hheld hwanted) ⟨rfl, rfl⟩ nofun ?_
  simp [IsTrue, hheld, hwanted, Decimal.lt_iff_value_lt]

theorem settles_membership {today : Date} {validValues : Value} {t : Text}
    (hlist : validValues.ListsTexts) : Settles today (.membership (.ofText t) validValues) := by
  obtain ⟨kept, hkept⟩ := (@Reading.exists_members_iff "valid_values" validValues).2 hlist
  obtain ⟨_, texts, helements, _⟩ := hlist
  have hmem := Reading.mem_members_iff hkept helements t
  refine settles_of_check (check_membership_text hkept t) ⟨rfl, rfl⟩ nofun ?_
  rw [not_not, hmem]
  simp only [IsTrue, helements, Option.some.injEq, exists_eq_left']

theorem settles_range {today : Date} {value low high : Value} {v l h : Decimal}
    (hvalue : value.amount = .ok v) (hlow : low.amount = .ok l) (hhigh : high.amount = .ok h) :
    Settles today (.range value low high) := by
  refine settles_of_check (check_range hvalue hlow hhigh) ⟨rfl, rfl⟩ nofun ?_
  simp [IsTrue, hvalue, hlow, hhigh, Decimal.le_iff_value_le]

theorem settles_timeCondition {today e c : Date} {event condition : Value}
    (hevent : event.day = .ok e) (hcondition : condition.day = .ok c) :
    Settles today (.timeCondition event condition) := by
  refine settles_of_check (check_timeCondition hevent hcondition) ⟨rfl, rfl⟩ nofun ?_
  simp [IsTrue, hevent, hcondition, ← Date.lt_eq_false_iff]

/-- Where the demands are met, the check settles what the claim says. -/
theorem settles_of_allMet {today : Date} {claim : Claim} (h : AllMet (claim.demands today)) :
    Settles today claim := by
  cases claim with
  | age dateOfBirth requiredAge =>
    obtain ⟨⟨birth, hbirth, _⟩, ⟨years, rfl⟩⟩ : _ ∧ _ := by simpa [AllMet, demands] using h
    exact settles_age hbirth years
  | balance held wanted =>
    obtain ⟨⟨_, hheld, _⟩, _, hwanted, _⟩ : _ ∧ _ := by simpa [AllMet, demands] using h
    exact settles_balance hheld hwanted
  | membership value validValues =>
    obtain ⟨⟨t, rfl, _⟩, hlist⟩ : _ ∧ _ := by simpa [AllMet, demands] using h
    exact settles_membership hlist
  | range value low high =>
    obtain ⟨⟨_, hvalue⟩, ⟨_, hlow⟩, ⟨_, hhigh⟩, _⟩ : _ ∧ _ := by simpa [AllMet, demands] using h
    exact settles_range hvalue hlow hhigh
  | timeCondition event condition =>
    obtain ⟨⟨_, hevent⟩, _, hcondition⟩ : _ ∧ _ := by simpa [AllMet, demands] using h
    exact settles_timeCondition hevent hcondition

end Claim

/-! ## The decision -/

namespace Claim

variable {today : Date} {claim : Claim} {why : Failure}

/-- The refusal of a false claim is no refusal of an input. -/
theorem Kind.not_faults {r : Refusal} {kind : Kind} (h : r.name = kind.refusalName)
    (field : String) : ¬ r.Faults field := by
  rintro ⟨hname, _⟩
  rw [h] at hname
  cases kind <;> simp [Kind.refusalName] at hname

theorem FailsWith.kind_eq (h : claim.FailsWith why) :
    claim.kind = .age ∨ claim.kind = .membership := by
  cases h with
  | age _ => exact Or.inl rfl
  | membership => exact Or.inr rfl

theorem FailsWith.unique {other : Failure} (h : claim.FailsWith why)
    (h' : claim.FailsWith other) : why = other := by
  cases h <;> cases h' <;> rfl

/-- A failure goes by another name than the refusal of a false claim. -/
theorem FailsWith.name_ne (h : claim.FailsWith why) (kind : Kind) :
    (Refusal.failed why).name ≠ kind.refusalName := by
  cases h with
  | age _ => cases kind <;> decide
  | membership => cases kind <;> simp [Refusal.name, Failure.name, Failure.ofTorn, Kind.refusalName]

/-- Nobody has reached an age that cannot be written. -/
theorem FailsWith.kind_of_isTrue (h : claim.FailsWith why) (htrue : claim.IsTrue today) :
    claim.kind = .membership := by
  cases h with
  | membership => rfl
  | age hlarge =>
    obtain ⟨birth, years, _, heq, hreached⟩ := htrue
    cases heq
    have hyears := (le_fullYears_iff birth today _).2 hreached
    have hsmall := (isWritable_iff _).1 (isWritable_fullYears birth today)
    omega

/-- Where a screen was passed, a torn text is committed to by a membership alone. -/
theorem canonical_eq_torn_iff {t : Torn} :
    claim.canonical = .ok (.torn t) ↔ ∃ validValues, claim = .membership (.torn t) validValues := by
  cases claim with
  | membership value validValues => simp [canonical]
  | _ => simp [canonical, map_eq_ok_iff]

theorem failsWith_of_canonical {t : Torn} (h : claim.canonical = .ok (.torn t)) :
    claim.FailsWith (.ofTorn t) := by
  obtain ⟨validValues, rfl⟩ := canonical_eq_torn_iff.1 h
  exact .membership

end Claim

/-- What may come of a proof of a claim, and what must be so for it. -/
inductive Decision (today : Date) (claim : Claim) : Except Refusal Bundle → Prop
  | faulted {r : Refusal} {field : String} (hbroken : BrokenFirst (claim.demands today) field)
      (hfaults : r.Faults field) : Decision today claim (.error r)
  | denied {r : Refusal} (hmet : AllMet (claim.demands today)) (hfalse : ¬ claim.IsTrue today)
      (hworded : claim.kind = .age → ∀ why, ¬ claim.FailsWith why)
      (hdenies : r.Denies claim.kind) : Decision today claim (.error r)
  | failed {why : Failure} (hmet : AllMet (claim.demands today)) (hfails : claim.FailsWith why)
      (hreached : claim.kind = .membership → claim.IsTrue today) :
      Decision today claim (.error (.failed why))
  | issued {b : Bundle} (hmet : AllMet (claim.demands today)) (htrue : claim.IsTrue today)
      (hbytes : ∀ why, ¬ claim.FailsWith why) : Decision today claim (.ok b)

namespace Notary

variable {n : Notary} {o : Office} {today : Date} {claim : Claim}

theorem decision_of_brokenFirst {field : String} (h : BrokenFirst (claim.demands today) field) :
    Decision today claim (n.prove today claim o).1 := by
  have henforces := claim.enforces_screen today
  cases hscreen : claim.screen today with
  | ok _ =>
    rw [hscreen] at henforces
    exact absurd henforces h.not_allMet
  | error r =>
    rw [hscreen] at henforces
    obtain ⟨named, hfaults, hbroken⟩ := henforces
    rw [prove_of_screen_error hscreen]
    exact .faulted hbroken hfaults

theorem decision_of_not_isTrue (hmet : AllMet (claim.demands today)) (h : ¬ claim.IsTrue today) :
    Decision today claim (n.prove today claim o).1 := by
  have hscreen := Claim.screen_eq_ok_iff.2 hmet
  have hsettles := Claim.settles_of_allMet hmet
  unfold Claim.Settles at hsettles
  cases hcheck : claim.check today with
  | ok _ =>
    rw [hcheck] at hsettles
    exact absurd hsettles h
  | error r =>
    rw [hcheck] at hsettles
    rw [prove_of_check_error hscreen hcheck]
    obtain ⟨_, ⟨hdenies, hworded⟩ | ⟨hage, why, hfails, rfl⟩⟩ := hsettles
    · exact .denied hmet h hworded hdenies
    · exact .failed hmet hfails fun hmembership => by simp [hage] at hmembership

theorem decision_of_isTrue (hopen : o.isClosed n.committer = false)
    (hmet : AllMet (claim.demands today)) (h : claim.IsTrue today) :
    Decision today claim (n.prove today claim o).1 := by
  have hscreen := Claim.screen_eq_ok_iff.2 hmet
  have hsettles := Claim.settles_of_allMet hmet
  unfold Claim.Settles at hsettles
  cases hcheck : claim.check today with
  | error r =>
    rw [hcheck] at hsettles
    exact absurd h hsettles.1
  | ok _ =>
    obtain ⟨value | t, hvalue⟩ := Claim.exists_canonical_of_screen hscreen
    · rw [prove_of_check hopen hscreen hcheck hvalue]
      refine .issued hmet h fun why hfails => ?_
      have hmembership := hfails.kind_of_isTrue h
      cases hfails with
      | age _ => cases hmembership
      | membership => cases hvalue
    · rw [prove_of_check_torn hscreen hcheck hvalue]
      exact .failed hmet (Claim.failsWith_of_canonical hvalue) fun _ => h

theorem decision_prove (hopen : o.isClosed n.committer = false) :
    Decision today claim (n.prove today claim o).1 := by
  by_cases hmet : AllMet (claim.demands today)
  · by_cases htrue : claim.IsTrue today
    · exact decision_of_isTrue hopen hmet htrue
    · exact decision_of_not_isTrue hmet htrue
  · obtain ⟨field, hbroken⟩ := exists_brokenFirst_iff.2 hmet
    exact decision_of_brokenFirst hbroken

end Notary

namespace Decision

variable {today : Date} {claim : Claim} {x : Except Refusal Bundle}

theorem faults_iff (h : Decision today claim x) (field : String) :
    (∃ r, x = .error r ∧ r.Faults field) ↔ BrokenFirst (claim.demands today) field := by
  cases h with
  | faulted hbroken hfaults =>
    constructor
    · rintro ⟨_, heq, hfield⟩
      cases heq
      rwa [Option.some.inj (hfield.2.symm.trans hfaults.2)]
    · intro hfirst
      rw [hfirst.unique hbroken]
      exact ⟨_, rfl, hfaults⟩
  | denied hmet hfalse hworded hdenies =>
    refine iff_of_false ?_ fun hbroken => hbroken.not_allMet hmet
    rintro ⟨_, heq, hfaults⟩
    cases heq
    exact Claim.Kind.not_faults hdenies.2 field hfaults
  | failed hmet hfails hreached =>
    refine iff_of_false ?_ fun hbroken => hbroken.not_allMet hmet
    rintro ⟨_, heq, hfaults⟩
    cases heq
    cases hfaults.2
  | issued hmet htrue hbytes =>
    exact iff_of_false nofun fun hbroken => hbroken.not_allMet hmet

theorem denies_iff (h : Decision today claim x) :
    (∃ r, x = .error r ∧ r.name = claim.kind.refusalName) ↔
      AllMet (claim.demands today) ∧ ¬ claim.IsTrue today ∧
        (claim.kind = .age → ∀ why, ¬ claim.FailsWith why) := by
  cases h with
  | faulted hbroken hfaults =>
    refine iff_of_false ?_ fun hmet => hbroken.not_allMet hmet.1
    rintro ⟨_, heq, hname⟩
    cases heq
    exact Claim.Kind.not_faults hname _ hfaults
  | denied hmet hfalse hworded hdenies =>
    exact iff_of_true ⟨_, rfl, hdenies.2⟩ ⟨hmet, hfalse, hworded⟩
  | failed hmet hfails hreached =>
    refine iff_of_false ?_ ?_
    · rintro ⟨_, heq, hname⟩
      cases heq
      exact hfails.name_ne _ hname
    · rintro ⟨_, hfalse, hworded⟩
      rcases hfails.kind_eq with hage | hmembership
      · exact hworded hage _ hfails
      · exact hfalse (hreached hmembership)
  | issued hmet htrue hbytes => exact iff_of_false nofun fun hfalse => hfalse.2.1 htrue

theorem issues_iff (h : Decision today claim x) :
    (∃ b, x = .ok b) ↔
      AllMet (claim.demands today) ∧ claim.IsTrue today ∧ ∀ why, ¬ claim.FailsWith why := by
  cases h with
  | faulted hbroken hfaults => exact iff_of_false nofun fun hmet => hbroken.not_allMet hmet.1
  | denied hmet hfalse hworded hdenies => exact iff_of_false nofun fun htrue => hfalse htrue.2.1
  | failed hmet hfails hreached => exact iff_of_false nofun fun hbytes => hbytes.2.2 _ hfails
  | issued hmet htrue hbytes => exact iff_of_true ⟨_, rfl⟩ ⟨hmet, htrue, hbytes⟩

theorem fails_iff (h : Decision today claim x) (why : Failure) :
    x = .error (.failed why) ↔ AllMet (claim.demands today) ∧ claim.FailsWith why ∧
      (claim.kind = .membership → claim.IsTrue today) := by
  cases h with
  | faulted hbroken hfaults =>
    refine iff_of_false ?_ fun hmet => hbroken.not_allMet hmet.1
    intro heq
    cases heq
    cases hfaults.2
  | denied hmet hfalse hworded hdenies =>
    refine iff_of_false ?_ ?_
    · intro heq
      cases heq
      cases hdenies.1
    · rintro ⟨_, hfails, hreached⟩
      rcases hfails.kind_eq with hage | hmembership
      · exact hworded hage _ hfails
      · exact hfalse (hreached hmembership)
  | failed hmet hfails hreached =>
    constructor
    · intro heq
      cases heq
      exact ⟨hmet, hfails, hreached⟩
    · rintro ⟨_, hother, _⟩
      rw [hfails.unique hother]
  | issued hmet htrue hbytes => exact iff_of_false nofun fun hfails => hbytes _ hfails.2.1

end Decision

/-- A membership over values that fail when they are read fails with them, and any other as its
claim does. -/
theorem Notary.proveMembership_fails_iff {n : Notary} {o : Office} {today : Date}
    (hopen : o.isClosed n.committer = false) (value validValues : Value) (why : Failure) :
    (n.proveMembership today value validValues o).1 = .error (.failed why) ↔
      validValues.readingFailure? = some why ∨ validValues.readingFailure? = none ∧
        AllMet ((Claim.ofMembership value validValues).demands today) ∧
        (Claim.ofMembership value validValues).FailsWith why ∧
        (Claim.ofMembership value validValues).IsTrue today := by
  unfold proveMembership Claim.readMembership
  cases hread : validValues.readingFailure? with
  | some found => simp
  | none =>
    refine ((decision_prove hopen).fails_iff why).trans ?_
    simp [Claim.ofMembership, Claim.kind]

/-- Under an open key a proof ends in one of four ways. An input is refused just when a demand
on it is broken, and the first broken one is named. The claim is refused as false, by the refusal
of its kind, just when all demands are met and what it says is not so, unless it asks for an age
of too many digits. A bundle is issued just when all demands are met and what it says is so, unless
it commits to a torn text. In these two cases, and where a collection of valid values fails when it
is read, the proof fails. -/
theorem a_proof_decides_its_claim_or_fails (n : Notary) (o : Office) (today : Date) (claim : Claim)
    (hopen : o.isClosed n.committer = false) :
    (∀ field, (∃ r, (n.prove today claim o).1 = .error r ∧ r.Faults field) ↔
      BrokenFirst (claim.demands today) field) ∧
    ((∃ r, (n.prove today claim o).1 = .error r ∧ r.name = claim.kind.refusalName) ↔
      AllMet (claim.demands today) ∧ ¬ claim.IsTrue today ∧
        (claim.kind = .age → ∀ why, ¬ claim.FailsWith why)) ∧
    ((∃ b, (n.prove today claim o).1 = .ok b) ↔
      AllMet (claim.demands today) ∧ claim.IsTrue today ∧ ∀ why, ¬ claim.FailsWith why) ∧
    (∀ why, (n.prove today claim o).1 = .error (.failed why) ↔
      AllMet (claim.demands today) ∧ claim.FailsWith why ∧
        (claim.kind = .membership → claim.IsTrue today)) ∧
    ((∃ field, BrokenFirst (claim.demands today) field) ↔ ¬ AllMet (claim.demands today)) ∧
    ∀ value validValues why,
      (n.proveMembership today value validValues o).1 = .error (.failed why) ↔
        validValues.readingFailure? = some why ∨ validValues.readingFailure? = none ∧
          AllMet ((Claim.ofMembership value validValues).demands today) ∧
          (Claim.ofMembership value validValues).FailsWith why ∧
          (Claim.ofMembership value validValues).IsTrue today := by
  have hdecision := @Notary.decision_prove n o today claim hopen
  exact ⟨hdecision.faults_iff, hdecision.denies_iff, hdecision.issues_iff, hdecision.fails_iff,
    exists_brokenFirst_iff, Notary.proveMembership_fails_iff hopen⟩

/-- Crossed bounds are a fault of the lower one, even where the value lies outside of both. -/
theorem a_trial_range_with_crossed_bounds_is_refused :
    ∃ r, (Notary.trial.prove Date.trial (.range (.int 12) (.int 9) (.int 1)) Office.trial).1 =
      .error r ∧ r.Faults "min_value" := by
  obtain ⟨hbroken, _⟩ := a_proof_decides_its_claim_or_fails Notary.trial Office.trial Date.trial
    (.range (.int 12) (.int 9) (.int 1)) rfl
  refine (hbroken "min_value").2 ?_
  refine .later ⟨_, rfl⟩ (.later ⟨_, rfl⟩ (.later ⟨_, rfl⟩ (.here ?_)))
  rintro ⟨l, h, hl, hh, hle⟩
  cases hl
  cases hh
  rw [Decimal.value_ofInt, Decimal.value_ofInt] at hle
  norm_num at hle

/-- Somebody born on the first day meets all demands of an age claim. -/
theorem allMet_trial_age (years : ℕ) :
    AllMet ((Claim.age (.date Date.first) (.int years)).demands Date.trial) := by
  have hborn : Date.trial.Reaches Date.first.year Date.first.month Date.first.day :=
    Or.inl (by decide)
  exact List.forall_mem_cons.2 ⟨⟨_, rfl, hborn⟩, List.forall_mem_cons.2 ⟨⟨_, rfl⟩, nofun⟩⟩

/-- Somebody too young for an age of too many digits is not refused as too young, and a torn text
that is one of the valid values is not attested. -/
theorem a_trial_age_of_too_many_digits_is_not_denied :
    (AllMet ((Claim.age (.date Date.first) (.int (10 ^ Limits.maxDigits : ℕ))).demands Date.trial) ∧
      ¬ (Claim.age (.date Date.first) (.int (10 ^ Limits.maxDigits : ℕ))).IsTrue Date.trial ∧
      ¬ ∃ r, (Notary.trial.prove Date.trial
          (.age (.date Date.first) (.int (10 ^ Limits.maxDigits : ℕ))) Office.trial).1 = .error r ∧
        r.name = "InsufficientAgeError") ∧
    AllMet ((Claim.membership (.torn ⟨[], 0, []⟩) (.list [.torn ⟨[], 0, []⟩])).demands Date.trial) ∧
      (Claim.membership (.torn ⟨[], 0, []⟩) (.list [.torn ⟨[], 0, []⟩])).IsTrue Date.trial ∧
      ¬ ∃ b, (Notary.trial.prove Date.trial
        (.membership (.torn ⟨[], 0, []⟩) (.list [.torn ⟨[], 0, []⟩])) Office.trial).1 = .ok b := by
  have hage : (Claim.age (.date Date.first) (.int (10 ^ Limits.maxDigits : ℕ))).FailsWith
      (.digits none) := .age le_rfl
  have hmembership : (Claim.membership (.torn ⟨[], 0, []⟩) (.list [.torn ⟨[], 0, []⟩])).FailsWith
      (.ofTorn ⟨[], 0, []⟩) := .membership
  refine ⟨⟨?_, fun htrue => ?_, fun hdenied => ?_⟩, ?_, ?_, fun hissued => ?_⟩
  · exact allMet_trial_age _
  · cases hage.kind_of_isTrue htrue
  · exact ((Notary.decision_prove rfl).denies_iff.1 hdenied).2.2 rfl _ hage
  · exact Claim.screen_eq_ok_iff.1 rfl
  · exact ⟨_, rfl, by simp⟩
  · exact ((Notary.decision_prove rfl).issues_iff.1 hissued).2.2 _ hmembership

end Attestation
