-- The laws of batches. A batch of a proper size is accepted just when the commitment at each of
-- its places is, in whatever order they stand, and the first place that is not accepted decides
-- the rest: it is noted down, or the batch fails with its torn text. A wiped key shows at the
-- first place or not at all.
import Attestation.Proofs.Verification

namespace Attestation.Notary

variable {n : Notary} {o : Office}

/-! ## The walk over the places -/

/-- The commitment at a place is accepted. -/
def Accepts (n : Notary) (o : Office) (place : Value × Value × Value) : Prop :=
  n.verifyCommitment o place.1 place.2.2 place.2.1 = .ok true

theorem firstFailure_of_accepts {place : Value × Value × Value} (h : n.Accepts o place)
    (index : ℕ) (rest : List (Value × Value × Value)) :
    n.firstFailure o index (place :: rest) = n.firstFailure o (index + 1) rest := by
  unfold Accepts at h
  rw [firstFailure, h]

/-- A walk over places that are all accepted finds nothing. -/
theorem firstFailure_of_forall {places : List (Value × Value × Value)}
    (h : ∀ place ∈ places, n.Accepts o place) (index : ℕ) :
    n.firstFailure o index places = .ok none := by
  induction places generalizing index with
  | nil => rfl
  | cons place rest ih =>
    rw [List.forall_mem_cons] at h
    rw [firstFailure_of_accepts h.1]
    exact ih h.2 (index + 1)

/-- Where not all places are accepted, the walk stops at the first that is not, and ends as this
one does. -/
theorem exists_firstFailure {places : List (Value × Value × Value)}
    (h : ¬ ∀ place ∈ places, n.Accepts o place) (index : ℕ) :
    ∃ i, ∃ place, places[i]? = some place ∧ ¬ n.Accepts o place ∧
      (∀ j < i, ∀ earlier, places[j]? = some earlier → n.Accepts o earlier) ∧
      n.firstFailure o index places =
        (n.verifyCommitment o place.1 place.2.2 place.2.1).map fun _ => some (index + i) := by
  induction places generalizing index with
  | nil => exact absurd nofun h
  | cons place rest ih =>
    by_cases hplace : n.Accepts o place
    · have hrest : ¬ ∀ later ∈ rest, n.Accepts o later := fun hall =>
        h (List.forall_mem_cons.2 ⟨hplace, hall⟩)
      obtain ⟨i, failing, hfailing, hnot, hearlier, hwalk⟩ := ih hrest (index + 1)
      refine ⟨i + 1, failing, hfailing, hnot, ?_, ?_⟩
      · intro j hj earlier hj'
        cases j with
        | zero =>
          cases hj'
          exact hplace
        | succ j => exact hearlier j (by omega) earlier hj'
      · rw [firstFailure_of_accepts hplace, hwalk, Nat.add_assoc, Nat.add_comm 1]
    · refine ⟨0, place, rfl, hplace, fun j hj => absurd hj (Nat.not_lt_zero j), ?_⟩
      unfold Accepts at hplace
      rw [firstFailure]
      cases hcommitment : n.verifyCommitment o place.1 place.2.2 place.2.1 with
      | error r => rfl
      | ok b =>
        cases b with
        | true => exact absurd hcommitment hplace
        | false => rfl

/-- A place with a torn text behind the gates. -/
def IsTorn (place : Value × Value × Value) (t : Torn) : Prop :=
  place.2.1 = .torn t ∧ Presentable place.1 place.2.2

theorem tears_iff {places : List (Value × Value × Value)} {t : Torn} :
    n.Tears o places t ↔ ∃ (i : ℕ) (place : Value × Value × Value), places[i]? = some place ∧
      IsTorn place t ∧ ∀ j < i, ∀ earlier, places[j]? = some earlier → n.Accepts o earlier := by
  constructor
  · rintro ⟨front, proof, salt, rest, rfl, haccepted, hpresentable⟩
    refine ⟨front.length, (proof, .torn t, salt), by simp, ⟨rfl, hpresentable⟩, ?_⟩
    intro j hj earlier hearlier
    rw [List.getElem?_append_left hj] at hearlier
    exact haccepted earlier (List.mem_of_getElem? hearlier)
  · rintro ⟨i, ⟨proof, data, salt⟩, hplace, ⟨htorn, hpresentable⟩, hearlier⟩
    obtain ⟨hi, heq⟩ := List.getElem?_eq_some_iff.1 hplace
    subst htorn
    refine ⟨places.take i, proof, salt, places.drop (i + 1), ?_, ?_, hpresentable⟩
    · rw [← heq, List.cons_getElem_drop_succ, List.take_append_drop]
    · intro earlier hmem
      obtain ⟨j, hj⟩ := List.mem_iff_getElem?.1 hmem
      rw [List.getElem?_take] at hj
      split at hj
      · exact hearlier j ‹_› earlier hj
      · cases hj

/-! ## Lists in step -/

/-- Three lists of one length that a batch may have. -/
structure Proper (proofs datas salts : List Value) : Prop where
  datas_length : datas.length = proofs.length
  salts_length : salts.length = proofs.length
  filled : 1 ≤ proofs.length
  bounded : proofs.length ≤ 1000

theorem getElem?_inStep_eq_some_iff {proofs datas salts : List Value} {i : ℕ}
    {proof data salt : Value} :
    (inStep proofs datas salts)[i]? = some (proof, data, salt) ↔
      proofs[i]? = some proof ∧ datas[i]? = some data ∧ salts[i]? = some salt := by
  induction proofs generalizing datas salts i with
  | nil => simp [inStep]
  | cons p proofs ih =>
    cases datas with
    | nil => simp [inStep]
    | cons d datas =>
      cases salts with
      | nil => simp [inStep]
      | cons s salts =>
        rw [inStep]
        cases i with
        | zero => simp
        | succ i => exact ih

theorem inStep_columns (places : List (Value × Value × Value)) :
    inStep (places.map fun p => p.1) (places.map fun p => p.2.1) (places.map fun p => p.2.2) =
      places := by
  induction places with
  | nil => rfl
  | cons place rest ih =>
    rw [List.map_cons, List.map_cons, List.map_cons, inStep, ih]

section Lists

variable {proofs datas salts : List Value}

/-- The commitment at a place of three lists is accepted. -/
def AcceptsAt (n : Notary) (o : Office) (proofs datas salts : List Value) (i : ℕ) : Prop :=
  ∃ proof data salt, proofs[i]? = some proof ∧ datas[i]? = some data ∧ salts[i]? = some salt ∧
    n.verifyCommitment o proof salt data = .ok true

theorem acceptsAt_iff {i : ℕ} {place : Value × Value × Value}
    (h : (inStep proofs datas salts)[i]? = some place) :
    n.AcceptsAt o proofs datas salts i ↔ n.Accepts o place := by
  obtain ⟨hproof, hdata, hsalt⟩ := getElem?_inStep_eq_some_iff.1 h
  unfold AcceptsAt Accepts
  rw [hproof, hdata, hsalt]
  simp

theorem Proper.exists_place (h : Proper proofs datas salts) {i : ℕ} (hi : i < proofs.length) :
    ∃ place, (inStep proofs datas salts)[i]? = some place := by
  have hdatas := h.datas_length
  have hsalts := h.salts_length
  exact ⟨_, getElem?_inStep_eq_some_iff.2 ⟨List.getElem?_eq_getElem hi,
    List.getElem?_eq_getElem (by omega), List.getElem?_eq_getElem (by omega)⟩⟩

theorem lt_of_place {i : ℕ} {place : Value × Value × Value}
    (h : (inStep proofs datas salts)[i]? = some place) : i < proofs.length := by
  obtain ⟨hproof, _⟩ := getElem?_inStep_eq_some_iff.1 h
  exact (List.getElem?_eq_some_iff.1 hproof).1

theorem forall_acceptsAt_iff (h : Proper proofs datas salts) :
    (∀ i < proofs.length, n.AcceptsAt o proofs datas salts i) ↔
      ∀ place ∈ inStep proofs datas salts, n.Accepts o place := by
  constructor
  · intro hall place hplace
    obtain ⟨i, hi⟩ := List.mem_iff_getElem?.1 hplace
    exact (acceptsAt_iff hi).1 (hall i (lt_of_place hi))
  · intro hall i hi
    obtain ⟨place, hplace⟩ := h.exists_place hi
    exact (acceptsAt_iff hplace).2 (hall place (List.mem_of_getElem? hplace))

@[simp] theorem elements_list (xs : List Value) : elements (.list xs) = xs := rfl

theorem commonSize_lists_iff {size : ℕ} :
    commonSize (.list proofs) (.list datas) (.list salts) = some (some size) ↔
      proofs.length = size ∧ datas.length = size ∧ salts.length = size := by
  rw [commonSize_eq_some_iff]
  simp [Value.size?]

/-- A list does not fail when it is asked for its size. -/
theorem sizingFailure?_lists :
    Notary.sizingFailure? (.list proofs) (.list datas) (.list salts) = none := by
  simp [Notary.sizingFailure?, Value.sizingFailure?]

theorem properSizes_lists_iff :
    ProperSizes (.list proofs) (.list datas) (.list salts) ↔ Proper proofs datas salts := by
  unfold ProperSizes
  simp only [commonSize_lists_iff]
  constructor
  · rintro ⟨_, ⟨rfl, hdatas, hsalts⟩, hpos, hmax⟩
    exact ⟨hdatas, hsalts, hpos, hmax⟩
  · rintro ⟨hdatas, hsalts, hpos, hmax⟩
    exact ⟨_, ⟨rfl, hdatas, hsalts⟩, hpos, hmax⟩

/-- The place of three lists has a torn text behind the gates, and all places before it are
accepted. -/
def TearsAt (n : Notary) (o : Office) (proofs datas salts : List Value) (i : ℕ) (t : Torn) : Prop :=
  (∀ j < i, n.AcceptsAt o proofs datas salts j) ∧ ∃ proof salt, proofs[i]? = some proof ∧
    datas[i]? = some (.torn t) ∧ salts[i]? = some salt ∧ Presentable proof salt

theorem exists_tearsAt_iff (h : Proper proofs datas salts) {t : Torn} :
    (∃ i, n.TearsAt o proofs datas salts i t) ↔ n.Tears o (inStep proofs datas salts) t := by
  rw [tears_iff]
  refine exists_congr fun i => ?_
  constructor
  · rintro ⟨hearlier, proof, salt, hproof, hdata, hsalt, hpresentable⟩
    refine ⟨(proof, .torn t, salt), getElem?_inStep_eq_some_iff.2 ⟨hproof, hdata, hsalt⟩,
      ⟨rfl, hpresentable⟩, fun j hj earlier hj' => (acceptsAt_iff hj').1 (hearlier j hj)⟩
  · rintro ⟨⟨proof, _, salt⟩, hplace, ⟨rfl, hpresentable⟩, hearlier⟩
    obtain ⟨hproof, hdata, hsalt⟩ := getElem?_inStep_eq_some_iff.1 hplace
    refine ⟨fun j hj => ?_, proof, salt, hproof, hdata, hsalt, hpresentable⟩
    obtain ⟨earlier, hj'⟩ := h.exists_place (hj.trans (lt_of_place hplace))
    exact (acceptsAt_iff hj').2 (hearlier j hj earlier hj')

/-! ## The answer for a batch -/

theorem verifyBatch_of_not_proper (h : ¬ Proper proofs datas salts) :
    (n.verifyBatch (.list proofs) (.list datas) (.list salts) o).1 = .ok false :=
  verifyBatch_of_not_properSizes (properSizes_lists_iff.not.2 h) sizingFailure?_lists

/-- In a batch of a proper size the walk decides. -/
theorem verifyBatch_of_proper (h : Proper proofs datas salts) :
    n.verifyBatch (.list proofs) (.list datas) (.list salts) o =
      match n.firstFailure o 0 (inStep proofs datas salts) with
      | .error r => (.error r, o)
      | .ok none => (.ok true, o)
      | .ok (some index) => (.ok false, o.note (.batchItem index)) :=
  verifyBatch_of_properSizes (properSizes_lists_iff.2 h)

theorem verifyBatch_of_forall (h : Proper proofs datas salts)
    (hall : ∀ place ∈ inStep proofs datas salts, n.Accepts o place) :
    n.verifyBatch (.list proofs) (.list datas) (.list salts) o = (.ok true, o) := by
  rw [verifyBatch_of_proper h, firstFailure_of_forall hall 0]

/-- A batch that is not accepted ends as the first of its places that is not. -/
theorem exists_verifyBatch_of_not_forall (h : Proper proofs datas salts)
    (hnot : ¬ ∀ place ∈ inStep proofs datas salts, n.Accepts o place) :
    ∃ i < proofs.length, ¬ n.AcceptsAt o proofs datas salts i ∧
      (∀ j < i, n.AcceptsAt o proofs datas salts j) ∧
      ((∃ r, n.verifyBatch (.list proofs) (.list datas) (.list salts) o = (.error r, o)) ∨
        n.verifyBatch (.list proofs) (.list datas) (.list salts) o =
          (.ok false, o.note (.batchItem i))) := by
  obtain ⟨i, place, hplace, hfails, hearlier, hwalk⟩ := exists_firstFailure hnot 0
  rw [Nat.zero_add] at hwalk
  have hi := lt_of_place hplace
  refine ⟨i, hi, (acceptsAt_iff hplace).not.2 hfails, fun j hj => ?_, ?_⟩
  · obtain ⟨earlier, hj'⟩ := h.exists_place (hj.trans hi)
    exact (acceptsAt_iff hj').2 (hearlier j hj earlier hj')
  · rw [verifyBatch_of_proper h, hwalk]
    cases n.verifyCommitment o place.1 place.2.2 place.2.1 with
    | error r => exact Or.inl ⟨r, rfl⟩
    | ok b => exact Or.inr rfl

theorem verifyBatch_eq_true_iff :
    (n.verifyBatch (.list proofs) (.list datas) (.list salts) o).1 = .ok true ↔
      Proper proofs datas salts ∧ ∀ place ∈ inStep proofs datas salts, n.Accepts o place := by
  constructor
  · intro haccepted
    by_cases hproper : Proper proofs datas salts
    · refine ⟨hproper, ?_⟩
      by_contra hnot
      obtain ⟨_, _, _, _, ⟨r, hbatch⟩ | hbatch⟩ := exists_verifyBatch_of_not_forall hproper hnot
      · rw [hbatch] at haccepted
        cases haccepted
      · rw [hbatch] at haccepted
        cases haccepted
    · rw [verifyBatch_of_not_proper hproper] at haccepted
      cases haccepted
  · rintro ⟨hproper, hall⟩
    rw [verifyBatch_of_forall hproper hall]

theorem batchFails_lists_iff {why : Failure} :
    n.BatchFails o (.list proofs) (.list datas) (.list salts) why ↔ Proper proofs datas salts ∧
      ∃ i t, n.TearsAt o proofs datas salts i t ∧ why = .ofTorn t := by
  have hsizes : Notary.sizingFailure? (.list proofs) (.list datas) (.list salts) ≠ some why := by
    rw [sizingFailure?_lists]
    exact nofun
  unfold BatchFails
  rw [or_iff_right hsizes, properSizes_lists_iff]
  refine and_congr_right fun h => ?_
  simp only [elements_list, ← exists_tearsAt_iff h]
  constructor
  · rintro ⟨t, ⟨i, htears⟩, rfl⟩
    exact ⟨i, t, htears, rfl⟩
  · rintro ⟨i, t, htears, rfl⟩
    exact ⟨t, ⟨i, htears⟩, rfl⟩

/-- Under a wiped key a batch is refused by its first place or not at all. -/
theorem batchStarts_lists_iff {t : Text} :
    BatchStarts (.list proofs) (.list datas) (.list salts) t ↔ Proper proofs datas salts ∧
      ∃ proof salt, proofs[0]? = some proof ∧ datas[0]? = some (.ofText t) ∧
        salts[0]? = some salt ∧ Presentable proof salt := by
  unfold BatchStarts
  rw [properSizes_lists_iff]
  refine and_congr_right fun _ => ?_
  simp only [elements_list]
  constructor
  · rintro ⟨proof, salt, rest, hstep, hpresentable⟩
    have hfirst : (inStep proofs datas salts)[0]? = some (proof, .ofText t, salt) := by
      rw [hstep, List.getElem?_cons_zero]
    obtain ⟨hproof, hdata, hsalt⟩ := getElem?_inStep_eq_some_iff.1 hfirst
    exact ⟨proof, salt, hproof, hdata, hsalt, hpresentable⟩
  · rintro ⟨proof, salt, hproof, hdata, hsalt, hpresentable⟩
    have hfirst := getElem?_inStep_eq_some_iff.2 ⟨hproof, hdata, hsalt⟩
    obtain ⟨rest, hstep⟩ : ∃ rest,
        inStep proofs datas salts = (proof, .ofText t, salt) :: rest := by
      cases hplaces : inStep proofs datas salts with
      | nil =>
        rw [hplaces] at hfirst
        cases hfirst
      | cons place rest =>
        rw [hplaces] at hfirst
        cases hfirst
        exact ⟨rest, rfl⟩
    exact ⟨proof, salt, rest, hstep, hpresentable⟩

end Lists

/-! ## The order of the places -/

/-- The answer for a batch that is given place by place. -/
def verifyPlaces (n : Notary) (o : Office) (places : List (Value × Value × Value)) :
    Except Refusal Bool :=
  (n.verifyBatch (.list (places.map fun p => p.1)) (.list (places.map fun p => p.2.1))
    (.list (places.map fun p => p.2.2)) o).1

theorem proper_columns_iff {places : List (Value × Value × Value)} :
    Proper (places.map fun p => p.1) (places.map fun p => p.2.1) (places.map fun p => p.2.2) ↔
      1 ≤ places.length ∧ places.length ≤ 1000 := by
  constructor
  · intro h
    have hfilled := h.filled
    have hbounded := h.bounded
    rw [List.length_map] at hfilled hbounded
    exact ⟨hfilled, hbounded⟩
  · intro h
    constructor
    all_goals simp [h.1, h.2]

theorem verifyPlaces_eq_true_iff {places : List (Value × Value × Value)} :
    n.verifyPlaces o places = .ok true ↔
      (1 ≤ places.length ∧ places.length ≤ 1000) ∧ ∀ place ∈ places, n.Accepts o place := by
  unfold verifyPlaces
  rw [verifyBatch_eq_true_iff, inStep_columns, proper_columns_iff]

/-- A batch is of a proper size and has a torn text behind the gates. -/
def Fragile (places : List (Value × Value × Value)) : Prop :=
  (1 ≤ places.length ∧ places.length ≤ 1000) ∧ ∃ place ∈ places, ∃ t, IsTorn place t

theorem exists_verifyPlaces (hopen : o.isClosed n.committer = false)
    {places : List (Value × Value × Value)} (h : ¬ Fragile places) :
    ∃ b, n.verifyPlaces o places = .ok b := by
  refine (verifyBatch_of_open hopen _ _ _).2 ?_
  rintro why (hsizes | ⟨hproper, t, htears, _⟩)
  · rw [sizingFailure?_lists] at hsizes
    cases hsizes
  · rw [properSizes_lists_iff, proper_columns_iff] at hproper
    simp only [elements_list, inStep_columns] at htears
    obtain ⟨i, place, hplace, htorn, _⟩ := tears_iff.1 htears
    exact h ⟨hproper, place, List.mem_of_getElem? hplace, t, htorn⟩

/-- A fragile batch fails if the torn text comes first. -/
theorem exists_perm_fails {places : List (Value × Value × Value)} (h : Fragile places) :
    ∃ places', places.Perm places' ∧ ∃ r, n.verifyPlaces o places' = .error r := by
  obtain ⟨hlength, ⟨proof, _, salt⟩, hplace, t, rfl, hpresentable⟩ := h
  obtain ⟨front, rest, rfl⟩ := List.append_of_mem hplace
  have hperm : (front ++ (proof, .torn t, salt) :: rest).Perm
      ((proof, .torn t, salt) :: (front ++ rest)) := List.perm_middle
  refine ⟨_, hperm, .failed (.ofTorn t), ?_⟩
  rw [hperm.length_eq] at hlength
  unfold verifyPlaces
  rw [verifyBatch_of_proper (proper_columns_iff.2 hlength), inStep_columns,
    firstFailure_of_tears (tears_cons_iff.2 (Or.inl ⟨rfl, hpresentable⟩))]

/-- All orders of the places of a batch have one answer just when it is not fragile; that it is
accepted they have in common at any rate. -/
theorem verifyPlaces_perm (hopen : o.isClosed n.committer = false)
    (places : List (Value × Value × Value)) :
    (∀ places', places.Perm places' → (n.verifyPlaces o places' = .ok true ↔
      n.verifyPlaces o places = .ok true)) ∧
    ((∃ b, ∀ places', places.Perm places' → n.verifyPlaces o places' = .ok b) ↔
      ¬ Fragile places) := by
  have hsame : ∀ places', places.Perm places' → (n.verifyPlaces o places' = .ok true ↔
      n.verifyPlaces o places = .ok true) := by
    intro places' h
    rw [verifyPlaces_eq_true_iff, verifyPlaces_eq_true_iff, h.length_eq]
    simp only [h.mem_iff]
  refine ⟨hsame, ?_, fun hsound => ?_⟩
  · rintro ⟨b, hb⟩ hfragile
    obtain ⟨places', hperm, r, hr⟩ := exists_perm_fails (n := n) (o := o) hfragile
    rw [hb places' hperm] at hr
    cases hr
  · obtain ⟨b, hb⟩ := exists_verifyPlaces hopen hsound
    refine ⟨b, fun places' hperm => ?_⟩
    have hsound' : ¬ Fragile places' := by
      unfold Fragile
      rw [← hperm.length_eq]
      simp only [← hperm.mem_iff]
      exact hsound
    obtain ⟨b', hb'⟩ := exists_verifyPlaces hopen hsound'
    have hequal := hsame places' hperm
    rw [hb, hb', Except.ok.injEq, Except.ok.injEq, ← Bool.eq_iff_iff] at hequal
    rw [hb', hequal]

/-! ## Batches under any key -/

/-- Under an open key a batch of three lists is accepted just when they have one length from 1 to
1000 and the commitment at every place is accepted. It fails just when the lengths are right and
a torn text behind the gates is the first place that is not accepted, and otherwise it has an
answer. Where the lengths are right and the answer is no, one entry is made, and it names the first
place that is not accepted. The order of the places does not matter for being accepted, and for the
answer it does not just where no torn text is behind the gates. Under a wiped key a batch is refused
just when the lengths are right and the first place gets past the gates and has a whole text; a
torn one fails instead, and otherwise the answer is no. -/
theorem a_batch_is_accepted_place_by_place_unless_one_fails (n : Notary) (o : Office) :
    (o.isClosed n.committer = false →
      (∀ proofs datas salts,
        ((n.verifyBatch (.list proofs) (.list datas) (.list salts) o).1 = .ok true ↔
          Proper proofs datas salts ∧
            ∀ i < proofs.length, n.AcceptsAt o proofs datas salts i) ∧
        AnsweredUnless (fun why => Proper proofs datas salts ∧
            ∃ i t, n.TearsAt o proofs datas salts i t ∧ why = .ofTorn t)
          (n.verifyBatch (.list proofs) (.list datas) (.list salts) o).1 ∧
        (Proper proofs datas salts →
          (n.verifyBatch (.list proofs) (.list datas) (.list salts) o).1 = .ok false →
          ∃ i < proofs.length, ¬ n.AcceptsAt o proofs datas salts i ∧
            (∀ j < i, n.AcceptsAt o proofs datas salts j) ∧
            ∃ e, (n.verifyBatch (.list proofs) (.list datas) (.list salts) o).2 = o.note e ∧
              e.message = "Rejected batch at index " ++ toString i)) ∧
      ∀ places, (∀ places', places.Perm places' → (n.verifyPlaces o places' = .ok true ↔
          n.verifyPlaces o places = .ok true)) ∧
        ((∃ b, ∀ places', places.Perm places' → n.verifyPlaces o places' = .ok b) ↔
          ¬ Fragile places)) ∧
    (o.isClosed n.committer = true → ∀ proofs datas salts,
      RefusedJustWhen
        (fun t => Proper proofs datas salts ∧ ∃ proof salt, proofs[0]? = some proof ∧
          datas[0]? = some (.ofText t) ∧ salts[0]? = some salt ∧ Presentable proof salt)
        (n.verifyBatch (.list proofs) (.list datas) (.list salts) o).1) := by
  constructor
  · intro hopen
    refine ⟨fun proofs datas salts => ⟨?_, ?_, ?_⟩, verifyPlaces_perm hopen⟩
    · rw [verifyBatch_eq_true_iff]
      exact and_congr_right fun h => (forall_acceptsAt_iff h).symm
    · have hlaw := verifyBatch_of_open hopen (.list proofs) (.list datas) (.list salts)
      simpa only [AnsweredUnless, batchFails_lists_iff] using hlaw
    · intro hproper hrejected
      have hnot : ¬ ∀ place ∈ inStep proofs datas salts, n.Accepts o place := by
        intro hall
        rw [verifyBatch_of_forall hproper hall] at hrejected
        cases hrejected
      obtain ⟨i, hi, hfails, hearlier, ⟨r, hbatch⟩ | hbatch⟩ :=
        exists_verifyBatch_of_not_forall hproper hnot
      · rw [hbatch] at hrejected
        cases hrejected
      · exact ⟨i, hi, hfails, hearlier, .batchItem i, by rw [hbatch], rfl⟩
  · intro hclosed proofs datas salts
    have hlaw := verifyBatch_of_closed (n := n) hclosed
      (@sizingFailure?_lists proofs datas salts)
    exact hlaw.congr fun t => batchStarts_lists_iff

/-- Of gold and a number the second fails, and under a wiped key the first is as far as a batch
gets. -/
theorem a_trial_batch_fails_at_its_second_place :
    ∃ proof salt : Value,
      (∃ e, (Notary.trial.verifyBatch (.list [proof, proof]) (.list [.text "gold", .int 5])
          (.list [salt, salt]) Office.trial).2 = Office.trial.note e ∧
        e.message = "Rejected batch at index 1") ∧
      (Notary.trial.verifyBatch (.list [proof, proof]) (.list [.text "gold", .int 5])
        (.list [salt, salt]) (Office.trial.close Notary.trial.committer)).1 =
          .error (.key .wiped) := by
  have hopen : Office.trial.isClosed Notary.trial.committer = false := rfl
  have hsalt := Office.trial.saltText?_drawSalt
  obtain ⟨mac, hmac⟩ : ∃ mac, Office.trial.commit Notary.trial.committer
      ("gold" ++ Office.trial.drawSalt.1) = .ok mac := ⟨_, Office.commit_of_open hopen _⟩
  generalize Office.trial.drawSalt.1 = salt at hsalt hmac
  have hgold : Notary.trial.verifyCommitment Office.trial (.text mac) (.text salt) (.text "gold") =
      .ok true := verifyCommitment_eq_true_iff.2 ⟨"gold", salt, mac, rfl, hsalt, hmac, rfl⟩
  have hproper : Proper [.text mac, .text mac] [.text "gold", .int 5] [.text salt, .text salt] :=
    ⟨rfl, rfl, by simp, by simp⟩
  have hlaw := a_batch_is_accepted_place_by_place_unless_one_fails Notary.trial
  refine ⟨.text mac, .text salt, ?_, ?_⟩
  · obtain ⟨hstands, hanswered, hnoted⟩ := ((hlaw Office.trial).1 hopen).1
      [.text mac, .text mac] [.text "gold", .int 5] [.text salt, .text salt]
    have hfails : ¬ Notary.trial.AcceptsAt Office.trial [.text mac, .text mac]
        [.text "gold", .int 5] [.text salt, .text salt] 1 := by
      rintro ⟨_, _, _, _, ⟨⟩, _, h⟩
      obtain ⟨_, _, _, hdata, _⟩ := verifyCommitment_eq_true_iff.1 h
      cases hdata
    have hnever := fun h => hfails ((hstands.1 h).2 1 (by simp))
    have hrejected : (Notary.trial.verifyBatch (.list [.text mac, .text mac])
        (.list [.text "gold", .int 5]) (.list [.text salt, .text salt]) Office.trial).1 =
          .ok false := by
      obtain ⟨b, hb⟩ := hanswered.2 fun why ⟨_, i, t, ⟨_, _, _, hproof, htorn, _⟩, _⟩ => by
        match i with
        | 0 => cases htorn
        | 1 => cases htorn
        | i + 2 => cases hproof
      cases b with
      | false => exact hb
      | true => exact absurd hb hnever
    obtain ⟨i, hi, hnot, _, e, hnote, hmessage⟩ := hnoted hproper hrejected
    obtain rfl : i = 1 := by
      by_contra hother
      obtain rfl : i = 0 := by
        simp only [List.length_cons, List.length_nil] at hi
        omega
      exact hnot ⟨_, _, _, rfl, rfl, rfl, hgold⟩
    exact ⟨e, hnote, hmessage⟩
  · have hpresentable : Presentable (.text mac) (.text salt) := by
      obtain ⟨_, rfl⟩ := Office.commit_eq_ok_iff.1 hmac
      exact presentable_iff.2 ⟨_, _, proofText?_macText _ _, hsalt⟩
    exact ((hlaw (Office.trial.close Notary.trial.committer)).2 rfl _ _ _).whole "gold"
      ⟨hproper, _, _, rfl, rfl, rfl, hpresentable⟩

/-- Under a wiped key a torn text at the first place is neither refused nor answered no, and under
an open one the answer for a torn text and a number depends on which of them stands first. -/
theorem a_trial_batch_fails_at_a_torn_text :
    (Notary.trial.verifyBatch (.list [.text "proof"]) (.list [.torn ⟨[], 0, []⟩])
      (.list [.text Office.trial.drawSalt.1]) (Office.trial.close Notary.trial.committer)).1 =
        .error (.failed (.ofTorn ⟨[], 0, []⟩)) ∧
    Notary.trial.verifyPlaces Office.trial
        [(.text "proof", .torn ⟨[], 0, []⟩, .text Office.trial.drawSalt.1),
          (.text "proof", .int 5, .text Office.trial.drawSalt.1)] ≠
      Notary.trial.verifyPlaces Office.trial
        [(.text "proof", .int 5, .text Office.trial.drawSalt.1),
          (.text "proof", .torn ⟨[], 0, []⟩, .text Office.trial.drawSalt.1)] := by
  have hpresentable : Presentable (.text "proof") (.text Office.trial.drawSalt.1) :=
    ⟨⟨.whole "proof", rfl, by decide⟩, _, Office.trial.saltText?_drawSalt⟩
  generalize Office.trial.drawSalt.1 = salt at hpresentable ⊢
  constructor
  · have hproper : Proper [.text "proof"] [.torn ⟨[], 0, []⟩] [.text salt] :=
      ⟨rfl, rfl, by simp, by simp⟩
    rw [verifyBatch_of_proper hproper, inStep,
      firstFailure_of_tears (tears_cons_iff.2 (Or.inl ⟨rfl, hpresentable⟩))]
  · have htorn : Notary.trial.verifyPlaces Office.trial
        [(.text "proof", .torn ⟨[], 0, []⟩, .text salt), (.text "proof", .int 5, .text salt)] =
          .error (.failed (.ofTorn ⟨[], 0, []⟩)) := by
      unfold verifyPlaces
      rw [verifyBatch_of_proper (proper_columns_iff.2 (by simp)), inStep_columns,
        firstFailure_of_tears (tears_cons_iff.2 (Or.inl ⟨rfl, hpresentable⟩))]
    have hnumber : Notary.trial.verifyCommitment Office.trial (.text "proof") (.text salt)
        (.int 5) = .ok false := by
      apply verifyCommitment_of_not_presentable
      rintro (s | t) ⟨_, hdata⟩
      · cases hdata
      · cases hdata
    have hno : Notary.trial.verifyPlaces Office.trial
        [(.text "proof", .int 5, .text salt), (.text "proof", .torn ⟨[], 0, []⟩, .text salt)] =
          .ok false := by
      unfold verifyPlaces
      rw [verifyBatch_of_proper (proper_columns_iff.2 (by simp)), inStep_columns, firstFailure,
        hnumber]
    rw [htorn, hno]
    intro heq
    cases heq

end Attestation.Notary
