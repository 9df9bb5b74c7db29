-- The laws of cut binary forms. A reader that gives an item has seen all its bytes: behind more
-- of them it gives the same item and leaves the more. So an item that fills its bytes to the last
-- one is read from none of their fronts, and bytes behind an item change nothing.
import Mathlib.Tactic.SplitIfs
import Attestation.Proofs.BinaryForm

namespace Attestation.Cbor

/-! ## Heads and strings -/

theorem takeBytes_append_of_eq_some {count : Nat} {bs taken rest : List UInt8}
    (h : takeBytes count bs = some (taken, rest)) (more : List UInt8) :
    takeBytes count (bs ++ more) = some (taken, rest ++ more) := by
  unfold takeBytes at h
  simp only [Option.ite_none_right_eq_some, Option.some.injEq, Prod.mk.injEq] at h
  obtain ⟨hlength, rfl, rfl⟩ := h
  have hsplit := takeBytes_append hlength (bs.drop count ++ more)
  rwa [← List.append_assoc, List.take_append_drop] at hsplit

theorem readHead_append {bs rest : List UInt8} {found : Nat × Nat × Extent}
    (h : readHead bs = some (found, rest)) (more : List UInt8) :
    readHead (bs ++ more) = some (found, rest ++ more) := by
  cases bs with
  | nil => cases h
  | cons b bs =>
    have hwide : ∀ count type low : Nat,
        (takeBytes count bs).map (fun split =>
          ((type, low, Extent.known (ofBigEndian split.1)), split.2)) = some (found, rest) →
        (takeBytes count (bs ++ more)).map (fun split =>
          ((type, low, Extent.known (ofBigEndian split.1)), split.2)) =
            some (found, rest ++ more) := by
      intro count type low hmap
      obtain ⟨⟨number, left⟩, htake, hfound⟩ := Option.map_eq_some_iff.1 hmap
      rw [takeBytes_append_of_eq_some htake more]
      cases hfound
      rfl
    rw [List.cons_append]
    unfold readHead at h ⊢
    simp only at h ⊢
    split_ifs at h ⊢ with hlow
    · cases h
      rfl
    · exact hwide 1 _ _ h
    · exact hwide 2 _ _ h
    · exact hwide 4 _ _ h
    · exact hwide 8 _ _ h
    · cases h
      rfl

theorem head?_append_of_readHead {bs rest : List UInt8} {found : Nat × Nat × Extent}
    (h : readHead bs = some (found, rest)) (more : List UInt8) :
    (bs ++ more).head? = bs.head? := by
  cases bs with
  | nil => cases h
  | cons b bs => rfl

/-- Pieces up to their break are read with any larger bound on their count. -/
theorem readPieces_append {type fuel wide : Nat} (hwide : fuel ≤ wide)
    {done pieces : List (List UInt8)} {bs rest : List UInt8}
    (h : readPieces type fuel done bs = some (pieces, rest)) (more : List UInt8) :
    readPieces type wide done (bs ++ more) = some (pieces, rest ++ more) := by
  induction fuel generalizing wide done bs with
  | zero => cases h
  | succ fuel ih =>
    obtain ⟨wide, rfl⟩ := Nat.exists_eq_add_of_le' (Nat.le_of_add_left_le hwide)
    unfold readPieces at h ⊢
    split at h
    · rename_i hbreak
      obtain ⟨behind, rfl⟩ := List.head?_eq_some_iff.1 hbreak
      rw [List.cons_append, List.head?_cons, if_pos rfl]
      cases h
      rfl
    · rename_i hbreak
      split at h
      · rename_i t low n behind hhead
        rw [head?_append_of_readHead hhead, if_neg hbreak, readHead_append hhead]
        simp only at h ⊢
        split_ifs at h ⊢
        split at h
        · rename_i piece left htake
          rw [takeBytes_append_of_eq_some htake]
          exact ih (Nat.le_of_succ_le_succ hwide) h
        · cases h
      · cases h

theorem readString_append {type : Nat} {extent : Extent} {pieces : List (List UInt8)}
    {bs rest : List UInt8} (h : readString type extent bs = some (pieces, rest))
    (more : List UInt8) :
    readString type extent (bs ++ more) = some (pieces, rest ++ more) := by
  cases extent with
  | known n =>
    obtain ⟨⟨piece, left⟩, htake, hfound⟩ := Option.map_eq_some_iff.1 h
    unfold readString
    simp only [takeBytes_append_of_eq_some htake]
    cases hfound
    rfl
  | untilBreak =>
    have hbound : bs.length + 1 ≤ (bs ++ more).length + 1 := by
      rw [List.length_append]
      omega
    exact readPieces_append hbound h more

/-! ## Items -/

/-- What is read under the first bound is read under the second one too, whatever follows. -/
structure ReadsOn (fuel wide : Nat) (more : List UInt8) : Prop where
  item : ∀ {depth bs v rest}, readItem fuel depth bs = some (v, rest) →
    readItem wide depth (bs ++ more) = some (v, rest ++ more)
  items : ∀ {depth extent done bs v rest},
    readItems fuel depth extent done bs = some (v, rest) →
      readItems wide depth extent done (bs ++ more) = some (v, rest ++ more)
  entries : ∀ {depth extent done bs v rest},
    readEntries fuel depth extent done bs = some (v, rest) →
      readEntries wide depth extent done (bs ++ more) = some (v, rest ++ more)

section
variable {fuel wide depth : Nat} {more bs rest : List UInt8} {v : Value}

theorem readItem_append_of_readsOn (ih : ReadsOn fuel wide more)
    (h : readItem (fuel + 1) depth bs = some (v, rest)) :
    readItem (wide + 1) depth (bs ++ more) = some (v, rest ++ more) := by
  cases depth with
  | zero => cases h
  | succ depth =>
    unfold readItem at h ⊢
    split at h
    · cases h
    · rename_i type low extent behind hhead
      rw [readHead_append hhead]
      simp only
      split at h
      · cases h
        rfl
      · cases h
        rfl
      · obtain ⟨⟨pieces, left⟩, hstring, hfound⟩ := Option.map_eq_some_iff.1 h
        rw [readString_append hstring]
        cases hfound
        rfl
      · obtain ⟨⟨pieces, left⟩, hstring, htexts⟩ := Option.bind_eq_some_iff.1 h
        obtain ⟨texts, hdecode, hfound⟩ := Option.bind_eq_some_iff.1 htexts
        simp only [readString_append hstring, Option.bind_eq_bind, Option.bind_some, hdecode]
        cases hfound
        rfl
      · exact ih.items h
      · exact ih.entries h
      · obtain ⟨⟨content, left⟩, hcontent, htag⟩ := Option.bind_eq_some_iff.1 h
        obtain ⟨number, htagged, hfound⟩ := Option.bind_eq_some_iff.1 htag
        simp only [ih.item hcontent, Option.bind_eq_bind, Option.bind_some, htagged]
        cases hfound
        rfl
      · obtain ⟨value, hvalue, hfound⟩ := Option.map_eq_some_iff.1 h
        rw [hvalue]
        cases hfound
        rfl
      · cases h

theorem head?_append_of_readItem (h : readItem fuel depth bs = some (v, rest)) :
    (bs ++ more).head? = bs.head? := by
  cases bs with
  | nil => cases fuel <;> cases depth <;> cases h
  | cons b bs => rfl

theorem readItems_append_of_readsOn (ih : ReadsOn fuel wide more) {extent : Extent}
    {done : List Value} (h : readItems (fuel + 1) depth extent done bs = some (v, rest)) :
    readItems (wide + 1) depth extent done (bs ++ more) = some (v, rest ++ more) := by
  unfold readItems at h ⊢
  split at h
  · cases h
    rfl
  · split at h
    · cases h
    · rename_i item left hitem
      rw [ih.item hitem]
      exact ih.items h
  · split at h
    · rename_i hbreak
      obtain ⟨behind, rfl⟩ := List.head?_eq_some_iff.1 hbreak
      cases h
      rfl
    · rename_i hbreak
      split at h
      · cases h
      · rename_i item left hitem
        simp only [head?_append_of_readItem hitem, if_neg hbreak, ih.item hitem]
        exact ih.items h

theorem readEntries_append_of_readsOn (ih : ReadsOn fuel wide more) {extent : Extent}
    {done : List (Value × Value)}
    (h : readEntries (fuel + 1) depth extent done bs = some (v, rest)) :
    readEntries (wide + 1) depth extent done (bs ++ more) = some (v, rest ++ more) := by
  unfold readEntries at h ⊢
  split at h
  · cases h
    rfl
  · split at h
    · cases h
    · rename_i key left hkey
      split at h
      · cases h
      · rename_i item behind hitem
        simp only [ih.item hkey, ih.item hitem]
        exact ih.entries h
  · split at h
    · rename_i hbreak
      obtain ⟨behind, rfl⟩ := List.head?_eq_some_iff.1 hbreak
      cases h
      rfl
    · rename_i hbreak
      split at h
      · cases h
      · rename_i key left hkey
        split at h
        · cases h
        · rename_i item behind hitem
          simp only [head?_append_of_readItem hkey, if_neg hbreak, ih.item hkey, ih.item hitem]
          exact ih.entries h

end

theorem readsOn (more : List UInt8) {fuel wide : Nat} (hwide : fuel ≤ wide) :
    ReadsOn fuel wide more := by
  induction fuel generalizing wide with
  | zero => exact ⟨(nomatch ·), (nomatch ·), (nomatch ·)⟩
  | succ fuel ih =>
    obtain ⟨wide, rfl⟩ := Nat.exists_eq_add_of_le' (Nat.le_of_add_left_le hwide)
    have hless := ih (Nat.le_of_succ_le_succ hwide)
    exact ⟨readItem_append_of_readsOn hless, readItems_append_of_readsOn hless,
      readEntries_append_of_readsOn hless⟩

/-! ## Fronts -/

theorem parse_append_of_fills {bytes : List UInt8} {v : Value} (h : Fills bytes v)
    (more : List UInt8) : parse (bytes ++ more) = some v := by
  have hbound : 2 * bytes.length + 2 ≤ 2 * (bytes ++ more).length + 2 := by
    rw [List.length_append]
    omega
  unfold parse
  rw [(readsOn more hbound).item h]
  rfl

/-- An item that is read from a front is read from the whole, and leaves what was cut off. -/
theorem parse_eq_none_of_front {front bytes : List UInt8} {v : Value} (h : Fills bytes v)
    (hfront : front <+: bytes) (hne : front ≠ bytes) : parse front = none := by
  obtain ⟨cut, rfl⟩ := hfront
  have hbound : 2 * front.length + 2 ≤ 2 * (front ++ cut).length + 2 := by
    rw [List.length_append]
    omega
  rw [parse, Option.map_eq_none_iff, Option.eq_none_iff_forall_ne_some]
  rintro ⟨item, left⟩ hread
  have hwhole := (readsOn cut hbound).item hread
  rw [h] at hwhole
  have hleft : left ++ cut = [] := (congrArg Prod.snd (Option.some.inj hwhole)).symm
  rw [(List.append_eq_nil_iff.1 hleft).2, List.append_nil] at hne
  exact hne rfl

end Attestation.Cbor
