-- The laws of what a bundle is bound to. Under its own salt a proof is good for one canonical
-- text only. Under a salt of the presenter's choice it is good for every other split of the
-- one message, for the message is a plain run of value and salt with nothing in between.
import Attestation.Proofs.AmountText
import Attestation.Proofs.Issuing

namespace Attestation

/-! ## One message split in two ways -/

/-- A piece of text is moved between the end of the value and the front of the salt. -/
def Moved (piece value salt value' salt' : String) : Prop :=
  piece ≠ "" ∧ (value' = value ++ piece ∧ salt = piece ++ salt' ∨
    value = value' ++ piece ∧ salt' = piece ++ salt)

theorem eq_append_of_toList {s t : String} {cs : List Char} (h : s.toList = t.toList ++ cs) :
    s = t ++ String.ofList cs := by
  rw [← String.toList_inj, String.toList_append, String.toList_ofList, h]

theorem eq_ofList_append_of_toList {s t : String} {cs : List Char}
    (h : s.toList = cs ++ t.toList) : s = String.ofList cs ++ t := by
  rw [← String.toList_inj, String.toList_append, String.toList_ofList, h]

/-- Two splits of one message are the same, or a piece is moved from one to the other. -/
theorem append_eq_append_iff_moved (value salt value' salt' : String) :
    value' ++ salt' = value ++ salt ↔
      (value' = value ∧ salt' = salt) ∨ ∃ piece, Moved piece value salt value' salt' := by
  constructor
  · intro h
    have hlists := congrArg String.toList h
    simp only [String.toList_append] at hlists
    rcases List.append_eq_append_iff.1 hlists with ⟨cs, hvalue, hsalt⟩ | ⟨cs, hvalue, hsalt⟩
    · have hv := eq_append_of_toList hvalue
      have hs := eq_ofList_append_of_toList hsalt
      by_cases hnil : String.ofList cs = ""
      · rw [hnil, String.append_empty] at hv
        rw [hnil, String.empty_append] at hs
        exact Or.inl ⟨hv.symm, hs⟩
      · exact Or.inr ⟨_, hnil, Or.inr ⟨hv, hs⟩⟩
    · have hv := eq_append_of_toList hvalue
      have hs := eq_ofList_append_of_toList hsalt
      by_cases hnil : String.ofList cs = ""
      · rw [hnil, String.append_empty] at hv
        rw [hnil, String.empty_append] at hs
        exact Or.inl ⟨hv, hs.symm⟩
      · exact Or.inr ⟨_, hnil, Or.inl ⟨hv, hs⟩⟩
  · rintro (⟨rfl, rfl⟩ | ⟨piece, _, ⟨rfl, rfl⟩ | ⟨rfl, rfl⟩⟩)
    · rfl
    · exact String.append_assoc
    · exact String.append_assoc.symm

/-- A moved piece shows in the length of the salt. -/
theorem Moved.length_ne {piece value salt value' salt' : String}
    (h : Moved piece value salt value' salt') : salt'.length ≠ salt.length := by
  obtain ⟨hpiece, hmove⟩ := h
  have hpos : piece.length ≠ 0 := by simpa using hpiece
  rcases hmove with ⟨_, rfl⟩ | ⟨_, rfl⟩
  · rw [String.length_append]
    omega
  · rw [String.length_append]
    omega

/-- A moved piece stands in a value and in a salt, on opposite sides. -/
theorem Moved.mem {piece value salt value' salt' : String}
    (h : Moved piece value salt value' salt') {c : Char} (hc : c ∈ piece.toList) :
    c ∈ value'.toList ∧ c ∈ salt.toList ∨ c ∈ value.toList ∧ c ∈ salt'.toList := by
  obtain ⟨_, ⟨rfl, rfl⟩ | ⟨rfl, rfl⟩⟩ := h
  · refine Or.inl ⟨?_, ?_⟩
    · rw [String.toList_append]
      exact List.mem_append_right _ hc
    · rw [String.toList_append]
      exact List.mem_append_left _ hc
  · refine Or.inr ⟨?_, ?_⟩
    · rw [String.toList_append]
      exact List.mem_append_right _ hc
    · rw [String.toList_append]
      exact List.mem_append_left _ hc

/-! ## What may stand in an amount and in a salt -/

theorem Decimal.IsCanonical.mem {cs : List Char} (h : Decimal.IsCanonical cs) :
    ∀ c ∈ cs, c = '-' ∨ c = '.' ∨ DecimalDigit.isAscii c = true := by
  obtain ⟨minus, whole, fraction, hspelled, rfl⟩ := h
  intro c hc
  rcases List.mem_append.1 hc with hsign | hc
  · refine Or.inl ?_
    split at hsign
    · exact List.mem_singleton.1 hsign
    · cases hsign
  rcases List.mem_append.1 hc with hwhole | hc
  · exact Or.inr (Or.inr (hspelled.whole_digits c hwhole))
  split at hc
  · cases hc
  rcases List.mem_cons.1 hc with hpoint | hfraction
  · exact Or.inr (Or.inl hpoint)
  · exact Or.inr (Or.inr (hspelled.fraction_digits c hfraction))

/-- What a canonical amount and a salt that passes the gate have in common are digits. -/
theorem isAscii_of_mem_amount_of_mem_salt {value salt t : String} {c : Char}
    (hvalue : Decimal.IsCanonical value.toList) (hsalt : saltText? (.text salt) = some t)
    (hc : c ∈ value.toList) (hc' : c ∈ salt.toList) : DecimalDigit.isAscii c = true := by
  obtain ⟨_, bs, hread, _⟩ := saltText?_text_eq_some_iff.1 hsalt
  have hbase := Base64.mem_of_decode hread c hc'
  rcases hvalue.mem c hc with rfl | rfl | hdigit
  · revert hbase
    decide
  · revert hbase
    decide
  · exact hdigit

theorem Reading.isCanonical_of_amountText {field s : String} {v : Value}
    (h : (Reading.amountText field v).map Value.text = .ok (.text s)) :
    Decimal.IsCanonical s.toList := by
  obtain ⟨t, ht, hs⟩ := map_eq_ok_iff.1 h
  cases hs
  obtain ⟨d, _, rfl⟩ := map_eq_ok_iff.1 ht
  rw [Decimal.canonical, String.toList_ofList, Decimal.canonicalChars_eq]
  exact d.lowest.isCanonical_chars

/-- The text of a balance or of a number in a range is a canonical amount. -/
theorem Claim.isCanonical_of_canonical {claim : Claim} {s : String}
    (hkind : claim.kind = .balance ∨ claim.kind = .range)
    (h : claim.canonical = .ok (.text s)) : Decimal.IsCanonical s.toList := by
  cases claim with
  | balance held wanted => exact Reading.isCanonical_of_amountText h
  | range value low high => exact Reading.isCanonical_of_amountText h
  | age _ _ => simp [kind] at hkind
  | membership _ _ => simp [kind] at hkind
  | timeCondition _ _ => simp [kind] at hkind

/-! ## One salt -/

/-- All that a verifier asks of a salt and a claim, but for the hash of their message. -/
def Claim.Admits (today : Date) (claim : Claim) (value salt : String) : Prop :=
  saltText? (.text salt) = some salt ∧ claim.screen today = .ok () ∧
    claim.holds today = .ok true ∧ claim.canonical = .ok (.text value)

namespace Notary

variable {n n' : Notary} {o o' : Office} {today today' : Date} {claim claim' : Claim}

theorem prove_of_admits (hopen : o.isClosed n.committer = false) {value salt : String}
    (h : claim.Admits today value salt) :
    (n.prove today claim o).1 = .ok (n.bundleFor o claim.kind value) := by
  obtain ⟨_, hscreen, hholds, hvalue⟩ := h
  exact (prove_eq_ok_iff hopen).2
    ⟨hscreen, Claim.holds_eq_true_iff.1 hholds, value, hvalue, rfl⟩

/-- What is accepted for an issued proof: a claim whose message has the hash of the issued one. -/
theorem verify_issued_iff (hopen : o'.isClosed n'.committer = false)
    (hkey : o'.keyBytes n'.committer = o.keyBytes n.committer) (kind : Claim.Kind)
    (value salt' : String) :
    (n'.verify today' (n.bundleFor o kind value).proof (.text salt') claim' o').1 = .ok true ↔
      ∃ value', claim'.Admits today' value' salt' ∧
        (value' ++ salt' = value ++ o.drawSalt.1 ∨
          Collision (o.keyBytes n.committer) (value' ++ salt') (value ++ o.drawSalt.1)) := by
  have hproof := proofText?_macText (o.keyBytes n.committer) (value ++ o.drawSalt.1)
  rw [verify_eq_true_iff hopen, hkey]
  constructor
  · rintro ⟨p, s, hp, hs, hscreen, hholds, value', hvalue', hmac⟩
    cases eq_text_of_saltText? hs
    have hpp : macText (o.keyBytes n.committer) (value ++ o.drawSalt.1) = p :=
      Text.whole.inj (Option.some.inj (hproof.symm.trans hp))
    exact ⟨value', ⟨hs, hscreen, hholds, hvalue'⟩, (macText_eq_iff _ _ _).1 (hmac.trans hpp.symm)⟩
  · rintro ⟨value', ⟨hs, hscreen, hholds, hvalue'⟩, hmessage⟩
    exact ⟨_, _, hproof, hs, hscreen, hholds, value', hvalue', (macText_eq_iff _ _ _).2 hmessage⟩

/-- A claim that admits the salt of an issued bundle, and has its text, is accepted for it. -/
theorem verify_of_admits (hopen : o.isClosed n.committer = false) (kind : Claim.Kind)
    {value : String} (hadmits : claim.Admits today value o.drawSalt.1) :
    (n.verify today (n.bundleFor o kind value).proof (.text o.drawSalt.1) claim o).1 = .ok true :=
  (verify_issued_iff hopen rfl kind value _).2 ⟨value, hadmits, Or.inl rfl⟩

/-- Under its own salt the hash leaves no room but for a collision. -/
theorem verify_own_salt_iff (hopen : o'.isClosed n'.committer = false)
    (hkey : o'.keyBytes n'.committer = o.keyBytes n.committer) (kind : Claim.Kind)
    (value : String) :
    (n'.verify today' (n.bundleFor o kind value).proof (n.bundleFor o kind value).salt
        claim' o').1 = .ok true ↔
      claim'.screen today' = .ok () ∧ claim'.holds today' = .ok true ∧
        ∃ value', claim'.canonical = .ok (.text value') ∧
          (value' = value ∨ Collision (o.keyBytes n.committer) (value' ++ o.drawSalt.1)
            (value ++ o.drawSalt.1)) := by
  refine (verify_issued_iff hopen hkey kind value o.drawSalt.1).trans ?_
  simp only [String.append_left_inj]
  constructor
  · rintro ⟨value', ⟨_, hscreen, hholds, hvalue'⟩, hway⟩
    exact ⟨hscreen, hholds, value', hvalue', hway⟩
  · rintro ⟨hscreen, hholds, value', hvalue', hway⟩
    exact ⟨value', ⟨o.saltText?_drawSalt, hscreen, hholds, hvalue'⟩, hway⟩

end Notary

/-- An issued bundle verifies, under the same key bytes and on any day, for those claims of any
kind that pass their screen, hold, and have the very canonical text that it was issued for. The
one way past this is a collision of the hash. So it verifies for its own claim. -/
theorem an_issued_bundle_verifies_for_its_canonical_text {n n' : Notary} {o o' : Office}
    {today today' : Date} {claim claim' : Claim} {b : Bundle}
    (hopen : o.isClosed n.committer = false) (hopen' : o'.isClosed n'.committer = false)
    (hkey : o'.keyBytes n'.committer = o.keyBytes n.committer)
    (hissued : (n.prove today claim o).1 = .ok b) :
    ∃ value salt, claim.canonical = .ok (.text value) ∧ b.salt = .text salt ∧
      ((n'.verify today' b.proof b.salt claim' o').1 = .ok true ↔
        claim'.screen today' = .ok () ∧ claim'.holds today' = .ok true ∧
          ∃ value', claim'.canonical = .ok (.text value') ∧
            (value' = value ∨
              Collision (o.keyBytes n.committer) (value' ++ salt) (value ++ salt))) ∧
      (n.verify today b.proof b.salt claim (n.prove today claim o).2).1 = .ok true := by
  obtain ⟨hscreen, hcheck, value, hvalue, rfl⟩ := (Notary.prove_eq_ok_iff hopen).1 hissued
  refine ⟨value, o.drawSalt.1, hvalue, rfl, Notary.verify_own_salt_iff hopen' hkey _ _, ?_⟩
  have hafter : (n.prove today claim o).2.isClosed n.committer = false := by
    rw [Notary.isClosed_prove, hopen]
  rw [Notary.verify_own_salt_iff hafter (Notary.keyBytes_prove _)]
  exact ⟨hscreen, Claim.holds_eq_true_iff.2 hcheck, value, hvalue, Or.inl rfl⟩

/-- A balance of 1000.00 and a range around 1000 have one canonical text. -/
theorem a_trial_bundle_of_a_balance_verifies_for_a_range :
    ∃ b, (Notary.trial.prove Date.trial (.balance (.text "1000.00") (.int 500)) Office.trial).1 =
        .ok b ∧
      (Notary.trial.verify Date.trial b.proof b.salt
        (.range (.int 1000) (.int 0) (.text "1e3")) Office.trial).1 = .ok true := by
  have hopen : Office.trial.isClosed Notary.trial.committer = false := rfl
  have hissued := @Notary.prove_of_admits _ _ Date.trial (.balance (.text "1000.00") (.int 500))
    hopen "1000" _ ⟨Office.trial.saltText?_drawSalt, rfl, rfl, rfl⟩
  obtain ⟨value, salt, hvalue, _, hverify, _⟩ := @an_issued_bundle_verifies_for_its_canonical_text
    _ _ _ _ _ Date.trial _ (.range (.int 1000) (.int 0) (.text "1e3")) _ hopen hopen rfl hissued
  refine ⟨_, hissued, hverify.2 ⟨rfl, rfl, "1000", rfl, Or.inl ?_⟩⟩
  cases hvalue
  rfl

/-! ## Any salt -/

/-- A proof is good for just three things: its own text and salt, another split of the one
message, and a collision. -/
theorem Notary.verify_any_salt_iff {n n' : Notary} {o o' : Office} {today' : Date} {claim' : Claim}
    (hopen : o'.isClosed n'.committer = false)
    (hkey : o'.keyBytes n'.committer = o.keyBytes n.committer) (kind : Claim.Kind)
    (value salt' : String) :
    (n'.verify today' (n.bundleFor o kind value).proof (.text salt') claim' o').1 = .ok true ↔
      ∃ value', claim'.Admits today' value' salt' ∧
        (((value' = value ∧ salt' = o.drawSalt.1) ∨
            Collision (o.keyBytes n.committer) (value' ++ salt') (value ++ o.drawSalt.1)) ∨
          ∃ piece, Moved piece value o.drawSalt.1 value' salt') := by
  rw [verify_issued_iff hopen hkey]
  refine exists_congr fun value' => and_congr_right fun _ => ?_
  rw [append_eq_append_iff_moved, or_right_comm]

/-- A moved piece makes one message of two splits, so that there is no way past it. -/
theorem Moved.not_bound {key : List UInt8} {piece value salt value' salt' : String}
    (h : Moved piece value salt value' salt') :
    ¬ ((value' = value ∧ salt' = salt) ∨ Collision key (value' ++ salt') (value ++ salt)) := by
  rintro (⟨_, hsalt⟩ | ⟨hdiffer, _⟩)
  · exact h.length_ne (by rw [hsalt])
  · exact hdiffer ((append_eq_append_iff_moved _ _ _ _).2 (Or.inr ⟨piece, h⟩))

/-- Whoever moves a piece holds a proof of another value, so long as the verifier admits it. -/
theorem Notary.verify_of_moved {n : Notary} {o : Office} {today : Date} {claim claim' : Claim}
    {piece value value' salt' : String} (hopen : o.isClosed n.committer = false)
    (hadmits : claim.Admits today value o.drawSalt.1) (hadmits' : claim'.Admits today value' salt')
    (hmoved : Moved piece value o.drawSalt.1 value' salt') :
    ∃ b, (n.prove today claim o).1 = .ok b ∧
      (n.verify today b.proof (.text salt') claim' o).1 = .ok true ∧
      ¬ ((value' = value ∧ salt' = o.drawSalt.1) ∨
        Collision (o.keyBytes n.committer) (value' ++ salt') (value ++ o.drawSalt.1)) := by
  refine ⟨_, prove_of_admits hopen hadmits, ?_, hmoved.not_bound⟩
  exact (verify_any_salt_iff hopen rfl _ _ _).2 ⟨value', hadmits', Or.inr ⟨piece, hmoved⟩⟩

/-- The proof of a balance, a membership or a range is bound to its canonical text and its
salt, up to a collision, just when the verifier admits no claim and salt that come from them by
moving a piece. A piece that is moved shows in the length of the salt, and of an amount only
digits can be moved. -/
theorem a_proof_is_bound_unless_a_piece_is_moved {n n' : Notary} {o o' : Office}
    {today today' : Date} {claim claim' : Claim} {b : Bundle} {salt' : String}
    (hkind : claim.kind = .balance ∨ claim.kind = .membership ∨ claim.kind = .range)
    (hsame : claim'.kind = claim.kind)
    (hopen : o.isClosed n.committer = false) (hopen' : o'.isClosed n'.committer = false)
    (hkey : o'.keyBytes n'.committer = o.keyBytes n.committer)
    (hissued : (n.prove today claim o).1 = .ok b) :
    ∃ value salt, claim.canonical = .ok (.text value) ∧ b.salt = .text salt ∧
      (((n'.verify today' b.proof (.text salt') claim' o').1 = .ok true →
          ∃ value', claim'.canonical = .ok (.text value') ∧
            ((value' = value ∧ salt' = salt) ∨
              Collision (o.keyBytes n.committer) (value' ++ salt') (value ++ salt))) ↔
        ¬ ∃ value' piece, claim'.Admits today' value' salt' ∧
          Moved piece value salt value' salt') ∧
      ∀ value' piece, claim'.Admits today' value' salt' → Moved piece value salt value' salt' →
        salt'.length ≠ salt.length ∧
          (claim.kind = .membership ∨ ∀ c ∈ piece.toList, DecimalDigit.isAscii c = true) := by
  obtain ⟨_, _, value, hvalue, rfl⟩ := (Notary.prove_eq_ok_iff hopen).1 hissued
  refine ⟨value, o.drawSalt.1, hvalue, rfl, ⟨?_, ?_⟩, ?_⟩
  · rintro hbound ⟨value', piece, hadmits, hmoved⟩
    obtain ⟨other, hother, hbinds⟩ := hbound
      ((Notary.verify_any_salt_iff hopen' hkey _ _ _).2 ⟨value', hadmits, Or.inr ⟨piece, hmoved⟩⟩)
    rw [hadmits.2.2.2] at hother
    cases hother
    exact hmoved.not_bound hbinds
  · intro hnone haccepted
    obtain ⟨value', hadmits, hbinds | ⟨piece, hmoved⟩⟩ :=
      (Notary.verify_any_salt_iff hopen' hkey _ _ _).1 haccepted
    · exact ⟨value', hadmits.2.2.2, hbinds⟩
    · exact absurd ⟨value', piece, hadmits, hmoved⟩ hnone
  · intro value' piece hadmits hmoved
    refine ⟨hmoved.length_ne, ?_⟩
    rcases or_left_comm.1 hkind with hmember | hamount
    · exact Or.inl hmember
    refine Or.inr fun c hc => ?_
    rcases hmoved.mem hc with ⟨hleft, hright⟩ | ⟨hleft, hright⟩
    · rw [← hsame] at hamount
      exact isAscii_of_mem_amount_of_mem_salt (Claim.isCanonical_of_canonical hamount hadmits.2.2.2)
        o.saltText?_drawSalt hleft hright
    · exact isAscii_of_mem_amount_of_mem_salt (Claim.isCanonical_of_canonical hamount hvalue)
        hadmits.1 hleft hright

/-- Under the salt of its bundle the proof of gold is good for silver by a collision only. -/
theorem a_trial_proof_under_its_own_salt_is_bound :
    ∃ b, (Notary.trial.prove Date.trial (.membership (.text "gold") (.list [.text "gold"]))
        Office.trial).1 = .ok b ∧
      ((Notary.trial.verify Date.trial b.proof (.text Office.trial.drawSalt.1)
          (.membership (.text "silver") (.list [.text "silver"])) Office.trial).1 = .ok true →
        Collision (Office.trial.keyBytes Notary.trial.committer)
          ("silver" ++ Office.trial.drawSalt.1) ("gold" ++ Office.trial.drawSalt.1)) := by
  have hopen : Office.trial.isClosed Notary.trial.committer = false := rfl
  have hissued := @Notary.prove_of_admits _ _ Date.trial
    (.membership (.text "gold") (.list [.text "gold"])) hopen "gold" _
    ⟨Office.trial.saltText?_drawSalt, rfl, rfl, rfl⟩
  obtain ⟨value, salt, hvalue, hsalt, hbound, hpieces⟩ :=
    @a_proof_is_bound_unless_a_piece_is_moved _ _ _ _ _ Date.trial
      (.membership (.text "gold") (.list [.text "gold"]))
      (.membership (.text "silver") (.list [.text "silver"])) _ Office.trial.drawSalt.1
      (Or.inr (Or.inl rfl)) rfl hopen hopen rfl hissued
  cases hvalue
  have hdrawn : Office.trial.drawSalt.1 = salt := Value.text.inj hsalt
  refine ⟨_, hissued, fun haccepted => ?_⟩
  obtain ⟨value', hvalue', hways⟩ := hbound.2 (fun ⟨value', piece, hadmits, hmoved⟩ =>
    (hpieces value' piece hadmits hmoved).1 (congrArg String.length hdrawn)) haccepted
  cases hvalue'
  rcases hways with ⟨hsame, _⟩ | hcollision
  · exact absurd hsame (by decide)
  · rwa [← hdrawn] at hcollision

/-- Four characters of the salt make another member of gold, and three of them more than a
thousand times the balance. -/
theorem a_trial_proof_is_good_for_more_than_its_value :
    (∃ b, (Notary.trial.prove Date.trial (.membership (.text "gold") (.list [.text "gold"]))
        Office.trial).1 = .ok b ∧
      (Notary.trial.verify Date.trial b.proof
        (.text "7PP6AQgPFh0kKzI5QEdOVVxjanF4f4aNlJuiqbA=")
        (.membership (.text "gold197l") (.list [.text "gold197l"])) Office.trial).1 = .ok true ∧
      ¬ (("gold197l" = "gold" ∧
          "7PP6AQgPFh0kKzI5QEdOVVxjanF4f4aNlJuiqbA=" = Office.trial.drawSalt.1) ∨
        Collision (Office.trial.keyBytes Notary.trial.committer)
          ("gold197l" ++ "7PP6AQgPFh0kKzI5QEdOVVxjanF4f4aNlJuiqbA=")
          ("gold" ++ Office.trial.drawSalt.1))) ∧
    ∃ b, (Notary.trial.prove Date.trial (.balance (.int 1000) (.int 500)) Office.trial).1 = .ok b ∧
      (Notary.trial.verify Date.trial b.proof
        (.text "l7PP6AQgPFh0kKzI5QEdOVVxjanF4f4aNlJuiqbA=")
        (.balance (.int 1000197) (.int 500)) Office.trial).1 = .ok true ∧
      ¬ (("1000197" = "1000" ∧
          "l7PP6AQgPFh0kKzI5QEdOVVxjanF4f4aNlJuiqbA=" = Office.trial.drawSalt.1) ∨
        Collision (Office.trial.keyBytes Notary.trial.committer)
          ("1000197" ++ "l7PP6AQgPFh0kKzI5QEdOVVxjanF4f4aNlJuiqbA=")
          ("1000" ++ Office.trial.drawSalt.1)) := by
  have hgate := Office.trial.saltText?_drawSalt
  refine ⟨?_, ?_⟩
  · refine @Notary.verify_of_moved _ _ _ _ _ "197l" _ _ _ rfl ⟨hgate, rfl, rfl, rfl⟩
      ⟨by decide +kernel, rfl, rfl, rfl⟩ ⟨by decide, Or.inl ⟨rfl, ?_⟩⟩
    exact Office.drawSalt_trial
  · refine @Notary.verify_of_moved _ _ _ _ _ "197" _ _ _ rfl ⟨hgate, rfl, rfl, rfl⟩
      ⟨by decide +kernel, rfl, rfl, rfl⟩ ⟨by decide, Or.inl ⟨rfl, ?_⟩⟩
    exact Office.drawSalt_trial

end Attestation
