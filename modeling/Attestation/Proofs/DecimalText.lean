-- The laws of the texts of decimals. The text of a decimal is written in one of two layouts, with
-- all digits or with a power of ten, and in either one it is an amount with the very sign, digits
-- and exponent of the decimal. So a decimal within bounds comes back from its text as it was.
import Attestation.Proofs.AmountText

namespace Attestation.Decimal

open DecimalDigit

variable {d : Decimal}

/-! ## The two layouts -/

/-- Digits without a point, of a number that has no exponent. -/
theorem amountForm_digits (h : d.exponent = 0) : AmountForm (d.sign ++ d.digits) d := by
  have hmantissa := MantissaForm.whole (areDigits_write d.coefficient) (write_ne_nil _)
  have hform := AmountForm.mk (signForm_minus d.negative) hmantissa .absent
  have hvalue : Nat.ofDigitChars 10 (write d.coefficient ++ []) 0 = d.coefficient := by
    rw [List.append_nil]
    exact ofAscii_write _
  rw [hvalue, List.append_nil, List.length_nil, Nat.cast_zero, sub_zero, ← h] at hform
  exact hform

/-- Digits with a point among them, with zeros in front where they are short. -/
theorem amountForm_pointed (h : d.exponent < 0) :
    AmountForm (d.sign ++ pointed d.digits (-d.exponent).toNat) d := by
  have hwhole := areDigits_write (d.coefficient / 10 ^ (-d.exponent).toNat)
  have hfraction := areDigits_iff.2 (isAscii_writeFixed (-d.exponent).toNat d.coefficient)
  have hmantissa := MantissaForm.pointed hwhole (write_ne_nil _) hfraction
  have hform := AmountForm.mk (signForm_minus d.negative) hmantissa .absent
  have hvalue := ofAscii_write_append_writeFixed (-d.exponent).toNat d.coefficient
  have hexp : (0 : ℤ) - ((-d.exponent).toNat : ℕ) = d.exponent := by omega
  rw [← ofAscii_eq_ofDigitChars, hvalue, writeFixed_length, hexp, List.append_nil] at hform
  rw [digits, pointed_write]
  exact hform

/-- The power of ten of the leading digit, in six digits at most. -/
theorem powerForm_exponentMark {e : ℤ} (h : e.natAbs < 1000000) :
    PowerForm (exponentMark e) e := by
  have hshort := length_write_le (by decide : 0 < 6) h
  have hmark : 'E' = 'e' ∨ 'E' = 'E' := Or.inr rfl
  exact powerForm_signed hmark 0 (by omega)

/-- One digit before the point and a power of ten behind the others. -/
theorem amountForm_scientific (h : d.adjusted.natAbs < 1000000) :
    AmountForm (d.sign ++ d.digits.take 1 ++
      (if (d.digits.drop 1).isEmpty then [] else '.' :: d.digits.drop 1) ++
        exponentMark d.adjusted) d := by
  obtain ⟨c, tail, hdigits⟩ := List.exists_cons_of_ne_nil (write_ne_nil d.coefficient)
  have hall := areDigits_write d.coefficient
  rw [hdigits] at hall
  have hfirst : AreDigits [c] := by
    rintro _ (_ | ⟨_, ⟨⟩⟩)
    exact hall c List.mem_cons_self
  have htail : AreDigits tail := fun b hb => hall b (List.mem_cons_of_mem _ hb)
  have hmantissa := mantissaForm_append hfirst (List.cons_ne_nil c []) htail
  have hform := AmountForm.mk (signForm_minus d.negative) hmantissa (powerForm_exponentMark h)
  have hvalue : ofAscii ([c] ++ tail) = d.coefficient := by
    rw [List.singleton_append, ← hdigits, ofAscii_write]
  have hexp : d.adjusted - tail.length = d.exponent := by
    rw [adjusted, digits, hdigits, List.length_cons]
    omega
  rw [← ofAscii_eq_ofDigitChars, hvalue, hexp, List.append_assoc] at hform
  simp only [← List.isEmpty_iff] at hform
  rw [digits, hdigits, List.append_assoc, List.append_assoc]
  exact hform

/-- In either layout the text has the form of an amount, and it is this very decimal. -/
theorem amountForm_chars (h : d.adjusted.natAbs < 1000000) : AmountForm d.chars d := by
  unfold chars
  by_cases hplain : d.exponent ≤ 0 ∧ -6 ≤ d.adjusted
  · rw [if_pos hplain]
    by_cases hzero : d.exponent = 0
    · rw [if_pos hzero]
      exact amountForm_digits hzero
    · rw [if_neg hzero]
      exact amountForm_pointed (lt_of_le_of_ne hplain.1 hzero)
  · rw [if_neg hplain]
    exact amountForm_scientific h

/-- A zero keeps its sign and its exponent. -/
example : chars ⟨true, 0, 5⟩ = "-0E+5".toList := by decide

end Attestation.Decimal

namespace Attestation.Reading

/-- An amount within bounds comes back from its text with its sign, its digits and its exponent,
whichever input the text is handed in for. -/
theorem amount_text {d : Decimal} (h : d.isBounded = true) (field : String) :
    amount field (.text d.text) = .ok d := by
  have hleading := (Decimal.isBounded_iff d).1 h
  rw [amount_text_eq_ok_iff, ← Decimal.isBounded_iff_inReach, Decimal.text, String.toList_ofList]
  exact ⟨Decimal.amountForm_chars (by omega), h⟩

end Attestation.Reading
