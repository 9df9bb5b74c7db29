-- The laws of digit texts: how the text of a number grows digit by digit, and how the
-- digits of a number split into those before a point and those behind it. Where the digits
-- of every script count, a text is read by their places, and in no other way.
import Attestation.Text.DecimalDigit
import Mathlib

namespace Attestation.DecimalDigit

/-! ## Digits of the ASCII range -/

/-- Decimal digits of the ASCII range, and nothing else. -/
def AreDigits (cs : List Char) : Prop := ∀ c ∈ cs, c.isDigit = true

theorem isAscii_eq_isDigit (c : Char) : isAscii c = c.isDigit := rfl

theorem areDigits_iff {cs : List Char} : AreDigits cs ↔ ∀ c ∈ cs, isAscii c = true := by
  simp only [AreDigits, isAscii_eq_isDigit]

theorem areDigits_append {xs ys : List Char} (hxs : AreDigits xs) (hys : AreDigits ys) :
    AreDigits (xs ++ ys) := fun c hc => (List.mem_append.1 hc).elim (hxs c) (hys c)

theorem areDigits_replicate_zero (k : ℕ) : AreDigits (List.replicate k '0') := by
  intro c hc
  rw [List.eq_of_mem_replicate hc]
  rfl

theorem ofAscii_eq_ofDigitChars (cs : List Char) : ofAscii cs = Nat.ofDigitChars 10 cs 0 := rfl

/-! ## One digit more -/

theorem digitChar_eq {d : Nat} (h : d < 10) : Nat.digitChar d = Char.ofNat (48 + d) := by
  revert d
  decide

theorem write_of_lt {n : Nat} (h : n < 10) : write n = [Char.ofNat (48 + n)] := by
  rw [write, Nat.toDigits_of_lt_base h, digitChar_eq h]

theorem write_of_le {n : Nat} (h : 10 ≤ n) :
    write n = write (n / 10) ++ [Char.ofNat (48 + n % 10)] := by
  rw [write, Nat.toDigits_of_base_le (by decide) h, digitChar_eq (Nat.mod_lt n (by decide)), write]

theorem isAscii_digit (n : Nat) : isAscii (Char.ofNat (48 + n % 10)) = true :=
  isAscii_ofNat (Nat.mod_lt n (by decide))

theorem digit_eq_zero_iff (n : Nat) : Char.ofNat (48 + n % 10) = '0' ↔ n % 10 = 0 := by
  have h : n % 10 < 10 := Nat.mod_lt n (by decide)
  generalize n % 10 = d at h
  revert d
  decide

theorem isAscii_write (n : Nat) : ∀ c ∈ write n, isAscii c = true := by
  induction n using Nat.strongRecOn with
  | _ n ih =>
    by_cases h : n < 10
    · rw [write_of_lt h]
      simpa [Nat.mod_eq_of_lt h] using isAscii_digit n
    · rw [write_of_le (by omega)]
      intro c hc
      rcases List.mem_append.1 hc with hc | hc
      · exact ih (n / 10) (by omega) c hc
      · rw [List.mem_singleton.1 hc]
        exact isAscii_digit n

theorem areDigits_write (n : ℕ) : AreDigits (write n) := areDigits_iff.2 (isAscii_write n)

theorem isAscii_writeFixed (places n : Nat) : ∀ c ∈ writeFixed places n, isAscii c = true :=
  List.all_eq_true.1 (all_isAscii_writeFixed places n)

theorem write_ne_nil (n : Nat) : write n ≠ [] := by
  by_cases h : n < 10
  · simp [write_of_lt h]
  · simp [write_of_le (Nat.le_of_not_lt h)]

theorem length_write_pos (n : Nat) : 0 < (write n).length := List.length_pos_iff.2 (write_ne_nil n)

theorem length_write (n : ℕ) : (write n).length = max 1 (Nat.digits 10 n).length := by
  induction n using Nat.strongRecOn with
  | _ n ih =>
    by_cases h : n < 10
    · have hdigits : (Nat.digits 10 n).length ≤ 1 := (Nat.digits_length_le_iff (by decide) n).2 h
      rw [write_of_lt h, List.length_singleton]
      omega
    · have hrest := ih (n / 10) (by omega)
      have hpos : 0 < (Nat.digits 10 (n / 10)).length :=
        List.length_pos_iff.2 (Nat.digits_ne_nil_iff_ne_zero.2 (by omega))
      have hsplit : Nat.digits 10 n = n % 10 :: Nat.digits 10 (n / 10) :=
        Nat.digits_def' (by decide) (by omega)
      rw [write_of_le (by omega), hsplit, List.length_append, List.length_singleton, hrest,
        List.length_cons]
      omega

theorem length_write_le {n places : ℕ} (hplaces : 0 < places) (h : n < 10 ^ places) :
    (write n).length ≤ places := by
  rw [length_write, max_le_iff]
  exact ⟨hplaces, (Nat.digits_length_le_iff (by decide) n).2 h⟩

/-- A number has as many digits as the powers of ten around it say. -/
theorem length_write_bounds {n : ℕ} (h : n ≠ 0) :
    10 ^ ((write n).length - 1) ≤ n ∧ n < 10 ^ (write n).length := by
  have hpos : 0 < (Nat.digits 10 n).length :=
    List.length_pos_iff.2 (Nat.digits_ne_nil_iff_ne_zero.2 h)
  rw [length_write, max_eq_right hpos]
  exact ⟨(Nat.lt_digits_length_iff (by decide) n).1 (Nat.sub_lt hpos one_pos),
    Nat.lt_base_pow_length_digits (by decide)⟩

/-- Only the text of zero starts with a zero. -/
theorem head?_write_ne_zero {n : Nat} (h : n ≠ 0) : (write n).head? ≠ some '0' := by
  induction n using Nat.strongRecOn with
  | _ n ih =>
    by_cases hlt : n < 10
    · have hdigit := (digit_eq_zero_iff n).not.2 (by omega)
      rw [Nat.mod_eq_of_lt hlt] at hdigit
      simpa [write_of_lt hlt] using hdigit
    · rw [write_of_le (by omega), List.head?_append_of_ne_nil _ (write_ne_nil _)]
      exact ih (n / 10) (by omega) (by omega)

/-! ## Powers of ten -/

theorem write_mul_ten {n : Nat} (h : n ≠ 0) : write (n * 10) = write n ++ ['0'] := by
  rw [write_of_le (by omega), Nat.mul_div_cancel n (by decide), Nat.mul_mod_left]

/-- A power of ten is written as zeros behind the number. -/
theorem write_mul_pow {n : Nat} (h : n ≠ 0) (e : Nat) :
    write (n * 10 ^ e) = write n ++ List.replicate e '0' := by
  induction e with
  | zero => simp
  | succ e ih =>
    have hpos : n * 10 ^ e ≠ 0 := Nat.mul_ne_zero h (by positivity)
    rw [Nat.pow_succ, ← Nat.mul_assoc, write_mul_ten hpos, ih, List.replicate_succ',
      List.append_assoc]

theorem length_write_mul_pow {n : Nat} (h : n ≠ 0) (e : Nat) :
    (write (n * 10 ^ e)).length = (write n).length + e := by
  simp [write_mul_pow h]

theorem writeFixed_zero (places : Nat) : writeFixed places 0 = List.replicate places '0' := by
  induction places with
  | zero => rfl
  | succ p ih =>
    rw [writeFixed, List.replicate_succ', ih]

/-- The digits of a number, filled up with zeros in front, are those before the last
places and the last places. -/
theorem replicate_append_write (places n : Nat) :
    List.replicate (places + 1 - (write n).length) '0' ++ write n =
      write (n / 10 ^ places) ++ writeFixed places n := by
  induction places generalizing n with
  | zero =>
    have hpos := length_write_pos n
    simp [writeFixed, show 1 - (write n).length = 0 by omega]
  | succ p ih =>
    by_cases h : n < 10
    · have hsmall : n / 10 ^ (p + 1) = 0 :=
        Nat.div_eq_of_lt (h.trans_le (Nat.le_self_pow (by omega) 10))
      rw [hsmall, writeFixed, Nat.div_eq_of_lt h, writeFixed_zero, write_of_lt h,
        Nat.mod_eq_of_lt h]
      simp [write_of_lt, List.replicate_succ]
    · have hlength : (write n).length = (write (n / 10)).length + 1 := by
        simp [write_of_le (Nat.le_of_not_lt h)]
      have hdiv : n / 10 ^ (p + 1) = n / 10 / 10 ^ p := by
        rw [Nat.pow_succ', Nat.div_div_eq_div_mul]
      rw [hlength, show p + 1 + 1 - ((write (n / 10)).length + 1) = p + 1 - (write (n / 10)).length
        by omega, write_of_le (Nat.le_of_not_lt h), ← List.append_assoc, ih (n / 10), hdiv,
        writeFixed, List.append_assoc]

/-! ## Reading digits -/

theorem ofAscii_append_append (xs ys : List Char) :
    ofAscii (xs ++ ys) = ofAscii xs * 10 ^ ys.length + ofAscii ys := by
  induction ys using List.reverseRecOn with
  | nil => simp [ofAscii]
  | append_singleton ys c ih =>
    rw [← List.append_assoc, ofAscii_append, ih, ofAscii_append, List.length_append,
      List.length_singleton, Nat.pow_succ]
    ring

theorem ofAscii_replicate_zero (k : ℕ) : ofAscii (List.replicate k '0') = 0 := by
  induction k with
  | zero => rfl
  | succ k ih =>
    rw [List.replicate_succ', ofAscii_append, ih]
    rfl

theorem ofAscii_replicate_append (k : ℕ) (ds : List Char) :
    ofAscii (List.replicate k '0' ++ ds) = ofAscii ds := by
  rw [ofAscii_append_append, ofAscii_replicate_zero, zero_mul, zero_add]

theorem ofAscii_append_replicate (ds : List Char) (k : ℕ) :
    ofAscii (ds ++ List.replicate k '0') = ofAscii ds * 10 ^ k := by
  rw [ofAscii_append_append, ofAscii_replicate_zero, add_zero, List.length_replicate]

/-- With a fixed count of places the highest digits may be cut off. -/
theorem ofAscii_writeFixed (places n : Nat) :
    ofAscii (writeFixed places n) = n % 10 ^ places := by
  induction places generalizing n with
  | zero => simp [writeFixed, ofAscii, Nat.mod_one]
  | succ p ih =>
    have hlast : n % 10 < 10 := Nat.mod_lt _ (by decide)
    rw [writeFixed, ofAscii_append, ih, asciiValue_ofNat hlast, Nat.pow_succ']
    rw [Nat.mod_mul, Nat.add_comm]

/-- A digit of the ASCII range is its worth, counted from the zero. -/
theorem ofNat_asciiValue {c : Char} (h : isAscii c = true) :
    asciiValue c < 10 ∧ Char.ofNat (48 + asciiValue c) = c := by
  have hrange : 48 ≤ c.toNat ∧ c.toNat ≤ 57 := by
    simpa [isAscii, Char.le_def, UInt32.le_iff_toNat_le] using h
  unfold asciiValue
  rw [Nat.add_sub_cancel' hrange.1, Char.ofNat_toNat]
  exact ⟨by omega, rfl⟩

/-- Digits are what their number gives in as many places. -/
theorem writeFixed_ofAscii {cs : List Char} (h : ∀ c ∈ cs, isAscii c = true) :
    writeFixed cs.length (ofAscii cs) = cs := by
  induction cs using List.reverseRecOn with
  | nil => rfl
  | append_singleton cs c ih =>
    rw [List.forall_mem_append, List.forall_mem_singleton] at h
    obtain ⟨hlt, hdigit⟩ := ofNat_asciiValue h.2
    rw [List.length_append, List.length_singleton, writeFixed, ofAscii_append,
      show (10 * ofAscii cs + asciiValue c) / 10 = ofAscii cs by omega,
      show (10 * ofAscii cs + asciiValue c) % 10 = asciiValue c by omega, ih h.1, hdigit]

/-- Digits before a point and behind it are read as one number. -/
theorem ofAscii_write_append_writeFixed (places n : Nat) :
    ofAscii (write (n / 10 ^ places) ++ writeFixed places n) = n := by
  rw [ofAscii_append_append, ofAscii_write, ofAscii_writeFixed, writeFixed_length]
  exact Nat.div_add_mod' n (10 ^ places)

/-! ## Digits of every script -/

/-- A character is a decimal digit of this worth: it stands so many places behind the zero of
its run. -/
def HasWorth (c : Char) (d : Nat) : Prop := ∃ z ∈ zeros, c.toNat = z + d ∧ d < 10

/-- The runs of ten lie apart, so no character is in two of them. -/
theorem eq_of_mem_zeros {z z' : Nat} (hz : z ∈ zeros) (hz' : z' ∈ zeros) {n : Nat}
    (hn : z ≤ n ∧ n < z + 10) (hn' : z' ≤ n ∧ n < z' + 10) : z = z' := by
  have happart : zeros.Pairwise fun a b => a + 10 ≤ b ∨ b + 10 ≤ a := by decide
  have hsymm : Std.Symm fun a b : Nat => a + 10 ≤ b ∨ b + 10 ≤ a := ⟨fun _ _ => Or.symm⟩
  by_contra hne
  rcases happart.forall hz hz' hne with hlt | hlt
  · omega
  · omega

theorem value?_eq_some_iff {c : Char} {d : Nat} : value? c = some d ↔ HasWorth c d := by
  have hrun : ∀ z, (decide (z ≤ c.toNat) && decide (c.toNat < z + 10)) = true ↔
      z ≤ c.toNat ∧ c.toNat < z + 10 := by
    intro z
    simp only [Bool.and_eq_true, decide_eq_true_eq]
  unfold value? HasWorth
  rw [Option.map_eq_some_iff]
  constructor
  · rintro ⟨z, hfind, rfl⟩
    have hin := List.find?_some hfind
    rw [hrun] at hin
    exact ⟨z, List.mem_of_find?_eq_some hfind, by omega, by omega⟩
  · rintro ⟨z, hz, hc, hd⟩
    cases hfind : zeros.find? fun z => z ≤ c.toNat && c.toNat < z + 10 with
    | none => exact absurd ((hrun z).2 (by omega)) (List.find?_eq_none.1 hfind z hz)
    | some z' =>
      have hin := List.find?_some hfind
      rw [hrun] at hin
      have hsame := eq_of_mem_zeros hz (List.mem_of_find?_eq_some hfind) (by omega) hin
      exact ⟨z', rfl, by omega⟩

/-- One digit more moves the others up by a place. -/
theorem read?_append (cs : List Char) (c : Char) :
    read? (cs ++ [c]) = (read? cs).bind fun n => (value? c).map fun d => 10 * n + d := by
  unfold read?
  rw [List.foldl_append]
  simp [Option.map_eq_bind]

/-- A text is read just when all its characters are digits. -/
theorem exists_read?_iff {cs : List Char} :
    (∃ n, read? cs = some n) ↔ ∀ c ∈ cs, ∃ d, HasWorth c d := by
  induction cs using List.reverseRecOn with
  | nil => simp [read?]
  | append_singleton cs c ih =>
    rw [List.forall_mem_append, List.forall_mem_singleton, ← ih, read?_append]
    simp only [← value?_eq_some_iff]
    cases read? cs with
    | none => simp
    | some n => cases value? c <;> simp

/-- The number that is read is that of the digits' worths, the last place first. -/
theorem read?_eq_some_iff {cs : List Char} {n : Nat} :
    read? cs = some n ↔
      ∃ ds, List.Forall₂ HasWorth cs.reverse ds ∧ n = Nat.ofDigits 10 ds := by
  induction cs using List.reverseRecOn generalizing n with
  | nil => simp [read?, eq_comm]
  | append_singleton cs c ih =>
    rw [read?_append, List.reverse_concat, Option.bind_eq_some_iff]
    simp only [Option.map_eq_some_iff, ih, value?_eq_some_iff]
    constructor
    · rintro ⟨m, ⟨ds, hds, rfl⟩, d, hd, rfl⟩
      exact ⟨d :: ds, .cons hd hds, by rw [Nat.ofDigits_cons, Nat.add_comm]⟩
    · rintro ⟨ds, hds, rfl⟩
      obtain ⟨d, ds, hd, hrest, rfl⟩ := List.forall₂_cons_left_iff.1 hds
      exact ⟨_, ⟨ds, hrest, rfl⟩, d, hd, by rw [Nat.ofDigits_cons, Nat.add_comm]⟩

end Attestation.DecimalDigit
