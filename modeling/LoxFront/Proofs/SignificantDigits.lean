/-
This file counts the digits that a value needs in decimal. Zeros at the front and at the end are
not counted, so the point may stand anywhere. The significant digits of a numeral are counted in its
text, and there are as many of them as the value needs. Around a value of a certain length, the
decimals with few digits lie on a grid of whole numbers, so the two neighbours of the value on this
grid are no further away than any of them.
-/

import LoxFront.Proofs.NumberReading
import LoxFront.Proofs.Numerals

namespace LoxFront

/-! ### Digits -/

/-- A value can be written with so many digits, zeros at the front and at the end not counted. -/
def DigitsSuffice (count : Nat) (value : ℚ) : Prop :=
  ∃ digits zeros shift : Nat, digits < 10 ^ count ∧ value * 10 ^ shift = digits * 10 ^ zeros

theorem DigitsSuffice.mono {count more : Nat} {value : ℚ} (suffice : DigitsSuffice count value)
    (le : count ≤ more) : DigitsSuffice more value := by
  obtain ⟨digits, zeros, shift, bound, equal⟩ := suffice
  exact ⟨digits, zeros, shift, bound.trans_le (Nat.pow_le_pow_right (by decide) le), equal⟩

/-- A value with few digits is a whole multiple of the power of ten that its last digit may count,
as long as its first digit counts enough. -/
theorem DigitsSuffice.exists_multiple {count length : Nat} {value : ℚ}
    (suffice : DigitsSuffice count value) (large : 10 ^ (length - 1) ≤ value) (le : count ≤ length)
    (positive : 0 < count) :
    ∃ multiple : Nat, value = (multiple * 10 ^ (length - count) : ℕ) := by
  obtain ⟨digits, zeros, shift, bound, equal⟩ := suffice
  have shifted : (0 : ℚ) < 10 ^ shift := by positivity
  have total : 10 ^ (length - 1 + shift) < 10 ^ (count + zeros) := by
    have ordered := mul_le_mul_of_nonneg_right large shifted.le
    rw [equal] at ordered
    have natural : 10 ^ (length - 1) * 10 ^ shift ≤ digits * 10 ^ zeros := by exact_mod_cast ordered
    rw [Nat.pow_add, Nat.pow_add]
    exact natural.trans_lt ((Nat.mul_lt_mul_right (Magnitude.ten_pow_pos zeros)).mpr bound)
  have exponents := (Nat.pow_lt_pow_iff_right (by decide)).mp total
  obtain ⟨more, split⟩ := Nat.exists_eq_add_of_le (show length - count + shift ≤ zeros by omega)
  refine ⟨digits * 10 ^ more, mul_right_cancel₀ shifted.ne' ?_⟩
  rw [equal, split]
  push_cast
  ring

section Grid

variable {value count length : Nat} {decimal : ℚ} (suffice : DigitsSuffice count decimal)
  (low : 10 ^ (length - 1) ≤ value) (high : value < 10 ^ length) (le : count ≤ length)
  (positive : 0 < count)

include suffice low le positive

/-- Between a value and a smaller decimal with few digits there is a point of the grid. -/
theorem DigitsSuffice.le_lower (below : decimal ≤ value) :
    decimal ≤ (value / 10 ^ (length - count) * 10 ^ (length - count) : ℕ) := by
  have grid := Magnitude.ten_pow_pos (length - count)
  have reached {multiple : Nat} (inside : multiple * 10 ^ (length - count) ≤ value) :
      multiple * 10 ^ (length - count) ≤
        value / 10 ^ (length - count) * 10 ^ (length - count) :=
    Nat.mul_le_mul_right _ ((Nat.le_div_iff_mul_le grid).mpr inside)
  by_cases large : 10 ^ (length - 1) ≤ decimal
  · obtain ⟨multiple, rfl⟩ := suffice.exists_multiple large le positive
    exact Nat.cast_le.mpr (reached (Nat.cast_le.mp below))
  · have first : 10 ^ (count - 1) * 10 ^ (length - count) = 10 ^ (length - 1) := by
      rw [← Nat.pow_add]
      congr 1
      omega
    have above := reached (first.trans_le low)
    rw [first] at above
    refine (not_le.mp large).le.trans ?_
    exact_mod_cast above

include high

/-- Between a value and a larger decimal with few digits there is a point of the grid. -/
theorem DigitsSuffice.upper_le (above : value < decimal) :
    (value / 10 ^ (length - count) * 10 ^ (length - count) + 10 ^ (length - count) : ℕ) ≤
      decimal := by
  have grid := Magnitude.ten_pow_pos (length - count)
  have reached {multiple : Nat} (beyond : value < multiple * 10 ^ (length - count)) :
      value / 10 ^ (length - count) * 10 ^ (length - count) + 10 ^ (length - count) ≤
        multiple * 10 ^ (length - count) := by
    rw [← Nat.succ_mul]
    exact Nat.mul_le_mul_right _ ((Nat.div_lt_iff_lt_mul grid).mpr beyond)
  by_cases small : decimal < 10 ^ length
  · have large : (10 : ℚ) ^ (length - 1) ≤ decimal := by
      refine le_trans ?_ above.le
      exact_mod_cast low
    obtain ⟨multiple, rfl⟩ := suffice.exists_multiple large le positive
    exact Nat.cast_le.mpr (reached (Nat.cast_lt.mp above))
  · have last : 10 ^ count * 10 ^ (length - count) = 10 ^ length := by
      rw [← Nat.pow_add, Nat.add_sub_cancel' le]
    have below := reached (high.trans_eq last.symm)
    rw [last] at below
    refine le_trans ?_ (not_lt.mp small)
    exact_mod_cast below

end Grid

namespace Numeral

/-! ### Significant digits -/

/-- How many digits of a numeral are significant: those from the first to the last one that is not
zero, wherever the point stands. -/
def significantDigits (numeral : Numeral) : Nat :=
  let digits := (numeral.whole ++ numeral.fraction).dropWhile fun digit => digit == '0'
  (digits.reverse.dropWhile fun digit => digit == '0').length

theorem digit_bounds {digit : Char} (isDigit : digit.isDigit = true) :
    digit.toNat - '0'.toNat < 10 ∧ (digit ≠ '0' → 0 < digit.toNat - '0'.toNat) := by
  obtain ⟨low, high⟩ := Char.isDigit_iff_toNat.mp isDigit
  have nine : '9'.toNat = '0'.toNat + 9 := rfl
  refine ⟨by omega, fun nonzero => ?_⟩
  have differs : digit.toNat ≠ '0'.toNat := fun same => nonzero (Char.toNat_inj.mp same)
  omega

theorem ofDigitChars_lt {digits : Text} (inside : ∀ digit ∈ digits, digit.isDigit = true) :
    Nat.ofDigitChars 10 digits 0 < 10 ^ digits.length := by
  induction digits with
  | nil => exact Nat.one_pos
  | cons first others inductionHypothesis =>
    obtain ⟨isDigit, behind⟩ := List.forall_mem_cons.mp inside
    have rest := inductionHypothesis behind
    have bound := (digit_bounds isDigit).1
    rw [Nat.ofDigitChars_cons, Nat.ofDigitChars_eq_ofDigitChars_zero, List.length_cons,
      Nat.pow_succ, Nat.mul_zero, Nat.zero_add]
    calc 10 ^ others.length * (first.toNat - '0'.toNat) + Nat.ofDigitChars 10 others 0
        < 10 ^ others.length * (first.toNat - '0'.toNat) + 10 ^ others.length :=
          Nat.add_lt_add_left rest _
      _ = 10 ^ others.length * (first.toNat - '0'.toNat + 1) := (Nat.mul_succ _ _).symm
      _ ≤ 10 ^ others.length * 10 := Nat.mul_le_mul_left _ bound

theorem le_ofDigitChars {first : Char} (isDigit : first.isDigit = true) (nonzero : first ≠ '0')
    (others : Text) : 10 ^ others.length ≤ Nat.ofDigitChars 10 (first :: others) 0 := by
  have positive := (digit_bounds isDigit).2 nonzero
  rw [Nat.ofDigitChars_cons, Nat.ofDigitChars_eq_ofDigitChars_zero, Nat.mul_zero, Nat.zero_add]
  exact Nat.le_add_right_of_le (Nat.le_mul_of_pos_right _ positive)

theorem ofDigitChars_mod_ten {last : Char} (isDigit : last.isDigit = true) (nonzero : last ≠ '0')
    (others : Text) : Nat.ofDigitChars 10 (others ++ [last]) 0 % 10 ≠ 0 := by
  have bounds := digit_bounds isDigit
  have positive := bounds.2 nonzero
  rw [Nat.ofDigitChars_append, Nat.ofDigitChars_cons, Nat.ofDigitChars_nil]
  omega

/-- The significant digits of a numeral stand between zeros, and there is no zero at their front or
at their end. -/
theorem exists_significant (numeral : Numeral) :
    ∃ front digits back, numeral.whole ++ numeral.fraction =
        List.replicate front '0' ++ (digits ++ List.replicate back '0') ∧
      digits.length = numeral.significantDigits ∧
      (∀ first others, digits = first :: others → first ≠ '0') ∧
      ∀ others last, digits = others ++ [last] → last ≠ '0' := by
  obtain ⟨zeros, others, split, inside, stops⟩ :=
    Text.exists_run (fun digit => digit == '0') (numeral.whole ++ numeral.fraction)
  obtain ⟨back, cut⟩ := Magnitude.exists_zeros others
  have allZeros : zeros = List.replicate zeros.length '0' :=
    List.eq_replicate_of_mem fun digit member => beq_iff_eq.mp (inside digit member)
  refine ⟨zeros.length, (others.reverse.dropWhile fun digit => digit == '0').reverse, back,
    ?_, ?_, ?_, ?_⟩
  · rw [← allZeros, ← cut, split]
  · rw [significantDigits, split, Text.dropWhile_run inside stops, List.length_reverse]
  · intro first later digits
    rw [digits, List.cons_append] at cut
    rw [cut] at stops
    exact beq_eq_false_iff_ne.mp (stops first rfl)
  · intro earlier last digits
    have fails := Text.stops_dropWhile (fun digit => digit == '0') others.reverse
    rw [← List.reverse_reverse (others.reverse.dropWhile _), digits, List.reverse_append,
      List.reverse_singleton, List.singleton_append] at fails
    exact beq_eq_false_iff_ne.mp (fails last rfl)

/-- Of two ways to write a number, the one that does not end in a zero has the smaller digits. -/
theorem le_of_mod_ten {first second more fewer : Nat} (nonzero : first % 10 ≠ 0)
    (same : first * 10 ^ more = second * 10 ^ fewer) : first ≤ second := by
  rcases Nat.lt_or_ge more fewer with less | enough
  · obtain ⟨rest, rfl⟩ := Nat.exists_eq_add_of_lt less
    have split : first * 10 ^ more = second * 10 ^ rest * 10 * 10 ^ more := by
      rw [same, Nat.pow_succ, Nat.pow_add]
      ring
    have multiple := Nat.mul_right_cancel (Magnitude.ten_pow_pos more) split
    rw [multiple, Nat.mul_mod_left] at nonzero
    exact absurd rfl nonzero
  · obtain ⟨rest, rfl⟩ := Nat.exists_eq_add_of_le enough
    have split : first * 10 ^ rest * 10 ^ fewer = second * 10 ^ fewer := by
      rw [← same, Nat.pow_add]
      ring
    rw [← Nat.mul_right_cancel (Magnitude.ten_pow_pos fewer) split]
    exact Nat.le_mul_of_pos_right _ (Magnitude.ten_pow_pos rest)

variable {numeral : Numeral}

/-- The significant digits as a number, with zeros behind it. It has no zero of its own at its front
or at its end. -/
theorem exists_numerator_eq (proper : numeral.Proper) :
    ∃ digits zeros, numeral.numerator = digits * 10 ^ zeros ∧
      digits < 10 ^ numeral.significantDigits ∧
      ∀ count, numeral.significantDigits = count + 1 → 10 ^ count ≤ digits ∧ digits % 10 ≠ 0 := by
  obtain ⟨front, digits, back, split, length, noFirst, noLast⟩ := numeral.exists_significant
  have inside : ∀ digit ∈ digits, digit.isDigit = true := by
    intro digit member
    have written : digit ∈ numeral.whole ++ numeral.fraction := by
      rw [split]
      exact List.mem_append_right _ (List.mem_append_left _ member)
    rcases List.mem_append.mp written with whole | fraction
    · exact proper.whole digit whole
    · exact proper.fraction digit fraction
  refine ⟨Nat.ofDigitChars 10 digits 0, back, ?_, length ▸ ofDigitChars_lt inside,
    fun count some => ?_⟩
  · rw [numerator, split, Nat.ofDigitChars_append, Nat.ofDigitChars_replicate_zero, Nat.mul_zero,
      Nat.ofDigitChars_append, Nat.ofDigitChars_replicate_zero, Nat.mul_comm]
  · obtain ⟨first, others, rfl⟩ := List.exists_cons_of_length_eq_add_one (length.trans some)
    have counted : others.length = count := Nat.succ.inj (length.trans some)
    obtain ⟨earlier, last, ending⟩ := (first :: others).eq_nil_or_concat'.resolve_left
      (List.cons_ne_nil first others)
    have large :=
      le_ofDigitChars (inside first List.mem_cons_self) (noFirst first others rfl) others
    have nonzero := ofDigitChars_mod_ten (inside last (by rw [ending]; simp))
      (noLast earlier last ending) earlier
    rw [← ending] at nonzero
    exact ⟨counted ▸ large, nonzero⟩

/-- A numeral has as many significant digits as its value needs. -/
theorem significantDigits_le_iff (proper : numeral.Proper) {count : Nat} :
    numeral.significantDigits ≤ count ↔ DigitsSuffice count numeral.value := by
  obtain ⟨digits, zeros, numerator, bound, nonzero⟩ := exists_numerator_eq proper
  have denominator : (0 : ℚ) < 10 ^ numeral.fraction.length := by positivity
  have value : numeral.value * 10 ^ numeral.fraction.length = digits * 10 ^ zeros := by
    rw [value_eq_div, numerator, Numeral.denominator]
    push_cast
    rw [div_mul_cancel₀ _ denominator.ne']
  constructor
  · exact DigitsSuffice.mono ⟨digits, zeros, numeral.fraction.length, bound, value⟩
  · rintro ⟨other, zeros', shift, bound', equal⟩
    have same : digits * 10 ^ (zeros + shift) =
        other * 10 ^ (zeros' + numeral.fraction.length) := by
      have scaled : (digits * 10 ^ zeros * 10 ^ shift : ℚ) =
          other * 10 ^ zeros' * 10 ^ numeral.fraction.length := by
        rw [← value, ← equal]
        ring
      rw [Nat.pow_add, Nat.pow_add, ← Nat.mul_assoc, ← Nat.mul_assoc]
      exact_mod_cast scaled
    cases some : numeral.significantDigits with
    | zero => exact Nat.zero_le count
    | succ fewer =>
      obtain ⟨large, odd⟩ := nonzero fewer some
      exact (Nat.pow_lt_pow_iff_right (by decide)).mp
        ((large.trans (le_of_mod_ten odd same)).trans_lt bound')

end Numeral

end LoxFront
