/-
This file proves that the decimal writing of a magnitude is a numeral that denotes it. The digits
before and behind the point, with the zeros at the end that are not written, are the digits of the
shortest decimal, so the numeral is that decimal over a power of ten in lower terms.
-/

import LoxFront.Proofs.Lexemes
import LoxFront.Proofs.Rounding

namespace LoxFront

namespace Magnitude

/-- The digits of a fraction with all their zeros, so that there are as many of them as places. -/
def paddedDigits (decimal : Nat) : Text :=
  let digits := Nat.toDigits 10 (decimal % 10 ^ places)
  List.replicate (places - digits.length) '0' ++ digits

theorem length_paddedDigits (decimal : Nat) : (paddedDigits decimal).length = places := by
  have fits : (Nat.toDigits 10 (decimal % 10 ^ places)).length ≤ places :=
    (Nat.length_toDigits_le_iff (by decide) (by decide)).mpr (Nat.mod_lt _ (ten_pow_pos places))
  rw [paddedDigits, List.length_append, List.length_replicate, Nat.sub_add_cancel fits]

theorem ofDigitChars_paddedDigits (decimal : Nat) :
    Nat.ofDigitChars 10 (paddedDigits decimal) 0 = decimal % 10 ^ places := by
  rw [paddedDigits, Nat.ofDigitChars_append, Nat.ofDigitChars_replicate_zero, Nat.mul_zero,
    Nat.ofDigitChars_ten_toDigits]

theorem isDigit_of_mem_paddedDigits (decimal : Nat) {character : Char}
    (member : character ∈ paddedDigits decimal) : character.isDigit = true := by
  rw [paddedDigits, List.mem_append] at member
  rcases member with zero | digit
  · rw [List.eq_of_mem_replicate zero]
    rfl
  · exact Nat.isDigit_of_mem_toDigits (by decide) (by decide) digit

theorem exists_zeros (digits : Text) :
    ∃ count, digits =
      (digits.reverse.dropWhile fun digit => digit == '0').reverse ++ List.replicate count '0' := by
  obtain ⟨zeros, others, split, inside, stops⟩ :=
    Text.exists_run (fun digit => digit == '0') digits.reverse
  have allZeros : zeros = List.replicate zeros.length '0' :=
    List.eq_replicate_of_mem fun digit member => beq_iff_eq.mp (inside digit member)
  refine ⟨zeros.length, ?_⟩
  rw [split, Text.dropWhile_run inside stops, ← List.reverse_replicate, ← allZeros,
    ← List.reverse_append, ← split, List.reverse_reverse]

theorem exists_paddedDigits (decimal : Nat) :
    ∃ count, paddedDigits decimal = fractionDigits decimal ++ List.replicate count '0' :=
  exists_zeros (paddedDigits decimal)

theorem ofDigitChars_toDigits_append (decimal : Nat) :
    Nat.ofDigitChars 10 (Nat.toDigits 10 (decimal / 10 ^ places) ++ paddedDigits decimal) 0 =
      decimal := by
  rw [Nat.ofDigitChars_append, Nat.ofDigitChars_ten_toDigits,
    Nat.ofDigitChars_eq_ofDigitChars_zero, length_paddedDigits, ofDigitChars_paddedDigits,
    Nat.div_add_mod]

theorem numeral_proper (magnitude : Magnitude) : magnitude.numeral.Proper where
  nonempty := Nat.toDigits_ne_nil
  whole _ := Nat.isDigit_of_mem_toDigits (by decide) (by decide)
  fraction character member := by
    obtain ⟨count, padded⟩ := exists_paddedDigits magnitude.shortestDecimal
    refine isDigit_of_mem_paddedDigits magnitude.shortestDecimal ?_
    rw [padded]
    exact List.mem_append_left _ member

/-- The numeral of a magnitude is the shortest decimal over the unit of decimals, in lower terms. -/
theorem exists_scale (magnitude : Magnitude) :
    ∃ count, magnitude.numeral.numerator * 10 ^ count = magnitude.shortestDecimal ∧
      magnitude.numeral.denominator * 10 ^ count = 10 ^ places := by
  obtain ⟨count, padded⟩ := exists_paddedDigits magnitude.shortestDecimal
  refine ⟨count, ?_, ?_⟩
  · have digits := ofDigitChars_toDigits_append magnitude.shortestDecimal
    rw [padded, ← List.append_assoc, Nat.ofDigitChars_append,
      Nat.ofDigitChars_replicate_zero] at digits
    rw [Nat.mul_comm]
    exact digits
  · have length := length_paddedDigits magnitude.shortestDecimal
    rw [padded, List.length_append, List.length_replicate] at length
    rw [Numeral.denominator, ← Nat.pow_add, ← length]
    rfl

/-- The numeral of a magnitude denotes the magnitude. -/
theorem magnitude?_numeral (magnitude : Magnitude) :
    magnitude.numeral.magnitude? = some magnitude := by
  obtain ⟨count, numerator, denominator⟩ := magnitude.exists_scale
  rw [Numeral.magnitude?, ← nearest?_scale _ _ (ten_pow_pos count), numerator, denominator,
    nearest?_shortestDecimal]

end Magnitude

end LoxFront
