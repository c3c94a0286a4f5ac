/-
This file proves what the numbers of a text are read as. A numeral has an exact value, however many
digits it has, and it is rounded once, from all of them. So a number is the magnitude nearest to
what is written, and it is refused exactly if that has overflown.
-/

import LoxFront.Proofs.Nearest
import LoxFront.Proofs.Continuation

namespace LoxFront

namespace Numeral

/-! ### Exact values -/

/-- The exact value that is written. -/
def value (numeral : Numeral) : ℚ :=
  Nat.ofDigitChars 10 numeral.whole 0 +
    Nat.ofDigitChars 10 numeral.fraction 0 / 10 ^ numeral.fraction.length

theorem value_eq_div (numeral : Numeral) :
    numeral.value = numeral.numerator / numeral.denominator := by
  have digits : numeral.numerator = 10 ^ numeral.fraction.length *
      Nat.ofDigitChars 10 numeral.whole 0 + Nat.ofDigitChars 10 numeral.fraction 0 := by
    rw [numerator, Nat.ofDigitChars_append, Nat.ofDigitChars_eq_ofDigitChars_zero]
  rw [value, digits, denominator]
  push_cast
  field_simp

theorem denominator_pos (numeral : Numeral) : 0 < numeral.denominator :=
  Magnitude.ten_pow_pos _

theorem magnitude?_isSome_iff (numeral : Numeral) :
    numeral.magnitude?.isSome ↔ numeral.value < Magnitude.overflow := by
  rw [value_eq_div]
  exact Magnitude.nearest?_isSome_iff numeral.denominator_pos

theorem isNearest_of_magnitude? {numeral : Numeral} {magnitude : Magnitude}
    (found : numeral.magnitude? = some magnitude) : magnitude.IsNearest numeral.value := by
  rw [value_eq_div]
  exact Magnitude.isNearest_of_nearest? numeral.denominator_pos found

/-- One more than `2⁵³` stands in the middle of a step, and the even significand is below it. -/
example : magnitude? { whole := "9007199254740993".toList } =
    some { code := 1076 * 2 ^ 52, code_lt := by decide } := by decide +kernel

/-! ### Whole numbers -/

theorem proper_toDigits (count : Nat) : Proper { whole := Nat.toDigits 10 count } where
  nonempty := Nat.toDigits_ne_nil
  whole _ := Nat.isDigit_of_mem_toDigits (by decide) (by decide)
  fraction _ member := by cases member

theorem value_toDigits (count : Nat) : value { whole := Nat.toDigits 10 count } = count := by
  rw [value, Nat.ofDigitChars_ten_toDigits, Nat.ofDigitChars_nil, Nat.cast_zero, zero_div, add_zero]

end Numeral

/-! ### Reading -/

theorem Tokenizer.next?_of_front {place : Place} {lexeme : Lexeme}
    (read : Lexeme.front (itemStart { place }).rest = lexeme) :
    next? { place } = some (lexeme.itemAt (itemStart { place }),
      { place := (itemStart { place }).skip lexeme.text.length
        finished := Item.isEnd (lexeme.itemAt (itemStart { place })) }) := by
  simp only [next?, read, Bool.false_eq_true, if_false]

/-- Numbers are read exactly. If the next item starts with a numeral that does not go on behind it,
the item is the nearest magnitude if the exact value is below the overflow, and otherwise a failure
that shows the whole numeral and stands at its first digit. In both cases reading goes on right
behind the numeral. -/
theorem numbers_read_exactly {place : Place} {numeral : Numeral} {tail : Text}
    (starts : (Tokenizer.itemStart { place }).rest = numeral.text ++ tail)
    (proper : numeral.Proper) (ends : numeral.Ends tail) :
    let start := Tokenizer.itemStart { place }
    let behind := start.skip numeral.text.length
    behind.rest = tail ∧
      (numeral.value < Magnitude.overflow →
        ∃ magnitude : Magnitude,
          (∀ other : Magnitude, other.IsNearest numeral.value ↔ other = magnitude) ∧
          Tokenizer.next? { place } =
            some (.ok
              { data := .number (.finite false magnitude)
                span := { start, lexeme := numeral.text } }, { place := behind })) ∧
      (Magnitude.overflow ≤ numeral.value →
        Tokenizer.next? { place } =
          some (.error
            { cause := .oversizedNumber numeral.text
              line := start.line
              column := start.column }, { place := behind })) := by
  intro start behind
  refine ⟨?_, fun small => ?_, fun large => ?_⟩
  · rw [Place.rest_skip, starts, List.drop_left]
  · obtain ⟨magnitude, found⟩ :=
      Option.isSome_iff_exists.mp (numeral.magnitude?_isSome_iff.mpr small)
    have nearest := Numeral.isNearest_of_magnitude? found
    refine ⟨magnitude, fun other => ⟨fun isNearest => isNearest.unique nearest, ?_⟩, ?_⟩
    · rintro rfl
      exact nearest
    · exact Tokenizer.next?_of_front (starts ▸ Lexeme.front_number proper ends found)
  · have missing : numeral.magnitude? = none := by
      rw [← Option.not_isSome_iff_eq_none, numeral.magnitude?_isSome_iff]
      exact not_lt.mpr large
    exact Tokenizer.next?_of_front (starts ▸ Lexeme.front_oversized proper ends missing)

/-- The numeral of the overflow itself is refused, and the semicolon behind it is left. -/
theorem numbers_read_exactly_at_overflow :
    let numeral : Numeral := { whole := Nat.toDigits 10 (2 ^ 1024 - 2 ^ 970) }
    let place := Place.ofText (numeral.text ++ [';'])
    numeral.value = Magnitude.overflow ∧
      Tokenizer.next? { place } =
        some (.error { cause := .oversizedNumber numeral.text, line := 1, column := 1 },
          { place := place.skip numeral.text.length }) ∧
      (place.skip numeral.text.length).rest = [';'] := by
  intro numeral place
  have proper : numeral.Proper := Numeral.proper_toDigits _
  have cast (low high : Nat) (ordered : low ≤ high) :
      ((2 ^ high - 2 ^ low : ℕ) : ℚ) = 2 ^ high - 2 ^ low := by
    rw [Nat.cast_sub (Nat.pow_le_pow_right two_pos ordered), Nat.cast_pow, Nat.cast_pow,
      Nat.cast_ofNat]
  have value : numeral.value = Magnitude.overflow := by
    rw [Numeral.value_toDigits, cast 970 1024 (by decide), Magnitude.overflow]
  have atFront : Tokenizer.itemStart { place } = place := by
    have absent : Trivia.Absent place.rest := Numeral.absent_text proper [';']
    rw [Tokenizer.itemStart, Trivia.leadingTrivia_absent absent]
    rfl
  have starts : (Tokenizer.itemStart { place }).rest = numeral.text ++ [';'] := by
    rw [atFront]
    rfl
  have ends : numeral.Ends [';'] :=
    ⟨Text.stops_cons rfl, fun _ rest split => by cases split⟩
  obtain ⟨rest, -, refused⟩ := numbers_read_exactly starts proper ends
  have read := refused value.ge
  rw [atFront] at rest read
  exact ⟨value, read, rest⟩

end LoxFront
