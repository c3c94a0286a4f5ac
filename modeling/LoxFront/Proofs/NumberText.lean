/-
This file proves that printing and reading of numbers are inverse to one another. The text of a
number without a sign is a numeral, and it is read as one number token that carries just this
number, whatever stands behind it that does not go on with the numeral. So no two numbers have the
same text.
-/

import LoxFront.Proofs.LongestMatch
import LoxFront.Proofs.SourceForm

namespace LoxFront

/-- A lexeme that is read is the first item, and the others are those of the text behind it. -/
theorem Text.items_append {lexeme : Lexeme} {tail : Text} (read : lexeme.ReadBefore tail) :
    let start := Place.ofText (lexeme.text ++ tail)
    let behind := start.skip lexeme.text.length
    behind.rest = tail ∧
      items (lexeme.text ++ tail) = lexeme.itemAt start :: Tokenizer.items { place := behind } := by
  intro start behind
  have rest : behind.rest = tail := by
    rw [Place.rest_skip]
    exact List.drop_left
  have cut : pieces (lexeme.text ++ tail) = { gap := [], lexeme } :: tail.pieces :=
    pieces_cons .nil read
  refine ⟨rest, ?_⟩
  rw [items_eq_layOut, cut, Tokenizer.items_eq_layOut, rest]
  rfl

/-- A numeral is read as one number. -/
theorem Numeral.items_append {numeral : Numeral} {magnitude : Magnitude} {tail : Text}
    (proper : numeral.Proper) (finite : numeral.magnitude? = some magnitude)
    (ends : numeral.Ends tail) :
    let start := Place.ofText (numeral.text ++ tail)
    let behind := start.skip numeral.text.length
    let number := Token.Data.number (.finite false magnitude)
    behind.rest = tail ∧
      (numeral.text ++ tail).items =
        .ok { data := number, span := { start, lexeme := numeral.text } } ::
          Tokenizer.items { place := behind } :=
  Text.items_append ((Lexeme.readBefore_number_iff proper finite).mpr ends)

/-- What is asked of the text behind a numeral with or without a point. -/
theorem Numeral.ends_of_tail (numeral : Numeral) {tail : Text}
    (noDigit : ∀ digit rest, tail = digit :: rest → digit.isDigit = false)
    (noPoint : ∀ digit rest, tail = '.' :: digit :: rest → digit.isDigit = false) :
    numeral.Ends tail := by
  constructor
  · intro digit member
    obtain ⟨rest, split⟩ := List.head?_eq_some_iff.mp (Option.mem_def.mp member)
    exact noDigit digit rest split
  · rintro - others rfl digit member
    obtain ⟨rest, rfl⟩ := List.head?_eq_some_iff.mp (Option.mem_def.mp member)
    exact noPoint digit rest rfl

theorem Literal.text_number (magnitude : Magnitude) :
    text (.number (.finite false magnitude)) = magnitude.numeral.text := by
  simp only [text, Binary64.text, Bool.false_eq_true, if_false, Magnitude.text]

theorem Magnitude.eq_of_text_numeral_eq {first second : Magnitude}
    (same : first.numeral.text = second.numeral.text) : first = second := by
  have numerals := Numeral.text_injective first.numeral_proper second.numeral_proper same
  have read := first.magnitude?_numeral
  rw [numerals, second.magnitude?_numeral] at read
  exact (Option.some.inj read).symm

/-- The text of a number without a sign is a number lexeme of the same value. It is digits, or
digits on both sides of a point. In front of any text that goes on neither by a digit nor by a point
and a digit it is read as a number token that carries exactly this number, and the items behind that
are those of the text behind. No other number without a sign has the same text. -/
theorem number_reads_back (magnitude : Magnitude) :
    let number := Binary64.finite false magnitude
    let text := (Literal.number number).text
    text ∈ LongestMatch.Class.number.language ∧
    (∀ tail : Text, (∀ digit rest, tail = digit :: rest → digit.isDigit = false) →
      (∀ digit rest, tail = '.' :: digit :: rest → digit.isDigit = false) →
        let start := Place.ofText (text ++ tail)
        let behind := start.skip text.length
        behind.rest = tail ∧
          (text ++ tail).items =
            .ok { data := .number number, span := { start, lexeme := text } } ::
              Tokenizer.items { place := behind }) ∧
    ∀ other : Magnitude,
      (Literal.number (.finite false other)).text = text → other = magnitude := by
  intro number text
  have written : text = magnitude.numeral.text := Literal.text_number magnitude
  clear_value text
  subst written
  refine ⟨?_, fun tail noDigit noPoint => ?_, fun other same => ?_⟩
  · exact LongestMatch.mem_number.mpr ⟨_, magnitude.numeral_proper, rfl⟩
  · exact Numeral.items_append magnitude.numeral_proper magnitude.magnitude?_numeral
      (magnitude.numeral.ends_of_tail noDigit noPoint)
  · rw [Literal.text_number] at same
    exact Magnitude.eq_of_text_numeral_eq same

/-- The smallest number but zero has one digit behind its zeros. A second point is none of its own,
even in front of a word. -/
theorem number_reads_back_of_smallest :
    let smallest : Magnitude := { code := 1, code_lt := by decide }
    let digits : Text := "0.".toList ++ List.replicate 323 '0' ++ ['5']
    let start := Place.ofText (digits ++ ".e7".toList)
    (Literal.number (.finite false smallest)).text = digits ∧
      (start.skip 326).rest = ".e7".toList ∧
      (digits ++ ".e7".toList).items =
        .ok { data := .number (.finite false smallest), span := { start, lexeme := digits } } ::
          Tokenizer.items { place := start.skip 326 } := by
  intro smallest digits start
  have written : (Literal.number (.finite false smallest)).text = digits := by decide +kernel
  have length : digits.length = 326 := by decide +kernel
  have read := (number_reads_back smallest).2.1 ".e7".toList
  dsimp only at read
  rw [written, length] at read
  obtain ⟨behind, items⟩ := read
    (fun digit rest split => by cases split; rfl) (fun digit rest split => by cases split; rfl)
  exact ⟨written, behind, items⟩

end LoxFront
