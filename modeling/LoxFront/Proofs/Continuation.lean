/-
This file says which text may stand behind a token so that the token is read as it is written. A
string ends with its quote, whatever follows. A number is not followed by a digit, nor, as long as
it has no point, by a point and a digit. A word is not followed by a character that words go on
with, and a symbol not by an equals sign that makes a longer one of it. Two slashes would start a
comment. Each of these conditions is not only enough but also needed, because a lexeme is as long as
it can be.
-/

import LoxFront.Proofs.Spacing

namespace LoxFront

open Text (Stops)

namespace Trivia

theorem absent_cons {first : Char} (notBlank : isBlank first = false) (notSlash : first ≠ '/')
    (rest : Text) : Absent (first :: rest) := by
  refine ⟨Text.stops_cons notBlank, ?_⟩
  simp [startsComment, List.isPrefixOf, Ne.symm notSlash]

/-- Where a test refuses blanks and slashes, nothing that passes it starts trivia. -/
theorem absent_of_passes {test : Char → Bool} (blanks : BlanksFail test)
    (slash : test '/' = false) {first : Char} (passes : test first = true) (rest : Text) :
    Absent (first :: rest) := by
  refine absent_cons ?_ ?_ rest
  · by_contra blank
    rw [blanks first (by simpa using blank)] at passes
    cases passes
  · rintro rfl
    rw [slash] at passes
    cases passes

theorem startsComment_slash_iff {tail : Text} :
    startsComment ('/' :: tail) = false ↔ Stops (· == '/') tail := by
  cases tail with
  | nil => exact ⟨fun _ => Text.stops_nil _, fun _ => rfl⟩
  | cons first rest =>
    have both : startsComment ('/' :: first :: rest) = ('/' == first) := by
      simp [startsComment, List.isPrefixOf]
    rw [both, Text.stops_cons_iff, beq_eq_false_iff_ne, beq_eq_false_iff_ne, ne_comm]

end Trivia

theorem Numeral.absent_text {numeral : Numeral} (proper : numeral.Proper) (tail : Text) :
    Trivia.Absent (numeral.text ++ tail) := by
  obtain ⟨first, rest, written, digit⟩ := exists_text_eq_cons proper
  rw [written]
  exact Trivia.absent_of_passes (Trivia.blanksFail_of rfl rfl rfl rfl) rfl digit _

/-- A numeral that is read back as it is written has ended. -/
theorem Numeral.ends_of_front {numeral : Numeral} (proper : numeral.Proper) {tail : Text}
    (read : (front (numeral.text ++ tail)).text = numeral.text) : numeral.Ends tail := by
  obtain ⟨first, rest, written, digit⟩ := exists_text_eq_cons proper
  obtain ⟨other, behind, split, properOther, ends⟩ := exists_front digit (rest ++ tail)
  rw [← List.cons_append, ← written] at split
  rw [split, front_text properOther ends] at read
  obtain rfl := text_injective properOther proper read
  rwa [List.append_cancel_left split]

namespace Lexeme

/-! ### The forms of tokens -/

/-- The lexemes that are tokens, the end mark apart. -/
inductive Form : Lexeme → Prop
  | string {value : Text} (unquoted : '"' ∉ value) :
      Form { text := '"' :: (value ++ ['"']), content := .ok (.string value) }
  | number {numeral : Numeral} {magnitude : Magnitude} (proper : numeral.Proper)
      (finite : numeral.magnitude? = some magnitude) :
      Form { text := numeral.text, content := .ok (.number (.finite false magnitude)) }
  | word {first : Char} {others : Text} (starts : startsWord first = true)
      (inside : ∀ character ∈ others, continuesWord character = true) :
      Form { text := first :: others, content := wordContent (first :: others) }
  | symbol (mark : Symbol) : Form { text := mark.spelling, content := .ok (.symbol mark) }

theorem form_front {text : Text} (nonempty : text ≠ []) {data : Token.Data}
    (content : (front text).content = .ok data) : (front text).Form := by
  induction text using front_cases with
  | nil => exact absurd rfl nonempty
  | string value tail unquoted => exact .string unquoted
  | unclosed => cases content
  | number numeral tail magnitude proper _ finite => exact .number proper finite
  | oversized => cases content
  | word first others tail starts inside => exact .word starts inside
  | symbol mark => exact .symbol mark
  | stray => cases content

/-- A token that is read anywhere has one of the forms. -/
theorem ReadBefore.form {lexeme : Lexeme} {tail : Text} (read : lexeme.ReadBefore tail)
    {data : Token.Data} (content : lexeme.content = .ok data) : lexeme.Form := by
  have nonempty := List.append_ne_nil_of_left_ne_nil read.nonempty tail
  have form := form_front nonempty ((congrArg Lexeme.content read.front).trans content)
  rwa [read.front] at form

/-! ### The text behind a token -/

variable {tail : Text}

theorem readBefore_string {value : Text} (unquoted : '"' ∉ value) (tail : Text) :
    ReadBefore { text := '"' :: (value ++ ['"']), content := .ok (.string value) } tail where
  nonempty := List.cons_ne_nil _ _
  absent := by
    have quote : Trivia.BlanksFail (· == '"') := Trivia.blanksFail_of rfl rfl rfl rfl
    exact Trivia.absent_of_passes quote rfl rfl _
  front := by
    have read := front_string unquoted tail
    simpa using read

theorem readBefore_number_iff {numeral : Numeral} {magnitude : Magnitude}
    (proper : numeral.Proper) (finite : numeral.magnitude? = some magnitude) :
    ReadBefore { text := numeral.text, content := .ok (.number (.finite false magnitude)) } tail ↔
      numeral.Ends tail := by
  constructor
  · intro read
    have front := read.front
    rw [front_of_numeral proper] at front
    exact Numeral.ends_of_front proper (congrArg Lexeme.text front)
  · intro ends
    obtain ⟨first, rest, written, -⟩ := Numeral.exists_text_eq_cons proper
    refine ⟨?_, Numeral.absent_text proper tail, front_number proper ends finite⟩
    show numeral.text ≠ []
    rw [written]
    exact List.cons_ne_nil first rest

theorem readBefore_word_iff {first : Char} {others : Text} (starts : startsWord first = true)
    (inside : ∀ character ∈ others, continuesWord character = true) :
    ReadBefore { text := first :: others, content := wordContent (first :: others) } tail ↔
      Stops continuesWord tail := by
  constructor
  · intro read
    obtain ⟨more, rest, rfl, insideMore, stops⟩ := Text.exists_run continuesWord tail
    have longer := front_word starts (List.forall_mem_append.mpr ⟨inside, insideMore⟩) stops
    have front : Lexeme.front (first :: others ++ (more ++ rest)) = _ := read.front
    rw [← List.append_assoc, List.cons_append, longer] at front
    have same : others ++ more = others :=
      List.tail_eq_of_cons_eq (congrArg Lexeme.text front)
    rwa [List.append_right_eq_self.mp same]
  · intro stops
    exact ⟨List.cons_ne_nil _ _,
      Trivia.absent_of_passes (Trivia.blanksFail_of rfl rfl rfl rfl) rfl starts _,
      front_word starts inside stops⟩

/-- A slash is the one symbol that can be taken for the start of a comment. -/
theorem absent_symbol_iff {mark : Symbol} :
    Trivia.Absent (mark.spelling ++ tail) ↔ (mark = .slash → Stops (· == '/') tail) := by
  by_cases slash : mark = .slash
  · subst slash
    exact ⟨fun absent _ => Trivia.startsComment_slash_iff.mp absent.2,
      fun stops => ⟨Text.stops_cons rfl, Trivia.startsComment_slash_iff.mpr (stops rfl)⟩⟩
  · refine ⟨fun _ isSlash => absurd isSlash slash, fun _ => ?_⟩
    obtain ⟨first, others, spelled, -⟩ := exists_spelling_eq_cons mark
    have opening : Trivia.isBlank first = false ∧ first ≠ '/' := by
      cases mark <;> first
        | exact absurd rfl slash
        | cases spelled
          decide
    rw [spelled]
    exact Trivia.absent_cons opening.1 opening.2 _

theorem front_symbol_iff {mark : Symbol} :
    front (mark.spelling ++ tail) = { text := mark.spelling, content := .ok (.symbol mark) } ↔
      mark.Ends tail := by
  refine ⟨fun read => ?_, front_symbol⟩
  obtain ⟨first, others, spelled, starts⟩ := exists_spelling_eq_cons mark
  rw [spelled, List.cons_append, front_of_startsSymbol starts, symbol, ← List.cons_append,
    ← spelled] at read
  cases found : Symbol.front? (mark.spelling ++ tail) with
  | none =>
    rw [found] at read
    cases congrArg Lexeme.content read
  | some other =>
    rw [found] at read
    obtain rfl : other = mark := by
      cases congrArg Lexeme.content read
      rfl
    exact Symbol.ends_of_front? found

theorem readBefore_symbol_iff {mark : Symbol} :
    ReadBefore { text := mark.spelling, content := .ok (.symbol mark) } tail ↔
      mark.Ends tail ∧ (mark = .slash → Stops (· == '/') tail) := by
  constructor
  · intro read
    exact ⟨front_symbol_iff.mp read.front, absent_symbol_iff.mp read.absent⟩
  · rintro ⟨ends, noComment⟩
    obtain ⟨first, others, spelled, -⟩ := exists_spelling_eq_cons mark
    refine ⟨?_, absent_symbol_iff.mpr noComment, front_symbol ends⟩
    show mark.spelling ≠ []
    rw [spelled]
    exact List.cons_ne_nil first others

end Lexeme

end LoxFront
