/-
This file shows that a lexeme stays what it is if the text behind it is cut off by a blank. Every
lexeme but a string that is not closed ends where the characters behind it do not go on with it,
and a blank goes on with nothing. So where some of the text behind a lexeme is kept, and the rest is
replaced by a text that starts with a blank or is empty, the same lexeme is read; and if that is
done behind several pieces of a text, those pieces are kept.
-/

import LoxFront.Proofs.Pieces

namespace LoxFront

open Text (Stops)

/-- A blank or the end comes next. -/
def Text.Spaced (text : Text) : Prop :=
  ∀ character ∈ text.head?, Trivia.isBlank character = true

theorem Text.spaced_nil : Spaced [] := by
  intro character member
  cases member

theorem Text.spaced_cons {first : Char} (blank : Trivia.isBlank first = true) (rest : Text) :
    Spaced (first :: rest) := by
  intro character member
  obtain rfl := Option.mem_some.mp member
  exact blank

/-- No blank passes the test. -/
def Trivia.BlanksFail (test : Char → Bool) : Prop :=
  ∀ character, isBlank character = true → test character = false

theorem Trivia.blanksFail_of {test : Char → Bool} (space : test ' ' = false)
    (carriageReturn : test '\r' = false) (tab : test '\t' = false)
    (newline : test '\n' = false) : BlanksFail test := by
  intro character blank
  have cases := isBlank_iff.mp blank
  simp only [List.mem_cons, List.not_mem_nil, or_false] at cases
  rcases cases with rfl | rfl | rfl | rfl
  · exact space
  · exact carriageReturn
  · exact tab
  · exact newline

/-! ### Cutting off the text behind a lexeme -/

section Cut

variable {front back other : Text} (spaced : other.Spaced)

include spaced

/-- A run that stops stops also where a blank cuts off the text behind it. -/
theorem Text.Stops.cut {test : Char → Bool} (stops : Stops test (front ++ back))
    (fail : Trivia.BlanksFail test) : Stops test (front ++ other) := by
  cases front with
  | nil => exact fun character member => fail character (spaced character member)
  | cons first rest => exact Text.stops_cons (stops first rfl)

theorem Trivia.Absent.cut (absent : Trivia.Absent (front ++ back)) (nonempty : front ≠ []) :
    Trivia.Absent (front ++ other) := by
  obtain ⟨noBlank, noComment⟩ := absent
  match front, nonempty with
  | first :: second :: rest, _ => exact ⟨Text.stops_cons (noBlank first rfl), noComment⟩
  | [first], _ =>
    refine ⟨Text.stops_cons (noBlank first rfl), ?_⟩
    cases other with
    | nil => simp [Trivia.startsComment, List.isPrefixOf]
    | cons next later =>
      have slash : Trivia.BlanksFail ('/' == ·) := Trivia.blanksFail_of rfl rfl rfl rfl
      simp [Trivia.startsComment, List.isPrefixOf, slash next (spaced next rfl)]

theorem Numeral.Ends.cut {numeral : Numeral} (ends : numeral.Ends (front ++ back)) :
    numeral.Ends (front ++ other) := by
  have digit : Trivia.BlanksFail Char.isDigit := Trivia.blanksFail_of rfl rfl rfl rfl
  refine ⟨ends.1.cut spaced digit, fun whole rest split => ?_⟩
  cases front with
  | nil =>
    obtain rfl : other = '.' :: rest := split
    cases spaced '.' rfl
  | cons first more =>
    obtain ⟨rfl, rfl⟩ := List.cons_eq_cons.mp split
    exact Text.Stops.cut spaced (ends.2 whole _ rfl) digit

theorem Symbol.Ends.cut {mark : Symbol} (ends : mark.Ends (front ++ back)) :
    mark.Ends (front ++ other) :=
  fun member => (ends member).cut spaced (Trivia.blanksFail_of rfl rfl rfl rfl)

end Cut

theorem Symbol.exists_single (mark : Symbol) :
    ∃ single : Symbol, single.spelling = mark.spelling.take 1 := by
  have found : ∃ single ∈ all, single.spelling = mark.spelling.take 1 := by
    cases mark <;> decide
  obtain ⟨single, -, spelled⟩ := found
  exact ⟨single, spelled⟩

/-- A character that starts no symbol starts none whatever stands behind it. -/
theorem Symbol.front?_eq_none {character : Char} {rest : Text}
    (missing : front? (character :: rest) = none) (other : Text) :
    front? (character :: other) = none := by
  refine List.find?_eq_none.mpr fun mark _ isFront => ?_
  obtain ⟨tail, split⟩ := List.isPrefixOf_iff_prefix.mp isFront
  obtain ⟨first, others, spelled, -⟩ := Lexeme.exists_spelling_eq_cons mark
  obtain ⟨single, short⟩ := mark.exists_single
  rw [spelled] at split short
  obtain ⟨rfl, -⟩ := List.cons_eq_cons.mp split
  exact not_prefix_of_front? missing single (by rw [short]; exact List.prefix_append [first] rest)

/-- The same lexeme is read if a blank cuts off the text behind it, unless it is a string that takes
up all of that text. -/
theorem Lexeme.front_cut {text front back other : Text} (nonempty : text ≠ [])
    (closed : (Lexeme.front text).content ≠ .error .unclosedString)
    (split : text = (Lexeme.front text).text ++ (front ++ back)) (spaced : other.Spaced) :
    Lexeme.front ((Lexeme.front text).text ++ (front ++ other)) = Lexeme.front text := by
  induction text using Lexeme.front_cases with
  | nil => exact absurd rfl nonempty
  | string value tail unquoted =>
    have read := Lexeme.front_string unquoted (front ++ other)
    simpa using read
  | unclosed => exact absurd rfl closed
  | number numeral tail magnitude proper ends finite =>
    obtain rfl := List.append_cancel_left split
    exact Lexeme.front_number proper (ends.cut spaced) finite
  | oversized numeral tail proper ends oversized =>
    obtain rfl := List.append_cancel_left split
    exact Lexeme.front_oversized proper (ends.cut spaced) oversized
  | word first others tail starts inside stops =>
    obtain rfl := List.append_cancel_left split
    exact Lexeme.front_word starts inside
      (stops.cut spaced (Trivia.blanksFail_of rfl rfl rfl rfl))
  | symbol mark tail ends =>
    obtain rfl := List.append_cancel_left split
    exact Lexeme.front_symbol (ends.cut spaced)
  | stray character rest starts missing =>
    exact Lexeme.front_stray starts (Symbol.front?_eq_none missing _)

/-! ### Pieces in front of a blank -/

/-- The lexeme is read first where its text is followed by the given tail. -/
structure Lexeme.ReadBefore (lexeme : Lexeme) (tail : Text) : Prop where
  nonempty : lexeme.text ≠ []
  absent : Trivia.Absent (lexeme.text ++ tail)
  front : Lexeme.front (lexeme.text ++ tail) = lexeme

theorem Lexeme.ReadBefore.cut {lexeme : Lexeme} {front back other : Text}
    (read : lexeme.ReadBefore (front ++ back)) (closed : lexeme.content ≠ .error .unclosedString)
    (spaced : other.Spaced) : lexeme.ReadBefore (front ++ other) where
  nonempty := read.nonempty
  absent := by
    have absent := read.absent
    rw [← List.append_assoc] at absent ⊢
    exact absent.cut spaced (List.append_ne_nil_of_left_ne_nil read.nonempty front)
  front := by
    have unfinished : lexeme.text ++ (front ++ back) ≠ [] :=
      List.append_ne_nil_of_left_ne_nil read.nonempty _
    have split : lexeme.text ++ (front ++ back) =
        (Lexeme.front (lexeme.text ++ (front ++ back))).text ++ (front ++ back) := by
      rw [read.front]
    have again := Lexeme.front_cut unfinished (by rwa [read.front]) split spaced
    rwa [read.front] at again

namespace Text

theorem readBefore_behindPiece {text : Text} (unfinished : text.core ≠ []) :
    text.piece.lexeme.ReadBefore text.behindPiece where
  nonempty empty := unfinished (Lexeme.front_text_eq_nil.mp empty)
  absent := by
    rw [lexeme_append_behindPiece]
    exact text.absent_core
  front := by
    rw [lexeme_append_behindPiece]
    rfl

/-- Behind closed trivia a lexeme is the next piece. -/
theorem pieces_cons {gap tail : Text} {lexeme : Lexeme} (closed : Trivia.Closed gap)
    (read : lexeme.ReadBefore tail) :
    pieces (gap ++ (lexeme.text ++ tail)) = { gap, lexeme } :: tail.pieces := by
  have whole : core (gap ++ (lexeme.text ++ tail)) = lexeme.text ++ tail := by
    rw [core_append_of_closed closed, core_of_absent read.absent]
  have unfinished : core (gap ++ (lexeme.text ++ tail)) ≠ [] := by
    rw [whole]
    exact List.append_ne_nil_of_left_ne_nil read.nonempty tail
  have first : piece (gap ++ (lexeme.text ++ tail)) = { gap, lexeme } := by
    rw [piece, whole, read.front, closed.leadingTrivia_append,
      Trivia.leadingTrivia_absent read.absent, List.append_nil]
  have behind : behindPiece (gap ++ (lexeme.text ++ tail)) = tail := by
    rw [behindPiece, first, whole]
    exact List.drop_left
  rw [pieces_of_core_ne_nil unfinished, first, behind]

/-- The pieces in front of a place are kept if a blank cuts off the text at some point behind
it. -/
theorem pieces_cut {text front back other : Text} {before rest : List Piece}
    (split : text.pieces = before ++ rest) (unfinished : rest ≠ [])
    (behind : rest.flatMap Piece.text = front ++ back)
    (closed : ∀ piece ∈ before, piece.lexeme.content ≠ .error .unclosedString)
    (spaced : other.Spaced) :
    pieces (before.flatMap Piece.text ++ (front ++ other)) = before ++ pieces (front ++ other) := by
  induction before generalizing text with
  | nil => rfl
  | cons first before inductionHypothesis =>
    rw [List.cons_append] at split
    obtain ⟨notEnded, rfl, later⟩ := unfinished_of_pieces_eq_cons split
      (List.append_ne_nil_of_right_ne_nil before unfinished)
    obtain ⟨closedFirst, closedBefore⟩ := List.forall_mem_cons.mp closed
    have read := readBefore_behindPiece notEnded
    have whole : text.behindPiece = before.flatMap Piece.text ++ front ++ back := by
      rw [← flatMap_pieces text.behindPiece, later, List.flatMap_append, behind, List.append_assoc]
    -- The first lexeme still sees the pieces behind it and `front`; the cut comes after them.
    rw [whole] at read
    have again := pieces_cons (closed_leadingTrivia notEnded) (read.cut closedFirst spaced)
    rw [List.append_assoc, inductionHypothesis later closedBefore] at again
    rw [List.flatMap_cons, List.append_assoc, Piece.text, List.append_assoc]
    exact again

end Text

end LoxFront
