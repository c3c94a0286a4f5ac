/-
This file proves that reading recovers from a stray character at once. A text is read as it would be
with a blank in place of each character that no token starts with: the tokens are the same and stand
at the same positions, and so are the other failures. The characters are found by the positions that
are reported for them, which are never those of any other character. Along the pieces of the text a
blank in place of a stray character joins the gap behind it, and it ends the lexeme in front of it
just as the stray character did.
-/

import LoxFront.Proofs.Findings
import LoxFront.Proofs.Spacing

namespace LoxFront

/-! ### Positions behind a text -/

namespace Text

/-- The position right behind a text. -/
def endPosition (passed : Text) : Nat × Nat := (passed.endLine, passed.endColumn)

theorem endPosition_append_ne (front : Text) {back : Text} (nonempty : back ≠ []) :
    front.endPosition ≠ endPosition (front ++ back) := by
  intro same
  obtain ⟨line, column⟩ := Prod.mk.inj same
  have later := front.end_lt_append nonempty
  omega

theorem endPosition_concat (passed : Text) (character : Char) :
    endPosition (passed ++ [character]) =
      if character = '\n' then (passed.endLine + 1, 1)
      else (passed.endLine, passed.endColumn + 1) := by
  unfold endPosition endLine endColumn
  rw [List.reverse_append, List.reverse_singleton, List.singleton_append, List.count_append,
    List.count_singleton, List.takeWhile_cons]
  by_cases newline : character = '\n' <;> simp [newline]

/-- It does not matter to positions which character there is, unless it is a newline. -/
theorem endPosition_concat_congr {front other : Text}
    (same : front.endPosition = other.endPosition) {first second : Char} (inLine : first ≠ '\n')
    (inLineSecond : second ≠ '\n') :
    endPosition (front ++ [first]) = endPosition (other ++ [second]) := by
  obtain ⟨line, column⟩ := Prod.mk.inj same
  rw [endPosition_concat, endPosition_concat, if_neg inLine, if_neg inLineSecond, line, column]

/-- What is put behind texts with the same position keeps the positions the same. -/
theorem endPosition_append_congr {front other : Text}
    (same : front.endPosition = other.endPosition) (back : Text) :
    endPosition (front ++ back) = endPosition (other ++ back) := by
  induction back generalizing front other with
  | nil => rwa [List.append_nil, List.append_nil]
  | cons character back inductionHypothesis =>
    have step : endPosition (front ++ [character]) = endPosition (other ++ [character]) := by
      obtain ⟨line, column⟩ := Prod.mk.inj same
      rw [endPosition_concat, endPosition_concat, line, column]
    have whole := inductionHypothesis step
    rwa [List.append_assoc, List.append_assoc] at whole

/-! ### Blanks at positions -/

/-- The text behind `passed`, with a blank for every character that stands at one of the
positions. -/
def blankAt (positions : List (Nat × Nat)) : (passed rest : Text) → Text
  | _, [] => []
  | passed, character :: rest =>
    (if passed.endPosition ∈ positions then ' ' else character) ::
      blankAt positions (passed ++ [character]) rest

theorem blankAt_append (positions : List (Nat × Nat)) (passed front back : Text) :
    blankAt positions passed (front ++ back) =
      blankAt positions passed front ++ blankAt positions (passed ++ front) back := by
  induction front generalizing passed with
  | nil => rw [List.append_nil]; rfl
  | cons character front inductionHypothesis =>
    rw [List.cons_append, blankAt, inductionHypothesis, blankAt, List.append_assoc]
    rfl

/-- A text stays what it is if all the positions are behind it. -/
theorem blankAt_of_behind {positions : List (Nat × Nat)} {passed text : Text}
    (behind : ∀ position ∈ positions, ∃ more, position = endPosition (passed ++ text ++ more)) :
    blankAt positions passed text = text := by
  induction text generalizing passed with
  | nil => rfl
  | cons character rest inductionHypothesis =>
    have missing : passed.endPosition ∉ positions := by
      intro member
      obtain ⟨more, same⟩ := behind _ member
      rw [List.append_assoc, List.cons_append] at same
      exact endPosition_append_ne passed (List.cons_ne_nil _ _) same
    rw [blankAt, if_neg missing, inductionHypothesis]
    rwa [List.append_assoc, List.singleton_append]

/-- A position in front of a text has no effect on it. -/
theorem blankAt_cons_of_passed (positions : List (Nat × Nat)) (front : Text) {passed : Text}
    (nonempty : passed ≠ []) (text : Text) :
    blankAt (front.endPosition :: positions) (front ++ passed) text =
      blankAt positions (front ++ passed) text := by
  induction text generalizing passed with
  | nil => rfl
  | cons character rest inductionHypothesis =>
    have other := (front.endPosition_append_ne nonempty).symm
    have later := inductionHypothesis (List.append_ne_nil_of_left_ne_nil nonempty [character])
    rw [← List.append_assoc] at later
    simp only [blankAt, List.mem_cons, other, false_or, later]

end Text

/-! ### Stray characters -/

/-- Whether the cause is a character that no token starts with. -/
def LexicalError.Cause.isStray : LexicalError.Cause → Bool
  | .strayCharacter _ => true
  | .unclosedString | .oversizedNumber _ => false

namespace LexicalError

/-- Whether the failure is a character that no token starts with. -/
def isStray (error : LexicalError) : Bool := error.cause.isStray

/-- The position that the failure reports. -/
def position (error : LexicalError) : Nat × Nat := (error.line, error.column)

end LexicalError

/-- Whether the lexeme is a character that no token starts with. -/
def Lexeme.isStray (lexeme : Lexeme) : Bool :=
  match lexeme.content with
  | .ok _ => false
  | .error cause => cause.isStray

/-- The text with a blank in place of each character that is reported because no token starts with
it. The characters are found by the lines and columns of the reports. -/
def Text.withoutStrays (source : Text) : Text :=
  blankAt (((tokenize source).2.filter LexicalError.isStray).map LexicalError.position) [] source

namespace Finding

/-- Whether a character was found that no token starts with. -/
def isStray (finding : Finding) : Bool :=
  match finding.reading with
  | .ok _ => false
  | .error cause => cause.isStray

/-- The position where something was found. -/
def position (finding : Finding) : Nat × Nat := (finding.line, finding.column)

theorem isStray_foundBehind (lexeme : Lexeme) (passed : Text) :
    (lexeme.foundBehind passed).isStray = lexeme.isStray := by
  obtain ⟨text, content⟩ := lexeme
  cases content <;> rfl

/-- The stray characters among the failures are those among the findings. -/
theorem map_position_strays (findings : List Finding) :
    ((findings.filterMap error?).filter LexicalError.isStray).map LexicalError.position =
      (findings.filter isStray).map position := by
  induction findings with
  | nil => rfl
  | cons finding later inductionHypothesis =>
    obtain ⟨reading, line, column⟩ := finding
    cases reading with
    | ok lexeme => exact inductionHypothesis
    | error cause =>
      cases stray : cause.isStray <;>
        simp [error?, isStray, LexicalError.isStray, stray, LexicalError.position, position,
          inductionHypothesis]

/-- Without its stray characters a text has the same tokens. -/
theorem filterMap_token?_filter (findings : List Finding) :
    (findings.filter fun finding => !finding.isStray).filterMap token? =
      findings.filterMap token? := by
  rw [List.filterMap_filter]
  refine congrArg (List.filterMap · findings) (funext fun finding => ?_)
  obtain ⟨reading, line, column⟩ := finding
  cases reading <;> simp [token?, isStray]

theorem filterMap_error?_filter (findings : List Finding) :
    (findings.filter fun finding => !finding.isStray).filterMap error? =
      (findings.filterMap error?).filter fun error => !error.isStray := by
  rw [List.filterMap_filter, List.filter_filterMap]
  refine congrArg (List.filterMap · findings) (funext fun finding => ?_)
  obtain ⟨reading, line, column⟩ := finding
  cases reading <;> simp [error?, isStray, LexicalError.isStray, Option.filter]

end Finding

/-! ### Blanks in place of strays, piece by piece -/

/-- The characters of a piece, with a blank in place of a stray character. -/
def Piece.blanked (piece : Piece) : Text :=
  piece.gap ++ if piece.lexeme.isStray then [' '] else piece.lexeme.text

theorem Piece.blanked_of_stray {piece : Piece} (stray : piece.lexeme.isStray = true) :
    piece.blanked = piece.gap ++ [' '] := by
  rw [blanked, if_pos stray]

theorem Piece.blanked_of_not_stray {piece : Piece} (notStray : piece.lexeme.isStray = false) :
    piece.blanked = piece.text := by
  rw [blanked, if_neg (by rw [notStray]; decide), text]

/-- The text with a blank in place of each stray character, put together from its pieces. -/
def Text.blanked (text : Text) : Text := text.pieces.flatMap Piece.blanked

theorem Lexeme.foundBehind_congr (lexeme : Lexeme) {passed other : Text}
    (same : passed.endPosition = other.endPosition) :
    lexeme.foundBehind passed = lexeme.foundBehind other := by
  obtain ⟨line, column⟩ := Prod.mk.inj same
  rw [foundBehind, foundBehind, line, column]

theorem Lexeme.exists_cause_of_isStray {lexeme : Lexeme} (isStray : lexeme.isStray = true) :
    ∃ character, lexeme.content = .error (.strayCharacter character) := by
  obtain ⟨text, content⟩ := lexeme
  cases content with
  | ok => cases isStray
  | error cause =>
    cases cause with
    | strayCharacter character => exact ⟨character, rfl⟩
    | unclosedString | oversizedNumber => cases isStray

/-- A stray character is one character, and not a newline. -/
theorem Text.exists_character_of_isStray {text : Text}
    (isStray : text.piece.lexeme.isStray = true) :
    ∃ character, text.piece.lexeme.text = [character] ∧ character ≠ '\n' := by
  obtain ⟨character, cause⟩ := Lexeme.exists_cause_of_isStray isStray
  have written : text.piece.lexeme.text = [character] := Lexeme.front_text_of_stray cause
  refine ⟨character, written, ?_⟩
  rintro rfl
  have absent := text.absent_core
  rw [← text.lexeme_append_behindPiece, written] at absent
  cases absent.1 '\n' rfl

namespace Piece

/-- The positions of the stray characters among pieces that stand behind a text. -/
def strayPositions (passed : Text) (pieces : List Piece) : List (Nat × Nat) :=
  ((findings passed pieces).filter Finding.isStray).map Finding.position

theorem strayPositions_cons (passed : Text) (piece : Piece) (later : List Piece) :
    strayPositions passed (piece :: later) =
      if piece.lexeme.isStray then
        Text.endPosition (passed ++ piece.gap) :: strayPositions (passed ++ piece.text) later
      else strayPositions (passed ++ piece.text) later := by
  rw [strayPositions, findings, List.filter_cons, Finding.isStray_foundBehind]
  split <;> rfl

theorem exists_of_mem_strayPositions {passed : Text} {pieces : List Piece} {position : Nat × Nat}
    (member : position ∈ strayPositions passed pieces) :
    ∃ more, position = Text.endPosition (passed ++ more) := by
  induction pieces generalizing passed with
  | nil => cases member
  | cons piece later inductionHypothesis =>
    have behind (member : position ∈ strayPositions (passed ++ piece.text) later) :
        ∃ more, position = Text.endPosition (passed ++ more) := by
      obtain ⟨more, same⟩ := inductionHypothesis member
      exact ⟨piece.text ++ more, by rw [same, List.append_assoc]⟩
    rw [strayPositions_cons] at member
    split at member
    · rcases List.mem_cons.mp member with here | later
      · exact ⟨piece.gap, here⟩
      · exact behind later
    · exact behind member

/-- The characters at the positions of the stray ones among pieces are those that get a blank. -/
theorem blankAt_strayPositions (passed : Text) {pieces : List Piece}
    (single : ∀ piece ∈ pieces, piece.lexeme.isStray = true →
      ∃ character, piece.lexeme.text = [character]) :
    Text.blankAt (strayPositions passed pieces) passed (pieces.flatMap Piece.text) =
      pieces.flatMap blanked := by
  induction pieces generalizing passed with
  | nil => rfl
  | cons piece later inductionHypothesis =>
    obtain ⟨singleHere, singleLater⟩ := List.forall_mem_cons.mp single
    have back := inductionHypothesis (passed ++ piece.text) singleLater
    have behind : ∀ position ∈ strayPositions (passed ++ piece.text) later,
        ∃ more, position = Text.endPosition (passed ++ piece.text ++ more) :=
      fun position => exists_of_mem_strayPositions
    rw [strayPositions_cons, List.flatMap_cons, List.flatMap_cons]
    generalize strayPositions (passed ++ piece.text) later = positions at back behind ⊢
    cases stray : piece.lexeme.isStray with
    | false =>
      rw [if_neg Bool.false_ne_true, Text.blankAt_append, Text.blankAt_of_behind behind, back,
        blanked_of_not_stray stray]
    | true =>
      obtain ⟨character, written⟩ := singleHere stray
      have whole : piece.text = piece.gap ++ [character] := by rw [text, written]
      rw [whole, ← List.append_assoc] at back behind
      -- The gap is in front of all positions, and the rest is behind the first of them.
      have behindGap : ∀ position ∈ Text.endPosition (passed ++ piece.gap) :: positions,
          ∃ more, position = Text.endPosition (passed ++ piece.gap ++ more) := by
        refine List.forall_mem_cons.mpr ⟨⟨[], by rw [List.append_nil]⟩, fun position member => ?_⟩
        obtain ⟨more, same⟩ := behind position member
        exact ⟨[character] ++ more, by rw [same, List.append_assoc]⟩
      have here : Text.blankAt (Text.endPosition (passed ++ piece.gap) :: positions)
          (passed ++ piece.gap) [character] = [' '] := by
        simp [Text.blankAt]
      rw [if_pos rfl, whole, blanked_of_stray stray, Text.blankAt_append, Text.blankAt_append,
        Text.blankAt_of_behind behindGap, here, ← List.append_assoc passed,
        Text.blankAt_cons_of_passed _ _ (List.cons_ne_nil _ _), back]

end Piece

theorem Text.withoutStrays_eq_blanked (source : Text) : source.withoutStrays = source.blanked := by
  have single : ∀ piece ∈ source.pieces, piece.lexeme.isStray = true →
      ∃ character, piece.lexeme.text = [character] := by
    intro piece member isStray
    obtain ⟨rest, rfl⟩ := exists_of_mem_pieces member
    obtain ⟨character, written, -⟩ := exists_character_of_isStray isStray
    exact ⟨character, written⟩
  have blanks := Piece.blankAt_strayPositions [] single
  rwa [flatMap_pieces, Piece.strayPositions, ← map_finding_items, ← Finding.map_position_strays,
    ← errors_tokenize] at blanks

/-! ### Reading with the blanks -/

/-- The blanks change nothing, or cut off the text where the first stray character was. -/
theorem Piece.exists_cut_blanked (pieces : List Piece) :
    ∃ front back other, pieces.flatMap Piece.text = front ++ back ∧
      pieces.flatMap blanked = front ++ other ∧ Text.Spaced other := by
  induction pieces with
  | nil => exact ⟨[], [], [], rfl, rfl, Text.spaced_nil⟩
  | cons piece later inductionHypothesis =>
    cases stray : piece.lexeme.isStray with
    | false =>
      obtain ⟨front, back, other, whole, blanks, spaced⟩ := inductionHypothesis
      refine ⟨piece.text ++ front, back, other, ?_, ?_, spaced⟩
      · rw [List.flatMap_cons, whole, List.append_assoc]
      · rw [List.flatMap_cons, blanks, blanked_of_not_stray stray, List.append_assoc]
    | true =>
      refine ⟨piece.gap, piece.lexeme.text ++ later.flatMap Piece.text,
        ' ' :: later.flatMap blanked, ?_, ?_, Text.spaced_cons rfl _⟩
      · rw [List.flatMap_cons, text, List.append_assoc]
      · rw [List.flatMap_cons, blanked_of_stray stray, List.append_assoc, List.singleton_append]

namespace Text

theorem isStray_of_core_eq_nil {text : Text} (ended : text.core = []) :
    text.piece.lexeme.isStray = false := by
  rw [piece, ended]
  rfl

theorem blanked_of_core_eq_nil {text : Text} (ended : text.core = []) : text.blanked = text := by
  have whole := flatMap_pieces text
  rw [pieces_of_core_eq_nil ended, List.flatMap_singleton] at whole
  rw [blanked, pieces_of_core_eq_nil ended, List.flatMap_singleton,
    Piece.blanked_of_not_stray (isStray_of_core_eq_nil ended), whole]

theorem blanked_of_core_ne_nil {text : Text} (unfinished : text.core ≠ []) :
    text.blanked = text.piece.blanked ++ text.behindPiece.blanked := by
  rw [blanked, pieces_of_core_ne_nil unfinished, List.flatMap_cons, blanked]

/-- A lexeme does not tell the blanks behind it from the stray characters. -/
theorem readBefore_blanked {text : Text} (unfinished : text.core ≠ []) :
    text.piece.lexeme.ReadBefore text.behindPiece.blanked := by
  have read := readBefore_behindPiece unfinished
  by_cases unclosed : text.piece.lexeme.content = .error .unclosedString
  · -- Such a string takes up the rest of the text, so no stray character is behind it.
    have nothing : text.behindPiece = [] := by
      rw [behindPiece, piece, Lexeme.front_text_of_unclosed unclosed, List.drop_length]
    rwa [nothing, blanked_of_core_eq_nil rfl, ← nothing]
  · obtain ⟨front, back, other, whole, blanks, spaced⟩ :=
      Piece.exists_cut_blanked text.behindPiece.pieces
    rw [flatMap_pieces] at whole
    rw [whole] at read
    rw [blanked, blanks]
    exact read.cut unclosed spaced

/-- With the blanks everything is found where it was, but for the stray characters. -/
theorem findings_blanked (text : Text) {passed other : Text}
    (same : passed.endPosition = other.endPosition) :
    Piece.findings other text.blanked.pieces =
      (Piece.findings passed text.pieces).filter fun finding => !finding.isStray := by
  fun_induction pieces text generalizing passed other with
  | case1 text ended =>
    have here := text.piece.lexeme.foundBehind_congr (endPosition_append_congr same text.piece.gap)
    rw [blanked_of_core_eq_nil ended, pieces_of_core_eq_nil ended, Piece.findings, Piece.findings,
      Piece.findings, Piece.findings, List.filter_cons, Finding.isStray_foundBehind,
      isStray_of_core_eq_nil ended, here]
    rfl
  | case2 text unfinished inductionHypothesis =>
    have closed : Trivia.Closed text.piece.gap := closed_leadingTrivia unfinished
    have behindGap := endPosition_append_congr same text.piece.gap
    rw [blanked_of_core_ne_nil unfinished, Piece.findings, List.filter_cons,
      Finding.isStray_foundBehind]
    cases stray : text.piece.lexeme.isStray with
    | false =>
      have later := inductionHypothesis (endPosition_append_congr same text.piece.text)
      rw [Piece.blanked_of_not_stray stray, Piece.text, List.append_assoc,
        pieces_cons closed (readBefore_blanked unfinished), Piece.findings, Bool.not_false,
        if_pos rfl, text.piece.lexeme.foundBehind_congr behindGap]
      exact congrArg _ later
    | true =>
      have blank : Trivia.Closed [' '] := .blank rfl .nil
      obtain ⟨character, written, inLine⟩ := exists_character_of_isStray stray
      have behind := endPosition_concat_congr behindGap inLine (show ' ' ≠ '\n' by decide)
      rw [List.append_assoc, List.append_assoc, ← written] at behind
      -- The blank belongs to the trivia in front of what comes next.
      rw [Piece.blanked_of_stray stray, findings_append_closed other (closed.append blank),
        if_neg (by decide)]
      exact inductionHypothesis behind

end Text

/-- Reading recovers at once. With a blank in place of each character that no token starts with, a
text has the same tokens at the same positions, and the failures that it had otherwise. -/
theorem strays_are_blanks (source : Text) :
    (tokenize source.withoutStrays).1.map Token.shown = (tokenize source).1.map Token.shown ∧
      (tokenize source.withoutStrays).2 =
        (tokenize source).2.filter fun error => !error.isStray := by
  have found := source.findings_blanked (show Text.endPosition [] = Text.endPosition [] from rfl)
  rw [← Text.withoutStrays_eq_blanked, ← Text.map_finding_items, ← Text.map_finding_items] at found
  rw [map_shown_tokenize, map_shown_tokenize, errors_tokenize, errors_tokenize, found,
    Finding.filterMap_token?_filter, Finding.filterMap_error?_filter]
  exact ⟨rfl, rfl⟩

/-- The same character stays in a string and in a comment. -/
example : Text.withoutStrays "1é2!é=\"é\"//é".toList = "1 2! =\"é\"//é".toList := by decide +kernel

end LoxFront
