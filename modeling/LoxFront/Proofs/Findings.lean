/-
This file says what the items of a text are and where they stand without naming a place. An item
comes to a finding: what was read, and the line and the column where it starts. The findings of a
text can be written down along its pieces, since the position of an item depends on nothing but the
text in front of it. So a text that is changed has the same findings as soon as it has the same
pieces behind texts with the same ends, and no two walks along places have to be compared.
-/

import LoxFront.Proofs.Layout

namespace LoxFront

/-- What is found in a text, and the position where it starts. -/
structure Finding where
  reading : Except LexicalError.Cause Lexeme
  line : Nat
  column : Nat

/-- What an item is, and where it says that it stands. -/
def Item.finding (item : Item) : Finding where
  reading := item.reading
  line := item.line
  column := item.column

/-- The lexeme, found right behind a text. -/
def Lexeme.foundBehind (lexeme : Lexeme) (passed : Text) : Finding where
  reading := lexeme.reading
  line := passed.endLine
  column := passed.endColumn

namespace Finding

/-- The token that was found, if it is one, with its position. -/
def token? (finding : Finding) : Option (Lexeme × Nat × Nat) :=
  match finding.reading with
  | .ok lexeme => some (lexeme, finding.line, finding.column)
  | .error _ => none

/-- The failure that was found, if it is one. -/
def error? (finding : Finding) : Option LexicalError :=
  match finding.reading with
  | .ok _ => none
  | .error cause => some { cause, line := finding.line, column := finding.column }

end Finding

/-- A token as it is written, and where it stands. -/
def Token.shown (token : Token) : Lexeme × Nat × Nat :=
  (token.asLexeme, token.span.line, token.span.column)

/-! ### Findings along pieces -/

namespace Piece

/-- What is found in pieces that stand behind a text. -/
def findings : Text → List Piece → List Finding
  | _, [] => []
  | passed, piece :: later =>
    piece.lexeme.foundBehind (passed ++ piece.gap) :: findings (passed ++ piece.text) later

theorem findings_append (passed : Text) (before rest : List Piece) :
    findings passed (before ++ rest) =
      findings passed before ++ findings (passed ++ before.flatMap Piece.text) rest := by
  induction before generalizing passed with
  | nil => rw [List.flatMap_nil, List.append_nil]; rfl
  | cons piece before inductionHypothesis =>
    rw [List.cons_append, findings, inductionHypothesis, List.flatMap_cons, List.append_assoc]
    rfl

/-- Only the end of a gap matters to what is found behind it. -/
theorem findings_gap (passed trivia : Text) (piece : Piece) (later : List Piece) :
    findings passed ({ piece with gap := trivia ++ piece.gap } :: later) =
      findings (passed ++ trivia) (piece :: later) := by
  simp only [findings, text, List.append_assoc]

/-- The items that pieces are laid out as come to the findings of the pieces. -/
theorem map_finding_layOut (passed behind : Text) (pieces : List Piece) :
    (layOut (Place.between passed (pieces.flatMap Piece.text ++ behind)) pieces).map
      Item.finding = findings passed pieces := by
  induction pieces generalizing passed with
  | nil => rfl
  | cons piece later inductionHypothesis =>
    have first : Item.finding (piece.lexeme.itemAt ((Place.between passed
        (piece.text ++ (later.flatMap Piece.text ++ behind))).skip piece.gap.length)) =
          piece.lexeme.foundBehind (passed ++ piece.gap) := by
      have stands := standsBetween_first passed (later.flatMap Piece.text ++ behind) piece
      rw [Item.finding, stands.line, stands.column, Item.reading_itemAt]
      rfl
    rw [List.flatMap_cons, List.append_assoc, layOut, List.map_cons, first, Place.skip_between,
      inductionHypothesis]
    rfl

end Piece

namespace Text

/-- The items of a text come to the findings of its pieces. -/
theorem map_finding_items (source : Text) :
    source.items.map Item.finding = Piece.findings [] source.pieces := by
  have whole : Place.ofText source =
      Place.between [] (source.pieces.flatMap Piece.text ++ []) := by
    rw [flatMap_pieces, List.append_nil]
    rfl
  rw [items_eq_layOut, whole, Piece.map_finding_layOut]

/-- The items in front of the end mark come to the findings of the pieces in front of the last. -/
theorem map_finding_unmarked {source : Text} {before : List Piece} {last : Piece}
    (split : source.pieces = before ++ [last]) :
    (source.items.filter fun item => !Item.isEnd item).map Item.finding =
      Piece.findings [] before := by
  obtain ⟨others, mark, items, unmarked, isEnd, -⟩ := (covers_items source).exists_mark
  have laidOut := source.items_eq_layOut
  rw [items, split, Piece.layOut_append] at laidOut
  obtain ⟨rfl, -⟩ := List.append_inj' laidOut rfl
  have kept : source.items.filter (fun item => !Item.isEnd item) =
      Piece.layOut (Place.ofText source) before := by
    rw [items, List.filter_append, List.filter_eq_self.mpr fun item member => by
      rw [unmarked item member]; rfl]
    simp [Item.isEnd, isEnd]
  have whole : source = before.flatMap Piece.text ++ last.text := by
    rw [← flatMap_pieces source, split, List.flatMap_append, List.flatMap_singleton]
  have start : Place.ofText source =
      Place.between [] (before.flatMap Piece.text ++ last.text) := congrArg Place.ofText whole
  rw [kept, start, Piece.map_finding_layOut]

/-- Closed trivia in front of a text is as good as passed. -/
theorem findings_append_closed (passed : Text) {trivia : Text} (closed : Trivia.Closed trivia)
    (text : Text) :
    Piece.findings passed (pieces (trivia ++ text)) =
      Piece.findings (passed ++ trivia) text.pieces := by
  obtain ⟨first, later, split⟩ := List.exists_cons_of_ne_nil (Tokenizer.pieces_ne_nil text)
  have gap : leadingTrivia (trivia ++ text) = trivia ++ first.gap := by
    rw [closed.leadingTrivia_append, eq_piece_of_pieces_eq_cons split]
    rfl
  rw [pieces_of_core_eq (core_append_of_closed closed text) split, gap, Piece.findings_gap, split]

end Text

/-! ### Tokens and failures among the findings -/

theorem map_shown_tokenize (source : Text) :
    (tokenize source).1.map Token.shown =
      (source.items.map Item.finding).filterMap Finding.token? :=
  map_tokens_tokenize (fun item => by cases item <;> rfl) source

theorem errors_tokenize (source : Text) :
    (tokenize source).2 = (source.items.map Item.finding).filterMap Finding.error? := by
  show source.items.filterMap Item.error? = _
  rw [List.filterMap_map]
  refine congrArg (List.filterMap · source.items) (funext fun item => ?_)
  cases item <;> rfl

end LoxFront
