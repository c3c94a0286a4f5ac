/-
This file proves that reading composes over lines. Two texts with a newline between them are read as
the first text up to its end mark and then as the second, which stands further down but at the same
columns. At the end of the first text everything that could go on is cut off by the newline as it
was by the end: a word, a number, a symbol, also a comment, which the newline closes. A string that
is left open is the one exception. The positions in the second text are shifted without a walk,
since they are known from the text in front of each item.
-/

import LoxFront.Proofs.Findings

namespace LoxFront

/-! ### Positions behind a line -/

namespace Text

theorem endLine_append_line (front passed : Text) :
    endLine (front ++ '\n' :: passed) = passed.endLine + (front.count '\n' + 1) := by
  unfold endLine
  rw [List.count_append, List.count_cons_self]
  omega

/-- A newline is where columns start afresh, whatever is in front of it. -/
theorem endColumn_append_line (front passed : Text) :
    endColumn (front ++ '\n' :: passed) = passed.endColumn := by
  unfold endColumn
  have stops : Stops (· ≠ '\n') ('\n' :: front.reverse) := stops_cons rfl
  rw [List.reverse_append, List.reverse_cons, List.append_assoc, List.singleton_append,
    takeWhile_append_of_stops _ stops]

end Text

/-- The finding, a number of lines further down. -/
def Finding.down (lines : Nat) (finding : Finding) : Finding :=
  { finding with line := finding.line + lines }

/-- What is found behind a line is found in the line's place without it, further down. -/
theorem Piece.findings_behind_line (front passed : Text) (pieces : List Piece) :
    findings (front ++ '\n' :: passed) pieces =
      (findings passed pieces).map (Finding.down (front.count '\n' + 1)) := by
  induction pieces generalizing passed with
  | nil => rfl
  | cons piece later inductionHypothesis =>
    rw [findings, findings, List.map_cons, List.append_assoc, List.append_assoc, List.cons_append,
      List.cons_append, inductionHypothesis, Lexeme.foundBehind, Text.endLine_append_line,
      Text.endColumn_append_line]
    rfl

/-! ### The newline between two texts -/

namespace Text

/-- A newline behind a text leaves its pieces as they are, up to the end of the text. -/
theorem pieces_append_line {before : List Piece} {gap : Text}
    (split : pieces (before.flatMap Piece.text ++ gap) =
      before ++ [{ gap, lexeme := Lexeme.front [] }])
    (closed : ∀ piece ∈ before, piece.lexeme.content ≠ .error .unclosedString) (second : Text) :
    pieces (before.flatMap Piece.text ++ gap ++ '\n' :: second) =
      before ++ pieces (gap ++ '\n' :: second) := by
  have spaced : Spaced ('\n' :: second) := spaced_cons rfl second
  have behind : [{ gap, lexeme := Lexeme.front [] }].flatMap Piece.text = gap ++ [] :=
    List.flatMap_singleton ..
  rw [List.append_assoc]
  exact pieces_cut split (List.cons_ne_nil _ []) behind closed spaced

end Text

/-- Reading composes over lines. If no string of the first text is left open, then the items of two
texts with a newline between them are those of the first text without its end mark, and behind them
those of the second text, further down by the lines of the first and otherwise unchanged. -/
theorem items_append_line {first : Text}
    (closed : ∀ error ∈ (tokenize first).2, error.cause ≠ .unclosedString) (second : Text) :
    (Text.items (first ++ '\n' :: second)).map Item.finding =
      (first.items.filter fun item => !Item.isEnd item).map Item.finding ++
        (second.items.map Item.finding).map (Finding.down (first.count '\n' + 1)) := by
  obtain ⟨before, gap, split, whole, trivia, -⟩ := first.exists_last_piece
  have front := Text.map_finding_unmarked split
  have closedBefore : ∀ piece ∈ before, piece.lexeme.content ≠ .error .unclosedString := by
    intro piece member
    refine Text.content_ne_unclosedString closed piece ?_
    rw [split]
    exact List.mem_append_left _ member
  have cut : Text.pieces (first ++ '\n' :: second) =
      before ++ Text.pieces (gap ++ '\n' :: second) := by
    rw [whole] at split ⊢
    exact Text.pieces_append_line split closedBefore second
  have back : Piece.findings (before.flatMap Piece.text)
      (Text.pieces (gap ++ '\n' :: second)) =
        Piece.findings (first ++ ['\n']) second.pieces := by
    have relaid := Text.findings_append_closed (before.flatMap Piece.text)
      (Trivia.closed_append_newline trivia) second
    rwa [List.append_assoc, List.singleton_append, ← List.append_assoc, ← whole] at relaid
  rw [Text.map_finding_items, Text.map_finding_items, cut, Piece.findings_append,
    List.nil_append, front, back, Piece.findings_behind_line]

/-- The first text ends in a comment behind a number, a point and a stray character, and a string of
the second goes over two lines. -/
theorem items_append_line_behind_comment :
    (∀ error ∈ (tokenize "3.@ //c".toList).2, error.cause ≠ .unclosedString) ∧
      (Text.items ("3.@ //c".toList ++ '\n' :: "\"x\ny\" z".toList)).map Item.finding =
        ((Text.items "3.@ //c".toList).filter fun item => !Item.isEnd item).map Item.finding ++
          ((Text.items "\"x\ny\" z".toList).map Item.finding).map
            (Finding.down ("3.@ //c".toList.count '\n' + 1)) := by
  have closed : ∀ error ∈ (tokenize "3.@ //c".toList).2, error.cause ≠ .unclosedString := by
    decide +kernel
  exact ⟨closed, items_append_line closed _⟩

end LoxFront
