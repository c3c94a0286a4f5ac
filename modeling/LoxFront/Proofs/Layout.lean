/-
This file proves that layout never matters. Wherever an item of a text starts, blanks and whole
comments can be put in front of it: the text has the same items in the same order, those in front
of the new trivia stand where they stood, and what is read of the tokens is the same. All that
happens to the pieces of the text is that the gap of one of them grows. The pieces in front of it
are cut off by the blank that the new trivia starts with, and the piece itself is read from the
same character on, even where the gap is a comment that no newline ends.
-/

import LoxFront.Proofs.Coverage
import LoxFront.Proofs.Relocation
import LoxFront.Proofs.Spacing

namespace LoxFront

/-! ### Trivia in front of an item -/

namespace Trivia

/-- A blank, and behind it blanks and whole comments. -/
def Separator (text : Text) : Prop :=
  ∃ first rest, text = first :: rest ∧ isBlank first = true ∧ Closed rest

theorem Separator.closed {text : Text} (separator : Separator text) : Closed text := by
  obtain ⟨first, rest, rfl, space, closed⟩ := separator
  exact .blank space closed

theorem Separator.spaced {text : Text} (separator : Separator text) (back : Text) :
    Text.Spaced (text ++ back) := by
  obtain ⟨first, rest, rfl, space, -⟩ := separator
  exact Text.spaced_cons space (rest ++ back)

end Trivia

namespace Text

/-- Behind the trivia of a text there may be more trivia. If the last comment lacks its newline,
that becomes a part of the comment. -/
theorem leadingTrivia_insert (text : Text) {separator : Text}
    (closed : Trivia.Closed separator) :
    leadingTrivia (text.leadingTrivia ++ (separator ++ text.core)) =
      text.leadingTrivia ++ separator := by
  rcases Trivia.leadingTrivia_closed_or_open text with closedGap | ⟨whole, openComment⟩
  · rw [closedGap.leadingTrivia_append, closed.leadingTrivia_append,
      Trivia.leadingTrivia_absent text.absent_core, List.append_nil]
  · have ended := core_eq_nil_iff.mpr whole
    obtain ⟨front, body, split, closedFront, oneLine⟩ := openComment
    -- The last comment is the end of the text, so it goes on into what is put behind it.
    rw [whole, ended, List.append_nil, split, List.append_assoc,
      closedFront.leadingTrivia_append]
    show front ++ '/' :: '/' :: Trivia.leading true (body ++ separator) = _
    rw [Trivia.leading_true_append oneLine, closed.leading_true]
    rfl

theorem core_insert (text : Text) {separator : Text} (closed : Trivia.Closed separator) :
    core (text.leadingTrivia ++ (separator ++ text.core)) = text.core := by
  rw [core, text.leadingTrivia_insert closed, ← List.append_assoc, List.drop_left]

/-- New trivia in front of the first item makes the gap of the first piece longer, and that is
all. -/
theorem pieces_insert (text : Text) {separator : Text} (closed : Trivia.Closed separator)
    {first : Piece} {later : List Piece} (split : text.pieces = first :: later) :
    pieces (text.leadingTrivia ++ (separator ++ text.core)) =
      { first with gap := first.gap ++ separator } :: later := by
  have grown : leadingTrivia (text.leadingTrivia ++ (separator ++ text.core)) =
      first.gap ++ separator := by
    rw [text.leadingTrivia_insert closed, eq_piece_of_pieces_eq_cons split, piece]
  rw [pieces_of_core_eq (text.core_insert closed) split, grown]

end Text

/-! ### What an item is, and where it stands -/

/-- What a lexeme is read as: itself, or the reason why it is no token. -/
def Lexeme.reading (lexeme : Lexeme) : Except LexicalError.Cause Lexeme :=
  match lexeme.content with
  | .ok _ => .ok lexeme
  | .error cause => .error cause

namespace Item

/-- What an item is, wherever it stands: what the token says and how it is written, or why there is
no token. -/
def reading : Item → Except LexicalError.Cause Lexeme
  | .ok token => .ok token.asLexeme
  | .error error => .error error.cause

/-- The line and the column that an item reports. -/
def position (item : Item) : Nat × Nat := (item.line, item.column)

theorem reading_itemAt (lexeme : Lexeme) (start : Place) :
    reading (lexeme.itemAt start) = lexeme.reading := by
  obtain ⟨text, content⟩ := lexeme
  cases content <;> rfl

theorem StandsBetween.position_eq {item : Item} {passed rest : Text}
    (stands : item.StandsBetween passed rest) :
    item.position = (passed.endLine, passed.endColumn) := by
  rw [position, stands.line, stands.column]

end Item

namespace Piece

theorem readings_layOut (place : Place) (pieces : List Piece) :
    (layOut place pieces).map Item.reading = pieces.map fun piece => piece.lexeme.reading := by
  induction pieces generalizing place with
  | nil => rfl
  | cons piece later inductionHypothesis =>
    rw [layOut, List.map_cons, Item.reading_itemAt, inductionHypothesis, List.map_cons]

/-- The first piece stands behind its gap. -/
theorem standsBetween_first (passed behind : Text) (piece : Piece) :
    (piece.lexeme.itemAt
      ((Place.between passed (piece.text ++ behind)).skip piece.gap.length)).StandsBetween
        (passed ++ piece.gap) (piece.lexeme.text ++ behind) := by
  rw [Piece.text, List.append_assoc, Place.skip_between]
  exact standsBetween_itemAt _ _ _

/-- Where items stand depends on the text in front of them only. -/
theorem positions_layOut (passed behind behind' : Text) (pieces : List Piece) :
    (layOut (Place.between passed (pieces.flatMap Piece.text ++ behind)) pieces).map
        Item.position =
      (layOut (Place.between passed (pieces.flatMap Piece.text ++ behind')) pieces).map
        Item.position := by
  induction pieces generalizing passed with
  | nil => rfl
  | cons piece later inductionHypothesis =>
    rw [List.flatMap_cons, List.append_assoc, List.append_assoc, layOut, layOut, List.map_cons,
      List.map_cons, (standsBetween_first passed _ piece).position_eq,
      (standsBetween_first passed _ piece).position_eq, Place.skip_between, Place.skip_between,
      inductionHypothesis]

end Piece

/-! ### New trivia in a text -/

/-- New trivia between the gap of a piece and its lexeme makes the gap longer and leaves the other
pieces as they are. -/
theorem Text.pieces_insert_between {front back separator : Text} {before later : List Piece}
    {piece : Piece} (split : pieces (front ++ back) = before ++ piece :: later)
    (behindGap : front = before.flatMap Piece.text ++ piece.gap)
    (closed : ∀ piece ∈ before, piece.lexeme.content ≠ .error .unclosedString)
    (separates : Trivia.Separator separator) :
    pieces (front ++ (separator ++ back)) =
      before ++ { piece with gap := piece.gap ++ separator } :: later := by
  have unfinished := List.cons_ne_nil piece later
  have rest : (piece :: later).flatMap Piece.text = piece.gap ++ back := by
    have whole := flatMap_pieces (front ++ back)
    rw [split, List.flatMap_append, behindGap, List.append_assoc] at whole
    exact List.append_cancel_left whole
  have suffix := pieces_suffix split unfinished
  rw [rest] at suffix
  have gap : piece.gap = leadingTrivia (piece.gap ++ back) :=
    congrArg Piece.gap (eq_piece_of_pieces_eq_cons suffix)
  have core : back = core (piece.gap ++ back) := by
    have whole := leadingTrivia_append_core (piece.gap ++ back)
    rw [← gap] at whole
    exact (List.append_cancel_left whole).symm
  have inserted := pieces_insert _ separates.closed suffix
  rw [← gap, ← core] at inserted
  rw [behindGap, List.append_assoc, pieces_cut split unfinished rest closed (separates.spaced back),
    inserted]

/-- What cannot be read is among the failures. -/
theorem Text.exists_error_of_content {source : Text} {piece : Piece}
    (member : piece ∈ source.pieces) {cause : LexicalError.Cause}
    (content : piece.lexeme.content = .error cause) :
    ∃ error ∈ (tokenize source).2, error.cause = cause := by
  have reading : .error cause ∈ source.items.map Item.reading := by
    rw [items_eq_layOut, Piece.readings_layOut]
    exact List.mem_map.mpr ⟨piece, member, by rw [Lexeme.reading, content]⟩
  obtain ⟨item, itemMember, isError⟩ := List.mem_map.mp reading
  cases item with
  | ok => cases isError
  | error error =>
    exact ⟨error, List.mem_filterMap.mpr ⟨_, itemMember, rfl⟩, Except.error.inj isError⟩

theorem Text.content_ne_unclosedString {source : Text}
    (closed : ∀ error ∈ (tokenize source).2, error.cause ≠ .unclosedString) :
    ∀ piece ∈ source.pieces, piece.lexeme.content ≠ .error .unclosedString := by
  intro piece member unclosed
  obtain ⟨error, found, cause⟩ := exists_error_of_content member unclosed
  exact closed error found cause

/-- What is seen of the tokens of a text can be told from what is seen of its items, if that of each
token can be told from that of its item. -/
theorem map_tokens_tokenize {Seen View : Type} {look : Item → Seen} {view : Token → View}
    {told : Seen → Option View} (tells : ∀ item, item.token?.map view = told (look item))
    (source : Text) :
    (tokenize source).1.map view = (source.items.map look).filterMap told := by
  show (source.items.filterMap Item.token?).map view = _
  rw [List.map_filterMap, List.filterMap_map]
  exact congrArg (List.filterMap · source.items) (funext tells)

/-- How tokens are written can be told from what the items are. -/
theorem map_asLexeme_tokenize (source : Text) :
    (tokenize source).1.map Token.asLexeme =
      (source.items.map Item.reading).filterMap Except.toOption :=
  map_tokens_tokenize (fun item => by cases item <;> rfl) source

/-- Where an item starts, a piece has its lexeme behind its gap. -/
theorem Text.exists_pieces_of_standsBetween {front back : Text} {before after : List Item}
    {item : Item} (split : items (front ++ back) = before ++ item :: after)
    (stands : item.StandsBetween front back) :
    ∃ first piece later, pieces (front ++ back) = first ++ piece :: later ∧
      front = first.flatMap Piece.text ++ piece.gap ∧
      before = Piece.layOut (Place.between [] (front ++ back)) first := by
  have start : Place.ofText (front ++ back) = Place.between [] (front ++ back) := rfl
  rw [items_eq_layOut, start] at split
  obtain ⟨first, piece, later, cut, inFront, laid⟩ := Piece.exists_of_layOut_eq_append split
  have whole : first.flatMap Piece.text ++ (piece.text ++ later.flatMap Piece.text) =
      front ++ back := by
    rw [← List.flatMap_cons, ← List.flatMap_append, ← cut, flatMap_pieces]
  have place := Piece.standsBetween_first (first.flatMap Piece.text)
    (later.flatMap Piece.text) piece
  have passed := Place.skip_between [] (first.flatMap Piece.text)
    (piece.text ++ later.flatMap Piece.text)
  rw [List.nil_append, whole] at passed
  rw [← passed, ← laid] at place
  have same : front ++ back = first.flatMap Piece.text ++ piece.gap ++
      (piece.lexeme.text ++ later.flatMap Piece.text) := by
    rw [← whole, Piece.text, List.append_assoc, List.append_assoc]
  have behindGap := eq_of_end_eq same (stands.line.symm.trans place.line)
    (stands.column.symm.trans place.column)
  exact ⟨first, piece, later, cut, behindGap, inFront.symm⟩

/-- Layout never matters. Where an item of a text starts, be it a token, a failure or the end of
the text, a blank and further blanks and whole comments are put in. If no string of the text is
left open, the same items are read in the same order, those in front keep their lines and columns,
and the tokens come to the same tree or to the same failure. -/
theorem layout_never_matters {front back separator : Text} {before after : List Item} {item : Item}
    (split : Text.items (front ++ back) = before ++ item :: after)
    (stands : item.StandsBetween front back)
    (closed : ∀ error ∈ (tokenize (front ++ back)).2, error.cause ≠ .unclosedString)
    (separates : Trivia.Separator separator) :
    (Text.items (front ++ (separator ++ back))).map Item.reading =
        (Text.items (front ++ back)).map Item.reading ∧
      ((Text.items (front ++ (separator ++ back))).take before.length).map Item.position =
        before.map Item.position ∧
      SameResult (parseFront (tokenize (front ++ (separator ++ back))).1)
        (parseFront (tokenize (front ++ back)).1) ∧
      SameResult (parseWhole (tokenize (front ++ (separator ++ back))).1)
        (parseWhole (tokenize (front ++ back)).1) := by
  obtain ⟨first, piece, later, cut, behindGap, inFront⟩ :=
    Text.exists_pieces_of_standsBetween split stands
  have closedBefore : ∀ piece ∈ first, piece.lexeme.content ≠ .error .unclosedString := by
    intro piece member
    refine Text.content_ne_unclosedString closed piece ?_
    rw [cut]
    exact List.mem_append_left _ member
  have relaid := Text.pieces_insert_between cut behindGap closedBefore separates
  have readings : (Text.items (front ++ (separator ++ back))).map Item.reading =
      (Text.items (front ++ back)).map Item.reading := by
    rw [Text.items_eq_layOut, Text.items_eq_layOut, Piece.readings_layOut, Piece.readings_layOut,
      relaid, cut, List.map_append, List.map_append, List.map_cons, List.map_cons]
  have written : (tokenize (front ++ (separator ++ back))).1.map Token.asLexeme =
      (tokenize (front ++ back)).1.map Token.asLexeme := by
    rw [map_asLexeme_tokenize, map_asLexeme_tokenize, readings]
  have kept := Text.flatMap_pieces (front ++ back)
  rw [cut, List.flatMap_append] at kept
  have positions : ((Text.items (front ++ (separator ++ back))).take before.length).map
      Item.position = before.map Item.position := by
    rw [Text.items_eq_layOut, relaid, Piece.layOut_append, inFront, Piece.length_layOut,
      List.take_left' (Piece.length_layOut _ _), ← kept, behindGap, List.append_assoc]
    exact Piece.positions_layOut [] _ _ first
  exact ⟨readings, positions, sameResult_parseFront written, sameResult_parseWhole written⟩

/-- The end of the text stands behind a comment without a newline, and a newline, another comment
and a blank are put in front of it. -/
theorem layout_never_matters_behind_comment :
    (Text.items "1.@ //c\n//d\n ".toList).map Item.reading =
        (Text.items "1.@ //c".toList).map Item.reading ∧
      ((Text.items "1.@ //c\n//d\n ".toList).take 3).map Item.position =
        ((Text.items "1.@ //c".toList).take 3).map Item.position ∧
      SameResult (parseFront (tokenize "1.@ //c\n//d\n ".toList).1)
        (parseFront (tokenize "1.@ //c".toList).1) ∧
      SameResult (parseWhole (tokenize "1.@ //c\n//d\n ".toList).1)
        (parseWhole (tokenize "1.@ //c".toList).1) := by
  have split : Text.items ("1.@ //c".toList ++ []) = (Text.items "1.@ //c".toList).take 3 ++
      [.ok (.endMark (.between "1.@ //c".toList []))] := by decide +kernel
  have stands : Item.StandsBetween (.ok (.endMark (.between "1.@ //c".toList [])))
      "1.@ //c".toList [] := by
    refine ⟨rfl, rfl, fun token equal => ?_⟩
    cases equal
    rfl
  have comment : Trivia.Closed ('/' :: '/' :: (['d'] ++ '\n' :: [' '])) :=
    .comment (by decide) (.blank rfl .nil)
  have separates : Trivia.Separator "\n//d\n ".toList := ⟨'\n', _, rfl, rfl, comment⟩
  have count : ((Text.items "1.@ //c".toList).take 3).length = 3 := by decide +kernel
  have relaid : "1.@ //c".toList ++ "\n//d\n ".toList = "1.@ //c\n//d\n ".toList := rfl
  have result := layout_never_matters split stands (by decide +kernel) separates
  rwa [count, List.append_nil, List.append_nil, relaid] at result

end LoxFront
