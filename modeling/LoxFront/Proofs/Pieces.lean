/-
This file separates what the items of a text are from where they stand. A text is cut into pieces,
each a stretch of trivia and the lexeme behind it, and the last one is the end of the text; no
place is kept while this is done. The items of the tokenizer are these pieces laid out along a
place. Everything about kinds, values and the order of items is therefore proved of pieces, and
positions are added afterwards.
-/

import LoxFront.Proofs.Lexemes
import LoxFront.Proofs.Places
import LoxFront.Proofs.Trivia
import LoxFront.Tokenizer

namespace LoxFront

/-- What is read at one go: trivia, and the lexeme behind it. -/
structure Piece where
  gap : Text
  lexeme : Lexeme

/-- The characters that a piece takes up. -/
def Piece.text (piece : Piece) : Text := piece.gap ++ piece.lexeme.text

namespace Text

/-- The text from its first item on. -/
def core (text : Text) : Text := text.drop text.leadingTrivia.length

theorem leadingTrivia_append_core (text : Text) : text.leadingTrivia ++ text.core = text := by
  obtain ⟨rest, split, -⟩ := Trivia.leadingTrivia_split text
  rw [core, drop_of_eq_append split, ← split]

theorem core_append_of_closed {trivia : Text} (closed : Trivia.Closed trivia) (text : Text) :
    core (trivia ++ text) = text.core := by
  rw [core, closed.leadingTrivia_append, List.length_append, ← List.drop_drop, List.drop_left, core]

theorem core_of_absent {text : Text} (absent : Trivia.Absent text) : text.core = text := by
  rw [core, Trivia.leadingTrivia_absent absent]
  rfl

theorem absent_core (text : Text) : Trivia.Absent text.core := by
  obtain ⟨rest, split, absent⟩ := Trivia.leadingTrivia_split text
  rwa [core, drop_of_eq_append split]

/-- There is no item in a text that is all trivia. -/
theorem core_eq_nil_iff {text : Text} : text.core = [] ↔ text.leadingTrivia = text := by
  have split := text.leadingTrivia_append_core
  constructor
  · intro ended
    rwa [ended, List.append_nil] at split
  · intro whole
    rw [whole] at split
    exact List.append_right_eq_self.mp split

/-- The trivia before an item is closed; only the one before the end mark may be open. -/
theorem closed_leadingTrivia {text : Text} (unfinished : text.core ≠ []) :
    Trivia.Closed text.leadingTrivia := by
  rcases Trivia.leadingTrivia_closed_or_open text with closed | ⟨whole, -⟩
  · exact closed
  · exact absurd (core_eq_nil_iff.mpr whole) unfinished

/-- The first piece of a text. -/
def piece (text : Text) : Piece where
  gap := text.leadingTrivia
  lexeme := Lexeme.front text.core

/-- A text without its first piece. -/
def behindPiece (text : Text) : Text := text.core.drop text.piece.lexeme.text.length

theorem lexeme_append_behindPiece (text : Text) :
    text.piece.lexeme.text ++ text.behindPiece = text.core := by
  obtain ⟨rest, split⟩ := Lexeme.front_prefix text.core
  have behind : text.behindPiece = rest := drop_of_eq_append split.symm
  rw [behind]
  exact split

theorem piece_append_behindPiece (text : Text) : text.piece.text ++ text.behindPiece = text := by
  rw [Piece.text, List.append_assoc, lexeme_append_behindPiece]
  exact leadingTrivia_append_core text

/-- Every piece but the end of the text takes up a character. -/
theorem length_behindPiece_lt {text : Text} (unfinished : text.core ≠ []) :
    text.behindPiece.length < text.length := by
  have nonempty : text.piece.lexeme.text ≠ [] :=
    fun empty => unfinished (Lexeme.front_text_eq_nil.mp empty)
  have positive := List.length_pos_iff.mpr nonempty
  have sum := congrArg List.length (piece_append_behindPiece text)
  rw [Piece.text, List.length_append, List.length_append] at sum
  omega

/-- A text cut into pieces. -/
def pieces (text : Text) : List Piece :=
  if text.core = [] then [text.piece] else text.piece :: pieces text.behindPiece
termination_by text.length
decreasing_by exact length_behindPiece_lt (by assumption)

theorem pieces_of_core_eq_nil {text : Text} (ended : text.core = []) :
    text.pieces = [text.piece] := by
  rw [pieces, if_pos ended]

theorem pieces_of_core_ne_nil {text : Text} (unfinished : text.core ≠ []) :
    text.pieces = text.piece :: text.behindPiece.pieces := by
  rw [pieces, if_neg unfinished]

/-- Up to its first gap the pieces of a text are those of the text from the first item on. -/
theorem pieces_of_core_eq {text other : Text} (same : other.core = text.core) {first : Piece}
    {later : List Piece} (split : text.pieces = first :: later) :
    other.pieces = { first with gap := other.leadingTrivia } :: later := by
  by_cases ended : text.core = []
  · rw [pieces_of_core_eq_nil ended] at split
    obtain ⟨rfl, rfl⟩ := List.cons_eq_cons.mp split
    rw [pieces_of_core_eq_nil (same.trans ended), piece, same, piece]
  · have behind : other.behindPiece = text.behindPiece := by
      rw [behindPiece, behindPiece, piece, piece, same]
    rw [pieces_of_core_ne_nil ended] at split
    obtain ⟨rfl, rfl⟩ := List.cons_eq_cons.mp split
    rw [pieces_of_core_ne_nil (same ▸ ended), behind, piece, same, piece]

/-- The pieces are all of the text. -/
theorem flatMap_pieces (text : Text) : text.pieces.flatMap Piece.text = text := by
  fun_induction pieces text with
  | case1 text ended =>
    have behind : text.behindPiece = [] := by rw [behindPiece, ended, List.drop_nil]
    have whole := piece_append_behindPiece text
    rw [behind, List.append_nil] at whole
    simpa using whole
  | case2 text unfinished inductionHypothesis =>
    rw [List.flatMap_cons, inductionHypothesis, piece_append_behindPiece]

theorem eq_piece_of_pieces_eq_cons {text : Text} {first : Piece} {later : List Piece}
    (split : text.pieces = first :: later) : first = text.piece := by
  rw [pieces] at split
  split at split <;> exact (List.cons_eq_cons.mp split).1.symm

/-- A piece with another one behind it is not the end of the text. -/
theorem unfinished_of_pieces_eq_cons {text : Text} {first : Piece} {later : List Piece}
    (split : text.pieces = first :: later) (more : later ≠ []) :
    text.core ≠ [] ∧ first = text.piece ∧ text.behindPiece.pieces = later := by
  by_cases ended : text.core = []
  · rw [pieces_of_core_eq_nil ended] at split
    exact absurd (List.cons_eq_cons.mp split).2.symm more
  · rw [pieces_of_core_ne_nil ended] at split
    obtain ⟨here, behind⟩ := List.cons_eq_cons.mp split
    exact ⟨ended, here.symm, behind⟩

/-- The last pieces of a text are the pieces of the text that they make up. -/
theorem pieces_suffix {text : Text} {before rest : List Piece}
    (split : text.pieces = before ++ rest) (unfinished : rest ≠ []) :
    pieces (rest.flatMap Piece.text) = rest := by
  induction before generalizing text with
  | nil =>
    obtain rfl : text.pieces = rest := split
    rw [flatMap_pieces]
  | cons first before inductionHypothesis =>
    rw [List.cons_append] at split
    obtain ⟨-, -, later⟩ := unfinished_of_pieces_eq_cons split
      (List.append_ne_nil_of_right_ne_nil before unfinished)
    exact inductionHypothesis later

/-- The end of the text is the last piece and no other one. Only in front of it may a comment lack
its newline. -/
theorem exists_last_piece (text : Text) :
    ∃ before gap, text.pieces = before ++ [{ gap, lexeme := Lexeme.front [] }] ∧
      text = before.flatMap Piece.text ++ gap ∧ (Trivia.Closed gap ∨ Trivia.Open gap) ∧
      ∀ piece ∈ before, piece.lexeme.content ≠ .ok .endOfInput := by
  fun_induction pieces text with
  | case1 text ended =>
    have whole := core_eq_nil_iff.mp ended
    refine ⟨[], text.leadingTrivia, ?_, whole.symm, ?_, by simp⟩
    · rw [piece, ended]
      rfl
    · rcases Trivia.leadingTrivia_closed_or_open text with closed | ⟨-, openComment⟩
      · exact Or.inl closed
      · exact Or.inr (whole.symm ▸ openComment)
  | case2 text unfinished inductionHypothesis =>
    obtain ⟨before, gap, split, whole, trivia, unmarked⟩ := inductionHypothesis
    refine ⟨text.piece :: before, gap, by rw [split, List.cons_append], ?_, trivia, ?_⟩
    · rw [List.flatMap_cons, List.append_assoc, ← whole, piece_append_behindPiece]
    · refine List.forall_mem_cons.mpr ⟨fun marked => ?_, unmarked⟩
      exact unfinished (Lexeme.front_content_eq_end.mp marked)

/-- Every piece of a text is the first one of what is left of the text there. -/
theorem exists_of_mem_pieces {text : Text} {piece : Piece} (member : piece ∈ text.pieces) :
    ∃ rest : Text, piece = rest.piece := by
  fun_induction pieces text with
  | case1 text ended => exact ⟨text, List.mem_singleton.mp member⟩
  | case2 text unfinished inductionHypothesis =>
    rcases List.mem_cons.mp member with here | behind
    · exact ⟨text, here⟩
    · exact inductionHypothesis behind

/-- The lexemes of a text, the end of the text among them. -/
def lexemes (text : Text) : List Lexeme := text.pieces.map Piece.lexeme

theorem lexemes_of_core_eq_nil {text : Text} (ended : text.core = []) :
    text.lexemes = [{ text := [], content := .ok .endOfInput }] := by
  rw [lexemes, pieces_of_core_eq_nil ended, List.map_singleton, piece, ended]
  rfl

theorem lexemes_of_core_ne_nil {text : Text} (unfinished : text.core ≠ []) :
    text.lexemes = Lexeme.front text.core :: text.behindPiece.lexemes := by
  rw [lexemes, pieces_of_core_ne_nil unfinished, List.map_cons]
  rfl

theorem exists_of_mem_lexemes {text : Text} {lexeme : Lexeme} (member : lexeme ∈ text.lexemes) :
    ∃ rest : Text, lexeme = rest.piece.lexeme := by
  obtain ⟨piece, pieceMember, rfl⟩ := List.mem_map.mp member
  obtain ⟨rest, rfl⟩ := exists_of_mem_pieces pieceMember
  exact ⟨rest, rfl⟩

theorem length_pieces_le (text : Text) : text.pieces.length ≤ text.length + 1 := by
  fun_induction pieces text with
  | case1 text ended => simp
  | case2 text unfinished inductionHypothesis =>
    have shorter := length_behindPiece_lt unfinished
    rw [List.length_cons]
    omega

end Text

/-! ### Pieces along a place -/

namespace Piece

/-- The items that pieces are when the first of them starts at a place. -/
def layOut : Place → List Piece → List Item
  | _, [] => []
  | place, piece :: later =>
    piece.lexeme.itemAt (place.skip piece.gap.length) ::
      layOut (place.skip piece.text.length) later

theorem length_layOut (place : Place) (pieces : List Piece) :
    (layOut place pieces).length = pieces.length := by
  induction pieces generalizing place with
  | nil => rfl
  | cons piece later inductionHypothesis =>
    rw [layOut, List.length_cons, inductionHypothesis, List.length_cons]

theorem layOut_append (place : Place) (before rest : List Piece) :
    layOut place (before ++ rest) = layOut place before ++
      layOut (place.skip (before.flatMap Piece.text).length) rest := by
  induction before generalizing place with
  | nil => rfl
  | cons piece before inductionHypothesis =>
    rw [List.cons_append, layOut, layOut, inductionHypothesis, Place.skip_skip, List.flatMap_cons,
      List.length_append, List.cons_append]

/-- Items that are split are pieces that are split. -/
theorem exists_of_layOut_eq_append {place : Place} {pieces : List Piece}
    {before after : List Item} {item : Item}
    (split : layOut place pieces = before ++ item :: after) :
    ∃ first piece later, pieces = first ++ piece :: later ∧ layOut place first = before ∧
      item = piece.lexeme.itemAt
        ((place.skip (first.flatMap Piece.text).length).skip piece.gap.length) := by
  have counted : before.length < pieces.length := by
    rw [← length_layOut place, split, List.length_append, List.length_cons]
    omega
  have cut : pieces = pieces.take before.length ++
      pieces[before.length] :: pieces.drop (before.length + 1) := by
    rw [List.getElem_cons_drop, List.take_append_drop]
  have short : (pieces.take before.length).length = before.length := by
    rw [List.length_take, Nat.min_eq_left counted.le]
  rw [cut, layOut_append] at split
  obtain ⟨front, back⟩ := List.append_inj split (by rw [length_layOut, short])
  exact ⟨_, _, _, cut, front, (List.cons_eq_cons.mp back).1.symm⟩

end Piece

namespace Tokenizer

theorem isEnd_itemAt (lexeme : Lexeme) (start : Place) :
    Item.isEnd (lexeme.itemAt start) = true ↔ lexeme.content = .ok .endOfInput := by
  unfold Lexeme.itemAt Item.isEnd
  cases content : lexeme.content with
  | error cause => simp
  | ok data => cases data <;> simp [Token.isEnd, Token.kind, Token.Data.kind]

/-- A step of the tokenizer reads the first piece of the text that is left. -/
theorem next?_unfinished (place : Place) :
    next? { place } = some (place.rest.piece.lexeme.itemAt (place.skip place.rest.piece.gap.length),
      { place := place.skip place.rest.piece.text.length
        finished := decide (place.rest.core = []) }) := by
  have front : Lexeme.front (itemStart { place }).rest = place.rest.piece.lexeme := by
    rw [itemStart, Place.rest_skip]
    rfl
  have ended : Item.isEnd (place.rest.piece.lexeme.itemAt (itemStart { place })) =
      decide (place.rest.core = []) := by
    rw [Bool.eq_iff_iff, isEnd_itemAt, decide_eq_true_iff]
    exact Lexeme.front_content_eq_end
  have moved : (itemStart { place }).skip place.rest.piece.lexeme.text.length =
      place.skip place.rest.piece.text.length := by
    rw [itemStart, Place.skip_skip, Piece.text, List.length_append]
    rfl
  simp only [next?, Bool.false_eq_true, if_false, front, ended, moved]
  rfl

theorem next?_finished (place : Place) : next? { place, finished := true } = none := rfl

theorem take_finished (place : Place) (count : Nat) :
    take { place, finished := true } count = [] := by
  cases count <;> rfl

theorem drop_finished (place : Place) (count : Nat) :
    drop { place, finished := true } count = { place, finished := true } := by
  cases count <;> rfl

theorem rest_behindPiece (place : Place) :
    (place.skip place.rest.piece.text.length).rest = place.rest.behindPiece := by
  rw [Place.rest_skip]
  exact Text.drop_of_eq_append (Text.piece_append_behindPiece place.rest).symm

theorem pieces_ne_nil (text : Text) : text.pieces ≠ [] := by
  rw [Text.pieces]
  split <;> exact List.cons_ne_nil _ _

/-- All items of the tokenizer are the pieces of the text that is left, laid out. -/
theorem take_eq_layOut (place : Place) {count : Nat} (enough : place.rest.pieces.length ≤ count) :
    take { place } count = Piece.layOut place place.rest.pieces := by
  induction count generalizing place with
  | zero => exact absurd (List.length_eq_zero_iff.mp (Nat.le_zero.mp enough)) (pieces_ne_nil _)
  | succ count inductionHypothesis =>
    rw [take, next?_unfinished]
    by_cases ended : place.rest.core = []
    · rw [Text.pieces_of_core_eq_nil ended, decide_eq_true ended]
      exact congrArg (List.cons _) (take_finished _ count)
    · rw [Text.pieces_of_core_ne_nil ended, List.length_cons, ← rest_behindPiece] at enough
      rw [Text.pieces_of_core_ne_nil ended, decide_eq_false ended, Piece.layOut,
        ← rest_behindPiece]
      exact congrArg (List.cons _) (inductionHypothesis _ (Nat.le_of_succ_le_succ enough))

/-- Behind all pieces the tokenizer has finished, however often it is asked for more. -/
theorem next?_drop (place : Place) {count : Nat} (enough : place.rest.pieces.length ≤ count) :
    (drop { place } count).next? = none := by
  induction count generalizing place with
  | zero => exact absurd (List.length_eq_zero_iff.mp (Nat.le_zero.mp enough)) (pieces_ne_nil _)
  | succ count inductionHypothesis =>
    rw [drop, next?_unfinished]
    by_cases ended : place.rest.core = []
    · rw [decide_eq_true ended]
      show (drop { place := _, finished := true } count).next? = none
      rw [drop_finished, next?_finished]
    · rw [Text.pieces_of_core_ne_nil ended, List.length_cons, ← rest_behindPiece] at enough
      rw [decide_eq_false ended]
      exact inductionHypothesis _ (Nat.le_of_succ_le_succ enough)

/-- The items still to come are the pieces of the text that is left, laid out. -/
theorem items_eq_layOut (place : Place) :
    items { place } = Piece.layOut place place.rest.pieces :=
  take_eq_layOut place place.rest.length_pieces_le

end Tokenizer

/-- The items of a text are its pieces, laid out from its start. -/
theorem Text.items_eq_layOut (text : Text) :
    text.items = Piece.layOut (Place.ofText text) text.pieces :=
  Tokenizer.items_eq_layOut (Place.ofText text)

end LoxFront
