/-
This file proves that the reading of items accounts for the whole text. Trivia and the texts of the
items alternate and make up the text without gap or overlap, every item but the last takes up a
character, and every item reports the line and the column of the first character of its text. The
pieces of the text supply the decomposition; the walk along them is where the positions come from.
-/

import LoxFront.Proofs.Pieces

namespace LoxFront

namespace Item

/-- The line that an item reports. -/
def line : Item → Nat
  | .ok token => token.span.line
  | .error error => error.line

/-- The column that an item reports. -/
def column : Item → Nat
  | .ok token => token.span.column
  | .error error => error.column

/-- The item reports the position between two texts, and if it is a token it starts there. -/
structure StandsBetween (item : Item) (passed rest : Text) : Prop where
  line : item.line = passed.endLine
  column : item.column = passed.endColumn
  start : ∀ token, item = .ok token → token.span.start = Place.between passed rest

/-- What an item takes up of the source when `later` is the source behind it. A string that is not
closed takes up its quote and all the rest. -/
def HasText (item : Item) (body later : Text) : Prop :=
  match item with
  | .ok token => body = token.lexeme
  | .error error =>
    match error.cause with
    | .strayCharacter character => body = [character]
    | .oversizedNumber lexeme => body = lexeme
    | .unclosedString => (∃ value, body = '"' :: value ∧ '"' ∉ value) ∧ later = []

/-- One item reports an earlier position than another. -/
def Precedes (first second : Item) : Prop :=
  first.line < second.line ∨ first.line = second.line ∧ first.column < second.column

end Item

/-- Items account for the text behind `passed`: trivia and the text of an item in turn, up to the
end mark, which has no text and stands at the end. Only in front of the end mark may a comment lack
its newline. -/
inductive Covers : (passed remaining : Text) → List Item → Prop
  | ended {passed gap : Text} {mark : Item} (trivia : Trivia.Closed gap ∨ Trivia.Open gap)
      (isEnd : mark.isEnd = true) (text : mark.HasText [] [])
      (place : mark.StandsBetween (passed ++ gap) []) : Covers passed gap [mark]
  | item {passed gap body later : Text} {item : Item} {items : List Item}
      (trivia : Trivia.Closed gap) (notEnd : item.isEnd = false) (nonempty : body ≠ [])
      (text : item.HasText body later)
      (place : item.StandsBetween (passed ++ gap) (body ++ later))
      (covers : Covers (passed ++ gap ++ body) later items) :
      Covers passed (gap ++ (body ++ later)) (item :: items)

/-! ### Pieces and items -/

theorem standsBetween_itemAt (lexeme : Lexeme) (front back : Text) :
    (lexeme.itemAt (Place.between front back)).StandsBetween front back := by
  unfold Lexeme.itemAt
  cases lexeme.content with
  | ok data => exact ⟨rfl, rfl, fun token equal => by cases equal; rfl⟩
  | error cause => exact ⟨rfl, rfl, fun token equal => by cases equal⟩

/-- An item has the text of the lexeme that it was read as. -/
theorem hasText_itemAt {text later : Text}
    (split : text = (Lexeme.front text).text ++ later) (start : Place) :
    ((Lexeme.front text).itemAt start).HasText (Lexeme.front text).text later := by
  induction text using Lexeme.front_cases with
  | nil => rfl
  | string => rfl
  | unclosed value unquoted =>
    have behind := List.append_right_eq_self.mp split.symm
    exact ⟨⟨value, rfl, unquoted⟩, behind⟩
  | number => rfl
  | oversized => rfl
  | word => rfl
  | symbol => rfl
  | stray => rfl

theorem covers_layOut (passed remaining : Text) :
    Covers passed remaining
      (Piece.layOut (Place.between passed remaining) remaining.pieces) := by
  fun_induction Text.pieces remaining generalizing passed with
  | case1 text ended =>
    have whole := Text.core_eq_nil_iff.mp ended
    have start : (Place.between passed text).skip text.piece.gap.length =
        Place.between (passed ++ text) [] := by
      have moved := Place.skip_between passed text []
      rw [List.append_nil] at moved
      rw [← moved]
      exact congrArg (fun gap => Place.skip _ (List.length gap)) whole
    have marked : text.piece.lexeme = Lexeme.front [] := congrArg Lexeme.front ended
    rw [Piece.layOut, Piece.layOut, start, marked]
    refine Covers.ended ?_ rfl rfl (standsBetween_itemAt _ _ _)
    rcases Trivia.leadingTrivia_closed_or_open text with closed | ⟨-, openComment⟩
    · exact Or.inl (whole ▸ closed)
    · exact Or.inr openComment
  | case2 text unfinished inductionHypothesis =>
    have split := text.lexeme_append_behindPiece
    have whole : text.leadingTrivia ++ (text.piece.lexeme.text ++ text.behindPiece) = text := by
      rw [split, text.leadingTrivia_append_core]
    have start : (Place.between passed text).skip text.piece.gap.length =
        Place.between (passed ++ text.leadingTrivia) text.core := by
      rw [← Place.skip_between, text.leadingTrivia_append_core]
      rfl
    have behind : (Place.between passed text).skip text.piece.text.length =
        Place.between (passed ++ text.leadingTrivia ++ text.piece.lexeme.text)
          text.behindPiece := by
      rw [List.append_assoc, ← Place.skip_between]
      exact congrArg (fun back => (Place.between passed back).skip _)
        text.piece_append_behindPiece.symm
    have notEnd : Item.isEnd (text.piece.lexeme.itemAt
        (Place.between (passed ++ text.leadingTrivia)
          (text.piece.lexeme.text ++ text.behindPiece))) = false := by
      rw [← Bool.not_eq_true, Tokenizer.isEnd_itemAt]
      exact fun marked => unfinished (Lexeme.front_content_eq_end.mp marked)
    have nonempty : text.piece.lexeme.text ≠ [] :=
      fun empty => unfinished (Lexeme.front_text_eq_nil.mp empty)
    have covered := Covers.item (Text.closed_leadingTrivia unfinished) notEnd nonempty
      (hasText_itemAt split.symm _) (standsBetween_itemAt _ (passed ++ text.leadingTrivia) _)
      (inductionHypothesis _)
    rw [Piece.layOut, start, behind, ← split]
    rwa [whole] at covered

theorem covers_items (source : Text) : Covers [] source source.items := by
  rw [source.items_eq_layOut]
  exact covers_layOut [] source

/-! ### What a covered text has -/

namespace Covers

variable {passed remaining : Text} {items : List Item}

/-- Every item stands behind more of the text than was passed at the start. -/
theorem standsBetween_of_mem (covers : Covers passed remaining items) {item : Item}
    (member : item ∈ items) : ∃ more rest, item.StandsBetween (passed ++ more) rest := by
  induction covers with
  | ended _ _ _ place =>
    obtain rfl := List.mem_singleton.mp member
    exact ⟨_, _, place⟩
  | @item passed gap body _ _ _ _ _ _ _ place _ inductionHypothesis =>
    rcases List.mem_cons.mp member with rfl | member
    · exact ⟨gap, _, place⟩
    · obtain ⟨more, rest, stands⟩ := inductionHypothesis member
      rw [List.append_assoc passed, List.append_assoc passed] at stands
      exact ⟨gap ++ body ++ more, rest, stands⟩

theorem pairwise_precedes (covers : Covers passed remaining items) :
    items.Pairwise Item.Precedes := by
  induction covers with
  | ended => exact List.pairwise_singleton _ _
  | @item passed gap body _ item _ _ _ nonempty _ place covers inductionHypothesis =>
    refine List.pairwise_cons.mpr ⟨fun other member => ?_, inductionHypothesis⟩
    obtain ⟨more, rest, stands⟩ := covers.standsBetween_of_mem member
    have further : body ++ more ≠ [] := List.append_ne_nil_of_left_ne_nil nonempty more
    have later := Text.end_lt_append (passed ++ gap) further
    rw [← List.append_assoc] at later
    unfold Item.Precedes
    rw [place.line, place.column, stands.line, stands.column]
    exact later

/-- The end mark comes last and only there, and it stands behind the whole text. -/
theorem exists_mark (covers : Covers passed remaining items) :
    ∃ others mark, items = others ++ [.ok mark] ∧ (∀ item ∈ others, Item.isEnd item = false) ∧
      mark.isEnd = true ∧ mark.lexeme = [] ∧
      mark.span.start = Place.between (passed ++ remaining) [] := by
  induction covers with
  | @ended _ _ mark _ isEnd text place =>
    cases mark with
    | error => cases isEnd
    | ok mark =>
      exact ⟨[], mark, rfl, by simp, isEnd, text.symm, place.start mark rfl⟩
  | @item _ _ _ _ item _ _ notEnd _ _ _ _ inductionHypothesis =>
    obtain ⟨others, mark, rfl, notEnds, isEnd, empty, start⟩ := inductionHypothesis
    refine ⟨item :: others, mark, rfl, ?_, isEnd, empty, ?_⟩
    · intro other member
      rcases List.mem_cons.mp member with rfl | member
      · exact notEnd
      · exact notEnds other member
    · rw [start]
      simp only [List.append_assoc]

theorem eq_singleton (covers : Covers passed remaining items) (ended : remaining = []) :
    ∃ mark, items = [mark] ∧ mark.isEnd = true := by
  cases covers with
  | @ended _ _ mark _ isEnd => exact ⟨mark, rfl, isEnd⟩
  | item _ _ nonempty =>
    obtain ⟨-, inner⟩ := List.append_eq_nil_iff.mp ended
    exact absurd (List.append_eq_nil_iff.mp inner).1 nonempty

/-- Behind a string that is not closed there is only the end mark. -/
theorem isEnd_of_unclosed (covers : Covers passed remaining items) {before after : List Item}
    {error : LexicalError} (split : items = before ++ .error error :: after)
    (unclosed : error.cause = .unclosedString) : ∃ mark, after = [mark] ∧ mark.isEnd = true := by
  induction covers generalizing before with
  | @ended _ _ mark _ isEnd =>
    cases before with
    | nil =>
      obtain ⟨rfl, -⟩ := List.cons_eq_cons.mp split
      cases isEnd
    | cons first before =>
      have empty := (List.cons_eq_cons.mp split).2
      exact absurd empty.symm (List.append_ne_nil_of_right_ne_nil before (List.cons_ne_nil _ _))
  | @item _ _ _ later _ items _ _ _ text _ covers inductionHypothesis =>
    cases before with
    | nil =>
      obtain ⟨rfl, rfl⟩ := List.cons_eq_cons.mp split
      obtain rfl : later = [] := by
        simp only [Item.HasText, unclosed] at text
        exact text.2
      exact covers.eq_singleton rfl
    | cons first before => exact inductionHypothesis (List.cons_eq_cons.mp split).2

end Covers

/-- What is picked out of the items of a text comes in the order of the text. -/
theorem pairwise_precedes_filterMap {Picked : Type} (item : Picked → Item)
    {pick : Item → Option Picked}
    (picks : ∀ {found picked}, pick found = some picked → found = item picked) (source : Text) :
    (source.items.filterMap pick).Pairwise fun first second =>
      (item first).Precedes (item second) := by
  refine (covers_items source).pairwise_precedes.filterMap pick ?_
  intro first second precedes picked isFirst picked' isSecond
  rwa [picks isFirst, picks isSecond] at precedes

/-! ### The account -/

/-- The reading of a text ends, and its items account for the text. -/
theorem items_account_for_source (source : Text) :
    source.items.length ≤ source.length + 1 ∧
      (∀ count, source.items.length ≤ count →
        (Tokenizer.ofText source).take count = source.items ∧
          ((Tokenizer.ofText source).drop count).next? = none) ∧
      (∃ others mark, source.items = others ++ [.ok mark] ∧
        (∀ item ∈ others, Item.isEnd item = false) ∧ mark.isEnd = true ∧ mark.lexeme = [] ∧
        mark.span.start = Place.between source []) ∧
      Covers [] source source.items ∧
      source.items.Pairwise Item.Precedes ∧
      ∀ before error after, source.items = before ++ .error error :: after →
        error.cause = .unclosedString → ∃ mark, after = [mark] ∧ mark.isEnd = true := by
  have covers := covers_items source
  have count : source.items.length = source.pieces.length := by
    rw [source.items_eq_layOut, Piece.length_layOut]
  refine ⟨?_, ?_, covers.exists_mark, covers, covers.pairwise_precedes, ?_⟩
  · rw [count]
    exact source.length_pieces_le
  · intro limit enough
    rw [count] at enough
    refine ⟨?_, Tokenizer.next?_drop (Place.ofText source) enough⟩
    rw [source.items_eq_layOut]
    exact Tokenizer.take_eq_layOut (Place.ofText source) enough
  · intro before error after split unclosed
    exact covers.isEnd_of_unclosed split unclosed

end LoxFront
