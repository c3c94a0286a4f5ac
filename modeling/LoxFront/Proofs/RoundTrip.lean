/-
This file proves that printing a tree and reading it again gives the tree back. A tree that was read
from the tokens of a text has operators that are written as the symbols they are and values that can
be written, so its source form is read into its lexemes. Out of the tokens of these lexemes a tree
can be built that is like the first one up to the places of the operators, and since the parser
accepts exactly its grammar, that is the tree it builds.
-/

import LoxFront.Proofs.EndMarks
import LoxFront.Proofs.Recognition
import LoxFront.Proofs.SourceForm

namespace LoxFront

/-! ### What is read from a text can be written -/

/-- What a token says can be written, and a symbol is written as the text of the token. -/
def Token.Data.Fits (text : Text) : Token.Data → Prop
  | .symbol mark => text = mark.spelling
  | .string value => '"' ∉ value
  | .number value => ∃ magnitude, value = .finite false magnitude
  | .keyword _ | .identifier | .endOfInput => True

theorem Lexeme.fits_front {text : Text} {data : Token.Data}
    (read : (front text).content = .ok data) : data.Fits (front text).text := by
  induction text using front_cases with
  | nil =>
    cases read
    trivial
  | string value tail unquoted =>
    cases read
    exact unquoted
  | unclosed => cases read
  | number numeral tail magnitude =>
    cases read
    exact ⟨magnitude, rfl⟩
  | oversized => cases read
  | word first others =>
    unfold wordContent at read
    split at read <;> cases read <;> trivial
  | symbol mark =>
    cases read
    rfl
  | stray => cases read

theorem Text.fits_of_mem_lexemes {text : Text} {lexeme : Lexeme} (member : lexeme ∈ text.lexemes)
    {data : Token.Data} (read : lexeme.content = .ok data) : data.Fits lexeme.text := by
  obtain ⟨rest, rfl⟩ := exists_of_mem_lexemes member
  exact Lexeme.fits_front read

theorem Lexeme.asLexeme_of_itemAt {lexeme : Lexeme} {start : Place} {token : Token}
    (item : lexeme.itemAt start = .ok token) : token.asLexeme = lexeme := by
  obtain ⟨text, content⟩ := lexeme
  cases content with
  | error cause => cases item
  | ok data =>
    cases item
    rfl

theorem Piece.asLexeme_mem_of_mem_layOut {place : Place} {pieces : List Piece} {token : Token}
    (member : .ok token ∈ layOut place pieces) : token.asLexeme ∈ pieces.map Piece.lexeme := by
  induction pieces generalizing place with
  | nil => cases member
  | cons piece later inductionHypothesis =>
    rw [List.map_cons]
    rcases List.mem_cons.mp member with here | behind
    · rw [Lexeme.asLexeme_of_itemAt here.symm]
      exact List.mem_cons_self
    · exact List.mem_cons_of_mem _ (inductionHypothesis behind)

theorem asLexeme_mem_lexemes {source : Text} {token : Token}
    (member : token ∈ (tokenize source).1) : token.asLexeme ∈ source.lexemes := by
  obtain ⟨item, itemMember, isToken⟩ := List.mem_filterMap.mp member
  rw [Item.token?_eq_some.mp isToken, Text.items_eq_layOut] at itemMember
  exact Piece.asLexeme_mem_of_mem_layOut itemMember

theorem fits_of_mem_tokenize {source : Text} {token : Token}
    (member : token ∈ (tokenize source).1) : token.data.Fits token.lexeme :=
  Text.fits_of_mem_lexemes (asLexeme_mem_lexemes member) rfl

theorem Token.asLexeme_of_symbol {token : Token} {mark : Symbol}
    (symbol : token.data = .symbol mark) (fits : token.data.Fits token.lexeme) :
    token.asLexeme = mark.asLexeme := by
  rw [symbol] at fits
  have spelled : token.lexeme = mark.spelling := fits
  rw [Token.asLexeme, Symbol.asLexeme, symbol, spelled]

theorem Token.exists_symbol_of_tier? {token : Token} {tier : Nat}
    (known : token.tier? = some tier) : ∃ mark, token.data = .symbol mark := by
  unfold Token.tier? at known
  split at known
  · next mark symbol => exact ⟨mark, symbol⟩
  · cases known

theorem Literal.writable_of_fits {data : Token.Data} {value : Literal} {text : Text}
    (denotes : data.literal? = some value) (fits : data.Fits text) : value.Writable := by
  rw [Literal.data_eq denotes] at fits
  cases value with
  | number | string => exact fits
  | boolean | nil => trivial

/-- A tree of tokens that can be written can be written itself. -/
theorem Expr.writable_of_yields {expr : Expr} {tokens : List Token} (yields : expr.Yields tokens)
    (shaped : expr.WellShaped) (fits : ∀ token ∈ tokens, token.data.Fits token.lexeme) :
    expr.Writable := by
  induction yields with
  | @binary left right operator front back _ _ inductionLeft inductionRight =>
    obtain ⟨tier, known, -, -, shapedLeft, shapedRight⟩ := shaped
    obtain ⟨mark, symbol⟩ := Token.exists_symbol_of_tier? known
    refine ⟨⟨mark, Token.asLexeme_of_symbol symbol (fits operator (by simp))⟩,
      inductionLeft shapedLeft fun token member => fits token (by simp [member]),
      inductionRight shapedRight fun token member => fits token (by simp [member])⟩
  | grouping _ _ _ inductionHypothesis =>
    exact inductionHypothesis shaped fun token member => fits token (by simp [member])
  | literal denotes => exact Literal.writable_of_fits denotes (fits _ List.mem_cons_self)
  | @unary operator operand tokens _ inductionHypothesis =>
    obtain ⟨isUnary, -, shapedOperand⟩ := shaped
    have fitsOperator := fits operator List.mem_cons_self
    refine ⟨?_, inductionHypothesis shapedOperand fun token member =>
      fits token (List.mem_cons_of_mem _ member)⟩
    exact isUnary.imp (Token.asLexeme_of_symbol · fitsOperator)
      (Token.asLexeme_of_symbol · fitsOperator)

/-! ### Trees that differ in places only -/

namespace Token

variable {first second : Token}

theorem data_eq_of_asLexeme (same : first.asLexeme = second.asLexeme) :
    first.data = second.data :=
  Except.ok.inj (congrArg Lexeme.content same)

theorem data_eq_of_spelled {operator : Token} {mark : Symbol}
    (spelled : operator.asLexeme = mark.asLexeme) : operator.data = .symbol mark :=
  Except.ok.inj (congrArg Lexeme.content spelled)

theorem lexeme_eq_of_asLexeme (same : first.asLexeme = second.asLexeme) :
    first.lexeme = second.lexeme :=
  congrArg Lexeme.text same

theorem kind_eq_of_asLexeme (same : first.asLexeme = second.asLexeme) :
    first.kind = second.kind :=
  congrArg Data.kind (data_eq_of_asLexeme same)

theorem sameOperator_of_asLexeme (same : first.asLexeme = second.asLexeme) :
    first.sameOperator second = true := by
  rw [sameOperator, kind_eq_of_asLexeme same, lexeme_eq_of_asLexeme same]
  simp

end Token

theorem Literal.same_self {value : Literal} (writable : value.Writable) :
    value.same value = true := by
  cases value with
  | number value =>
    obtain ⟨magnitude, rfl⟩ := writable
    simp [same, Binary64.numericallyEqual]
  | string | boolean => simp [same]
  | nil => rfl

namespace Expr

section Printed

variable {operators : Token → Token → Prop} {first second : Expr}
  (spelled : ∀ {operator other : Token}, operators operator other →
    operator.lexeme = other.lexeme)

include spelled

theorem Related.prefixForm_eq (trees : Related operators Eq first second) :
    first.prefixForm = second.prefixForm := by
  induction trees with
  | binary related _ _ equalLefts equalRights =>
    rw [prefixForm_binary, prefixForm_binary, spelled related, equalLefts, equalRights]
  | grouping _ equalBodies => rw [prefixForm_grouping, prefixForm_grouping, equalBodies]
  | literal equal => rw [equal]
  | unary related _ equalOperands =>
    rw [prefixForm_unary, prefixForm_unary, spelled related, equalOperands]

theorem Related.sourceForm_eq (trees : Related operators Eq first second) :
    first.sourceForm = second.sourceForm := by
  induction trees with
  | binary related _ _ equalLefts equalRights =>
    rw [sourceForm, sourceForm, spelled related, equalLefts, equalRights]
  | grouping _ equalBodies => rw [sourceForm, sourceForm, equalBodies]
  | literal equal => rw [equal]
  | unary related _ equalOperands => rw [sourceForm, sourceForm, spelled related, equalOperands]

end Printed

/-- Two trees that are equal up to the places of their operators. -/
def Alike : Expr → Expr → Prop :=
  Related (fun operator other => operator.asLexeme = other.asLexeme) Eq

theorem Alike.same {first second : Expr} (alike : Alike first second) (writable : first.Writable) :
    second.same first = true := by
  induction alike with
  | binary written _ _ sameLefts sameRights =>
    rw [Expr.same, Token.sameOperator_of_asLexeme written.symm, sameLefts writable.2.1,
      sameRights writable.2.2]
    rfl
  | grouping _ sameBodies => exact sameBodies writable
  | literal equal => exact equal ▸ Literal.same_self writable
  | unary written _ sameOperands =>
    rw [Expr.same, Token.sameOperator_of_asLexeme written.symm, sameOperands writable.2]
    rfl

/-- Tokens that are written like the lexemes of a tree are the tokens of a tree that is like it. -/
theorem exists_alike (expr : Expr) {tokens : List Token}
    (written : tokens.map Token.asLexeme = expr.lexemes) :
    ∃ again : Expr, again.Yields tokens ∧ expr.Alike again := by
  induction expr generalizing tokens with
  | binary left operator right inductionLeft inductionRight =>
    obtain ⟨front, behind, rfl, writtenFront, writtenBehind⟩ := List.map_eq_append_iff.mp written
    obtain ⟨token, back, rfl, writtenToken, writtenBack⟩ := List.map_eq_cons_iff.mp writtenBehind
    obtain ⟨leftAgain, yieldsLeft, alikeLeft⟩ := inductionLeft writtenFront
    obtain ⟨rightAgain, yieldsRight, alikeRight⟩ := inductionRight writtenBack
    exact ⟨.binary leftAgain token rightAgain, .binary yieldsLeft yieldsRight,
      .binary writtenToken.symm alikeLeft alikeRight⟩
  | grouping body inductionHypothesis =>
    obtain ⟨opening, behind, rfl, writtenOpening, writtenBehind⟩ := List.map_eq_cons_iff.mp written
    obtain ⟨inner, last, rfl, writtenInner, writtenLast⟩ := List.map_eq_append_iff.mp writtenBehind
    obtain ⟨closing, rfl, writtenClosing⟩ := List.map_eq_singleton_iff.mp writtenLast
    obtain ⟨bodyAgain, yields, alike⟩ := inductionHypothesis writtenInner
    exact ⟨.grouping bodyAgain, .grouping (Token.data_eq_of_spelled writtenOpening)
      (Token.data_eq_of_spelled writtenClosing) yields, .grouping alike⟩
  | literal value =>
    obtain ⟨token, rfl, writtenToken⟩ := List.map_eq_singleton_iff.mp written
    have data : token.data = value.data := Except.ok.inj (congrArg Lexeme.content writtenToken)
    exact ⟨.literal value, .literal (data ▸ value.literal?_data), .literal rfl⟩
  | unary operator operand inductionHypothesis =>
    obtain ⟨token, behind, rfl, writtenToken, writtenBehind⟩ := List.map_eq_cons_iff.mp written
    obtain ⟨operandAgain, yields, alike⟩ := inductionHypothesis writtenBehind
    exact ⟨.unary token operandAgain, .unary yields, .unary writtenToken.symm alike⟩

/-- The lexemes of a tree are tokens, none of them the end of the text. -/
theorem content_of_mem_lexemes {expr : Expr} (writable : expr.Writable) :
    ∀ lexeme ∈ expr.lexemes, ∃ data, lexeme.content = .ok data ∧ data ≠ .endOfInput := by
  have symbol (mark : Symbol) : ∃ data, mark.asLexeme.content = .ok data ∧ data ≠ .endOfInput :=
    ⟨.symbol mark, rfl, by intro equal; cases equal⟩
  induction expr with
  | binary left operator right inductionLeft inductionRight =>
    obtain ⟨⟨mark, spelled⟩, writableLeft, writableRight⟩ := writable
    intro lexeme member
    rcases List.mem_append.mp member with memberLeft | behind
    · exact inductionLeft writableLeft lexeme memberLeft
    · rcases List.mem_cons.mp behind with rfl | memberRight
      · exact spelled ▸ symbol mark
      · exact inductionRight writableRight lexeme memberRight
  | grouping body inductionHypothesis =>
    intro lexeme member
    rcases List.mem_cons.mp member with rfl | behind
    · exact symbol .leftParen
    · rcases List.mem_append.mp behind with memberBody | last
      · exact inductionHypothesis writable lexeme memberBody
      · rw [List.mem_singleton.mp last]
        exact symbol .rightParen
  | literal value =>
    intro lexeme member
    rw [List.mem_singleton.mp member]
    refine ⟨value.data, rfl, fun ended => ?_⟩
    have denotes := value.literal?_data
    rw [ended] at denotes
    cases denotes
  | unary operator operand inductionHypothesis =>
    intro lexeme member
    rcases List.mem_cons.mp member with rfl | behind
    · rcases writable.1 with bang | minus
      · exact bang ▸ symbol .bang
      · exact minus ▸ symbol .minus
    · exact inductionHypothesis writable.2 lexeme behind

end Expr

/-! ### Reading the source form -/

theorem Lexeme.exists_itemAt {lexeme : Lexeme} {data : Token.Data}
    (content : lexeme.content = .ok data) (start : Place) :
    ∃ token, lexeme.itemAt start = .ok token ∧ token.asLexeme = lexeme := by
  have item : lexeme.itemAt start = .ok { data, span := { start, lexeme := lexeme.text } } := by
    rw [Lexeme.itemAt, content]
  exact ⟨_, item, asLexeme_of_itemAt item⟩

/-- Pieces that are all tokens are laid out as tokens that are written like them. -/
theorem Piece.layOut_of_ok (place : Place) {pieces : List Piece}
    (fine : ∀ lexeme ∈ pieces.map Piece.lexeme, ∃ data, lexeme.content = .ok data) :
    ∃ tokens : List Token, layOut place pieces = tokens.map .ok ∧
      tokens.map Token.asLexeme = pieces.map Piece.lexeme := by
  induction pieces generalizing place with
  | nil => exact ⟨[], rfl, rfl⟩
  | cons piece later inductionHypothesis =>
    obtain ⟨data, content⟩ := fine piece.lexeme List.mem_cons_self
    obtain ⟨tokens, items, written⟩ := inductionHypothesis (place.skip piece.text.length)
      fun lexeme member => fine lexeme (List.mem_cons_of_mem _ member)
    obtain ⟨token, item, writtenToken⟩ :=
      Lexeme.exists_itemAt content (place.skip piece.gap.length)
    refine ⟨token :: tokens, ?_, ?_⟩
    · rw [layOut, item, items, List.map_cons]
    · rw [List.map_cons, List.map_cons, writtenToken, written]

/-- Tokens that are written like some lexemes and the end of the text have one end mark, the last of
them. -/
theorem Token.exists_mark {tokens : List Token} {lexemes : List Lexeme}
    (written : tokens.map asLexeme = lexemes ++ [{ text := [], content := .ok .endOfInput }])
    (unmarked : ∀ lexeme ∈ lexemes, lexeme.content ≠ .ok .endOfInput) :
    ∃ front mark, tokens = front ++ [mark] ∧ front.map asLexeme = lexemes ∧ mark.isEnd = true ∧
      ∀ token ∈ front, (!token.isEnd) = true := by
  obtain ⟨front, marks, rfl, writtenFront, writtenMarks⟩ := List.map_eq_append_iff.mp written
  obtain ⟨mark, rfl, writtenMark⟩ := List.map_eq_singleton_iff.mp writtenMarks
  refine ⟨front, mark, rfl, writtenFront, ?_, fun token member => ?_⟩
  · exact isEnd_iff.mpr (Except.ok.inj (congrArg Lexeme.content writtenMark))
  · have inside : token.asLexeme ∈ lexemes := writtenFront ▸ List.mem_map_of_mem member
    rw [Bool.not_eq_true', ← Bool.not_eq_true, isEnd_iff]
    exact fun marked => unmarked _ inside (congrArg Except.ok marked)

/-- A text whose lexemes are all tokens is read without a failure. -/
theorem tokenize_of_ok {text : Text}
    (fine : ∀ lexeme ∈ text.lexemes, ∃ data, lexeme.content = .ok data) :
    (tokenize text).2 = [] ∧ (tokenize text).1.map Token.asLexeme = text.lexemes := by
  obtain ⟨tokens, items, written⟩ := Piece.layOut_of_ok (Place.ofText text) fine
  rw [← Text.items_eq_layOut] at items
  have errors : (tokenize text).2 = [] := by
    show text.items.filterMap Item.error? = []
    rw [items, List.filterMap_map]
    exact List.filterMap_eq_nil_iff.mpr fun token _ => rfl
  have readable : (tokenize text).1 = tokens := by
    show text.items.filterMap Item.token? = tokens
    rw [items, List.filterMap_map]
    exact List.filterMap_some
  exact ⟨errors, readable ▸ written⟩

theorem parseText_eq_ok {text : Text} {expr : Expr} (clean : (tokenize text).2 = [])
    (parsed : parseWhole (tokenize text).1 = .ok expr) : parseText text = .ok expr := by
  rw [parseText_of_clean clean, parsed]
  rfl

namespace Expr

theorem lexemes_sourceForm_end {expr : Expr} (writable : expr.Writable) :
    expr.sourceForm.lexemes = expr.lexemes ++ [{ text := [], content := .ok .endOfInput }] := by
  have bounded : Text.Bounded [] := by
    intro character member
    cases member
  have ended : Text.lexemes [] = [{ text := [], content := .ok .endOfInput }] :=
    Text.lexemes_of_core_eq_nil rfl
  have read := lexemes_sourceForm writable bounded
  rwa [List.append_nil, ended] at read

/-- The tokens of the source form of a tree, up to the end mark, are written like the lexemes of
the tree. -/
theorem tokenize_sourceForm {expr : Expr} (writable : expr.Writable) :
    (tokenize expr.sourceForm).2 = [] ∧
      ((tokenize expr.sourceForm).1.takeWhile fun token => !token.isEnd).map Token.asLexeme =
        expr.lexemes := by
  have fine : ∀ lexeme ∈ expr.sourceForm.lexemes, ∃ data, lexeme.content = .ok data := by
    intro lexeme member
    rw [lexemes_sourceForm_end writable] at member
    rcases List.mem_append.mp member with inside | last
    · obtain ⟨data, content, -⟩ := content_of_mem_lexemes writable lexeme inside
      exact ⟨data, content⟩
    · rw [List.mem_singleton.mp last]
      exact ⟨.endOfInput, rfl⟩
  obtain ⟨clean, written⟩ := tokenize_of_ok fine
  rw [lexemes_sourceForm_end writable] at written
  have unmarked : ∀ lexeme ∈ expr.lexemes, lexeme.content ≠ .ok .endOfInput := by
    intro lexeme member marked
    obtain ⟨data, content, notEnd⟩ := content_of_mem_lexemes writable lexeme member
    exact notEnd (Except.ok.inj (content.symm.trans marked))
  obtain ⟨tokens, mark, split, writtenTokens, ended, unfinished⟩ :=
    Token.exists_mark written unmarked
  refine ⟨clean, ?_⟩
  rw [split, List.takeWhile_append_of_pos unfinished, List.takeWhile_cons_of_neg (by simp [ended]),
    List.append_nil, writtenTokens]

/-- The source form of a tree of the grammar is read as a tree that is like it. -/
theorem parseText_sourceForm {expr : Expr} (writable : expr.Writable) (shaped : expr.WellShaped)
    (small : expr.height ≤ heightLimit) :
    ∃ again, parseText expr.sourceForm = .ok again ∧ expr.Alike again := by
  obtain ⟨clean, written⟩ := tokenize_sourceForm writable
  obtain ⟨again, yields, alike⟩ := exists_alike expr written
  have parsed : parseWhole (tokenize expr.sourceForm).1 = .ok again :=
    parseWhole_iff_yields.mpr
      ⟨alike.wellShaped Token.kind_eq_of_asLexeme shaped, yields, alike.height_eq ▸ small⟩
  exact ⟨again, parseText_eq_ok clean parsed, alike⟩

end Expr

/-- A tree that was read from the tokens of a text, at their front or as a whole, is of the grammar
and can be written. -/
theorem writable_of_parse {source : Text} {expr : Expr}
    (parsed : parseFront (tokenize source).1 = .ok expr ∨
      parseWhole (tokenize source).1 = .ok expr) :
    expr.Writable ∧ expr.WellShaped ∧ expr.height ≤ heightLimit := by
  have readTokens : ∃ tokens : List Token, (∀ token ∈ tokens, token ∈ (tokenize source).1) ∧
      expr.Yields tokens ∧ expr.WellShaped ∧ expr.height ≤ heightLimit := by
    have unfinished {token : Token}
        (member : token ∈ (tokenize source).1.takeWhile fun token => !token.isEnd) :
        token ∈ (tokenize source).1 := (List.takeWhile_prefix _).mem member
    rcases parsed with front | whole
    · obtain ⟨shaped, small, tokens, rest, split, yields, -⟩ := parseFront_iff_yields.mp front
      refine ⟨tokens, fun token member => unfinished ?_, yields, shaped, small⟩
      rw [split]
      exact List.mem_append_left _ member
    · obtain ⟨shaped, yields, small⟩ := parseWhole_iff_yields.mp whole
      exact ⟨_, fun token => unfinished, yields, shaped, small⟩
  obtain ⟨tokens, fromSource, yields, shaped, small⟩ := readTokens
  refine ⟨Expr.writable_of_yields yields shaped fun token member => ?_, shaped, small⟩
  exact fits_of_mem_tokenize (fromSource token member)

/-- Printing and reading again loses nothing. The source form of a tree that was read from a text
has no lexical errors and is read as an equal tree, with the same prefix form and the same source
form. -/
theorem sourceForm_reads_back (source : Text) (expr : Expr)
    (parsed : parseFront (tokenize source).1 = .ok expr ∨
      parseWhole (tokenize source).1 = .ok expr) :
    (tokenize expr.sourceForm).2 = [] ∧
      ∃ again, parseText expr.sourceForm = .ok again ∧ again.same expr = true ∧
        again.prefixForm = expr.prefixForm ∧ again.sourceForm = expr.sourceForm := by
  obtain ⟨writable, shaped, small⟩ := writable_of_parse parsed
  obtain ⟨again, read, alike⟩ := Expr.parseText_sourceForm writable shaped small
  exact ⟨(Expr.tokenize_sourceForm writable).1, again, read, alike.same writable,
    (alike.prefixForm_eq Token.lexeme_eq_of_asLexeme).symm,
    (alike.sourceForm_eq Token.lexeme_eq_of_asLexeme).symm⟩

theorem sourceForm_reads_back_behind_stray :
    ∃ expr, parseFront (tokenize "-(0.10 +2)>=!\"a\n\"/nil @ 3".toList).1 = .ok expr ∧
      expr.sourceForm = "-(0.1 + 2) >= !\"a\n\" / nil".toList ∧
      (tokenize expr.sourceForm).2 = [] ∧
      ∃ again, parseText expr.sourceForm = .ok again ∧ again.same expr = true ∧
        again.prefixForm = expr.prefixForm ∧ again.sourceForm = expr.sourceForm := by
  have printed : (parseFront (tokenize "-(0.10 +2)>=!\"a\n\"/nil @ 3".toList).1).toOption.map
      Expr.sourceForm = some "-(0.1 + 2) >= !\"a\n\" / nil".toList := by decide +kernel
  cases read : parseFront (tokenize "-(0.10 +2)>=!\"a\n\"/nil @ 3".toList).1 with
  | error failure =>
    rw [read] at printed
    cases printed
  | ok expr =>
    rw [read] at printed
    exact ⟨expr, rfl, Option.some.inj printed, sourceForm_reads_back _ expr (.inl read)⟩

end LoxFront
