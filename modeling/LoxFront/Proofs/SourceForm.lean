/-
This file proves that the source form of a tree is read into the lexemes of the tree. Lexemes that
are printed side by side do not run into one another: behind a binary operator there is a space,
behind a value there is a space, a closing parenthesis or the end, and what stands behind a unary
operator never starts with an equals sign. So the lexemes can be read off one by one, in an
induction over the tree in which the text behind the tree is left open.
-/

import LoxFront.Expr.Printing
import LoxFront.Proofs.Continuation
import LoxFront.Proofs.Numerals

namespace LoxFront

open Text (Stops)

/-! ### Reading lexemes one by one -/

namespace Text

/-- The lexemes depend on nothing but the text from the first item on. -/
theorem lexemes_congr {first second : Text} (same : first.core = second.core) :
    first.lexemes = second.lexemes := by
  obtain ⟨piece, later, split⟩ := List.exists_cons_of_ne_nil (Tokenizer.pieces_ne_nil second)
  rw [lexemes, lexemes, pieces_of_core_eq same split, split, List.map_cons, List.map_cons]

theorem lexemes_blank (text : Text) : lexemes (' ' :: text) = text.lexemes :=
  lexemes_congr (core_append_of_closed (.blank rfl .nil) text)

end Text

theorem Text.lexemes_cons {lexeme : Lexeme} {tail : Text} (read : lexeme.ReadBefore tail) :
    lexemes (lexeme.text ++ tail) = lexeme :: tail.lexemes :=
  congrArg (List.map Piece.lexeme) (pieces_cons .nil read)

/-! ### Lexemes as they are written -/

/-- A space, a closing parenthesis or the end comes next. -/
def Text.Bounded (text : Text) : Prop :=
  ∀ character ∈ text.head?, character = ' ' ∨ character = ')'

theorem Text.Bounded.stops {text : Text} (bounded : text.Bounded) {test : Char → Bool}
    (space : test ' ' = false) (closing : test ')' = false) : Stops test text := by
  intro character member
  rcases bounded character member with rfl | rfl
  · exact space
  · exact closing

/-- A token without its place. -/
def Token.asLexeme (token : Token) : Lexeme where
  text := token.lexeme
  content := .ok token.data

/-- A symbol as it is written. -/
def Symbol.asLexeme (mark : Symbol) : Lexeme where
  text := mark.spelling
  content := .ok (.symbol mark)

/-- What a token says that denotes the value. -/
def Literal.data : Literal → Token.Data
  | .number value => .number value
  | .string value => .string value
  | .boolean true => .keyword .trueWord
  | .boolean false => .keyword .falseWord
  | .nil => .keyword .nilWord

/-- A value as it is written. -/
def Literal.asLexeme (value : Literal) : Lexeme where
  text := Expr.literalForm value
  content := .ok value.data

theorem Literal.literal?_data (value : Literal) : value.data.literal? = some value := by
  cases value with
  | number | string | nil => rfl
  | boolean value => cases value <;> rfl

theorem Literal.data_eq {value : Literal} {data : Token.Data}
    (denotes : data.literal? = some value) : data = value.data := by
  cases data with
  | string | number =>
    cases denotes
    rfl
  | keyword word => cases word <;> cases denotes <;> rfl
  | symbol | identifier | endOfInput => cases denotes

/-- A value that can stand in a text: no string holds a quote, and a number has no sign. -/
def Literal.Writable : Literal → Prop
  | .number value => ∃ magnitude, value = .finite false magnitude
  | .string value => '"' ∉ value
  | .boolean _ | .nil => True

theorem Symbol.readBefore {mark : Symbol} {tail : Text} (ends : mark.Ends tail)
    (noComment : mark = .slash → Stops (· == '/') tail) : mark.asLexeme.ReadBefore tail :=
  Lexeme.readBefore_symbol_iff.mpr ⟨ends, noComment⟩

theorem Keyword.exists_spelling_eq_cons (keyword : Keyword) :
    ∃ first others, keyword.spelling = first :: others ∧ Lexeme.startsWord first = true ∧
      others.all Lexeme.continuesWord = true := by
  cases keyword <;> exact ⟨_, _, rfl, rfl, rfl⟩

theorem Keyword.readBefore (keyword : Keyword) {tail : Text}
    (stops : Stops Lexeme.continuesWord tail) :
    Lexeme.ReadBefore { text := keyword.spelling, content := .ok (.keyword keyword) } tail := by
  obtain ⟨first, others, spelled, starts, inside⟩ := keyword.exists_spelling_eq_cons
  have read := (Lexeme.readBefore_word_iff starts (List.all_eq_true.mp inside)).mpr stops
  rwa [Lexeme.wordContent, ← spelled, ofText?_spelling] at read

theorem Magnitude.readBefore (magnitude : Magnitude) {tail : Text} (bounded : tail.Bounded) :
    Lexeme.ReadBefore
      { text := magnitude.text, content := .ok (.number (.finite false magnitude)) } tail := by
  have ends : magnitude.numeral.Ends tail := by
    refine ⟨bounded.stops rfl rfl, ?_⟩
    rintro - rest rfl
    rcases bounded '.' rfl with impossible | impossible <;> cases impossible
  exact (Lexeme.readBefore_number_iff magnitude.numeral_proper magnitude.magnitude?_numeral).mpr
    ends

theorem Literal.asLexeme_number (magnitude : Magnitude) :
    (Literal.number (.finite false magnitude)).asLexeme =
      { text := magnitude.text, content := .ok (.number (.finite false magnitude)) } := by
  simp only [Literal.asLexeme, Expr.literalForm, Literal.text, Binary64.text, Literal.data,
    Bool.false_eq_true, if_false]

theorem Literal.readBefore {value : Literal} (writable : value.Writable) {tail : Text}
    (bounded : tail.Bounded) : value.asLexeme.ReadBefore tail := by
  have word : Stops Lexeme.continuesWord tail := bounded.stops rfl rfl
  cases value with
  | number value =>
    obtain ⟨magnitude, rfl⟩ := writable
    rw [Literal.asLexeme_number]
    exact magnitude.readBefore bounded
  | string value => exact Lexeme.readBefore_string writable tail
  | boolean value =>
    cases value with
    | true => exact Keyword.trueWord.readBefore word
    | false => exact Keyword.falseWord.readBefore word
  | nil => exact Keyword.nilWord.readBefore word

/-! ### Lexemes of a tree -/

/-- An operator that is written as the symbol it is. -/
def Token.Spelled (operator : Token) : Prop :=
  ∃ mark : Symbol, operator.asLexeme = mark.asLexeme

namespace Expr

/-- A tree of operators and values that can stand in a text. -/
def Writable : Expr → Prop
  | binary left operator right => operator.Spelled ∧ left.Writable ∧ right.Writable
  | grouping body => body.Writable
  | literal value => value.Writable
  | unary operator operand =>
    (operator.asLexeme = Symbol.bang.asLexeme ∨ operator.asLexeme = Symbol.minus.asLexeme) ∧
      operand.Writable

/-- The lexemes of a tree in order, without the end of the text. -/
def lexemes : Expr → List Lexeme
  | binary left operator right => left.lexemes ++ operator.asLexeme :: right.lexemes
  | grouping body => Symbol.leftParen.asLexeme :: (body.lexemes ++ [Symbol.rightParen.asLexeme])
  | literal value => [value.asLexeme]
  | unary operator operand => operator.asLexeme :: operand.lexemes

theorem stops_literalForm {value : Literal} (writable : value.Writable) (tail : Text) :
    Stops (· == '=') (literalForm value ++ tail) := by
  cases value with
  | number value =>
    obtain ⟨magnitude, rfl⟩ := writable
    obtain ⟨first, rest, written, digit⟩ := Numeral.exists_text_eq_cons magnitude.numeral_proper
    have text : literalForm (.number (.finite false magnitude)) = magnitude.numeral.text :=
      congrArg Lexeme.text (Literal.asLexeme_number magnitude)
    rw [text, written]
    refine Text.stops_cons (beq_eq_false_iff_ne.mpr ?_)
    rintro rfl
    cases digit
  | string => exact Text.stops_cons rfl
  | boolean value => cases value <;> exact Text.stops_cons rfl
  | nil => exact Text.stops_cons rfl

/-- No tree is written with an equals sign first, so a unary operator in front of it is read as it
was written. -/
theorem stops_sourceForm {expr : Expr} (writable : expr.Writable) (tail : Text) :
    Stops (· == '=') (expr.sourceForm ++ tail) := by
  induction expr generalizing tail with
  | binary left operator right inductionLeft _ =>
    rw [sourceForm, List.append_assoc, List.append_assoc]
    exact inductionLeft writable.2.1 _
  | grouping body => exact Text.stops_cons rfl
  | literal value => exact stops_literalForm writable tail
  | unary operator operand =>
    rw [sourceForm, List.append_assoc]
    rcases writable.1 with written | written
    · have bang : operator.lexeme = ['!'] := congrArg Lexeme.text written
      rw [bang]
      exact Text.stops_cons rfl
    · have minus : operator.lexeme = ['-'] := congrArg Lexeme.text written
      rw [minus]
      exact Text.stops_cons rfl

/-- The source form of a tree is read into the lexemes of the tree, and then what follows is
read. -/
theorem lexemes_sourceForm {expr : Expr} (writable : expr.Writable) {tail : Text}
    (bounded : tail.Bounded) :
    Text.lexemes (expr.sourceForm ++ tail) = expr.lexemes ++ tail.lexemes := by
  have spaced (text : Text) : Text.Bounded (' ' :: text) := by
    intro character member
    exact Or.inl (Option.mem_some.mp member).symm
  induction expr generalizing tail with
  | binary left operator right inductionLeft inductionRight =>
    obtain ⟨⟨mark, spelled⟩, writableLeft, writableRight⟩ := writable
    have whole : (binary left operator right).sourceForm ++ tail =
        left.sourceForm ++
          ' ' :: (operator.asLexeme.text ++ ' ' :: (right.sourceForm ++ tail)) := by
      simp [sourceForm, Token.asLexeme]
    have read : operator.asLexeme.ReadBefore (' ' :: (right.sourceForm ++ tail)) := by
      rw [spelled]
      exact Symbol.readBefore (fun _ => Text.stops_cons rfl) fun _ => Text.stops_cons rfl
    rw [whole, inductionLeft writableLeft (spaced _), Text.lexemes_blank, Text.lexemes_cons read,
      Text.lexemes_blank, inductionRight writableRight bounded, lexemes, List.append_assoc,
      List.cons_append]
  | grouping body inductionHypothesis =>
    have whole : (grouping body).sourceForm ++ tail =
        Symbol.leftParen.asLexeme.text ++
          (body.sourceForm ++ (Symbol.rightParen.asLexeme.text ++ tail)) := by
      simp [sourceForm, Symbol.asLexeme, Symbol.spelling]
    have opens : Symbol.leftParen.asLexeme.ReadBefore
        (body.sourceForm ++ (Symbol.rightParen.asLexeme.text ++ tail)) :=
      Symbol.readBefore (by simp [Symbol.Ends]) (by simp)
    have closes : Symbol.rightParen.asLexeme.ReadBefore tail :=
      Symbol.readBefore (by simp [Symbol.Ends]) (by simp)
    have boundedInside : Text.Bounded (Symbol.rightParen.asLexeme.text ++ tail) := by
      intro character member
      exact Or.inr (Option.mem_some.mp member).symm
    rw [whole, Text.lexemes_cons opens, inductionHypothesis writable boundedInside,
      Text.lexemes_cons closes, lexemes, List.cons_append, List.append_assoc,
      List.singleton_append]
  | literal value => exact Text.lexemes_cons (value.readBefore writable bounded)
  | unary operator operand inductionHypothesis =>
    obtain ⟨written, writableOperand⟩ := writable
    have noEqual := stops_sourceForm writableOperand tail
    have whole : (unary operator operand).sourceForm ++ tail =
        operator.asLexeme.text ++ (operand.sourceForm ++ tail) := by
      rw [sourceForm, List.append_assoc]
      rfl
    have read : operator.asLexeme.ReadBefore (operand.sourceForm ++ tail) := by
      rcases written with bang | minus
      · rw [bang]
        exact Symbol.readBefore (fun _ => noEqual) (by simp)
      · rw [minus]
        exact Symbol.readBefore (fun _ => noEqual) (by simp)
    rw [whole, Text.lexemes_cons read, inductionHypothesis writableOperand bounded, lexemes,
      List.cons_append]

end Expr

end LoxFront
