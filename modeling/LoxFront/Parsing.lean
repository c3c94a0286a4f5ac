/-
This file reads whole inputs: a list of tokens as an expression, with or without something behind
it, and a text as an expression.
-/

import LoxFront.Grammar
import LoxFront.Sentence
import LoxFront.Tokenizer

namespace LoxFront

/-- The failure with the position that the user is told. At the end of the input that is the place
where the tokens end. -/
def Grammar.Failure.located (failure : Grammar.Failure) (stop : Place) : SyntaxError :=
  match failure.token? with
  | some token =>
    { cause := failure.cause
      line := token.span.line
      column := token.span.column
      lexeme? := some token.lexeme }
  | none =>
    { cause := failure.cause
      line := stop.line
      column := stop.column
      lexeme? := none }

/-- Reads the tokens up to the end as one expression. -/
def Grammar.wholeExpression (tokens : List Token) : Except Grammar.Failure Expr := do
  let (tree, rest) ← Grammar.expression tokens
  if rest.isEmpty then .ok tree.expr else .error (.atFront .trailingTokens rest)

/-- The tree at the front of the tokens. -/
def Grammar.frontExpression (tokens : List Token) : Except Grammar.Failure Expr := do
  let (tree, _) ← Grammar.expression tokens
  .ok tree.expr

/-- A tree or a failure as it is given to the caller. -/
def Grammar.located (result : Except Failure Expr) (stop : Place) : Except SyntaxError Expr :=
  result.mapError (·.located stop)

section Located

variable {result : Except Grammar.Failure Expr} {stop : Place}

theorem Grammar.located_eq_ok {expr : Expr} :
    located result stop = .ok expr ↔ result = .ok expr := by
  cases result <;> refine ⟨fun equal => ?_, fun equal => ?_⟩ <;> cases equal <;> rfl

theorem Grammar.located_eq_error {error : SyntaxError} :
    located result stop = .error error ↔
      ∃ failure, result = .error failure ∧ error = failure.located stop := by
  cases result with
  | error failure =>
    constructor
    · intro equal
      cases equal
      exact ⟨failure, rfl, rfl⟩
    · rintro ⟨_, equal, rfl⟩
      cases equal
      rfl
  | ok expr =>
    constructor
    · intro equal
      cases equal
    · rintro ⟨_, equal, -⟩
      cases equal

end Located

/-- The expression at the front of the tokens. A binary operator behind it goes on with it; anything
else behind it is not looked at. -/
def parseFront (tokens : List Token) : Except SyntaxError Expr :=
  let sentence := Sentence.ofTokens tokens
  match Grammar.expression sentence.tokens with
  | .ok (tree, _) => .ok tree.expr
  | .error failure => .error (failure.located sentence.stop)

/-- The expression that the tokens are as a whole. -/
def parseWhole (tokens : List Token) : Except SyntaxError Expr :=
  let sentence := Sentence.ofTokens tokens
  match Grammar.wholeExpression sentence.tokens with
  | .ok expr => .ok expr
  | .error failure => .error (failure.located sentence.stop)

theorem parseFront_eq_located (tokens : List Token) :
    parseFront tokens = Grammar.located (Grammar.frontExpression (Sentence.ofTokens tokens).tokens)
      (Sentence.ofTokens tokens).stop := by
  rw [parseFront, Grammar.frontExpression]
  cases Grammar.expression (Sentence.ofTokens tokens).tokens <;> rfl

theorem parseWhole_eq_located (tokens : List Token) :
    parseWhole tokens = Grammar.located (Grammar.wholeExpression (Sentence.ofTokens tokens).tokens)
      (Sentence.ofTokens tokens).stop := by
  rw [parseWhole]
  cases Grammar.wholeExpression (Sentence.ofTokens tokens).tokens <;> rfl

/-- The expression that a text is as a whole. If tokens cannot be read, all those failures are
reported and the rest is not looked at. -/
def parseText (text : Text) : Except (List Diagnostic) Expr :=
  let (tokens, errors) := tokenize text
  if errors.isEmpty then
    match parseWhole tokens with
    | .ok expr => .ok expr
    | .error error => .error [error.diagnostic]
  else .error (errors.map LexicalError.diagnostic)

theorem parseText_of_clean {text : Text} (clean : (tokenize text).2 = []) :
    parseText text = (parseWhole (tokenize text).1).mapError fun error => [error.diagnostic] := by
  simp only [parseText, clean, List.isEmpty_nil, if_true]
  cases parseWhole (tokenize text).1 <;> rfl

theorem parseText_of_unclean {text : Text} (unclean : (tokenize text).2 ≠ []) :
    parseText text = .error ((tokenize text).2.map LexicalError.diagnostic) := by
  simp only [parseText, List.isEmpty_eq_false_iff.mpr unclean, Bool.false_eq_true, if_false]

end LoxFront
