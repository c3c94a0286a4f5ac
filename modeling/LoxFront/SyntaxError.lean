/-
This file defines what can be wrong with a list of tokens that should be an expression.
-/

import LoxFront.Diagnostic

namespace LoxFront

/-- The greatest height of a tree that is accepted. Whoever walks over a tree by recursion can
rely on it. -/
def heightLimit : Nat := 128

/-- Why a list of tokens is not an expression. -/
inductive SyntaxError.Cause
  /-- An operand is missing. -/
  | missingOperand
  /-- A parenthesis is not closed. -/
  | unclosedParenthesis
  /-- Something stands behind a complete expression. -/
  | trailingTokens
  /-- The tree would exceed the height limit. -/
  | tooHigh
  deriving DecidableEq

/-- A failure to read an expression, with the line and column of the token it is about. -/
structure SyntaxError where
  cause : SyntaxError.Cause
  line : Nat
  column : Nat
  /-- The text of the token, or nothing if the input ended too early. -/
  lexeme? : Option Text
  deriving DecidableEq

/-- The cause in words. -/
def SyntaxError.Cause.reason : SyntaxError.Cause → Text
  | .missingOperand => "Expect expression.".toList
  | .unclosedParenthesis => "Expect ')' after expression.".toList
  | .trailingTokens => "Expect end of input after expression.".toList
  | .tooHigh =>
    "Expression nested too deeply (more than ".toList ++ Text.ofCount heightLimit ++
      " levels).".toList

namespace SyntaxError

/-- The token that the failure is about, as it is shown in the message. -/
def near (error : SyntaxError) : Text :=
  match error.lexeme? with
  | some lexeme => '\'' :: lexeme ++ ['\'']
  | none => "end".toList

/-- The failure in words, with its line and the token it is about. -/
def message (error : SyntaxError) : Text :=
  "[line ".toList ++ Text.ofCount error.line ++ "] Error at ".toList ++ error.near ++
    ": ".toList ++ error.cause.reason

/-- The failure as it is reported. -/
def diagnostic (error : SyntaxError) : Diagnostic where
  line := error.line
  column := error.column
  message := error.message

end SyntaxError

end LoxFront
