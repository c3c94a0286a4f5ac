/-
This file defines what can be wrong with a text before its tokens are looked at as a whole.
-/

import LoxFront.Diagnostic

namespace LoxFront

/-- Why no token could be read. -/
inductive LexicalError.Cause
  /-- No token starts with the character. -/
  | strayCharacter (character : Char)
  /-- The closing quote of a string is missing. -/
  | unclosedString
  /-- A number is too large for a double. -/
  | oversizedNumber (lexeme : Text)
  deriving DecidableEq

/-- A failure to read a token, with the line and column of the text that could not be read. -/
structure LexicalError where
  cause : LexicalError.Cause
  line : Nat
  column : Nat
  deriving DecidableEq

/-- The cause in words. -/
def LexicalError.Cause.reason : LexicalError.Cause → Text
  | .strayCharacter character => "Unexpected character `".toList ++ character :: "`.".toList
  | .unclosedString => "Unterminated string.".toList
  | .oversizedNumber lexeme => "Invalid number `".toList ++ lexeme ++ "`.".toList

namespace LexicalError

/-- The failure in words, with its line. -/
def message (error : LexicalError) : Text :=
  "[line ".toList ++ Text.ofCount error.line ++ "] Error: ".toList ++ error.cause.reason

/-- The failure as it is reported. -/
def diagnostic (error : LexicalError) : Diagnostic where
  line := error.line
  column := error.column
  message := error.message

end LexicalError

end LoxFront
