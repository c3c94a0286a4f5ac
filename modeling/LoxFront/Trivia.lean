/-
This file says which characters between tokens mean nothing: blanks, and comments from `//` up to
the end of the line. The newline after a comment is a blank and not part of the comment.
-/

import LoxFront.Text

namespace LoxFront

namespace Trivia

/-- Whether a character is blank. -/
def isBlank (character : Char) : Bool :=
  character == ' ' || character == '\r' || character == '\t' || character == '\n'

/-- Whether a comment starts at the front of a text. -/
def startsComment (text : Text) : Bool := ['/', '/'].isPrefixOf text

/-- The longest stretch of blanks and comments at the front of a text. Inside a comment every
character belongs to it until the newline that ends the comment. -/
def leading : (inComment : Bool) → Text → Text
  | _, [] => []
  | true, character :: rest => character :: leading (character != '\n') rest
  | false, character :: rest =>
    if isBlank character then character :: leading false rest
    else if startsComment (character :: rest) then character :: leading true rest
    else []

end Trivia

/-- The blanks and comments at the front of a text. -/
def Text.leadingTrivia (text : Text) : Text := Trivia.leading false text

end LoxFront
