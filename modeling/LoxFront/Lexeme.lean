/-
This file reads the lexeme at the front of a text that starts with no blank and no comment. What
is read depends on the characters alone and not on where they stand. There are four kinds of
lexeme: strings, numbers, words and symbols. Each is as long as it can be.
-/

import LoxFront.LexicalError
import LoxFront.Token

namespace LoxFront

/-- A stretch of text, and the token it is, or what is wrong with it. -/
structure Lexeme where
  text : Text
  content : Except LexicalError.Cause Token.Data

namespace Lexeme

/-! ### Words -/

/-- Whether a word can start with the character. -/
def startsWord (character : Char) : Bool := character.isAlpha || character == '_'

/-- Whether a word can go on with the character. -/
def continuesWord (character : Char) : Bool := character.isAlphanum || character == '_'

/-- The word at the front of a text: a keyword, or else an identifier. -/
def word (text : Text) : Lexeme :=
  let letters := text.takeWhile continuesWord
  { text := letters
    content := .ok (match Keyword.ofText? letters with
      | some keyword => .keyword keyword
      | none => .identifier) }

/-! ### Numbers and strings -/

/-- The number at the front of a text. -/
def number (text : Text) : Lexeme :=
  let numeral := Numeral.front text
  { text := numeral.text
    content := match numeral.magnitude? with
      | some magnitude => .ok (.number (.finite false magnitude))
      | none => .error (.oversizedNumber numeral.text) }

/-- The string whose opening quote has just been read. It runs up to the next quote and may go
over several lines. Without a closing quote it takes up the rest of the text. -/
def string (rest : Text) : Lexeme :=
  let value := rest.takeWhile fun character => character ≠ '"'
  match rest.dropWhile fun character => character ≠ '"' with
  | [] => { text := '"' :: value, content := .error .unclosedString }
  | _ :: _ => { text := '"' :: (value ++ ['"']), content := .ok (.string value) }

/-! ### Symbols, and the choice between the kinds -/

/-- The symbol at the front of a text, or else one character that starts nothing. -/
def symbol (character : Char) (rest : Text) : Lexeme :=
  match Symbol.front? (character :: rest) with
  | some mark => { text := mark.spelling, content := .ok (.symbol mark) }
  | none => { text := [character], content := .error (.strayCharacter character) }

/-- The lexeme at the front of a text. The first character tells its kind, and the end of the text
is a lexeme of its own, without characters. -/
def front : Text → Lexeme
  | [] => { text := [], content := .ok .endOfInput }
  | character :: rest =>
    if character = '"' then string rest
    else if character.isDigit then number (character :: rest)
    else if startsWord character then word (character :: rest)
    else symbol character rest

end Lexeme

end LoxFront
