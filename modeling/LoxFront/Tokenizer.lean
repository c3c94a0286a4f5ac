/-
This file reads a text item by item. An item is a token or a failure; after a failure the reading
goes on behind the text that could not be read. The last item is the mark of the end of the input,
and after it there is nothing.
-/

import LoxFront.Lexeme
import LoxFront.Trivia

namespace LoxFront

/-- A token, or a failure to read one. -/
abbrev Item := Except LexicalError Token

/-- How far a text has been read into tokens. -/
structure Tokenizer where
  /-- The place behind the last item. -/
  place : Place
  /-- Whether the end of the input has been given out. -/
  finished : Bool := false

/-- The item that a lexeme is when it stands at a place. -/
def Lexeme.itemAt (lexeme : Lexeme) (start : Place) : Item :=
  match lexeme.content with
  | .ok data => .ok { data, span := { start, lexeme := lexeme.text } }
  | .error cause => .error { cause, line := start.line, column := start.column }

namespace Item

/-- The token that the item is, if it is one. -/
def token? : Item → Option Token
  | .ok token => some token
  | .error _ => none

/-- The failure that the item is, if it is one. -/
def error? : Item → Option LexicalError
  | .ok _ => none
  | .error error => some error

theorem token?_eq_some {item : Item} {token : Token} :
    item.token? = some token ↔ item = .ok token := by
  cases item <;> simp [token?]

theorem error?_eq_some {item : Item} {error : LexicalError} :
    item.error? = some error ↔ item = .error error := by
  cases item <;> simp [error?]

/-- Whether the item is the mark of the end of the input. -/
def isEnd : Item → Bool
  | .ok token => token.isEnd
  | .error _ => false

end Item

namespace Tokenizer

/-- The start of a text, of which nothing has been read. -/
def ofText (text : Text) : Tokenizer := { place := Place.ofText text }

/-- The place where the next item starts, behind blanks and comments. -/
def itemStart (tokenizer : Tokenizer) : Place :=
  tokenizer.place.skip (Text.leadingTrivia tokenizer.place.rest).length

/-- The next item, and how far the text has been read then. -/
def next? (tokenizer : Tokenizer) : Option (Item × Tokenizer) :=
  if tokenizer.finished then none
  else
    let start := tokenizer.itemStart
    let lexeme := Lexeme.front start.rest
    let item := lexeme.itemAt start
    some (item, { place := start.skip lexeme.text.length, finished := Item.isEnd item })

/-- The first items of the tokenizer. -/
def take : Tokenizer → Nat → List Item
  | _, 0 => []
  | tokenizer, count + 1 =>
    match tokenizer.next? with
    | none => []
    | some (item, later) => item :: later.take count

/-- How far the text has been read after a number of further items. -/
def drop : Tokenizer → Nat → Tokenizer
  | tokenizer, 0 => tokenizer
  | tokenizer, count + 1 =>
    match tokenizer.next? with
    | none => tokenizer
    | some (_, later) => later.drop count

/-- A number that the items still to come cannot exceed: every item but the last takes up at least
one character. -/
def itemLimit (tokenizer : Tokenizer) : Nat := tokenizer.place.rest.length + 1

/-- All items still to come. -/
def items (tokenizer : Tokenizer) : List Item := tokenizer.take tokenizer.itemLimit

end Tokenizer

/-- All items of a text, in order. -/
def Text.items (text : Text) : List Item := (Tokenizer.ofText text).items

/-- The tokens of a text and the failures to read one, each in order. -/
def tokenize (text : Text) : List Token × List LexicalError :=
  let items := Text.items text
  (items.filterMap Item.token?, items.filterMap Item.error?)

end LoxFront
