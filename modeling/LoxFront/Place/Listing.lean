/-
This file shows a place for inspection, on one line or spread over several. The long form holds
the whole text that the place is in, as a quoted string.
-/

import LoxFront.Place

namespace LoxFront

/-- A character inside a quoted string. Only the characters that would break the string or the
line are written with a backslash. -/
def Text.escaped : Char → Text
  | '\n' => ['\\', 'n']
  | '\r' => ['\\', 'r']
  | '\t' => ['\\', 't']
  | '"' => ['\\', '"']
  | '\\' => ['\\', '\\']
  | character => [character]

/-- A text as a quoted string. -/
def Text.quoted (text : Text) : Text := '"' :: text.flatMap Text.escaped ++ ['"']

namespace Place

/-- The place on one line: its line and its column. -/
def shortListing (place : Place) : Text :=
  "Cursor \x7b line: Line(".toList ++ Text.ofCount place.line ++ "), col: Col(".toList ++
    Text.ofCount place.column ++ ") \x7d".toList

/-- A field of one count, spread over three lines. -/
def countField (name : Text) (wrapper : Text) (count : Nat) : List Text :=
  ["    ".toList ++ name ++ ": ".toList ++ wrapper ++ ['('],
    "        ".toList ++ Text.ofCount count ++ [','],
    "    ),".toList]

/-- The place over several lines: its line, its column, and the whole text. -/
def longListing (place : Place) : Text :=
  Text.joinLines <|
    ["Cursor \x7b".toList] ++
    countField "line".toList "Line".toList place.line ++
    countField "col".toList "Col".toList place.column ++
    ["    source: ".toList ++ Text.quoted place.text ++ [','], "\x7d".toList]

end Place

end LoxFront
