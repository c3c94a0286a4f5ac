/-
This file defines the values that a Lox expression can name outright, and how they are shown.
-/

import LoxFront.Binary64.Shortest

namespace LoxFront

/-- A value written in a text. -/
inductive Literal
  | number (value : Binary64)
  | string (value : Text)
  | boolean (value : Bool)
  | nil
  deriving DecidableEq

namespace Literal

/-- How a value is shown. A string is shown without quotes. -/
def text : Literal → Text
  | number value => value.text
  | string value => value
  | boolean true => "true".toList
  | boolean false => "false".toList
  | nil => "nil".toList

/-- Whether two values are equal, where numbers are compared as numbers. -/
def same : Literal → Literal → Bool
  | number first, number second => first.numericallyEqual second
  | string first, string second => first == second
  | boolean first, boolean second => first == second
  | nil, nil => true
  | _, _ => false

end Literal

end LoxFront
