/-
This file defines a token: what it is, and the span of text it was read from.
-/

import LoxFront.Keyword
import LoxFront.Literal
import LoxFront.Span
import LoxFront.Symbol

namespace LoxFront

/-- What sort of token a token is, apart from any value it carries. -/
inductive Token.Kind
  | symbol (mark : Symbol)
  | keyword (word : Keyword)
  | identifier
  | string
  | number
  | endOfInput
  deriving DecidableEq

/-- What a token says, with the value that a string or a number carries. -/
inductive Token.Data
  | symbol (mark : Symbol)
  | keyword (word : Keyword)
  | identifier
  | string (value : Text)
  | number (value : Binary64)
  | endOfInput
  deriving DecidableEq

/-- A token of a text. -/
structure Token where
  /-- What the token says. -/
  data : Token.Data
  /-- Where the token stands. -/
  span : Span
  deriving DecidableEq

/-- What a sort of token is called in a token listing. -/
def Token.Kind.name : Token.Kind → Text
  | .symbol mark => mark.name
  | .keyword word => word.name
  | .identifier => "Identifier".toList
  | .string => "Str".toList
  | .number => "Number".toList
  | .endOfInput => "Eof".toList

namespace Token.Data

/-- The sort of token that says this. -/
def kind : Token.Data → Token.Kind
  | .symbol mark => .symbol mark
  | .keyword word => .keyword word
  | .identifier => .identifier
  | .string _ => .string
  | .number _ => .number
  | .endOfInput => .endOfInput

/-- The value that a string or a number carries. -/
def carried? : Token.Data → Option Literal
  | .string value => some (.string value)
  | .number value => some (.number value)
  | _ => none

/-- The value that the token denotes as an expression of its own. -/
def literal? : Token.Data → Option Literal
  | .string value => some (.string value)
  | .number value => some (.number value)
  | .keyword .trueWord => some (.boolean true)
  | .keyword .falseWord => some (.boolean false)
  | .keyword .nilWord => some .nil
  | _ => none

/-- Whether two tokens say the same, where numbers are compared as numbers. -/
def same (first second : Token.Data) : Bool :=
  first.kind == second.kind &&
    match first.carried?, second.carried? with
    | some value, some other => value.same other
    | none, none => true
    | _, _ => false

end Token.Data

namespace Token

/-- The sort of the token. -/
def kind (token : Token) : Kind := token.data.kind

/-- The text of the token. -/
def lexeme (token : Token) : Text := token.span.lexeme

/-- Whether the token marks the end of the input. -/
def isEnd (token : Token) : Bool := token.kind == .endOfInput

/-- The line of a token listing for the token: its sort, its text, and the value it carries. -/
def listing (token : Token) : Text :=
  let value := match token.data.carried? with
    | some literal => literal.text
    | none => "nil".toList
  token.kind.name ++ ' ' :: token.lexeme ++ ' ' :: value

/-- Whether two tokens say the same at the same place of the same text. -/
def same (first second : Token) : Bool :=
  first.data.same second.data && first.span.same second.span

end Token

end LoxFront
