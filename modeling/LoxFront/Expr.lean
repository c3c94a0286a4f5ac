/-
This file defines the syntax tree of an expression. Operators keep the token they were read from,
so that a later stage can still point at them; parentheses that were written are kept as nodes.
-/

import LoxFront.Token

namespace LoxFront

/-- An expression. -/
inductive Expr
  | binary (left : Expr) (operator : Token) (right : Expr)
  | grouping (body : Expr)
  | literal (value : Literal)
  | unary (operator : Token) (operand : Expr)
  deriving DecidableEq

/-- Whether two tokens are the same operator: of one sort and written alike, wherever they stand. -/
def Token.sameOperator (first second : Token) : Bool :=
  first.kind == second.kind && first.lexeme == second.lexeme

namespace Expr

/-- The number of nodes. -/
def size : Expr → Nat
  | binary left _ right => left.size + right.size + 1
  | grouping body => body.size + 1
  | literal _ => 1
  | unary _ operand => operand.size + 1

/-- The number of edges from the root to the deepest leaf. -/
def height : Expr → Nat
  | binary left _ right => max left.height right.height + 1
  | grouping body => body.height + 1
  | literal _ => 0
  | unary _ operand => operand.height + 1

/-- Whether two trees have the same shape, operators and values. Where the operators stand is left
out, so the layout of the text does not matter. -/
def same : Expr → Expr → Bool
  | binary left operator right, binary left' operator' right' =>
    operator.sameOperator operator' && left.same left' && right.same right'
  | grouping body, grouping body' => body.same body'
  | literal value, literal value' => value.same value'
  | unary operator operand, unary operator' operand' =>
    operator.sameOperator operator' && operand.same operand'
  | _, _ => false

end Expr

end LoxFront
