/-
This file writes a tree in two ways. The prefix form shows the shape of the tree by parentheses
around every inner node. The source form is Lox again: parentheses stand only where the tree has
them, so for a tree that was read from a text it reads back to an equal tree.
-/

import LoxFront.Expr

namespace LoxFront.Expr

/-- The tree in prefix form. -/
def prefixForm : Expr → Text
  | binary left operator right =>
    '(' :: operator.lexeme ++ ' ' :: left.prefixForm ++ ' ' :: right.prefixForm ++ [')']
  | grouping body => "(group ".toList ++ body.prefixForm ++ [')']
  | literal value => value.text
  | unary operator operand => '(' :: operator.lexeme ++ ' ' :: operand.prefixForm ++ [')']

theorem prefixForm_binary (left right : Expr) (operator : Token) :
    (binary left operator right).prefixForm =
      '(' :: operator.lexeme ++ ' ' :: left.prefixForm ++ ' ' :: right.prefixForm ++ [')'] := rfl

theorem prefixForm_grouping (body : Expr) :
    (grouping body).prefixForm = "(group ".toList ++ body.prefixForm ++ [')'] := rfl

theorem prefixForm_unary (operator : Token) (operand : Expr) :
    (unary operator operand).prefixForm =
      '(' :: operator.lexeme ++ ' ' :: operand.prefixForm ++ [')'] := rfl

/-- A value as it stands in a text. A string gets its quotes back. -/
def literalForm : Literal → Text
  | .string value => '"' :: value ++ ['"']
  | value => value.text

/-- The tree as a text. -/
def sourceForm : Expr → Text
  | binary left operator right =>
    left.sourceForm ++ ' ' :: operator.lexeme ++ ' ' :: right.sourceForm
  | grouping body => '(' :: body.sourceForm ++ [')']
  | literal value => literalForm value
  | unary operator operand => operator.lexeme ++ operand.sourceForm

end LoxFront.Expr
