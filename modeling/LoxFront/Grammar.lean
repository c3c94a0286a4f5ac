/-
This file holds the rules by which an expression is read from tokens. A rule looks at a list of
tokens, reads what it can from the front, and gives back a subtree and the tokens behind it. There
are four tiers of binary operators, all grouping to the left, then the unary operators, and then
values and parentheses.

No tree higher than the limit is ever built, and the rules call one another no deeper than the
limit allows: the number of levels that are left is the argument that goes down with every
parenthesis and every unary operator.
-/

import LoxFront.Expr
import LoxFront.SyntaxError

namespace LoxFront.Grammar

/-- A tree that has been read, with its height. -/
structure Subtree where
  expr : Expr
  height : Nat

/-- Why a rule could not go on. -/
structure Failure where
  cause : SyntaxError.Cause
  /-- The token that the failure is about, or nothing at the end of the input. -/
  token? : Option Token
  /-- The tokens that had not been read by then. -/
  unread : List Token

/-- What a rule comes to: a subtree and the tokens behind it, or a failure. -/
abbrev Outcome := Except Failure (Subtree × List Token)

/-- A way to read a subtree from the front of a list of tokens. -/
abbrev Rule := List Token → Outcome

/-! ### Steps of a rule -/

/-- A failure about the first of the tokens, which is left unread. -/
def Failure.atFront (cause : SyntaxError.Cause) (tokens : List Token) : Failure where
  cause := cause
  token? := tokens.head?
  unread := tokens

/-- Whether a token is one of the given symbols. -/
def isOneOf (symbols : List Symbol) (token : Token) : Bool :=
  match token.data with
  | .symbol mark => symbols.contains mark
  | _ => false

/-- A subtree that is complete now. If it is higher than allowed, the failure is about the operator
or the parenthesis it starts from. -/
def complete (expr : Expr) (height : Nat) (origin : Token) (unread : List Token) : Outcome :=
  if height ≤ heightLimit then .ok ({ expr, height }, unread)
  else .error { cause := .tooHigh, token? := some origin, unread }

/-! ### Binary operators -/

/-- The tiers of binary operators, the one that binds loosest first. -/
def tiers : List (List Symbol) :=
  [[.bangEqual, .equalEqual], [.greater, .greaterEqual, .less, .lessEqual],
    [.minus, .plus], [.slash, .star]]

/-- Reads further operands of a tier, each behind one of its operators, and groups them to the
left. Every round takes up tokens, so as many rounds as there are tokens are enough. -/
def chainFrom (operators : List Symbol) (operand : Rule) : (rounds : Nat) → Subtree → Rule
  | 0, left, tokens => .ok (left, tokens)
  | _, left, [] => .ok (left, [])
  | rounds + 1, left, operator :: rest =>
    if isOneOf operators operator then do
      let (right, rest) ← operand rest
      let (node, rest) ← complete (.binary left.expr operator right.expr)
        (max left.height right.height + 1) operator rest
      chainFrom operators operand rounds node rest
    else .ok (left, operator :: rest)

/-- One or more operands with operators of one tier between them. -/
def chain (operators : List Symbol) (operand : Rule) : Rule := fun tokens => do
  let (first, rest) ← operand tokens
  chainFrom operators operand rest.length first rest

/-- An expression, given how its operands are read: a tier is a chain of the tiers that bind more
tightly. -/
def expressionOf (operand : Rule) : Rule := tiers.foldr chain operand

/-! ### Operands -/

/-- The unary operators. -/
def unaryOperators : List Symbol := [.bang, .minus]

/-- An operand, given how an operand one level further down is read: a unary operator and its own
operand, an expression in parentheses, or a value. -/
def operandOf (inner : Rule) : Rule
  | [] => .error (.atFront .missingOperand [])
  | token :: rest =>
    if isOneOf unaryOperators token then do
      let (operand, rest) ← inner rest
      complete (.unary token operand.expr) (operand.height + 1) token rest
    else if isOneOf [.leftParen] token then do
      let (body, rest) ← expressionOf inner rest
      match rest with
      | [] => .error (.atFront .unclosedParenthesis [])
      | closing :: later =>
        if isOneOf [.rightParen] closing then
          complete (.grouping body.expr) (body.height + 1) token later
        else .error (.atFront .unclosedParenthesis rest)
    else match token.data.literal? with
      | some value => .ok ({ expr := .literal value, height := 0 }, rest)
      | none => .error (.atFront .missingOperand (token :: rest))

/-- An operand, with a number of levels to spare. Where no level is left nothing can be read. -/
def operand : (levels : Nat) → Rule
  | 0 => fun tokens => .error (.atFront .tooHigh tokens)
  | levels + 1 => operandOf (operand levels)

/-- An expression outside every parenthesis: below the root there are as many levels as the height
limit allows. -/
def expression : Rule := expressionOf (operand (heightLimit + 1))

end LoxFront.Grammar
