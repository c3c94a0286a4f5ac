/-
This file says which trees belong to the grammar and which tokens spell them, without the rules by
which they are read. A tree is well shaped if every binary operator stands above operands that bind
at least as tightly, the right one more tightly, and every unary operator above an operand that is
no binary expression. The tokens of a tree are its leaves in order, with a pair of parentheses
around every grouping. Whether a tree is well shaped hangs on the sorts of its operators only, so
trees whose operators and values are related in any way that keeps the sorts of operators are well
shaped together.
-/

import LoxFront.Expr

namespace LoxFront

/-- The tier of a binary operator, counted from the one that binds loosest. -/
def Symbol.tier? : Symbol → Option Nat
  | .bangEqual | .equalEqual => some 0
  | .greater | .greaterEqual | .less | .lessEqual => some 1
  | .minus | .plus => some 2
  | .slash | .star => some 3
  | _ => none

/-- The tier of a token that is a binary operator. -/
def Token.tier? (token : Token) : Option Nat :=
  match token.data with
  | .symbol mark => mark.tier?
  | _ => none

theorem Token.tier?_lt {token : Token} {tier : Nat} (operator : token.tier? = some tier) :
    tier < 4 := by
  unfold Token.tier? at operator
  split at operator
  · next mark _ => cases mark <;> cases operator <;> decide
  · cases operator

namespace Token

variable {first second : Token}

theorem kind_eq_symbol {token : Token} {mark : Symbol} :
    token.kind = .symbol mark ↔ token.data = .symbol mark := by
  cases data : token.data <;> simp [kind, Token.Data.kind, data]

theorem data_eq_symbol_congr (same : first.kind = second.kind) (mark : Symbol) :
    first.data = .symbol mark ↔ second.data = .symbol mark := by
  rw [← kind_eq_symbol, same, kind_eq_symbol]

theorem tier?_eq_of_kind (same : first.kind = second.kind) : first.tier? = second.tier? := by
  have ofKind (token : Token) : token.tier? =
      match token.kind with
      | .symbol mark => mark.tier?
      | _ => none := by
    rw [tier?, kind]
    cases token.data <;> rfl
  rw [ofKind, ofKind, same]

end Token

namespace Expr

/-- The tier of a tree: that of its outermost operator if it is a binary one, and beyond all tiers
otherwise. -/
def tier : Expr → Nat
  | binary _ operator _ => operator.tier?.getD 0
  | grouping _ | literal _ | unary _ _ => 4

/-- The operators are those of the grammar, and no operand is looser than its place allows. -/
def WellShaped : Expr → Prop
  | binary left operator right =>
    ∃ tier, operator.tier? = some tier ∧ tier ≤ left.tier ∧ tier < right.tier ∧
      left.WellShaped ∧ right.WellShaped
  | grouping body => body.WellShaped
  | literal _ => True
  | unary operator operand =>
    (operator.data = .symbol .bang ∨ operator.data = .symbol .minus) ∧ operand.tier = 4 ∧
      operand.WellShaped

/-- The tokens of a tree in order. A value is spelled by any token that denotes it, and a grouping
by any two parentheses. -/
inductive Yields : Expr → List Token → Prop
  | binary {left right : Expr} {operator : Token} {front back : List Token}
      (yieldsLeft : left.Yields front) (yieldsRight : right.Yields back) :
      Yields (binary left operator right) (front ++ operator :: back)
  | grouping {body : Expr} {opening closing : Token} {inner : List Token}
      (opens : opening.data = .symbol .leftParen) (closes : closing.data = .symbol .rightParen)
      (yields : body.Yields inner) : Yields (grouping body) (opening :: (inner ++ [closing]))
  | literal {value : Literal} {token : Token} (denotes : token.data.literal? = some value) :
      Yields (literal value) [token]
  | unary {operator : Token} {operand : Expr} {tokens : List Token}
      (yields : operand.Yields tokens) : Yields (unary operator operand) (operator :: tokens)

/-- Every tree has a token. -/
theorem Yields.ne_nil {expr : Expr} {tokens : List Token} (yields : expr.Yields tokens) :
    tokens ≠ [] := by
  cases yields with
  | binary => exact List.append_ne_nil_of_right_ne_nil _ (List.cons_ne_nil _ _)
  | grouping | literal | unary => exact List.cons_ne_nil _ _

theorem tier_binary {left right : Expr} {operator : Token} {tier : Nat}
    (known : operator.tier? = some tier) : (binary left operator right).tier = tier := by
  rw [Expr.tier, known]
  rfl

theorem tier_le (expr : Expr) : expr.tier ≤ 4 := by
  cases expr with
  | grouping | literal | unary => exact Nat.le_refl 4
  | binary left operator right =>
    cases known : operator.tier? with
    | none =>
      rw [tier, known]
      exact Nat.zero_le 4
    | some own =>
      rw [tier_binary known]
      exact Nat.le_of_lt (Token.tier?_lt known)

/-! ### Trees of one shape -/

/-- Two trees of one shape. Each operator of the first is related to the one in its place in the
second, and each value to the one in its place. -/
inductive Related (operators : Token → Token → Prop) (values : Literal → Literal → Prop) :
    Expr → Expr → Prop
  | binary {left left' right right' : Expr} {operator operator' : Token}
      (related : operators operator operator') (lefts : Related operators values left left')
      (rights : Related operators values right right') :
      Related operators values (binary left operator right) (binary left' operator' right')
  | grouping {body body' : Expr} (bodies : Related operators values body body') :
      Related operators values (grouping body) (grouping body')
  | literal {value value' : Literal} (related : values value value') :
      Related operators values (literal value) (literal value')
  | unary {operand operand' : Expr} {operator operator' : Token}
      (related : operators operator operator')
      (operands : Related operators values operand operand') :
      Related operators values (unary operator operand) (unary operator' operand')

namespace Related

variable {operators : Token → Token → Prop} {values : Literal → Literal → Prop}
  {first second : Expr}

theorem height_eq (trees : Related operators values first second) :
    first.height = second.height := by
  induction trees with
  | binary _ _ _ equalLefts equalRights => rw [height, height, equalLefts, equalRights]
  | grouping _ equalBodies => rw [height, height, equalBodies]
  | literal => rfl
  | unary _ _ equalOperands => rw [height, height, equalOperands]

section Kinds

variable (sameKind : ∀ {operator other : Token}, operators operator other →
  operator.kind = other.kind)

include sameKind

theorem tier_eq (trees : Related operators values first second) : first.tier = second.tier := by
  cases trees with
  | binary related => rw [tier, tier, Token.tier?_eq_of_kind (sameKind related)]
  | grouping | literal | unary => rfl

theorem wellShaped (trees : Related operators values first second) (shaped : first.WellShaped) :
    second.WellShaped := by
  induction trees with
  | binary related lefts rights inductionLeft inductionRight =>
    obtain ⟨tier, known, tightLeft, tightRight, shapedLeft, shapedRight⟩ := shaped
    rw [Token.tier?_eq_of_kind (sameKind related)] at known
    rw [lefts.tier_eq sameKind] at tightLeft
    rw [rights.tier_eq sameKind] at tightRight
    exact ⟨tier, known, tightLeft, tightRight, inductionLeft shapedLeft,
      inductionRight shapedRight⟩
  | grouping _ inductionHypothesis => exact inductionHypothesis shaped
  | literal => trivial
  | unary related operands inductionHypothesis =>
    obtain ⟨isUnary, tight, shapedOperand⟩ := shaped
    have sameSymbol (mark : Symbol) := Token.data_eq_symbol_congr (sameKind related) mark
    rw [operands.tier_eq sameKind] at tight
    exact ⟨isUnary.imp (sameSymbol _).mp (sameSymbol _).mp, tight,
      inductionHypothesis shapedOperand⟩

end Kinds

end Related

end Expr

end LoxFront
