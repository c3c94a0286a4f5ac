/-
This file proves that no rule of the grammar looks at where a token stands. Let tokens be moved in
any way that leaves what they say alone. Then every rule comes to what it came to before, with the
tokens in it moved: it reads as many of them, builds the tree of the same shape, and fails for the
same reason at the same token. A rule is put together from a few steps, so it is enough that each
of these commutes with the move. To compare two lists of tokens that are written alike, both are
moved to one place.
-/

import LoxFront.Proofs.RoundTrip
import LoxFront.Proofs.Sentences

namespace LoxFront

/-- The tree with its operators moved. -/
def Expr.move (shift : Token → Token) : Expr → Expr
  | binary left operator right => binary (left.move shift) (shift operator) (right.move shift)
  | grouping body => grouping (body.move shift)
  | literal value => literal value
  | unary operator operand => unary (shift operator) (operand.move shift)

namespace Grammar

section Moves

variable (shift : Token → Token)

/-- The subtree with its operators moved. -/
def Subtree.move (tree : Subtree) : Subtree := { tree with expr := tree.expr.move shift }

/-- The failure with its tokens moved. -/
def Failure.move (failure : Failure) : Failure where
  cause := failure.cause
  token? := failure.token?.map shift
  unread := failure.unread.map shift

/-- What a rule comes to, with its tokens moved. -/
def Outcome.move : Outcome → Outcome
  | .ok (tree, rest) => .ok (tree.move shift, rest.map shift)
  | .error failure => .error (failure.move shift)

/-- It makes no difference whether the tokens are moved before the rule reads them or after. -/
def Commutes (rule : Rule) : Prop :=
  ∀ tokens, rule (tokens.map shift) = Outcome.move shift (rule tokens)

end Moves

variable {shift : Token → Token}

/-! ### Steps -/

theorem move_bind {first : Outcome} {second second' : Subtree × List Token → Outcome}
    (behind : ∀ tree rest, second' (tree.move shift, rest.map shift) =
      Outcome.move shift (second (tree, rest))) :
    Outcome.move shift first >>= second' = Outcome.move shift (first >>= second) := by
  cases first with
  | error failure => rfl
  | ok read => exact behind read.1 read.2

theorem move_atFront (cause : SyntaxError.Cause) (tokens : List Token) :
    (Failure.atFront cause tokens).move shift = .atFront cause (tokens.map shift) := by
  rw [Failure.move, Failure.atFront, Failure.atFront, List.head?_map]

theorem move_complete (expr : Expr) (height : Nat) (origin : Token) (unread : List Token) :
    complete (expr.move shift) height (shift origin) (unread.map shift) =
      Outcome.move shift (complete expr height origin unread) := by
  unfold complete
  split <;> rfl

/-! ### Rules -/

section Rules

variable (keeps : ∀ token, (shift token).data = token.data)

include keeps

theorem isOneOf_move (symbols : List Symbol) (token : Token) :
    isOneOf symbols (shift token) = isOneOf symbols token := by
  rw [isOneOf, isOneOf, keeps]

theorem move_chainFrom {operators : List Symbol} {operand : Rule}
    (commutes : Commutes shift operand) (rounds : Nat) (left : Subtree) (tokens : List Token) :
    chainFrom operators operand rounds (left.move shift) (tokens.map shift) =
      Outcome.move shift (chainFrom operators operand rounds left tokens) := by
  induction rounds generalizing left tokens with
  | zero => rfl
  | succ rounds inductionHypothesis =>
    cases tokens with
    | nil => rfl
    | cons operator rest =>
      have sameOperator := isOneOf_move keeps operators operator
      by_cases isOperator : isOneOf operators operator = true
      · rw [List.map_cons, chainFrom_operator (sameOperator.trans isOperator),
          chainFrom_operator isOperator, commutes]
        refine move_bind fun right behind => ?_
        show complete ((Expr.binary left.expr operator right.expr).move shift) _ (shift operator)
          (behind.map shift) >>= _ = _
        rw [move_complete]
        exact move_bind fun node later => inductionHypothesis node later
      · rw [List.map_cons, chainFrom, if_neg (sameOperator ▸ isOperator), chainFrom,
          if_neg isOperator]
        rfl

theorem commutes_chain (operators : List Symbol) {operand : Rule}
    (commutes : Commutes shift operand) : Commutes shift (chain operators operand) := by
  intro tokens
  rw [chain, chain, commutes]
  refine move_bind fun first rest => ?_
  dsimp only
  rw [List.length_map]
  exact move_chainFrom keeps commutes _ first rest

theorem commutes_expressionOf {operand : Rule} (commutes : Commutes shift operand) :
    Commutes shift (expressionOf operand) := by
  rw [expressionOf]
  induction tiers with
  | nil => exact commutes
  | cons operators tighter inductionHypothesis =>
    exact commutes_chain keeps operators inductionHypothesis

theorem move_closeBehind (opening : Token) (body : Subtree) (tokens : List Token) :
    closeBehind (shift opening) (body.move shift) (tokens.map shift) =
      Outcome.move shift (closeBehind opening body tokens) := by
  cases tokens with
  | nil => rfl
  | cons closing later =>
    rw [List.map_cons, closeBehind, closeBehind, isOneOf_move keeps]
    split
    · exact move_complete (.grouping body.expr) _ opening later
    · rw [Outcome.move, move_atFront, List.map_cons]

theorem commutes_operandOf {inner : Rule} (commutes : Commutes shift inner) :
    Commutes shift (operandOf inner) := by
  intro tokens
  cases tokens with
  | nil => rfl
  | cons token rest =>
    rw [List.map_cons]
    by_cases isUnary : token.data = .symbol .bang ∨ token.data = .symbol .minus
    · rw [operandOf_unary isUnary, operandOf_unary (by rwa [keeps]), commutes]
      exact move_bind fun operand behind =>
        move_complete (.unary token operand.expr) _ token behind
    by_cases opens : token.data = .symbol .leftParen
    · rw [operandOf_parenthesis opens, operandOf_parenthesis (by rwa [keeps]),
        commutes_expressionOf keeps commutes]
      exact move_bind fun body behind => move_closeBehind keeps token body behind
    · rw [operandOf_other isUnary opens, operandOf_other (by rwa [keeps]) (by rwa [keeps]), keeps]
      cases token.data.literal? with
      | some value => rfl
      | none => rw [Outcome.move, move_atFront, List.map_cons]

theorem commutes_operand (levels : Nat) : Commutes shift (operand levels) := by
  induction levels with
  | zero =>
    intro tokens
    rw [operand, Outcome.move, move_atFront]
  | succ levels inductionHypothesis => exact commutes_operandOf keeps inductionHypothesis

/-- The rule for expressions does not look at places. -/
theorem commutes_expression : Commutes shift expression :=
  commutes_expressionOf keeps (commutes_operand keeps (heightLimit + 1))

end Rules

/-! ### Whole inputs -/

/-- A tree or a failure, with its tokens moved. -/
def moveResult (shift : Token → Token) : Except Failure Expr → Except Failure Expr
  | .ok expr => .ok (expr.move shift)
  | .error failure => .error (failure.move shift)

theorem frontExpression_move (keeps : ∀ token, (shift token).data = token.data)
    (tokens : List Token) :
    frontExpression (tokens.map shift) = moveResult shift (frontExpression tokens) := by
  rw [frontExpression, frontExpression, commutes_expression keeps]
  cases expression tokens <;> rfl

theorem wholeExpression_move (keeps : ∀ token, (shift token).data = token.data)
    (tokens : List Token) :
    wholeExpression (tokens.map shift) = moveResult shift (wholeExpression tokens) := by
  rw [wholeExpression, wholeExpression, commutes_expression keeps]
  cases expression tokens with
  | error failure => rfl
  | ok read =>
    obtain ⟨tree, rest⟩ := read
    cases rest <;> rfl

end Grammar

open Grammar

/-! ### Tokens that are written alike -/

/-- The token at a place that is the same for all tokens. -/
def Token.unplaced (token : Token) : Token :=
  { token with span := { token.span with start := Place.ofText [] } }

/-- Tokens that are written alike become equal when they are moved to one place. -/
theorem Token.map_unplaced_congr {tokens tokens' : List Token}
    (written : tokens.map asLexeme = tokens'.map asLexeme) :
    tokens.map unplaced = tokens'.map unplaced := by
  have again (tokens : List Token) : (tokens.map unplaced).map Except.ok =
      (tokens.map asLexeme).map fun lexeme => lexeme.itemAt (Place.ofText []) := by
    rw [List.map_map, List.map_map]
    rfl
  have injective (first second : Token) (equal : (Except.ok first : Item) = .ok second) :
      first = second := Except.ok.inj equal
  rw [← List.map_inj_right injective, again, again, written]

theorem Token.data_unplaced (token : Token) : token.unplaced.data = token.data := rfl

theorem Token.asLexeme_unplaced (token : Token) : token.unplaced.asLexeme = token.asLexeme := rfl

theorem Expr.alike_of_move_unplaced {first second : Expr}
    (moved : first.move Token.unplaced = second.move Token.unplaced) : first.Alike second := by
  have operators {operator operator' : Token} (same : operator.unplaced = operator'.unplaced) :
      operator.asLexeme = operator'.asLexeme := by
    rw [← operator.asLexeme_unplaced, same, operator'.asLexeme_unplaced]
  induction first generalizing second with
  | binary left operator right inductionLeft inductionRight =>
    cases second with
    | binary left' operator' right' =>
      obtain ⟨lefts, same, rights⟩ := Expr.binary.inj moved
      exact .binary (operators same) (inductionLeft lefts) (inductionRight rights)
    | grouping | literal | unary => cases moved
  | grouping body inductionHypothesis =>
    cases second with
    | grouping body' => exact .grouping (inductionHypothesis (Expr.grouping.inj moved))
    | binary | literal | unary => cases moved
  | literal value =>
    cases second with
    | literal value' =>
      obtain rfl : value = value' := Expr.literal.inj moved
      exact .literal rfl
    | binary | grouping | unary => cases moved
  | unary operator operand inductionHypothesis =>
    cases second with
    | unary operator' operand' =>
      obtain ⟨same, operands⟩ := Expr.unary.inj moved
      exact .unary (operators same) (inductionHypothesis operands)
    | binary | grouping | literal => cases moved

/-! ### Readings that differ in places only -/

/-- Two readings come to trees that are the same and printed the same, or to failures of the same
cause about tokens of the same text. -/
inductive SameResult : Except SyntaxError Expr → Except SyntaxError Expr → Prop
  | ok {first second : Expr} (same : first.same second = true)
      (prefixForm : first.prefixForm = second.prefixForm)
      (sourceForm : first.sourceForm = second.sourceForm) : SameResult (.ok first) (.ok second)
  | error {first second : SyntaxError} (cause : first.cause = second.cause)
      (lexeme? : first.lexeme? = second.lexeme?) : SameResult (.error first) (.error second)

namespace Grammar

theorem located_lexeme? (failure : Failure) (stop : Place) :
    (failure.located stop).lexeme? = failure.token?.map Token.lexeme := by
  unfold Failure.located
  split <;> simp [*]

theorem Failure.lexeme?_move_unplaced (failure : Failure) :
    (failure.move Token.unplaced).token?.map Token.lexeme = failure.token?.map Token.lexeme := by
  rw [Failure.move, Option.map_map]
  rfl

theorem sameResult_of_moveResult {first second : Except Failure Expr}
    (moved : moveResult Token.unplaced first = moveResult Token.unplaced second)
    (writable : ∀ expr, second = .ok expr → expr.Writable) (stop stop' : Place) :
    SameResult (located first stop) (located second stop') := by
  cases first with
  | ok expr =>
    cases second with
    | ok expr' =>
      have alike := Expr.alike_of_move_unplaced (Except.ok.inj moved).symm
      exact .ok (alike.same (writable expr' rfl))
        (alike.prefixForm_eq Token.lexeme_eq_of_asLexeme).symm
        (alike.sourceForm_eq Token.lexeme_eq_of_asLexeme).symm
    | error => cases moved
  | error failure =>
    cases second with
    | ok => cases moved
    | error failure' =>
      have failures := Except.error.inj moved
      have causes : failure.cause = failure'.cause := (Failure.mk.inj failures).1
      refine .error ?_ ?_
      · rw [located_cause, located_cause, causes]
      · rw [located_lexeme?, located_lexeme?, ← failure.lexeme?_move_unplaced, failures,
          failure'.lexeme?_move_unplaced]

end Grammar

theorem Sentence.map_unplaced_congr {tokens tokens' : List Token}
    (written : tokens.map Token.asLexeme = tokens'.map Token.asLexeme) :
    (ofTokens tokens).tokens.map Token.unplaced =
      (ofTokens tokens').tokens.map Token.unplaced := by
  have cut (tokens : List Token) : (ofTokens tokens).tokens.map Token.unplaced =
      (tokens.map Token.unplaced).takeWhile fun token => !token.isEnd := by
    rw [List.takeWhile_map]
    rfl
  rw [cut, cut, Token.map_unplaced_congr written]

section Alike

variable {source source' : Text}
  (written : (tokenize source).1.map Token.asLexeme = (tokenize source').1.map Token.asLexeme)

include written

/-- A reader that carries out a rule which does not look at places comes to the same on texts with
tokens that are written alike. -/
theorem sameResult_of_located {parse : List Token → Except SyntaxError Expr}
    {rule : List Token → Except Failure Expr}
    (reads : ∀ tokens, parse tokens =
      located (rule (Sentence.ofTokens tokens).tokens) (Sentence.ofTokens tokens).stop)
    (moves : ∀ tokens, rule (tokens.map Token.unplaced) =
      moveResult Token.unplaced (rule tokens))
    (writable : ∀ expr, parse (tokenize source').1 = .ok expr → expr.Writable) :
    SameResult (parse (tokenize source).1) (parse (tokenize source').1) := by
  rw [reads] at writable
  rw [reads, reads]
  refine sameResult_of_moveResult ?_ (fun expr read => writable expr (located_eq_ok.mpr read)) _ _
  rw [← moves, ← moves, Sentence.map_unplaced_congr written]

/-- Texts with tokens that are written alike start with the same expression. -/
theorem sameResult_parseFront :
    SameResult (parseFront (tokenize source).1) (parseFront (tokenize source').1) :=
  sameResult_of_located written parseFront_eq_located (frontExpression_move Token.data_unplaced)
    fun _ parsed => (writable_of_parse (.inl parsed)).1

/-- Texts with tokens that are written alike are the same expression. -/
theorem sameResult_parseWhole :
    SameResult (parseWhole (tokenize source).1) (parseWhole (tokenize source').1) :=
  sameResult_of_located written parseWhole_eq_located (wholeExpression_move Token.data_unplaced)
    fun _ parsed => (writable_of_parse (.inr parsed)).1

end Alike

end LoxFront
