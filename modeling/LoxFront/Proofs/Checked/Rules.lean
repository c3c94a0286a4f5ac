/-
This file carries out the rules of the grammar on an index into the tokens and a count of the open
levels. The rules elsewhere take a list apart, so there is no index that could be out of range. It
is shown that they come to the same: as long as the index is no further than the end mark, a rule
that is carried out at the index agrees with the rule on the tokens from there on, and it leaves
the index no further than the end mark and the count as it was. The relation is one of results, so
it is proved for the ways in which rules are put together, and then for the rules by their
recursion.
-/

import LoxFront.Proofs.Checked.Slices
import LoxFront.Proofs.EndMarks
import LoxFront.Proofs.Failures

namespace LoxFront.Checked

/-! ### Attempts -/

/-- How far the tokens have been read, and how many levels are open. -/
structure Reader where
  current : Nat := 0
  depth : Nat := 0

/-- An attempt to read something. It comes to a result or an error, and to nothing at all where
something is at fault. -/
def Attempt (Result : Type) : Type := Reader → Option (Except SyntaxError Result × Reader)

namespace Attempt

/-- One attempt, and if it comes to a result, another one from there. -/
def andThen {First Second : Type} (first : Attempt First) (second : First → Attempt Second) :
    Attempt Second := fun reader =>
  match first reader with
  | none => none
  | some (.error error, later) => some (.error error, later)
  | some (.ok value, later) => second value later

instance : Monad Attempt where
  pure result := fun reader => some (.ok result, reader)
  bind := andThen

/-- A fault. -/
def fault {Result : Type} : Attempt Result := fun _ => none

variable {First Second : Type} {first : Attempt First} {second : First → Attempt Second}
  {reader later : Reader}

theorem bind_of_ok {value : First} (came : first reader = some (.ok value, later)) :
    (first >>= second) reader = second value later := by
  show andThen first second reader = _
  rw [andThen, came]

theorem bind_of_error {error : SyntaxError} (came : first reader = some (.error error, later)) :
    (first >>= second) reader = some (.error error, later) := by
  show andThen first second reader = _
  rw [andThen, came]

end Attempt

open Attempt (fault bind_of_ok bind_of_error)
open Grammar (Subtree Rule Outcome isOneOf)

section Definitions

variable (tokens : List Token)

/-! ### Steps -/

/-- The token at the index. -/
def peek : Attempt Token := fun reader => do
  let token ← tokens[reader.current]?
  some (.ok token, reader)

/-- Moves the index behind a token. -/
def moveBehind (token : Token) : Attempt Token := fun reader =>
  some (.ok token, { reader with current := reader.current + 1 })

/-- The token at the index, which moves on unless that is an end mark. -/
def advance : Attempt Token := do
  let token ← peek tokens
  if token.isEnd then return token else moveBehind token

/-- The token at the index if it is one of the symbols, and then the index moves on. -/
def advanceIf (symbols : List Symbol) : Attempt (Option Token) := do
  let next ← peek tokens
  if isOneOf symbols next then
    let token ← advance tokens
    return some token
  else return none

/-- A failure that is about a token. -/
def fail {Result : Type} (cause : SyntaxError.Cause) (token : Token) : Attempt Result :=
  fun reader => do
    let column ← token.span.start.column?
    let error : SyntaxError :=
      { cause
        line := token.span.line
        column
        lexeme? := if token.isEnd then none else some token.lexeme }
    some (.error error, reader)

/-- A failure that is about the token at the index. -/
def failNext {Result : Type} (cause : SyntaxError.Cause) : Attempt Result := do
  let next ← peek tokens
  fail cause next

/-- A subtree that is complete now, unless it is too high. -/
def complete (expr : Expr) (height : Nat) (origin : Token) : Attempt Subtree :=
  if heightLimit < height then fail .tooHigh origin else return { expr, height }

/-- A rule with one more level open. The level is closed again also where the rule fails. -/
def nested (rule : Attempt Subtree) : Attempt Subtree := fun reader =>
  if heightLimit ≤ reader.depth then failNext tokens .tooHigh reader
  else do
    let (outcome, later) ← rule { reader with depth := reader.depth + 1 }
    if later.depth = 0 then none
    else some (outcome, { later with depth := later.depth - 1 })

/-! ### Rules -/

/-- Further operands of a tier. To need more rounds than were allowed for is a fault. -/
def chainFrom (operators : List Symbol) (operand : Attempt Subtree) :
    (rounds : Nat) → Subtree → Attempt Subtree
  | 0, _ => fault
  | rounds + 1, left => do
    match ← advanceIf tokens operators with
    | some operator =>
      let right ← operand
      let node ← complete (.binary left.expr operator right.expr)
        (max left.height right.height + 1) operator
      chainFrom operators operand rounds node
    | none => return left

/-- One or more operands with operators of one tier between them. -/
def chain (operators : List Symbol) (operand : Attempt Subtree) : Attempt Subtree := do
  let first ← operand
  chainFrom tokens operators operand tokens.length first

/-- An expression, given how its operands are read. -/
def expressionOf (operand : Attempt Subtree) : Attempt Subtree :=
  Grammar.tiers.foldr (chain tokens) operand

/-- What stands behind an opening parenthesis. -/
def closeBehind (opening : Token) (body : Subtree) : Attempt Subtree := do
  match ← advanceIf tokens [.rightParen] with
  | some _ => complete (.grouping body.expr) (body.height + 1) opening
  | none => failNext tokens .unclosedParenthesis

/-- A value or an expression in parentheses. -/
def primary (expression : Attempt Subtree) : Attempt Subtree := do
  let next ← peek tokens
  match next.data.literal? with
  | some value =>
    let _ ← advance tokens
    return { expr := .literal value, height := 0 }
  | none =>
    if isOneOf [.leftParen] next then
      let opening ← advance tokens
      let body ← nested tokens expression
      closeBehind tokens opening body
    else failNext tokens .missingOperand

/-- An operand, given how an operand one level further down is read. -/
def operandOf (inner : Attempt Subtree) : Attempt Subtree := do
  match ← advanceIf tokens Grammar.unaryOperators with
  | some operator =>
    let operand ← nested tokens inner
    complete (.unary operator operand.expr) (operand.height + 1) operator
  | none => primary tokens (expressionOf tokens inner)

/-- An operand. To go down further than the levels is a fault. -/
def operand : (levels : Nat) → Attempt Subtree
  | 0 => fault
  | levels + 1 => operandOf tokens (operand levels)

/-- An expression outside every parenthesis. -/
def expression : Attempt Subtree := expressionOf tokens (operand tokens (heightLimit + 1))

/-- An expression, whatever stands behind it. -/
def frontExpression : Attempt Expr := do
  let tree ← expression tokens
  return tree.expr

/-- An expression and nothing behind it. -/
def wholeExpression : Attempt Expr := do
  let tree ← expression tokens
  let next ← peek tokens
  if next.isEnd then return tree.expr else fail .trailingTokens next

end Definitions

/-! ### Agreement -/

/-- The tokens are those that are read, an end mark, and whatever stands behind it. -/
structure Delimits (tokens front : List Token) (stop : Place) : Prop where
  unmarked : ∀ token ∈ front, token.isEnd = false
  marked : ∃ mark later, tokens = front ++ mark :: later ∧ mark.isEnd = true ∧
    mark.span.start = stop

/-- What an attempt comes to is what a rule comes to. If that is a subtree, the index has not moved
back and is no further than the end mark. -/
inductive Agrees (front : List Token) (stop : Place) (first depth : Nat) :
    Option (Except SyntaxError Subtree × Reader) → Outcome → Prop
  | ok {tree : Subtree} {current : Nat} (passed : first ≤ current)
      (inside : current ≤ front.length) :
      Agrees front stop first depth (some (.ok tree, { current, depth }))
        (.ok (tree, front.drop current))
  | error {failure : Grammar.Failure} {current : Nat} :
      Agrees front stop first depth (some (.error (failure.located stop), { current, depth }))
        (.error failure)

/-- At every index up to the end mark, an attempt at a depth agrees with a rule. -/
def Follows (front : List Token) (stop : Place) (attempt : Attempt Subtree) (rule : Rule)
    (depth : Nat) : Prop :=
  ∀ current, current ≤ front.length →
    Agrees front stop current depth (attempt { current, depth }) (rule (front.drop current))

section Agreement

variable {tokens front : List Token} {stop : Place} {first current depth : Nat}

theorem Agrees.of_le {attempted : Option (Except SyntaxError Subtree × Reader)}
    {outcome : Outcome} (agrees : Agrees front stop current depth attempted outcome)
    (le : first ≤ current) : Agrees front stop first depth attempted outcome := by
  cases agrees with
  | ok passed inside => exact .ok (Nat.le_trans le passed) inside
  | error => exact .error

theorem Agrees.of_located {failure : Grammar.Failure} {error : SyntaxError}
    (located : failure.located stop = error) :
    Agrees front stop first depth (some (.error error, { current, depth })) (.error failure) := by
  subst located
  exact .error

/-- If two attempts agree with two rules, so do they one after the other. -/
theorem Agrees.bind {attempt : Attempt Subtree} {second : Subtree → Attempt Subtree}
    {outcome : Outcome} {secondRule : Subtree × List Token → Outcome} {reader : Reader}
    (agrees : Agrees front stop first depth (attempt reader) outcome)
    (behind : ∀ tree current, first ≤ current → current ≤ front.length →
      Agrees front stop current depth (second tree { current, depth })
        (secondRule (tree, front.drop current))) :
    Agrees front stop first depth ((attempt >>= second) reader) (outcome >>= secondRule) := by
  generalize attempted : attempt reader = result at agrees
  cases agrees with
  | ok passed inside =>
    rw [bind_of_ok attempted]
    exact (behind _ _ passed inside).of_le passed
  | error =>
    rw [bind_of_error attempted]
    exact .error

/-! ### Steps at an index -/

/-- At every index up to the end mark there is a token: one that is read, or the end mark. -/
theorem next_cases (delimits : Delimits tokens front stop) (inside : current ≤ front.length) :
    (∃ token, tokens[current]? = some token ∧ token.isEnd = false ∧ current < front.length ∧
      front.drop current = token :: front.drop (current + 1)) ∨
    ∃ mark, tokens[current]? = some mark ∧ mark.isEnd = true ∧ mark.span.start = stop ∧
      front.drop current = [] := by
  obtain ⟨mark, later, rfl, isEnd, start⟩ := delimits.marked
  rcases Nat.lt_or_eq_of_le inside with below | rfl
  · refine Or.inl ⟨front[current], ?_, ?_, below, List.drop_eq_getElem_cons below⟩
    · rw [List.getElem?_append_left below, List.getElem?_eq_getElem below]
    · exact delimits.unmarked _ (List.getElem_mem below)
  · refine Or.inr ⟨mark, ?_, isEnd, start, List.drop_length⟩
    rw [List.getElem?_append_right (Nat.le_refl _), Nat.sub_self]
    rfl

theorem peek_eq {token : Token} (found : tokens[current]? = some token) :
    peek tokens { current, depth } = some (.ok token, { current, depth }) := by
  show (tokens[current]?).bind _ = _
  rw [found]
  rfl

theorem advance_eq {token : Token} (found : tokens[current]? = some token)
    (notEnd : token.isEnd = false) :
    advance tokens { current, depth } = some (.ok token, { current := current + 1, depth }) := by
  rw [advance, bind_of_ok (peek_eq found), if_neg (by rw [notEnd]; decide)]
  rfl

theorem isEnd_of_isOneOf {symbols : List Symbol} {token : Token}
    (isOne : isOneOf symbols token = true) : token.isEnd = false := by
  obtain ⟨mark, -, data⟩ := Grammar.isOneOf_iff.mp isOne
  rw [Token.isEnd, Token.kind, data]
  rfl

theorem advanceIf_of_isOneOf {symbols : List Symbol} {token : Token}
    (found : tokens[current]? = some token) (isOne : isOneOf symbols token = true) :
    advanceIf tokens symbols { current, depth } =
      some (.ok (some token), { current := current + 1, depth }) := by
  rw [advanceIf, bind_of_ok (peek_eq found), if_pos isOne,
    bind_of_ok (advance_eq found (isEnd_of_isOneOf isOne))]
  rfl

theorem advanceIf_of_other {symbols : List Symbol} {token : Token}
    (found : tokens[current]? = some token) (other : ¬ isOneOf symbols token = true) :
    advanceIf tokens symbols { current, depth } = some (.ok none, { current, depth }) := by
  rw [advanceIf, bind_of_ok (peek_eq found), if_neg other]
  rfl

/-- No symbol is an end mark. -/
theorem not_isOneOf_of_isEnd {symbols : List Symbol} {token : Token} (isEnd : token.isEnd = true) :
    ¬ isOneOf symbols token = true := by
  intro isOne
  rw [isEnd_of_isOneOf isOne] at isEnd
  cases isEnd

theorem fail_eq {Result : Type} (cause : SyntaxError.Cause) (token : Token) (reader : Reader) :
    (fail cause token : Attempt Result) reader = some (.error (.about cause token), reader) := by
  show (token.span.start.column?).bind _ = _
  rw [Place.column?_eq]
  rfl

theorem agrees_failNext (delimits : Delimits tokens front stop) (inside : current ≤ front.length)
    (cause : SyntaxError.Cause) :
    Agrees front stop current depth (failNext tokens cause { current, depth })
      (.error (.atFront cause (front.drop current))) := by
  rcases next_cases delimits inside with
    ⟨token, found, notEnd, -, behind⟩ | ⟨mark, found, isEnd, rfl, behind⟩
  · rw [failNext, bind_of_ok (peek_eq found), fail_eq, behind]
    exact .of_located (Grammar.located_some rfl notEnd stop)
  · rw [failNext, bind_of_ok (peek_eq found), fail_eq, behind]
    exact .of_located (Grammar.located_none rfl isEnd)

theorem agrees_complete {origin : Token} (notEnd : origin.isEnd = false)
    (inside : current ≤ front.length) (expr : Expr) (height : Nat) :
    Agrees front stop current depth (complete expr height origin { current, depth })
      (Grammar.complete expr height origin (front.drop current)) := by
  rw [complete, Grammar.complete]
  by_cases small : height ≤ heightLimit
  · rw [if_neg (Nat.not_lt.mpr small), if_pos small]
    exact .ok (Nat.le_refl _) inside
  · rw [if_pos (Nat.not_le.mp small), if_neg small, fail_eq]
    exact .of_located (Grammar.located_some rfl notEnd stop)

/-! ### Rules at an index -/

/-- Below the limit one more level can be opened. -/
theorem follows_nested {attempt : Attempt Subtree} {rule : Rule} (shallow : depth < heightLimit)
    (follows : Follows front stop attempt rule (depth + 1)) :
    Follows front stop (nested tokens attempt) rule depth := by
  intro current inside
  have agrees := follows current inside
  rw [nested, if_neg (Nat.not_le.mpr shallow)]
  show Agrees front stop current depth ((attempt { current, depth := depth + 1 }).bind _) _
  generalize attempt { current, depth := depth + 1 } = attempted at agrees
  generalize rule (front.drop current) = outcome at agrees
  cases agrees with
  | ok passed inside => exact .ok passed inside
  | error => exact .error

/-- At the limit none can, and so nothing can be read that needs one. -/
theorem follows_nested_spent {attempt : Attempt Subtree} {rule : Rule}
    (delimits : Delimits tokens front stop)
    (spent : ∀ tokens, rule tokens = .error (.atFront .tooHigh tokens)) :
    Follows front stop (nested tokens attempt) rule heightLimit := by
  intro current inside
  rw [nested, if_pos (Nat.le_refl _), spent]
  exact agrees_failNext delimits inside .tooHigh

section Chain

variable {operators : List Symbol} {operand : Attempt Subtree} {rule : Rule}

/-- As many rounds are enough as there are tokens left and one more. -/
theorem agrees_chainFrom (delimits : Delimits tokens front stop)
    (follows : Follows front stop operand rule depth) {rounds enough : Nat} {left : Subtree}
    (inside : current ≤ front.length) (most : front.length < current + rounds)
    (least : front.length ≤ current + enough) :
    Agrees front stop current depth
      (chainFrom tokens operators operand rounds left { current, depth })
      (Grammar.chainFrom operators rule enough left (front.drop current)) := by
  induction rounds generalizing current enough left with
  | zero => exact absurd inside (Nat.not_le.mpr most)
  | succ rounds inductionHypothesis =>
    rw [chainFrom]
    rcases next_cases delimits inside with
      ⟨token, found, notEnd, below, behind⟩ | ⟨mark, found, isEnd, -, behind⟩
    · obtain ⟨enough, rfl⟩ : ∃ fewer, enough = fewer + 1 :=
        Nat.exists_eq_succ_of_ne_zero (by omega)
      by_cases isOperator : isOneOf operators token = true
      · rw [bind_of_ok (advanceIf_of_isOneOf found isOperator), behind,
          Grammar.chainFrom_operator isOperator]
        refine Agrees.of_le ?_ (Nat.le_succ current)
        refine (follows (current + 1) below).bind fun right afterRight passed insideRight => ?_
        refine (agrees_complete notEnd insideRight _ _).bind fun node afterNode passedNode
          insideNode => ?_
        -- At least the operator has been passed, so one round less is still enough.
        exact inductionHypothesis insideNode (by omega) (by omega)
      · rw [bind_of_ok (advanceIf_of_other found isOperator), behind, Grammar.chainFrom,
          if_neg isOperator, ← behind]
        exact .ok (Nat.le_refl _) inside
    · rw [bind_of_ok (advanceIf_of_other found (not_isOneOf_of_isEnd isEnd))]
      have still : Grammar.chainFrom operators rule enough left (front.drop current) =
          .ok (left, front.drop current) := by
        rw [behind]
        cases enough <;> rfl
      rw [still]
      exact .ok (Nat.le_refl _) inside

theorem follows_chain (delimits : Delimits tokens front stop)
    (follows : Follows front stop operand rule depth) :
    Follows front stop (chain tokens operators operand) (Grammar.chain operators rule) depth := by
  intro current inside
  refine (follows current inside).bind fun left current _ insideLeft => ?_
  obtain ⟨mark, later, rfl, -, -⟩ := delimits.marked
  refine agrees_chainFrom delimits follows insideLeft ?_ ?_
  · rw [List.length_append, List.length_cons]
    omega
  · rw [List.length_drop]
    omega

end Chain

theorem follows_expressionOf {operand : Attempt Subtree} {rule : Rule}
    (delimits : Delimits tokens front stop) (follows : Follows front stop operand rule depth) :
    Follows front stop (expressionOf tokens operand) (Grammar.expressionOf rule) depth :=
  follows_chain delimits <| follows_chain delimits <| follows_chain delimits <|
    follows_chain delimits follows

section Operand

variable {inner expression : Attempt Subtree} {rule : Rule}

theorem agrees_closeBehind (delimits : Delimits tokens front stop)
    (inside : current ≤ front.length) {opening : Token} (notEnd : opening.isEnd = false)
    (body : Subtree) :
    Agrees front stop current depth (closeBehind tokens opening body { current, depth })
      (Grammar.closeBehind opening body (front.drop current)) := by
  have unclosed : Agrees front stop current depth
      (failNext tokens .unclosedParenthesis { current, depth })
      (.error (.atFront .unclosedParenthesis (front.drop current))) :=
    agrees_failNext delimits inside .unclosedParenthesis
  rw [closeBehind]
  rcases next_cases delimits inside with
    ⟨closing, found, -, below, behind⟩ | ⟨mark, found, isEnd, -, behind⟩
  · by_cases closes : isOneOf [.rightParen] closing = true
    · rw [bind_of_ok (advanceIf_of_isOneOf found closes), behind, Grammar.closeBehind,
        if_pos closes]
      exact (agrees_complete notEnd below _ _).of_le (Nat.le_succ current)
    · rw [bind_of_ok (advanceIf_of_other found closes)]
      rw [behind] at unclosed ⊢
      rw [Grammar.closeBehind, if_neg closes]
      exact unclosed
  · rw [bind_of_ok (advanceIf_of_other found (not_isOneOf_of_isEnd isEnd))]
    rw [behind] at unclosed ⊢
    exact unclosed

theorem agrees_primary (delimits : Delimits tokens front stop)
    (follows : Follows front stop (nested tokens expression) (Grammar.expressionOf rule) depth)
    (inside : current ≤ front.length)
    (notUnary : ∀ token ∈ (front.drop current).head?, ¬ token.IsUnary) :
    Agrees front stop current depth (primary tokens expression { current, depth })
      (Grammar.operandOf rule (front.drop current)) := by
  have missing : Agrees front stop current depth
      (failNext tokens .missingOperand { current, depth })
      (.error (.atFront .missingOperand (front.drop current))) :=
    agrees_failNext delimits inside .missingOperand
  rw [primary]
  rcases next_cases delimits inside with
    ⟨token, found, notEnd, below, behind⟩ | ⟨mark, found, isEnd, -, behind⟩
  · rw [bind_of_ok (peek_eq found)]
    rw [behind] at notUnary missing ⊢
    have other := notUnary token rfl
    cases denotes : token.data.literal? with
    | some value =>
      rw [Grammar.operandOf_literal denotes]
      dsimp only
      rw [bind_of_ok (advance_eq found notEnd)]
      exact .ok (Nat.le_succ current) below
    | none =>
      dsimp only
      by_cases opens : isOneOf [.leftParen] token = true
      · rw [if_pos opens, bind_of_ok (advance_eq found notEnd),
          Grammar.operandOf_parenthesis (Grammar.isOneOf_singleton.mp opens)]
        refine Agrees.of_le ?_ (Nat.le_succ current)
        refine (follows (current + 1) below).bind fun body afterBody _ insideBody => ?_
        exact agrees_closeBehind delimits insideBody notEnd body
      · have notOpening := fun data => opens (Grammar.isOneOf_singleton.mpr data)
        rw [if_neg opens, Grammar.operandOf_other other notOpening, denotes]
        exact missing
  · rw [bind_of_ok (peek_eq found), Token.isEnd_iff.mp isEnd]
    dsimp only [Token.Data.literal?]
    rw [if_neg (not_isOneOf_of_isEnd isEnd)]
    rw [behind] at missing ⊢
    exact missing

theorem follows_operandOf (delimits : Delimits tokens front stop)
    (follows : Follows front stop (nested tokens inner) rule depth)
    (followsBody : Follows front stop (nested tokens (expressionOf tokens inner))
      (Grammar.expressionOf rule) depth) :
    Follows front stop (operandOf tokens inner) (Grammar.operandOf rule) depth := by
  intro current inside
  rw [operandOf]
  rcases next_cases delimits inside with
    ⟨token, found, notEnd, below, behind⟩ | ⟨mark, found, isEnd, -, behind⟩
  · by_cases isUnary : isOneOf Grammar.unaryOperators token = true
    · rw [bind_of_ok (advanceIf_of_isOneOf found isUnary), behind,
        Grammar.operandOf_unary (Grammar.isOneOf_unaryOperators.mp isUnary)]
      refine Agrees.of_le ?_ (Nat.le_succ current)
      refine (follows (current + 1) below).bind fun operand afterOperand _ insideOperand => ?_
      exact agrees_complete notEnd insideOperand _ _
    · rw [bind_of_ok (advanceIf_of_other found isUnary)]
      refine agrees_primary delimits followsBody inside fun next member unary => isUnary ?_
      rw [behind] at member
      obtain rfl := Option.mem_some.mp member
      exact Grammar.isOneOf_unaryOperators.mpr unary
  · rw [bind_of_ok (advanceIf_of_other found (not_isOneOf_of_isEnd isEnd))]
    refine agrees_primary delimits followsBody inside fun next member => ?_
    rw [behind] at member
    cases member

/-- With as many levels to spare as the limit leaves, an operand is read at every depth. -/
theorem follows_operand (delimits : Delimits tokens front stop) {levels : Nat}
    (sum : depth + levels = heightLimit) :
    Follows front stop (operand tokens (levels + 1)) (Grammar.operand (levels + 1)) depth := by
  induction levels generalizing depth with
  | zero =>
    -- At the limit the rule inside is carried out on neither side.
    obtain rfl : depth = heightLimit := sum
    exact follows_operandOf delimits
      (follows_nested_spent delimits fun _ => rfl)
      (follows_nested_spent delimits fun tokens => Grammar.ruleAt_zero (Nat.zero_le 4) tokens)
  | succ levels inductionHypothesis =>
    have deeper := inductionHypothesis (show depth + 1 + levels = heightLimit by omega)
    exact follows_operandOf delimits
      (follows_nested (by omega) deeper)
      (follows_nested (by omega) (follows_expressionOf delimits deeper))

theorem follows_expression (delimits : Delimits tokens front stop) :
    Follows front stop (Checked.expression tokens) Grammar.expression 0 :=
  follows_expressionOf delimits (follows_operand delimits (Nat.zero_add heightLimit))

end Operand

/-! ### Whole inputs -/

theorem agrees_expression (delimits : Delimits tokens front stop) :
    Agrees front stop 0 0 (expression tokens {}) (Grammar.expression front) := by
  have agrees := follows_expression delimits 0 (Nat.zero_le _)
  rwa [List.drop_zero] at agrees

/-- An input is read without a fault if, behind the expression at its front, what is done at the
index comes to what is made of the tokens from there on. -/
theorem exists_bind_expression_eq (delimits : Delimits tokens front stop)
    {behind : Subtree → Attempt Expr}
    {behindRule : Subtree × List Token → Except Grammar.Failure Expr}
    (ends : ∀ (tree : Subtree) (current : Nat), current ≤ front.length →
      behind tree { current } =
        some (Grammar.located (behindRule (tree, front.drop current)) stop, { current })) :
    ∃ reader, (expression tokens >>= behind) {} =
      some (Grammar.located (Grammar.expression front >>= behindRule) stop, reader) := by
  have agrees := agrees_expression delimits
  generalize attempted : expression tokens {} = result at agrees
  generalize Grammar.expression front = outcome at agrees
  cases agrees with
  | @ok tree current _ inside =>
    rw [bind_of_ok attempted]
    exact ⟨_, ends tree current inside⟩
  | error =>
    rw [bind_of_error attempted]
    exact ⟨_, rfl⟩

/-- The front of the tokens is read without a fault. -/
theorem exists_frontExpression_eq (delimits : Delimits tokens front stop) :
    ∃ reader, frontExpression tokens {} =
      some (Grammar.located (Grammar.frontExpression front) stop, reader) :=
  exists_bind_expression_eq delimits fun _ _ _ => rfl

/-- Behind an expression that is the whole there is an end mark, and the index stays there. -/
theorem endBehind_eq (delimits : Delimits tokens front stop) (inside : current ≤ front.length)
    (expr : Expr) :
    (peek tokens >>= fun next => if next.isEnd then return expr else fail .trailingTokens next)
        { current, depth } =
      some (Grammar.located (if (front.drop current).isEmpty then .ok expr
        else .error (.atFront .trailingTokens (front.drop current))) stop, { current, depth }) := by
  rcases next_cases delimits inside with
    ⟨token, found, notEnd, -, behind⟩ | ⟨mark, found, isEnd, -, behind⟩
  · have located : (Grammar.Failure.atFront .trailingTokens
        (token :: front.drop (current + 1))).located stop = .about .trailingTokens token :=
      Grammar.located_some rfl notEnd stop
    rw [bind_of_ok (peek_eq found), if_neg (by rw [notEnd]; decide), fail_eq, behind, ← located]
    rfl
  · rw [bind_of_ok (peek_eq found), if_pos isEnd, behind]
    rfl

/-- The tokens as a whole are read without a fault. -/
theorem exists_wholeExpression_eq (delimits : Delimits tokens front stop) :
    ∃ reader, wholeExpression tokens {} =
      some (Grammar.located (Grammar.wholeExpression front) stop, reader) :=
  exists_bind_expression_eq delimits fun tree _ inside => endBehind_eq delimits inside tree.expr

end Agreement

end LoxFront.Checked
