/-
This file keeps a journal of the calls of rules in a run. Whenever a rule is called that is put
down, with the rules that are being carried out at that point and with the index and the depth, and
whenever a call has come to something that is put down too. The rules are carried out as they call
one another, with a count of what is allowed that has nothing to do with the depth. To use it up is
a fault, and short of that it makes no difference: a run that has come to something comes to the
same, with the same journal, however much more is allowed.
-/

import LoxFront.Proofs.Checked.Rules

namespace LoxFront.Checked

open Attempt (fault)
open Grammar (Subtree isOneOf)

/-! ### Journals -/

/-- The rules, as they call one another. -/
inductive RuleName
  | expression
  | equality
  | comparison
  | term
  | factor
  | unary
  | primary
  /-- A rule inside one more level. -/
  | nested (inner : RuleName)
  deriving DecidableEq

/-- Whether the rule opens a level for what it calls. -/
def RuleName.opensLevel : RuleName → Bool
  | nested _ => true
  | _ => false

/-- A call of a rule. -/
structure Call where
  rule : RuleName
  /-- The rules that are being carried out, the one that calls first. -/
  callers : List RuleName
  /-- The index and the depth at which the rule is called. -/
  entry : Reader

/-- What happens in a run. -/
inductive Event
  /-- A rule is called. -/
  | called (call : Call)
  /-- A call has come to a subtree or an error, at an index and a depth. -/
  | returned (call : Call) (outcome : Except SyntaxError Subtree) (exit : Reader)

/-- The index and the depth at which something happens. -/
def Event.reader : Event → Reader
  | called call => call.entry
  | returned _ _ exit => exit

/-- How far the tokens have been read, and what has happened so far. -/
structure Journal where
  reader : Reader := {}
  events : List Event := []

/-- An attempt that keeps a journal. -/
abbrev Recorded (Result : Type) : Type := ExceptT SyntaxError (StateT Journal Option) Result

namespace Recorded

/-- An attempt in which no rule is called. -/
def quietly {Result : Type} (attempt : Attempt Result) : Recorded Result := fun journal => do
  let (outcome, reader) ← attempt journal.reader
  some (outcome, { journal with reader })

/-- Puts down that a rule is called. -/
def enter (rule : RuleName) (callers : List RuleName) : StateT Journal Option Call := fun journal =>
  let call : Call := { rule, callers, entry := journal.reader }
  some (call, { journal with events := journal.events ++ [.called call] })

/-- Puts down what a call has come to. -/
def leave (call : Call) (outcome : Except SyntaxError Subtree) :
    StateT Journal Option (Except SyntaxError Subtree) := fun journal =>
  some (outcome,
    { journal with events := journal.events ++ [.returned call outcome journal.reader] })

/-- Opens a level. -/
def openLevel : StateT Journal Option Unit := fun journal =>
  let reader := { journal.reader with depth := journal.reader.depth + 1 }
  some ((), { journal with reader })

/-- Closes a level. It is a fault if none is open. -/
def closeLevel : StateT Journal Option Unit := fun journal =>
  let reader := { journal.reader with depth := journal.reader.depth - 1 }
  if journal.reader.depth = 0 then none else some ((), { journal with reader })

/-! ### Rules -/

section Definitions

variable (tokens : List Token)

section CarryOut

variable (call : RuleName → Recorded Subtree)

/-- Further operands of a tier. To need more rounds than are allowed is a fault. -/
def chainFrom (operators : List Symbol) (operand : RuleName) :
    (rounds : Nat) → Subtree → Recorded Subtree
  | 0, _ => quietly fault
  | rounds + 1, left => do
    match ← quietly (advanceIf tokens operators) with
    | some operator =>
      let right ← call operand
      let node ← quietly (complete (.binary left.expr operator right.expr)
        (max left.height right.height + 1) operator)
      chainFrom operators operand rounds node
    | none => return left

/-- One or more operands with operators of one tier between them. -/
def chain (rounds : Nat) (operators : List Symbol) (operand : RuleName) : Recorded Subtree := do
  let first ← call operand
  chainFrom tokens call operators operand rounds first

/-- A rule with one more level open. The level is closed again also where the rule fails. -/
def nested (inner : RuleName) : Recorded Subtree := ExceptT.mk do
  if heightLimit ≤ (← get).reader.depth then (quietly (failNext tokens .tooHigh)).run
  else
    openLevel
    let outcome ← (call inner).run
    closeLevel
    return outcome

/-- Carries out a rule, given how rules are called from there. -/
def carryOut (rounds : Nat) : RuleName → Recorded Subtree
  | .expression => call .equality
  | .equality => chain tokens call rounds [.bangEqual, .equalEqual] .comparison
  | .comparison => chain tokens call rounds [.greater, .greaterEqual, .less, .lessEqual] .term
  | .term => chain tokens call rounds [.minus, .plus] .factor
  | .factor => chain tokens call rounds [.slash, .star] .unary
  | .unary => do
    match ← quietly (advanceIf tokens Grammar.unaryOperators) with
    | some operator =>
      let operand ← call (.nested .unary)
      quietly (complete (.unary operator operand.expr) (operand.height + 1) operator)
    | none => call .primary
  | .primary => do
    let next ← quietly (peek tokens)
    match next.data.literal? with
    | some value =>
      let _ ← quietly (advance tokens)
      return { expr := .literal value, height := 0 }
    | none =>
      if isOneOf [.leftParen] next then
        let opening ← quietly (advance tokens)
        let body ← call (.nested .expression)
        quietly (closeBehind tokens opening body)
      else quietly (failNext tokens .missingOperand)
  | .nested inner => nested tokens call inner

end CarryOut

/-- Calls a rule. It is a fault if calls go deeper, or a chain goes on longer, than is allowed. -/
def call : (allowed : Nat) → List RuleName → RuleName → Recorded Subtree
  | 0, _, _ => quietly fault
  | allowed + 1, callers, rule => ExceptT.mk do
    let entered ← enter rule callers
    let outcome ← (carryOut tokens (call allowed (rule :: callers)) allowed rule).run
    leave entered outcome

/-- An expression, whatever stands behind it. -/
def frontExpression (allowed : Nat) : Recorded Expr := do
  let tree ← call tokens allowed [] .expression
  return tree.expr

/-- An expression and nothing behind it. -/
def wholeExpression (allowed : Nat) : Recorded Expr := do
  let tree ← call tokens allowed [] .expression
  let next ← quietly (peek tokens)
  if next.isEnd then return tree.expr else quietly (fail .trailingTokens next)

end Definitions

/-! ### Steps -/

section Steps

variable {First Second : Type} {journal later : Journal}

theorem bind_of_ok {first : Recorded First} {second : First → Recorded Second} {value : First}
    (came : first journal = some (.ok value, later)) :
    (first >>= second) journal = second value later := by
  show (first journal).bind _ = _
  rw [came]
  rfl

theorem bind_of_error {first : Recorded First} {second : First → Recorded Second}
    {error : SyntaxError} (came : first journal = some (.error error, later)) :
    (first >>= second) journal = some (.error error, later) := by
  show (first journal).bind _ = _
  rw [came]
  rfl

theorem quietly_eq {attempt : Attempt First} {reader after : Reader} {events : List Event}
    {outcome : Except SyntaxError First} (came : attempt reader = some (outcome, after)) :
    quietly attempt { reader, events } = some (outcome, { reader := after, events }) := by
  show (attempt reader).bind _ = _
  rw [came]
  rfl

/-- Two attempts in which no rule is called are one such attempt. -/
theorem quietly_bind (first : Attempt First) (second : First → Attempt Second) :
    quietly (first >>= second) = quietly first >>= fun value => quietly (second value) := by
  funext journal
  cases attempted : first journal.reader with
  | none =>
    show (Attempt.andThen first second journal.reader).bind _ =
      ((first journal.reader).bind _).bind _
    rw [Attempt.andThen, attempted]
    rfl
  | some came =>
    obtain ⟨error | value, after⟩ := came
    · rw [quietly_eq (Attempt.bind_of_error attempted), bind_of_error (quietly_eq attempted)]
    · rw [bind_of_ok (quietly_eq attempted)]
      show ((first >>= second) journal.reader).bind _ = _
      rw [Attempt.bind_of_ok attempted]
      rfl

end Steps

section Calls

variable {tokens : List Token} {allowed : Nat} {callers : List RuleName} {rule inner : RuleName}
  {calling : RuleName → Recorded Subtree} {current last depth : Nat} {entry exit : Reader}
  {earlier events : List Event} {outcome : Except SyntaxError Subtree}

theorem call_eq
    (came : carryOut tokens (call tokens allowed (rule :: callers)) allowed rule
      { reader := entry, events := earlier ++ [.called { rule, callers, entry }] } =
        some (outcome, { reader := exit, events })) :
    call tokens (allowed + 1) callers rule { reader := entry, events := earlier } =
      some (outcome,
        { reader := exit
          events := events ++ [.returned { rule, callers, entry } outcome exit] }) := by
  show (carryOut tokens _ allowed rule _).bind _ = _
  rw [came]
  rfl

/-- Behind an expression that is the whole nothing is put down any more. -/
theorem endBehind_eq_quietly (expr : Expr) :
    (quietly (peek tokens) >>= fun next =>
        if next.isEnd then return expr else quietly (fail .trailingTokens next) : Recorded Expr) =
      quietly (peek tokens >>= fun next =>
        if next.isEnd then return expr else fail .trailingTokens next) := by
  rw [quietly_bind]
  refine congrArg (quietly (peek tokens) >>= ·) (funext fun next => ?_)
  split <;> rfl

theorem nested_of_le {journal : Journal} (deep : heightLimit ≤ journal.reader.depth) :
    nested tokens calling inner journal = quietly (failNext tokens .tooHigh) journal := by
  show (if heightLimit ≤ journal.reader.depth then _ else _ : Recorded Subtree) journal = _
  rw [if_pos deep]
  rfl

theorem nested_of_lt {journal : Journal} (shallow : journal.reader.depth < heightLimit) :
    nested tokens calling inner journal =
      (openLevel journal).bind fun (_, opened) =>
        (calling inner opened).bind fun (outcome, later) =>
          (closeLevel later).bind fun (_, closed) => some (outcome, closed) := by
  show (if heightLimit ≤ journal.reader.depth then _ else _ : Recorded Subtree) journal = _
  rw [if_neg (Nat.not_le.mpr shallow)]
  rfl

theorem nested_eq (shallow : depth < heightLimit)
    (came : calling inner { reader := { current, depth := depth + 1 }, events := earlier } =
      some (outcome, { reader := { current := last, depth := depth + 1 }, events })) :
    nested tokens calling inner { reader := { current, depth }, events := earlier } =
      some (outcome, { reader := { current := last, depth }, events }) := by
  rw [nested_of_lt shallow]
  show (calling inner _).bind _ = _
  rw [came]
  rfl

end Calls

/-! ### Allowances -/

/-- Whatever the first attempt comes to, the second comes to as well. -/
def Below {Result : Type} (first second : Recorded Result) : Prop :=
  ∀ journal came, first journal = some came → second journal = some came

theorem Below.refl {Result : Type} (attempt : Recorded Result) : Below attempt attempt :=
  fun _ _ came => came

theorem below_of_fault {Result : Type} (attempt : Recorded Result) :
    Below (quietly fault) attempt := by
  intro journal came equal
  cases equal

theorem Below.bind {First Second : Type} {first other : Recorded First}
    {second behind : First → Recorded Second} (below : Below first other)
    (further : ∀ value, Below (second value) (behind value)) :
    Below (first >>= second) (other >>= behind) := by
  intro journal came equal
  obtain ⟨⟨outcome, later⟩, reached, equal⟩ := Option.bind_eq_some_iff.mp equal
  have reachedOther := below _ _ reached
  cases outcome with
  | error error => exact (bind_of_error reachedOther).trans equal
  | ok value => exact (bind_of_ok reachedOther).trans (further value _ _ equal)

section Allowances

variable {tokens : List Token} {calling other : RuleName → Recorded Subtree}

theorem below_chainFrom (below : ∀ rule, Below (calling rule) (other rule))
    (operators : List Symbol) (operand : RuleName) {rounds more : Nat} (le : rounds ≤ more)
    (left : Subtree) :
    Below (chainFrom tokens calling operators operand rounds left)
      (chainFrom tokens other operators operand more left) := by
  induction rounds generalizing more left with
  | zero => exact below_of_fault _
  | succ rounds inductionHypothesis =>
    obtain ⟨more, rfl⟩ : ∃ fewer, more = fewer + 1 :=
      Nat.exists_eq_succ_of_ne_zero (Nat.ne_zero_of_lt le)
    refine (Below.refl _).bind fun found => ?_
    cases found with
    | none => exact .refl _
    | some operator =>
      refine (below operand).bind fun right => (Below.refl _).bind fun node => ?_
      exact inductionHypothesis (Nat.le_of_succ_le_succ le) node

theorem below_chain (below : ∀ rule, Below (calling rule) (other rule)) {rounds more : Nat}
    (le : rounds ≤ more) (operators : List Symbol) (operand : RuleName) :
    Below (chain tokens calling rounds operators operand)
      (chain tokens other more operators operand) :=
  (below operand).bind fun first => below_chainFrom below operators operand le first

theorem below_nested (below : ∀ rule, Below (calling rule) (other rule)) (inner : RuleName) :
    Below (nested tokens calling inner) (nested tokens other inner) := by
  intro journal came equal
  rcases Nat.lt_or_ge journal.reader.depth heightLimit with shallow | deep
  · rw [nested_of_lt shallow] at equal ⊢
    obtain ⟨opened, openedLevel, equal⟩ := Option.bind_eq_some_iff.mp equal
    obtain ⟨later, reached, equal⟩ := Option.bind_eq_some_iff.mp equal
    refine Option.bind_eq_some_iff.mpr ⟨opened, openedLevel, ?_⟩
    exact Option.bind_eq_some_iff.mpr ⟨later, below inner _ _ reached, equal⟩
  · rw [nested_of_le deep] at equal ⊢
    exact equal

theorem below_carryOut (below : ∀ rule, Below (calling rule) (other rule)) {rounds more : Nat}
    (le : rounds ≤ more) (rule : RuleName) :
    Below (carryOut tokens calling rounds rule) (carryOut tokens other more rule) := by
  cases rule with
  | expression => exact below .equality
  | equality | comparison | term | factor => exact below_chain below le _ _
  | unary =>
    refine (Below.refl _).bind fun found => ?_
    cases found with
    | none => exact below .primary
    | some operator => exact (below (.nested .unary)).bind fun _ => .refl _
  | primary =>
    refine (Below.refl _).bind fun next => ?_
    split
    · exact .refl _
    · split
      · refine (Below.refl _).bind fun opening => ?_
        exact (below (.nested .expression)).bind fun _ => .refl _
      · exact .refl _
  | nested inner => exact below_nested below inner

/-- With more allowed, a call that has come to something comes to the same, with the same
journal. -/
theorem below_call {allowed more : Nat} (le : allowed ≤ more) (callers : List RuleName)
    (rule : RuleName) :
    Below (call tokens allowed callers rule) (call tokens more callers rule) := by
  induction allowed generalizing more callers rule with
  | zero => exact below_of_fault _
  | succ allowed inductionHypothesis =>
    obtain ⟨more, rfl⟩ : ∃ fewer, more = fewer + 1 :=
      Nat.exists_eq_succ_of_ne_zero (Nat.ne_zero_of_lt le)
    have fewer := Nat.le_of_succ_le_succ le
    intro journal came equal
    obtain ⟨later, reached, equal⟩ := Option.bind_eq_some_iff.mp equal
    refine Option.bind_eq_some_iff.mpr ⟨later, ?_, equal⟩
    exact below_carryOut (inductionHypothesis fewer (rule :: callers)) fewer rule _ _ reached

theorem below_frontExpression {allowed more : Nat} (le : allowed ≤ more) :
    Below (frontExpression tokens allowed) (frontExpression tokens more) :=
  (below_call le [] .expression).bind fun _ => .refl _

theorem below_wholeExpression {allowed more : Nat} (le : allowed ≤ more) :
    Below (wholeExpression tokens allowed) (wholeExpression tokens more) :=
  (below_call le [] .expression).bind fun _ => .refl _

end Allowances

end Recorded

end LoxFront.Checked
