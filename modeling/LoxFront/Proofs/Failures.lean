/-
This file says how a rule comes to fail. The tokens that it has taken up by then are of two parts.
The first part leads to a hole, a place where an operand of a certain tier is due: it consists of
the openers around the hole, which are unary operators and opening parentheses, and of the
operands that were complete before it, each with the operator behind it. The second part is what
was being built in the hole, and there are only four ways in which that can get stuck. The first
part corresponds to the rules that are being carried out, so it is put together along their
recursion.
-/

import LoxFront.Proofs.Recognition
import Mathlib.Data.Nat.Init

namespace LoxFront

/-- The token that a node starts from: its operator or its opening parenthesis, given its tokens. -/
def Expr.origin? (tokens : List Token) : Expr → Option Token
  | binary _ operator _ => some operator
  | grouping _ => tokens.head?
  | literal _ => none
  | unary operator _ => some operator

/-- The token is a unary operator where an operand is due. -/
def Token.IsUnary (token : Token) : Prop :=
  token.data = .symbol .bang ∨ token.data = .symbol .minus

/-- The token opens a level of its own: a unary operator or an opening parenthesis. -/
def Token.Opens (token : Token) : Prop :=
  token.IsUnary ∨ token.data = .symbol .leftParen

/-- An operand can start with the token. -/
def Token.StartsOperand (token : Token) : Prop :=
  token.Opens ∨ ∃ value, token.data.literal? = some value

namespace Grammar

/-! ### The rules tier by tier -/

/-- The rule that reads a tree of a tier or a tighter one, with a number of levels to spare. -/
def ruleAt (tier levels : Nat) : Rule := (tiers.drop tier).foldr chain (operand levels)

theorem exists_ruleAt_eq_chain {tier : Nat} (loose : tier < 4) :
    ∃ operators, IsTier operators tier ∧
      ∀ levels, ruleAt tier levels = chain operators (ruleAt (tier + 1) levels) := by
  match tier, loose with
  | 0, _ => exact ⟨_, isTier_equalities, fun _ => rfl⟩
  | 1, _ => exact ⟨_, isTier_comparisons, fun _ => rfl⟩
  | 2, _ => exact ⟨_, isTier_sums, fun _ => rfl⟩
  | 3, _ => exact ⟨_, isTier_products, fun _ => rfl⟩

theorem exact_ruleAt {tier : Nat} (known : tier ≤ 4) (levels : Nat) :
    Exact (ruleAt tier levels) tier levels := by
  induction known using Nat.decreasingInduction with
  | self => exact exact_operand levels
  | of_succ tier loose inductionHypothesis =>
    obtain ⟨operators, isTier, isChain⟩ := exists_ruleAt_eq_chain loose
    rw [isChain]
    exact exact_chain loose isTier inductionHypothesis

theorem bind_eq_error {Failed First Second : Type} {first : Except Failed First}
    {second : First → Except Failed Second} {failed : Failed} :
    first >>= second = .error failed ↔
      first = .error failed ∨ ∃ value, first = .ok value ∧ second value = .error failed := by
  cases first with
  | error other =>
    constructor
    · intro equal
      cases equal
      exact Or.inl rfl
    · rintro (equal | ⟨value, equal, -⟩)
      · cases equal
        rfl
      · cases equal
  | ok value =>
    constructor
    · intro equal
      exact Or.inr ⟨value, rfl, equal⟩
    · rintro (equal | ⟨_, equal, failed⟩)
      · cases equal
      · cases equal
        exact failed

theorem complete_eq_error {expr : Expr} {height : Nat} {origin : Token} {unread : List Token}
    {failure : Failure} :
    complete expr height origin unread = .error failure ↔
      heightLimit < height ∧
        failure = { cause := .tooHigh, token? := some origin, unread := unread } := by
  unfold complete
  split
  · next small =>
    refine ⟨fun equal => ?_, fun ⟨large, _⟩ => absurd small (Nat.not_le.mpr large)⟩
    cases equal
  · next large =>
    refine ⟨fun equal => ?_, ?_⟩
    · cases equal
      exact ⟨Nat.not_le.mp large, rfl⟩
    · rintro ⟨-, rfl⟩
      rfl

/-- Without levels no rule takes up anything. -/
theorem ruleAt_zero {tier : Nat} (known : tier ≤ 4) (tokens : List Token) :
    ruleAt tier 0 tokens = .error (.atFront .tooHigh tokens) := by
  induction known using Nat.decreasingInduction with
  | self => rfl
  | of_succ tier loose inductionHypothesis =>
    obtain ⟨operators, -, isChain⟩ := exists_ruleAt_eq_chain loose
    rw [isChain]
    exact bind_eq_error.mpr (Or.inl inductionHypothesis)

/-! ### The place of a failure -/

/-- Tokens that, where a tree of the tier is due, lead to a hole in it: a place where a tree of the
tier of the hole is due inside a number of open levels. The trees that are complete before the hole
are within the height limit. -/
inductive Leads : (tier : Nat) → List Token → (opened hole : Nat) → Prop
  | here {tier hole : Nat} (tight : tier ≤ hole) (known : hole ≤ 4) : Leads tier [] 0 hole
  | unary {tier opened hole : Nat} {operator : Token} {front : List Token}
      (isUnary : operator.IsUnary) (leads : Leads 4 front opened hole) :
      Leads tier (operator :: front) (opened + 1) hole
  | parenthesis {tier opened hole : Nat} {opening : Token} {front : List Token}
      (opens : opening.data = .symbol .leftParen) (leads : Leads 0 front opened hole) :
      Leads tier (opening :: front) (opened + 1) hole
  | operand {tier own opened hole : Nat} {left : Expr} {operator : Token}
      {tokens front : List Token} (known : operator.tier? = some own) (loose : tier ≤ own)
      (tight : own ≤ left.tier) (shaped : left.WellShaped) (yields : left.Yields tokens)
      (small : left.height ≤ heightLimit) (leads : Leads (own + 1) front opened hole) :
      Leads tier (tokens ++ operator :: front) opened hole

/-- How the reading of a tree gets stuck in a hole of a tier that has a number of levels below it,
and what has been taken up in the hole by then. -/
inductive Stuck (hole : Nat) : (spare : Nat) → List Token → Failure → Prop
  /-- Nothing that an operand can start with comes next. -/
  | missing {spare : Nat} {unread : List Token}
      (noOperand : ∀ token ∈ unread.head?, ¬ token.StartsOperand) :
      Stuck hole spare [] (.atFront .missingOperand unread)
  /-- One more level is opened than there are. -/
  | spent {opener : Token} {unread : List Token} (opens : opener.Opens) :
      Stuck hole 0 [opener] (.atFront .tooHigh unread)
  /-- The expression behind an opening parenthesis has ended, and the parenthesis is not closed. -/
  | unclosed {spare : Nat} {opening : Token} {body : Expr} {inner unread : List Token}
      (opens : opening.data = .symbol .leftParen) (shaped : body.WellShaped)
      (yields : body.Yields inner)
      (noOperator : ∀ token ∈ unread.head?, token.tier? = none)
      (notClosed : ∀ token ∈ unread.head?, token.data ≠ .symbol .rightParen) :
      Stuck hole spare (opening :: inner) (.atFront .unclosedParenthesis unread)
  /-- A node is complete and one higher than the limit. -/
  | overfull {spare : Nat} {node : Expr} {tokens unread : List Token} {origin : Token}
      (shaped : node.WellShaped) (yields : node.Yields tokens) (tight : hole ≤ node.tier)
      (height : node.height = heightLimit + 1) (starts : node.origin? tokens = some origin) :
      Stuck hole spare tokens { cause := .tooHigh, token? := some origin, unread := unread }

/-- Where a tree of the tier is due, the tokens lead to a hole in which the reading gets stuck. -/
def Blocked (tier levels : Nat) (tokens : List Token) (failure : Failure) : Prop :=
  ∃ before taken opened spare hole, tokens = before ++ (taken ++ failure.unread) ∧
    levels = opened + spare ∧ Leads tier before opened hole ∧ Stuck hole spare taken failure

theorem Leads.of_le {tier looser opened hole : Nat} {front : List Token}
    (leads : Leads tier front opened hole) (le : looser ≤ tier) :
    Leads looser front opened hole := by
  cases leads with
  | here tight known => exact .here (Nat.le_trans le tight) known
  | unary isUnary leads => exact .unary isUnary leads
  | parenthesis opens leads => exact .parenthesis opens leads
  | operand known loose tight shaped yields small leads =>
    exact .operand known (Nat.le_trans le loose) tight shaped yields small leads

theorem Leads.hole_le {tier opened hole : Nat} {front : List Token}
    (leads : Leads tier front opened hole) : hole ≤ 4 := by
  induction leads with
  | here _ known => exact known
  | unary _ _ inductionHypothesis => exact inductionHypothesis
  | parenthesis _ _ inductionHypothesis => exact inductionHypothesis
  | operand _ _ _ _ _ _ _ inductionHypothesis => exact inductionHypothesis

section Blocked

variable {tier looser levels : Nat} {tokens : List Token} {failure : Failure}

theorem Blocked.of_stuck {taken : List Token} (known : tier ≤ 4)
    (stuck : Stuck tier levels taken failure) :
    Blocked tier levels (taken ++ failure.unread) failure :=
  ⟨[], taken, 0, levels, tier, rfl, (Nat.zero_add levels).symm, .here (Nat.le_refl tier) known,
    stuck⟩

theorem Blocked.of_le (blocked : Blocked tier levels tokens failure) (le : looser ≤ tier) :
    Blocked looser levels tokens failure := by
  obtain ⟨before, taken, opened, spare, hole, split, sum, leads, stuck⟩ := blocked
  exact ⟨before, taken, opened, spare, hole, split, sum, leads.of_le le, stuck⟩

/-- What blocks a rule behind a complete operand and an operator blocks it behind an operand. -/
theorem Blocked.behind_operator {left : Subtree} {operator : Token} {front : List Token}
    (blocked : Blocked (tier + 1) levels tokens failure) (built : Built tier front left)
    (known : operator.tier? = some tier) :
    Blocked tier levels (front ++ operator :: tokens) failure := by
  obtain ⟨before, taken, opened, spare, hole, rfl, sum, leads, stuck⟩ := blocked
  have small : left.expr.height ≤ heightLimit := built.height ▸ built.small
  refine ⟨front ++ operator :: before, taken, opened, spare, hole, by simp, sum, ?_, stuck⟩
  exact .operand known (Nat.le_refl tier) built.tight built.shaped built.yields small leads

end Blocked

/-! ### Chains -/

section Chain

variable {operators : List Symbol} {operand : Rule} {tier spare levels : Nat} {failure : Failure}

theorem height_eq_of_large {left right : Subtree} {front back : List Token} {other : Nat}
    (builtLeft : Built tier front left) (builtRight : Built other back right)
    (large : heightLimit < max left.height right.height + 1) :
    max left.expr.height right.expr.height + 1 = heightLimit + 1 := by
  rw [← builtLeft.height, ← builtRight.height]
  have smallLeft := builtLeft.small
  have smallRight := builtRight.small
  omega

theorem blocked_chainFrom (loose : tier < 4) (isTier : IsTier operators tier)
    (exact : Exact operand (tier + 1) spare)
    (blocked : ∀ tokens failure, operand tokens = .error failure →
      Blocked (tier + 1) levels tokens failure)
    {rounds : Nat} {left : Subtree} {front tokens : List Token} (built : Built tier front left)
    (failed : chainFrom operators operand rounds left tokens = .error failure) :
    Blocked tier levels (front ++ tokens) failure := by
  induction rounds generalizing left front tokens with
  | zero => cases failed
  | succ rounds inductionHypothesis =>
    cases tokens with
    | nil => cases failed
    | cons operator behind =>
      by_cases isOperator : isOneOf operators operator = true
      · have known := (isTier operator).mp isOperator
        rw [chainFrom_operator isOperator] at failed
        rcases bind_eq_error.mp failed with failedOperand | ⟨⟨right, rest⟩, read, failedBehind⟩
        · exact (blocked _ _ failedOperand).behind_operator built known
        · obtain ⟨back, rfl, builtRight, -⟩ := exact.sound _ _ _ read
          have whole : front ++ operator :: (back ++ rest) =
              (front ++ operator :: back) ++ rest := by simp
          rw [whole]
          rcases bind_eq_error.mp failedBehind with tooHigh | ⟨⟨node, later⟩, completed, failedMore⟩
          · obtain ⟨large, rfl⟩ := complete_eq_error.mp tooHigh
            have shaped : (Expr.binary left.expr operator right.expr).WellShaped :=
              ⟨tier, known, built.tight, builtRight.tight, built.shaped, builtRight.shaped⟩
            have height := height_eq_of_large built builtRight large
            refine .of_stuck (Nat.le_of_lt loose) (.overfull shaped ?_ ?_ height rfl)
            · exact .binary built.yields builtRight.yields
            · exact Nat.le_of_eq (Expr.tier_binary known).symm
          · obtain ⟨small, rfl, rfl⟩ := complete_eq_ok.mp completed
            exact inductionHypothesis (built_binary known built builtRight small) failedMore
      · rw [chainFrom, if_neg isOperator] at failed
        cases failed

theorem blocked_chain (loose : tier < 4) (isTier : IsTier operators tier)
    (exact : Exact operand (tier + 1) spare)
    (blocked : ∀ tokens failure, operand tokens = .error failure →
      Blocked (tier + 1) levels tokens failure)
    {tokens : List Token} (failed : chain operators operand tokens = .error failure) :
    Blocked tier levels tokens failure := by
  rcases bind_eq_error.mp failed with failedFirst | ⟨⟨first, rest⟩, read, failedMore⟩
  · exact (blocked _ _ failedFirst).of_le (Nat.le_succ tier)
  · obtain ⟨front, rfl, built, -⟩ := exact.sound _ _ _ read
    have builtFirst : Built tier front first :=
      { built with tight := Nat.le_of_succ_le built.tight }
    exact blocked_chainFrom loose isTier exact blocked builtFirst failedMore

end Chain

/-! ### Operands -/

/-- Behind an opener there is one level less. If there was none below it, that is the failure. -/
theorem blocked_behind_opener {tier inner levels : Nat} {opener : Token} {tokens : List Token}
    {failure : Failure} (known : tier ≤ 4) (knownInner : inner ≤ 4) (opens : opener.Opens)
    (leads : ∀ {front opened hole}, Leads inner front opened hole →
      Leads tier (opener :: front) (opened + 1) hole)
    (blocked : ∀ fewer, levels = fewer + 1 → ruleAt inner levels tokens = .error failure →
      Blocked inner fewer tokens failure)
    (failed : ruleAt inner levels tokens = .error failure) :
    Blocked tier levels (opener :: tokens) failure := by
  cases levels with
  | zero =>
    rw [ruleAt_zero knownInner] at failed
    obtain rfl := Except.error.inj failed
    exact .of_stuck known (.spent opens)
  | succ fewer =>
    obtain ⟨before, taken, opened, spare, hole, rfl, rfl, leadsInner, stuck⟩ :=
      blocked fewer rfl failed
    exact ⟨opener :: before, taken, opened + 1, spare, hole, rfl, Nat.add_right_comm _ _ _,
      leads leadsInner, stuck⟩

theorem closeBehind_eq_error {opening : Token} {body : Subtree} {tokens : List Token}
    {failure : Failure} (failed : closeBehind opening body tokens = .error failure) :
    ((∀ token ∈ tokens.head?, token.data ≠ .symbol .rightParen) ∧
        failure = .atFront .unclosedParenthesis tokens) ∨
      ∃ closing later, tokens = closing :: later ∧ closing.data = .symbol .rightParen ∧
        complete (.grouping body.expr) (body.height + 1) opening later = .error failure := by
  cases tokens with
  | nil =>
    cases failed
    exact Or.inl ⟨fun _ member => (by cases member), rfl⟩
  | cons closing later =>
    by_cases closes : isOneOf [.rightParen] closing = true
    · rw [closeBehind, if_pos closes] at failed
      exact Or.inr ⟨closing, later, rfl, isOneOf_singleton.mp closes, failed⟩
    · rw [closeBehind, if_neg closes] at failed
      cases failed
      refine Or.inl ⟨fun token member => ?_, rfl⟩
      obtain rfl := Option.mem_some.mp member
      exact fun symbol => closes (isOneOf_singleton.mpr symbol)

section Operand

variable {levels : Nat} {failure : Failure}
  (blocked : ∀ fewer, levels = fewer + 1 → ∀ {tier}, tier ≤ 4 → ∀ {tokens},
    ruleAt tier levels tokens = .error failure → Blocked tier fewer tokens failure)

theorem height_eq_of_spent {tree : Subtree} {tier : Nat} {front : List Token}
    (built : Built tier front tree) (large : heightLimit < tree.height + 1) :
    tree.expr.height + 1 = heightLimit + 1 := by
  rw [← built.height]
  exact congrArg (· + 1) (Nat.le_antisymm built.small (Nat.le_of_lt_succ large))

include blocked

theorem blocked_unary {operator : Token} {behind : List Token} (isUnary : operator.IsUnary)
    (failed : operandOf (operand levels) (operator :: behind) = .error failure) :
    Blocked 4 levels (operator :: behind) failure := by
  rw [operandOf_unary isUnary] at failed
  rcases bind_eq_error.mp failed with failedOperand | ⟨⟨operand, rest⟩, read, tooHigh⟩
  · exact blocked_behind_opener (Nat.le_refl 4) (Nat.le_refl 4) (Or.inl isUnary)
      (Leads.unary isUnary) (fun fewer sum => blocked fewer sum (Nat.le_refl 4)) failedOperand
  · obtain ⟨large, rfl⟩ := complete_eq_error.mp tooHigh
    obtain ⟨front, rfl, built, -⟩ := (exact_operand levels).sound _ _ _ read
    have shaped : (Expr.unary operator operand.expr).WellShaped :=
      ⟨isUnary, Nat.le_antisymm (Expr.tier_le _) built.tight, built.shaped⟩
    have stuck : Stuck 4 levels (operator :: front)
        { cause := .tooHigh, token? := some operator, unread := rest } :=
      .overfull shaped (.unary built.yields) (Nat.le_refl 4) (height_eq_of_spent built large) rfl
    exact .of_stuck (Nat.le_refl 4) stuck

theorem blocked_parenthesis {opening : Token} {behind : List Token}
    (opens : opening.data = .symbol .leftParen)
    (failed : operandOf (operand levels) (opening :: behind) = .error failure) :
    Blocked 4 levels (opening :: behind) failure := by
  rw [operandOf_parenthesis opens] at failed
  rcases bind_eq_error.mp failed with failedBody | ⟨⟨body, rest⟩, read, failedClosing⟩
  · exact blocked_behind_opener (Nat.le_refl 4) (Nat.zero_le 4) (Or.inr opens)
      (Leads.parenthesis opens) (fun fewer sum => blocked fewer sum (Nat.zero_le 4)) failedBody
  · obtain ⟨front, rfl, built, halts⟩ :=
      (exact_expressionOf (exact_operand levels)).sound _ _ _ read
    rcases closeBehind_eq_error failedClosing with
      ⟨notClosed, rfl⟩ | ⟨closing, later, rfl, closes, tooHigh⟩
    · have noOperator : ∀ token ∈ rest.head?, token.tier? = none := fun token member =>
        Option.eq_none_iff_forall_ne_some.mpr fun own known =>
          absurd (halts token member own known) (Nat.not_lt_zero own)
      have stuck : Stuck 4 levels (opening :: front) (.atFront .unclosedParenthesis rest) :=
        .unclosed opens built.shaped built.yields noOperator notClosed
      exact .of_stuck (Nat.le_refl 4) stuck
    · obtain ⟨large, rfl⟩ := complete_eq_error.mp tooHigh
      have shaped : (Expr.grouping body.expr).WellShaped := built.shaped
      have stuck : Stuck 4 levels (opening :: (front ++ [closing]))
          { cause := .tooHigh, token? := some opening, unread := later } :=
        .overfull shaped (.grouping opens closes built.yields) (Nat.le_refl 4)
          (height_eq_of_spent built large) rfl
      have blockedHere := Blocked.of_stuck (Nat.le_refl 4) stuck
      rwa [List.cons_append, List.append_assoc] at blockedHere

theorem blocked_operandOf {tokens : List Token}
    (failed : operandOf (operand levels) tokens = .error failure) :
    Blocked 4 levels tokens failure := by
  cases tokens with
  | nil =>
    cases failed
    exact .of_stuck (Nat.le_refl 4) (.missing fun _ member => by cases member)
  | cons token behind =>
    by_cases isUnary : token.IsUnary
    · exact blocked_unary blocked isUnary failed
    by_cases opens : token.data = .symbol .leftParen
    · exact blocked_parenthesis blocked opens failed
    cases denotes : token.data.literal? with
    | some value =>
      rw [operandOf_literal denotes] at failed
      cases failed
    | none =>
      rw [operandOf_other isUnary opens, denotes] at failed
      cases failed
      refine .of_stuck (Nat.le_refl 4) (.missing fun other member => ?_)
      obtain rfl := Option.mem_some.mp member
      rintro ((unary | parenthesis) | ⟨value, other⟩)
      · exact isUnary unary
      · exact opens parenthesis
      · rw [denotes] at other
        cases other

end Operand

/-! ### All rules -/

/-- Where a rule fails, its tokens lead to a hole in which the reading gets stuck. -/
theorem blocked_of_error {tier levels : Nat} (known : tier ≤ 4) {tokens : List Token}
    {failure : Failure} (failed : ruleAt tier (levels + 1) tokens = .error failure) :
    Blocked tier levels tokens failure := by
  induction levels using Nat.strongRecOn generalizing tier tokens failure with
  | ind levels inductionLevels =>
    induction known using Nat.decreasingInduction generalizing tokens failure with
    | self =>
      refine blocked_operandOf (fun fewer sum tier known tokens failedInner => ?_) failed
      subst sum
      exact inductionLevels fewer (Nat.lt_succ_self fewer) known failedInner
    | of_succ tier loose inductionTier =>
      obtain ⟨operators, isTier, isChain⟩ := exists_ruleAt_eq_chain loose
      rw [isChain] at failed
      exact blocked_chain loose isTier (exact_ruleAt loose (levels + 1))
        (fun _ _ => inductionTier) failed

/-- Where the rule for expressions fails, the tokens lead to a hole in which the reading gets
stuck. -/
theorem blocked_of_expression_eq_error {tokens : List Token} {failure : Failure}
    (failed : expression tokens = .error failure) : Blocked 0 heightLimit tokens failure :=
  blocked_of_error (Nat.zero_le 4) failed

end Grammar

end LoxFront
