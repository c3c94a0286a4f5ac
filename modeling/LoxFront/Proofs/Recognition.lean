/-
This file proves that the rules read exactly the well-shaped trees. A rule is exact for a tier if
it reads nothing but the tokens of a well-shaped tree of the tier, and reads every such tree that
has levels to spare, whatever follows that could not go on with it. A chain of operands turns a
rule that is exact for a tier into one that is exact for the next looser tier: what has been read
of a chain is itself a tree of the tier, and it grows along the left spine. Parentheses and unary
operators turn a rule for expressions inside into a rule for operands outside, at the price of one
level.
-/

import LoxFront.Parsing
import LoxFront.Proofs.Shape

namespace LoxFront.Grammar

/-- No operator of the tier or a tighter one comes next. -/
def HaltsAt (tier : Nat) (tokens : List Token) : Prop :=
  ∀ token ∈ tokens.head?, ∀ own, token.tier? = some own → own < tier

/-- A subtree that was built from the given tokens and may stand where a tree of the tier may. -/
structure Built (tier : Nat) (front : List Token) (tree : Subtree) : Prop where
  yields : tree.expr.Yields front
  shaped : tree.expr.WellShaped
  tight : tier ≤ tree.expr.tier
  height : tree.height = tree.expr.height
  small : tree.height ≤ heightLimit

/-- The rule reads the well-shaped trees of a tier and nothing else, up to a number of levels. -/
structure Exact (rule : Rule) (tier levels : Nat) : Prop where
  sound : ∀ tokens tree rest, rule tokens = .ok (tree, rest) →
    ∃ front, tokens = front ++ rest ∧ Built tier front tree ∧ HaltsAt tier rest
  complete : ∀ front tree rest, Built tier front tree → tree.height < levels →
    HaltsAt tier rest → rule (front ++ rest) = .ok (tree, rest)

/-! ### Steps -/

theorem haltsAt_nil (tier : Nat) : HaltsAt tier [] := by
  intro token member
  cases member

theorem haltsAt_four (tokens : List Token) : HaltsAt 4 tokens := by
  intro token _ own operator
  exact Token.tier?_lt operator

theorem haltsAt_operator {operator : Token} {tier : Nat} (known : operator.tier? = some tier)
    (behind : List Token) : HaltsAt (tier + 1) (operator :: behind) := by
  intro token member own ownKnown
  obtain rfl := Option.mem_some.mp member
  obtain rfl := Option.some.inj (known.symm.trans ownKnown)
  exact Nat.lt_succ_self tier

theorem haltsAt_closing {closing : Token} (closes : closing.data = .symbol .rightParen)
    (behind : List Token) : HaltsAt 0 (closing :: behind) := by
  intro token member own known
  obtain rfl := Option.mem_some.mp member
  rw [Token.tier?, closes] at known
  cases known

theorem HaltsAt.succ {tier : Nat} {tokens : List Token} (halts : HaltsAt tier tokens) :
    HaltsAt (tier + 1) tokens :=
  fun token member own known => Nat.lt_succ_of_lt (halts token member own known)

theorem bind_eq_ok {Failed First Second : Type} {first : Except Failed First}
    {second : First → Except Failed Second} {result : Second} :
    first >>= second = .ok result ↔ ∃ value, first = .ok value ∧ second value = .ok result := by
  constructor
  · intro equal
    cases first with
    | error failed => cases equal
    | ok value => exact ⟨value, rfl, equal⟩
  · rintro ⟨value, rfl, equal⟩
    exact equal

theorem complete_eq_ok {expr : Expr} {height : Nat} {origin : Token} {unread rest : List Token}
    {tree : Subtree} :
    complete expr height origin unread = .ok (tree, rest) ↔
      height ≤ heightLimit ∧ tree = { expr, height } ∧ rest = unread := by
  unfold complete
  split
  · next small =>
    refine ⟨fun equal => ?_, ?_⟩
    · cases equal
      exact ⟨small, rfl, rfl⟩
    · rintro ⟨-, rfl, rfl⟩
      rfl
  · next large =>
    refine ⟨fun equal => ?_, fun fits => absurd fits.1 large⟩
    cases equal

/-- A list of symbols is the list of the operators of a tier. -/
def IsTier (operators : List Symbol) (tier : Nat) : Prop :=
  ∀ token, isOneOf operators token = true ↔ token.tier? = some tier

theorem isOneOf_iff {symbols : List Symbol} {token : Token} :
    isOneOf symbols token = true ↔ ∃ mark ∈ symbols, token.data = .symbol mark := by
  unfold isOneOf
  split
  · next mark found => simp [found]
  · next other =>
    constructor
    · intro impossible
      cases impossible
    · rintro ⟨mark, -, found⟩
      exact absurd found (other mark)

theorem isTier_of_symbols {operators : List Symbol} {tier : Nat}
    (same : ∀ mark, mark ∈ operators ↔ mark.tier? = some tier) : IsTier operators tier := by
  intro token
  rw [isOneOf_iff, Token.tier?]
  constructor
  · rintro ⟨mark, member, found⟩
    rw [found]
    exact (same mark).mp member
  · intro known
    split at known
    · next mark found => exact ⟨mark, (same mark).mpr known, found⟩
    · cases known

theorem isTier_equalities : IsTier [.bangEqual, .equalEqual] 0 :=
  isTier_of_symbols fun mark => by cases mark <;> decide

theorem isTier_comparisons : IsTier [.greater, .greaterEqual, .less, .lessEqual] 1 :=
  isTier_of_symbols fun mark => by cases mark <;> decide

theorem isTier_sums : IsTier [.minus, .plus] 2 :=
  isTier_of_symbols fun mark => by cases mark <;> decide

theorem isTier_products : IsTier [.slash, .star] 3 :=
  isTier_of_symbols fun mark => by cases mark <;> decide

/-! ### Chains -/

section Chain

variable {operators : List Symbol} {operand : Rule} {tier levels : Nat}

theorem built_binary {left right : Subtree} {operator : Token} {front back : List Token}
    (known : operator.tier? = some tier) (builtLeft : Built tier front left)
    (builtRight : Built (tier + 1) back right)
    (small : max left.height right.height + 1 ≤ heightLimit) :
    Built tier (front ++ operator :: back)
      { expr := .binary left.expr operator right.expr
        height := max left.height right.height + 1 } where
  yields := Expr.Yields.binary builtLeft.yields builtRight.yields
  shaped := ⟨tier, known, builtLeft.tight, builtRight.tight, builtLeft.shaped, builtRight.shaped⟩
  tight := Nat.le_of_eq (Expr.tier_binary known).symm
  height := by rw [builtLeft.height, builtRight.height, Expr.height]
  small := small

/-- A round reads an operator of the tier and an operand behind it. -/
theorem chainFrom_operator {rounds : Nat} {left : Subtree} {operator : Token} {rest : List Token}
    (isOperator : isOneOf operators operator = true) :
    chainFrom operators operand (rounds + 1) left (operator :: rest) =
      operand rest >>= fun (right, rest) =>
        complete (.binary left.expr operator right.expr) (max left.height right.height + 1)
            operator rest >>= fun (node, rest) => chainFrom operators operand rounds node rest := by
  rw [chainFrom, if_pos isOperator]

theorem chainFrom_round {rounds : Nat} {left right : Subtree} {operator : Token}
    {tokens rest : List Token} (isOperator : isOneOf operators operator = true)
    (read : operand tokens = .ok (right, rest))
    (small : max left.height right.height + 1 ≤ heightLimit) :
    chainFrom operators operand (rounds + 1) left (operator :: tokens) =
      chainFrom operators operand rounds
        { expr := .binary left.expr operator right.expr
          height := max left.height right.height + 1 } rest := by
  rw [chainFrom_operator isOperator, read]
  show (complete _ _ operator rest >>= _) = _
  rw [complete_eq_ok.mpr ⟨small, rfl, rfl⟩]
  rfl

theorem chainFrom_sound (isTier : IsTier operators tier)
    (exact : Exact operand (tier + 1) levels) {rounds : Nat} {left tree : Subtree}
    {front tokens rest : List Token} (built : Built tier front left)
    (halts : HaltsAt (tier + 1) tokens) (enough : tokens.length ≤ rounds)
    (read : chainFrom operators operand rounds left tokens = .ok (tree, rest)) :
    ∃ more, tokens = more ++ rest ∧ Built tier (front ++ more) tree ∧ HaltsAt tier rest := by
  induction rounds generalizing left front tokens with
  | zero =>
    obtain rfl := List.length_eq_zero_iff.mp (Nat.le_zero.mp enough)
    cases read
    exact ⟨[], rfl, by rwa [List.append_nil], haltsAt_nil tier⟩
  | succ rounds inductionHypothesis =>
    cases tokens with
    | nil =>
      cases read
      exact ⟨[], rfl, by rwa [List.append_nil], haltsAt_nil tier⟩
    | cons operator behind =>
      by_cases isOperator : isOneOf operators operator = true
      · rw [chainFrom_operator isOperator] at read
        obtain ⟨⟨right, afterRight⟩, readRight, readBehind⟩ := bind_eq_ok.mp read
        obtain ⟨⟨node, afterNode⟩, completed, readMore⟩ := bind_eq_ok.mp readBehind
        obtain ⟨small, rfl, rfl⟩ := complete_eq_ok.mp completed
        obtain ⟨back, rfl, builtRight, haltsRight⟩ := exact.sound _ _ _ readRight
        have builtNode := built_binary ((isTier operator).mp isOperator) built builtRight small
        have fewer : afterNode.length ≤ rounds := by
          rw [List.length_cons, List.length_append] at enough
          omega
        obtain ⟨more, rfl, builtTree, haltsTree⟩ :=
          inductionHypothesis builtNode haltsRight fewer readMore
        refine ⟨operator :: (back ++ more), by simp, ?_, haltsTree⟩
        rwa [List.append_assoc, List.cons_append] at builtTree
      · rw [chainFrom, if_neg isOperator] at read
        cases read
        refine ⟨[], rfl, by rwa [List.append_nil], ?_⟩
        intro token member own known
        obtain rfl := Option.mem_some.mp member
        have different : own ≠ tier := fun equal =>
          isOperator ((isTier _).mpr (by rw [known, equal]))
        have below := halts _ rfl own known
        omega

/-- A tree of a tighter tier is the first operand of a chain. -/
theorem chain_operand (exact : Exact operand (tier + 1) levels) {tree : Subtree}
    {front rest : List Token} (built : Built tier front tree) (tighter : tier < tree.expr.tier)
    (deep : tree.height < levels) (halts : HaltsAt (tier + 1) rest) :
    chain operators operand (front ++ rest) =
      chainFrom operators operand rest.length tree rest := by
  have read := exact.complete front tree rest { built with tight := tighter } deep halts
  rw [chain, read]
  rfl

/-- A chain that starts with the tokens of a tree of the tier has read them as that tree at some
point, and goes on from there. -/
theorem chain_reaches (loose : tier < 4) (isTier : IsTier operators tier)
    (exact : Exact operand (tier + 1) levels) (expr : Expr) {front rest : List Token}
    (built : Built tier front { expr, height := expr.height }) (deep : expr.height < levels)
    (halts : HaltsAt (tier + 1) rest) :
    ∃ rounds, rest.length ≤ rounds ∧ chain operators operand (front ++ rest) =
      chainFrom operators operand rounds { expr, height := expr.height } rest := by
  induction expr generalizing front rest with
  | grouping | literal | unary =>
    exact ⟨rest.length, Nat.le_refl _, chain_operand exact built loose deep halts⟩
  | binary left operator right inductionLeft _ =>
    rcases Nat.eq_or_lt_of_le built.tight with same | tighter
    · obtain ⟨own, known, tightLeft, tightRight, shapedLeft, shapedRight⟩ := built.shaped
      obtain rfl : tier = own := same.trans (Expr.tier_binary known)
      have small : max left.height right.height + 1 ≤ heightLimit := built.small
      rw [Expr.height] at deep
      cases built.yields with
      | @binary _ _ _ front back yieldsLeft yieldsRight =>
        have builtLeft : Built tier front { expr := left, height := left.height } :=
          ⟨yieldsLeft, shapedLeft, tightLeft, rfl, show left.height ≤ heightLimit by omega⟩
        have builtRight : Built (tier + 1) back { expr := right, height := right.height } :=
          ⟨yieldsRight, shapedRight, tightRight, rfl, show right.height ≤ heightLimit by omega⟩
        obtain ⟨rounds, enough, reaches⟩ :=
          inductionLeft builtLeft (by omega) (haltsAt_operator known (back ++ rest))
        have lower : right.height < levels := by omega
        have readRight := exact.complete back _ rest builtRight lower halts
        -- The left operand leaves at least the operator, so there is a round to read it in.
        obtain ⟨rounds, rfl⟩ : ∃ fewer, rounds = fewer + 1 :=
          Nat.exists_eq_succ_of_ne_zero (Nat.ne_zero_of_lt enough)
        refine ⟨rounds, ?_, ?_⟩
        · rw [List.length_cons, List.length_append] at enough
          omega
        · rw [List.append_assoc, List.cons_append, reaches,
            chainFrom_round ((isTier operator).mpr known) readRight small]
          rfl
    · exact ⟨rest.length, Nat.le_refl _, chain_operand exact built tighter deep halts⟩

theorem chainFrom_halts (isTier : IsTier operators tier) (rounds : Nat) (tree : Subtree)
    {rest : List Token} (halts : HaltsAt tier rest) :
    chainFrom operators operand rounds tree rest = .ok (tree, rest) := by
  cases rounds with
  | zero => rfl
  | succ rounds =>
    cases rest with
    | nil => rfl
    | cons token later =>
      have notOperator : ¬ isOneOf operators token = true := fun isOperator =>
        Nat.lt_irrefl tier (halts token rfl tier ((isTier token).mp isOperator))
      rw [chainFrom, if_neg notOperator]

/-- A chain of operands is exact for the tier of its operators. -/
theorem exact_chain (loose : tier < 4) (isTier : IsTier operators tier)
    (exact : Exact operand (tier + 1) levels) : Exact (chain operators operand) tier levels where
  sound tokens tree rest read := by
    obtain ⟨⟨first, afterFirst⟩, readFirst, readMore⟩ := bind_eq_ok.mp read
    obtain ⟨front, rfl, built, halts⟩ := exact.sound _ _ _ readFirst
    have builtFirst : Built tier front first :=
      { built with tight := Nat.le_of_succ_le built.tight }
    obtain ⟨more, rfl, builtTree, haltsTree⟩ :=
      chainFrom_sound isTier exact builtFirst halts (Nat.le_refl _) readMore
    exact ⟨front ++ more, (List.append_assoc _ _ _).symm, builtTree, haltsTree⟩
  complete front tree rest built deep halts := by
    obtain ⟨expr, height⟩ := tree
    obtain rfl : height = expr.height := built.height
    obtain ⟨rounds, -, reaches⟩ := chain_reaches loose isTier exact expr built deep halts.succ
    rw [reaches, chainFrom_halts isTier rounds _ halts]

end Chain

/-! ### Operands -/

theorem exact_expressionOf {operand : Rule} {levels : Nat} (exact : Exact operand 4 levels) :
    Exact (expressionOf operand) 0 levels := by
  have exactProducts := exact_chain (by decide) isTier_products exact
  have exactSums := exact_chain (by decide) isTier_sums exactProducts
  have exactComparisons := exact_chain (by decide) isTier_comparisons exactSums
  exact exact_chain (by decide) isTier_equalities exactComparisons

theorem isOneOf_unaryOperators {token : Token} :
    isOneOf unaryOperators token = true ↔
      token.data = .symbol .bang ∨ token.data = .symbol .minus := by
  rw [isOneOf_iff, unaryOperators]
  simp only [List.mem_cons, List.not_mem_nil, or_false, exists_eq_or_imp, exists_eq_left]

theorem isOneOf_singleton {mark : Symbol} {token : Token} :
    isOneOf [mark] token = true ↔ token.data = .symbol mark := by
  rw [isOneOf_iff]
  simp only [List.mem_singleton, exists_eq_left]

section Operand

variable {inner : Rule} {levels : Nat}

theorem operandOf_unary {operator : Token} {rest : List Token}
    (isUnary : operator.data = .symbol .bang ∨ operator.data = .symbol .minus) :
    operandOf inner (operator :: rest) = inner rest >>= fun (operand, rest) =>
      complete (.unary operator operand.expr) (operand.height + 1) operator rest := by
  rw [operandOf, if_pos (isOneOf_unaryOperators.mpr isUnary)]

/-- What is read behind an opening parenthesis that was followed by an expression. -/
def closeBehind (opening : Token) (body : Subtree) : Rule
  | [] => .error (.atFront .unclosedParenthesis [])
  | closing :: later =>
    if isOneOf [.rightParen] closing then
      complete (.grouping body.expr) (body.height + 1) opening later
    else .error (.atFront .unclosedParenthesis (closing :: later))

theorem operandOf_parenthesis {opening : Token} {rest : List Token}
    (opens : opening.data = .symbol .leftParen) :
    operandOf inner (opening :: rest) =
      expressionOf inner rest >>= fun (body, rest) => closeBehind opening body rest := by
  have notUnary : ¬ isOneOf unaryOperators opening = true := by
    rw [isOneOf_unaryOperators, opens]
    decide
  rw [operandOf, if_neg notUnary, if_pos (isOneOf_singleton.mpr opens)]
  refine congrArg _ (funext fun (body, behind) => ?_)
  cases behind with
  | nil => rfl
  | cons => rfl

theorem operandOf_other {token : Token} {rest : List Token}
    (notUnary : ¬ (token.data = .symbol .bang ∨ token.data = .symbol .minus))
    (notOpening : token.data ≠ .symbol .leftParen) :
    operandOf inner (token :: rest) =
      match token.data.literal? with
      | some value => .ok ({ expr := .literal value, height := 0 }, rest)
      | none => .error (.atFront .missingOperand (token :: rest)) :=
  (if_neg fun unary => notUnary (isOneOf_unaryOperators.mp unary)).trans
    (if_neg fun opening => notOpening (isOneOf_singleton.mp opening))

theorem operandOf_literal {token : Token} {value : Literal} {rest : List Token}
    (denotes : token.data.literal? = some value) :
    operandOf inner (token :: rest) = .ok ({ expr := .literal value, height := 0 }, rest) := by
  have notUnary : ¬ (token.data = .symbol .bang ∨ token.data = .symbol .minus) := by
    rintro (symbol | symbol) <;> rw [symbol] at denotes <;> cases denotes
  have notOpening : token.data ≠ .symbol .leftParen := by
    intro symbol
    rw [symbol] at denotes
    cases denotes
  rw [operandOf_other notUnary notOpening, denotes]

theorem closeBehind_eq_ok {opening : Token} {body tree : Subtree} {tokens rest : List Token} :
    closeBehind opening body tokens = .ok (tree, rest) ↔
      ∃ closing, tokens = closing :: rest ∧ closing.data = .symbol .rightParen ∧
        body.height + 1 ≤ heightLimit ∧
        tree = { expr := .grouping body.expr, height := body.height + 1 } := by
  cases tokens with
  | nil =>
    refine ⟨fun equal => ?_, fun ⟨_, equal, _⟩ => ?_⟩ <;> cases equal
  | cons closing later =>
    by_cases closes : isOneOf [.rightParen] closing = true
    · rw [closeBehind, if_pos closes, complete_eq_ok]
      constructor
      · rintro ⟨small, rfl, rfl⟩
        exact ⟨closing, rfl, isOneOf_singleton.mp closes, small, rfl⟩
      · rintro ⟨_, equal, -, small, rfl⟩
        cases equal
        exact ⟨small, rfl, rfl⟩
    · rw [closeBehind, if_neg closes]
      refine ⟨fun equal => ?_, ?_⟩
      · cases equal
      · rintro ⟨_, equal, isClosing, -⟩
        cases equal
        exact absurd (isOneOf_singleton.mpr isClosing) closes

theorem built_unary {operator : Token} {operand : Subtree} {front : List Token}
    (isUnary : operator.data = .symbol .bang ∨ operator.data = .symbol .minus)
    (built : Built 4 front operand) (small : operand.height + 1 ≤ heightLimit) :
    Built 4 (operator :: front)
      { expr := .unary operator operand.expr, height := operand.height + 1 } where
  yields := .unary built.yields
  shaped := ⟨isUnary, Nat.le_antisymm (Expr.tier_le _) built.tight, built.shaped⟩
  tight := Nat.le_refl 4
  height := by rw [built.height, Expr.height]
  small := small

theorem built_grouping {opening closing : Token} {body : Subtree} {front : List Token}
    (opens : opening.data = .symbol .leftParen) (closes : closing.data = .symbol .rightParen)
    (built : Built 0 front body) (small : body.height + 1 ≤ heightLimit) :
    Built 4 (opening :: (front ++ [closing]))
      { expr := .grouping body.expr, height := body.height + 1 } where
  yields := .grouping opens closes built.yields
  shaped := built.shaped
  tight := Nat.le_refl 4
  height := by rw [built.height, Expr.height]
  small := small

theorem built_literal {token : Token} {value : Literal}
    (denotes : token.data.literal? = some value) :
    Built 4 [token] { expr := .literal value, height := 0 } where
  yields := .literal denotes
  shaped := trivial
  tight := Nat.le_refl 4
  height := rfl
  small := Nat.zero_le _

theorem operandOf_sound (exact : Exact inner 4 levels) {tokens rest : List Token} {tree : Subtree}
    (read : operandOf inner tokens = .ok (tree, rest)) :
    ∃ front, tokens = front ++ rest ∧ Built 4 front tree := by
  cases tokens with
  | nil => cases read
  | cons token behind =>
    by_cases isUnary : token.data = .symbol .bang ∨ token.data = .symbol .minus
    · rw [operandOf_unary isUnary] at read
      obtain ⟨⟨operand, afterOperand⟩, readOperand, completed⟩ := bind_eq_ok.mp read
      obtain ⟨small, rfl, rfl⟩ := complete_eq_ok.mp completed
      obtain ⟨front, rfl, built, -⟩ := exact.sound _ _ _ readOperand
      exact ⟨token :: front, rfl, built_unary isUnary built small⟩
    by_cases opens : token.data = .symbol .leftParen
    · rw [operandOf_parenthesis opens] at read
      obtain ⟨⟨body, afterBody⟩, readBody, closed⟩ := bind_eq_ok.mp read
      obtain ⟨closing, rfl, closes, small, rfl⟩ := closeBehind_eq_ok.mp closed
      obtain ⟨front, rfl, built, -⟩ := (exact_expressionOf exact).sound _ _ _ readBody
      refine ⟨token :: (front ++ [closing]), ?_, built_grouping opens closes built small⟩
      rw [List.cons_append, List.append_assoc, List.singleton_append]
    · rw [operandOf_other isUnary opens] at read
      cases denotes : token.data.literal? with
      | none =>
        rw [denotes] at read
        cases read
      | some value =>
        rw [denotes] at read
        cases read
        exact ⟨[token], rfl, built_literal denotes⟩

theorem operandOf_complete (exact : Exact inner 4 levels) {front rest : List Token}
    {tree : Subtree} (built : Built 4 front tree) (deep : tree.height < levels + 1) :
    operandOf inner (front ++ rest) = .ok (tree, rest) := by
  obtain ⟨expr, height⟩ := tree
  obtain rfl : height = expr.height := built.height
  have small : expr.height ≤ heightLimit := built.small
  cases built.yields with
  | binary =>
    obtain ⟨own, known, -⟩ := built.shaped
    have tight : 4 ≤ Expr.tier (.binary _ _ _) := built.tight
    rw [Expr.tier_binary known] at tight
    exact absurd (Token.tier?_lt known) (Nat.not_lt.mpr tight)
  | @grouping body opening closing front opens closes yields =>
    rw [Expr.height] at deep small
    have builtBody : Built 0 front { expr := body, height := body.height } :=
      ⟨yields, built.shaped, Nat.zero_le _, rfl, Nat.le_of_succ_le small⟩
    have readBody := (exact_expressionOf exact).complete front _ (closing :: rest) builtBody
      (Nat.lt_of_succ_lt_succ deep) (haltsAt_closing closes rest)
    rw [List.cons_append, List.append_assoc, List.singleton_append, operandOf_parenthesis opens,
      readBody]
    exact closeBehind_eq_ok.mpr ⟨closing, rfl, closes, small, rfl⟩
  | @literal value token denotes =>
    exact operandOf_literal denotes
  | @unary operator operand front yields =>
    rw [Expr.height] at deep small
    obtain ⟨isUnary, tight, shaped⟩ := built.shaped
    have builtOperand : Built 4 front { expr := operand, height := operand.height } :=
      ⟨yields, shaped, Nat.le_of_eq tight.symm, rfl, Nat.le_of_succ_le small⟩
    have readOperand := exact.complete front _ rest builtOperand
      (Nat.lt_of_succ_lt_succ deep) (haltsAt_four rest)
    rw [List.cons_append, operandOf_unary isUnary, readOperand]
    exact complete_eq_ok.mpr ⟨small, rfl, rfl⟩

theorem exact_operandOf (exact : Exact inner 4 levels) :
    Exact (operandOf inner) 4 (levels + 1) where
  sound tokens tree rest read := by
    obtain ⟨front, split, built⟩ := operandOf_sound exact read
    exact ⟨front, split, built, haltsAt_four rest⟩
  complete _ _ _ built deep _ := operandOf_complete exact built deep

end Operand

/-! ### Expressions -/

theorem exact_operand (levels : Nat) : Exact (operand levels) 4 levels := by
  induction levels with
  | zero =>
    refine ⟨fun tokens tree rest read => ?_, fun front tree rest built deep => ?_⟩
    · cases read
    · exact absurd deep (Nat.not_lt_zero _)
  | succ levels inductionHypothesis => exact exact_operandOf inductionHypothesis

theorem exact_expression : Exact expression 0 (heightLimit + 1) :=
  exact_expressionOf (exact_operand (heightLimit + 1))

/-- The rule for expressions reads a tree from the front of the tokens exactly if the tree is one of
the grammar, is no higher than the limit, and no binary operator stands behind it. -/
theorem expression_eq_ok {tokens rest : List Token} {tree : Subtree} :
    expression tokens = .ok (tree, rest) ↔
      tree.height = tree.expr.height ∧ tree.expr.WellShaped ∧ tree.expr.height ≤ heightLimit ∧
        (∃ front, tokens = front ++ rest ∧ tree.expr.Yields front) ∧
        ∀ token ∈ rest.head?, token.tier? = none := by
  constructor
  · intro read
    obtain ⟨front, split, built, halts⟩ := exact_expression.sound _ _ _ read
    refine ⟨built.height, built.shaped, built.height ▸ built.small,
      ⟨front, split, built.yields⟩, ?_⟩
    intro token member
    cases known : token.tier? with
    | none => rfl
    | some own => exact absurd (halts token member own known) (Nat.not_lt_zero own)
  · rintro ⟨height, shaped, small, ⟨front, rfl, yields⟩, halts⟩
    have built : Built 0 front tree := ⟨yields, shaped, Nat.zero_le _, height, height ▸ small⟩
    refine exact_expression.complete front tree rest built (by omega) ?_
    intro token member own known
    rw [halts token member] at known
    cases known

theorem frontExpression_eq_ok {tokens : List Token} {expr : Expr} :
    frontExpression tokens = .ok expr ↔
      ∃ tree rest, expression tokens = .ok (tree, rest) ∧ tree.expr = expr := by
  rw [frontExpression, bind_eq_ok]
  constructor
  · rintro ⟨⟨tree, rest⟩, read, equal⟩
    exact ⟨tree, rest, read, Except.ok.inj equal⟩
  · rintro ⟨tree, rest, read, rfl⟩
    exact ⟨(tree, rest), read, rfl⟩

theorem wholeExpression_eq_ok {tokens : List Token} {expr : Expr} :
    wholeExpression tokens = .ok expr ↔
      ∃ tree, expression tokens = .ok (tree, []) ∧ tree.expr = expr := by
  rw [wholeExpression, bind_eq_ok]
  constructor
  · rintro ⟨⟨tree, rest⟩, read, atEnd⟩
    cases rest with
    | nil =>
      cases atEnd
      exact ⟨tree, read, rfl⟩
    | cons => cases atEnd
  · rintro ⟨tree, read, rfl⟩
    exact ⟨(tree, []), read, rfl⟩

end LoxFront.Grammar

namespace LoxFront

open Grammar

theorem parseFront_eq_ok {tokens : List Token} {expr : Expr} :
    parseFront tokens = .ok expr ↔
      ∃ tree rest, expression (Sentence.ofTokens tokens).tokens = .ok (tree, rest) ∧
        tree.expr = expr := by
  rw [parseFront_eq_located, located_eq_ok, frontExpression_eq_ok]

theorem parseWhole_eq_ok {tokens : List Token} {expr : Expr} :
    parseWhole tokens = .ok expr ↔
      wholeExpression (Sentence.ofTokens tokens).tokens = .ok expr := by
  rw [parseWhole_eq_located, located_eq_ok]

theorem parseWhole_iff_yields {tokens : List Token} {expr : Expr} :
    parseWhole tokens = .ok expr ↔
      expr.WellShaped ∧ expr.Yields (tokens.takeWhile fun token => !token.isEnd) ∧
        expr.height ≤ heightLimit := by
  rw [parseWhole_eq_ok, wholeExpression_eq_ok]
  constructor
  · rintro ⟨tree, read, rfl⟩
    obtain ⟨-, shaped, small, ⟨front, split, yields⟩, -⟩ := expression_eq_ok.mp read
    rw [List.append_nil] at split
    obtain rfl : tokens.takeWhile (fun token => !token.isEnd) = front := split
    exact ⟨shaped, yields, small⟩
  · rintro ⟨shaped, yields, small⟩
    refine ⟨{ expr, height := expr.height }, expression_eq_ok.mpr ?_, rfl⟩
    exact ⟨rfl, shaped, small, ⟨_, (List.append_nil _).symm, yields⟩,
      fun _ member => by cases member⟩

theorem parseFront_iff_yields {tokens : List Token} {expr : Expr} :
    parseFront tokens = .ok expr ↔
      expr.WellShaped ∧ expr.height ≤ heightLimit ∧
        ∃ front rest, (tokens.takeWhile fun token => !token.isEnd) = front ++ rest ∧
          expr.Yields front ∧ ∀ token ∈ rest.head?, token.tier? = none := by
  rw [parseFront_eq_ok]
  constructor
  · rintro ⟨tree, rest, read, rfl⟩
    obtain ⟨-, shaped, small, ⟨front, split, yields⟩, halts⟩ := expression_eq_ok.mp read
    exact ⟨shaped, small, front, rest, split, yields, halts⟩
  · rintro ⟨shaped, small, front, rest, split, yields, halts⟩
    refine ⟨{ expr, height := expr.height }, rest, expression_eq_ok.mpr ?_, rfl⟩
    exact ⟨rfl, shaped, small, ⟨front, split, yields⟩, halts⟩

/-- The parser accepts exactly its grammar and builds the one right tree. Read as a whole, the
tokens before the end mark give a tree exactly if it is well shaped, no higher than the limit, and
they are its tokens. Read at the front, they give a tree exactly if the same holds of some of the
first of them, and the next one is no binary operator. -/
theorem parse_eq_ok_iff (tokens : List Token) (expr : Expr) :
    (parseWhole tokens = .ok expr ↔
      expr.WellShaped ∧ expr.Yields (tokens.takeWhile fun token => !token.isEnd) ∧
        expr.height ≤ heightLimit) ∧
    (parseFront tokens = .ok expr ↔
      expr.WellShaped ∧ expr.height ≤ heightLimit ∧
        ∃ front rest, (tokens.takeWhile fun token => !token.isEnd) = front ++ rest ∧
          expr.Yields front ∧ ∀ token ∈ rest.head?, token.tier? = none) :=
  ⟨parseWhole_iff_yields, parseFront_iff_yields⟩

end LoxFront
