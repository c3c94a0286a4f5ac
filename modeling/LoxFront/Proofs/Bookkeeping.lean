/-
This file proves that the index and the depth of a run are exact. Each way in which a rule goes on
keeps what is carried through the rules, so all rules keep it, by their recursion: below the limit
one more level can be opened, and at the limit none can. How much is allowed to a run only has to be
enough, and enough is known beforehand, so every run ends.
-/

import LoxFront.Proofs.Checked.Accounts
import LoxFront.Proofs.Checked.Inputs

namespace LoxFront.Checked

open Grammar (Built IsTier Leads Subtree isOneOf isTier_comparisons isTier_equalities
  isTier_products isTier_sums ruleAt)
open Recorded (call carryOut quietly quietly_eq)

section Calls

variable {tokens : List Token} {sentence : Sentence} {rule operand : RuleName}
  {callers : List RuleName} {allowed need current last depth : Nat} {earlier : List Event}

/-- What a rule without a level of its own calls at once is due where the rule is. -/
theorem Due.pass (due : Due sentence rule callers current depth) (flat : rule.opensLevel = false)
    (flatOperand : operand.opensLevel = false) (loose : rule.tier ≤ operand.tier) :
    Due sentence operand (rule :: callers) current depth where
  inside := due.inside
  shallow := due.shallow
  counted := by
    rw [List.countP_cons_of_neg (by rw [flat]; exact Bool.false_ne_true), due.counted]
  leads := by
    have leads := due.leads
    rw [flat] at leads
    rw [flatOperand]
    exact leads.tighten loose operand.tier_le

/-! ### Chains -/

section Chain

variable {operators : List Symbol} {calling : RuleName → Recorded Subtree}

/-- What has been read of a chain is a tree behind what leads to the chain, and it grows with every
round. -/
theorem conducted_chainFrom (delimits : Delimits tokens sentence.tokens sentence.stop) {tier : Nat}
    (isTier : IsTier operators tier) (tight : operand.tier = tier + 1)
    (flat : operand.opensLevel = false) (shallow : depth ≤ heightLimit)
    (counted : callers.countP RuleName.opensLevel = depth)
    (conducts : Conducts sentence callers operand depth (calling operand)) {rounds enough : Nat}
    {left : Subtree} {before taken : List Token} (inside : current ≤ sentence.tokens.length)
    (most : sentence.tokens.length < current + rounds)
    (least : sentence.tokens.length ≤ current + enough) (leads : Leads 0 before depth tier)
    (built : Built tier taken left) (split : sentence.tokens.take current = before ++ taken) :
    Conducted sentence current depth earlier
      (Recorded.chainFrom tokens calling operators operand rounds left
        { reader := { current, depth }, events := earlier })
      (Grammar.chainFrom operators (operand.plain depth) enough left
        (sentence.tokens.drop current)) := by
  induction rounds generalizing current enough left taken earlier with
  | zero => exact absurd inside (Nat.not_le.mpr most)
  | succ rounds inductionHypothesis =>
    rw [Recorded.chainFrom]
    rcases next_cases delimits inside with
      ⟨token, found, notEnd, below, behind⟩ | ⟨mark, found, isEnd, -, behind⟩
    · obtain ⟨enough, rfl⟩ : ∃ fewer, enough = fewer + 1 :=
        Nat.exists_eq_succ_of_ne_zero (by omega)
      by_cases isOperator : isOneOf operators token = true
      · rw [Recorded.bind_of_ok (quietly_eq (advanceIf_of_isOneOf found isOperator)), behind,
          Grammar.chainFrom_operator isOperator]
        have known := (isTier token).mp isOperator
        have taking : sentence.tokens.take (current + 1) = before ++ (taken ++ [token]) := by
          rw [← List.append_assoc, ← split]
          exact take_eq_of_drop_eq behind
        have small : left.expr.height ≤ heightLimit := built.height ▸ built.small
        have toOperand : Leads tier (taken ++ [token]) 0 (tier + 1) :=
          .operand known (Nat.le_refl tier) built.tight built.shaped built.yields small
            (.here (Nat.le_refl _) (Token.tier?_lt known))
        have due : Due sentence operand callers (current + 1) depth :=
          { inside := below
            shallow
            counted
            leads := by
              rw [taking, flat, tight]
              exact leads.trans toOperand }
        refine Conducted.of_le ?_ (Nat.le_succ current)
        refine (conducts _ _ due).bind fun right afterRight later read passed within => ?_
        obtain ⟨back, builtRight, -, splitRight⟩ := exists_built below read within
        rw [tight] at builtRight
        refine ((settles_complete within _ _ _).conducted (agrees_complete notEnd within _ _)).bind
          fun node afterNode later completed passedNode withinNode => ?_
        obtain ⟨smallNode, rfl, unread⟩ := Grammar.complete_eq_ok.mp completed
        obtain rfl : afterNode = afterRight := by
          have lengths := congrArg List.length unread
          rw [List.length_drop, List.length_drop] at lengths
          omega
        -- At least the operator has been passed, so one round less is still enough.
        refine inductionHypothesis withinNode (by omega) (by omega)
          (Grammar.built_binary known built builtRight smallNode) ?_
        rw [splitRight, taking]
        simp only [List.append_assoc, List.singleton_append]
      · rw [Recorded.bind_of_ok (quietly_eq (advanceIf_of_other found isOperator)), behind,
          Grammar.chainFrom, if_neg isOperator, ← behind]
        exact .of_agrees (.ok (Nat.le_refl _) inside) (Nat.le_refl _) inside
    · rw [Recorded.bind_of_ok (quietly_eq (advanceIf_of_other found (not_isOneOf_of_isEnd isEnd)))]
      have still : Grammar.chainFrom operators (operand.plain depth) enough left
          (sentence.tokens.drop current) = .ok (left, sentence.tokens.drop current) := by
        rw [behind]
        cases enough <;> rfl
      rw [still]
      exact .of_agrees (.ok (Nat.le_refl _) inside) (Nat.le_refl _) inside

/-- A rule that is a chain of operands takes one more than they do, and as many rounds as there are
tokens. -/
theorem conductsFrom_chain (delimits : Delimits tokens sentence.tokens sentence.stop)
    (carries : ∀ calling rounds, carryOut tokens calling rounds rule =
      Recorded.chain tokens calling rounds operators operand)
    (plain : rule.plain depth = Grammar.chain operators (operand.plain depth))
    (isTier : IsTier operators rule.tier) (tight : operand.tier = rule.tier + 1)
    (flat : rule.opensLevel = false) (flatOperand : operand.opensLevel = false)
    (room : sentence.tokens.length < need)
    (conducts : ConductsFrom tokens sentence need operand depth) :
    ConductsFrom tokens sentence (need + 1) rule depth := by
  refine conductsFrom_succ fun allowed enough callers current earlier due => ?_
  rw [carries, plain]
  have dueOperand := due.pass flat flatOperand (tight ▸ Nat.le_succ rule.tier)
  have operandConducts := conducts allowed enough (rule :: callers)
  refine (operandConducts current earlier dueOperand).bind fun first last later read _ within => ?_
  obtain ⟨taken, built, -, split⟩ := exists_built due.inside read within
  rw [tight] at built
  have builtFirst : Built rule.tier taken first :=
    { built with tight := Nat.le_of_succ_le built.tight }
  have leads := due.leads
  rw [flat] at leads
  refine conducted_chainFrom delimits isTier tight flatOperand due.shallow dueOperand.counted
    operandConducts within (by omega) ?_ leads builtFirst split
  rw [List.length_drop]
  omega

end Chain

/-! ### Levels -/

theorem ConductsFrom.of_le {more : Nat} (conducts : ConductsFrom tokens sentence need rule depth)
    (le : need ≤ more) : ConductsFrom tokens sentence more rule depth :=
  fun allowed enough => conducts allowed (Nat.le_trans le enough)

/-- Behind an opener the rule inside is due one level further down. -/
theorem Due.behind_opener {token : Token} {inner : RuleName}
    (due : Due sentence rule callers current depth) (flat : rule.opensLevel = false)
    (leads : Leads rule.tier [token] 1 inner.tier) (below : current + 1 ≤ sentence.tokens.length)
    (behind : sentence.tokens.drop current = token :: sentence.tokens.drop (current + 1)) :
    Due sentence (.nested inner) (rule :: callers) (current + 1) depth where
  inside := below
  shallow := due.shallow
  counted := by
    rw [List.countP_cons_of_neg (by rw [flat]; exact Bool.false_ne_true), due.counted]
  leads := by
    have outside := due.leads
    rw [flat] at outside
    rw [take_eq_of_drop_eq (show _ = [token] ++ _ from behind)]
    exact outside.trans leads

/-- Below the limit a rule is carried out one level further down. -/
theorem conductsFrom_nested {inner : RuleName} (flat : inner.opensLevel = false)
    (shallow : depth < heightLimit)
    (conducts : ConductsFrom tokens sentence need inner (depth + 1)) :
    ConductsFrom tokens sentence (need + 1) (.nested inner) depth := by
  refine conductsFrom_succ fun allowed enough callers current earlier due => ?_
  have plain : (RuleName.nested inner).plain depth = inner.plain (depth + 1) := by
    rw [RuleName.plain, RuleName.plain, flat]
    rfl
  have dueInner : Due sentence inner (.nested inner :: callers) current (depth + 1) :=
    { inside := due.inside
      shallow
      counted := by rw [List.countP_cons_of_pos rfl, due.counted]
      leads := by
        rw [flat]
        exact due.leads }
  have conducted := conducts allowed enough _ current earlier dueInner
  rw [plain]
  show Conducted _ _ _ _ (Recorded.nested tokens _ inner _) _
  generalize came : call tokens allowed (.nested inner :: callers) inner _ = result at conducted
  generalize inner.plain (depth + 1) (sentence.tokens.drop current) = outcome at conducted
  obtain ⟨agrees, account, inside⟩ := conducted
  rw [Recorded.nested_eq shallow came]
  refine .intro ?_ account inside
  cases agrees with
  | ok passed => exact .ok passed inside
  | error => exact .error

/-- At the limit no rule is carried out further down. -/
theorem conductsFrom_nested_spent (delimits : Delimits tokens sentence.tokens sentence.stop)
    (inner : RuleName) : ConductsFrom tokens sentence 1 (.nested inner) heightLimit := by
  refine conductsFrom_succ fun allowed _ callers current earlier due => ?_
  have plain : (RuleName.nested inner).plain heightLimit = ruleAt inner.tier 0 := by
    rw [RuleName.plain, RuleName.opensLevel, Bool.toNat_true, Nat.sub_self]
    rfl
  rw [plain, Grammar.ruleAt_zero inner.tier_le]
  show Conducted _ _ _ _ (Recorded.nested tokens _ inner _) _
  rw [Recorded.nested_of_le (Nat.le_refl _)]
  exact (settles_failNext delimits due.inside .tooHigh).conducted
    (agrees_failNext delimits due.inside .tooHigh)

/-! ### Operands -/

theorem plain_unary (shallow : depth ≤ heightLimit) :
    RuleName.unary.plain depth =
      Grammar.operandOf (Grammar.operand (heightLimit - depth)) := by
  have levels : heightLimit + 1 - (depth + 0) = heightLimit - depth + 1 := by omega
  show ruleAt 4 (heightLimit + 1 - (depth + 0)) = _
  rw [levels]
  rfl

theorem plain_nested_unary :
    (RuleName.nested .unary).plain depth = Grammar.operand (heightLimit - depth) := by
  show ruleAt 4 (heightLimit + 1 - (depth + 1)) = _
  rw [Nat.add_sub_add_right]
  rfl

theorem plain_nested_expression :
    (RuleName.nested .expression).plain depth =
      Grammar.expressionOf (Grammar.operand (heightLimit - depth)) := by
  show ruleAt 0 (heightLimit + 1 - (depth + 1)) = _
  rw [Nat.add_sub_add_right]
  rfl

section Operand

variable (delimits : Delimits tokens sentence.tokens sentence.stop)

include delimits

/-- Where no unary operator comes next, the rest of the rule for operands is carried out. -/
theorem conducted_primary {calling : RuleName → Recorded Subtree} {rounds : Nat}
    (due : Due sentence .primary callers current depth)
    (notUnary : ∀ token ∈ (sentence.tokens.drop current).head?, ¬ token.IsUnary)
    (conducts : Conducts sentence (.primary :: callers) (.nested .expression) depth
      (calling (.nested .expression))) :
    Conducted sentence current depth earlier
      (carryOut tokens calling rounds .primary
        { reader := { current, depth }, events := earlier })
      (RuleName.primary.plain depth (sentence.tokens.drop current)) := by
  have inside := due.inside
  have missing : Conducted sentence current depth earlier
      (quietly (failNext tokens .missingOperand)
        { reader := { current, depth }, events := earlier })
      (.error (.atFront .missingOperand (sentence.tokens.drop current))) :=
    (settles_failNext delimits inside .missingOperand).conducted
      (agrees_failNext delimits inside .missingOperand)
  show Conducted _ _ _ _ _ (RuleName.unary.plain depth _)
  rw [plain_unary due.shallow, carryOut]
  rcases next_cases delimits inside with
    ⟨token, found, notEnd, below, behind⟩ | ⟨mark, found, isEnd, -, behind⟩
  · rw [Recorded.bind_of_ok (quietly_eq (peek_eq found))]
    rw [behind] at notUnary missing ⊢
    cases denotes : token.data.literal? with
    | some value =>
      rw [Grammar.operandOf_literal denotes]
      dsimp only
      rw [Recorded.bind_of_ok (quietly_eq (advance_eq found notEnd))]
      exact .of_agrees (.ok (Nat.le_succ current) below) (Nat.le_succ current) below
    | none =>
      dsimp only
      by_cases opens : isOneOf [.leftParen] token = true
      · have parenthesis := Grammar.isOneOf_singleton.mp opens
        have leads : Leads 4 [token] 1 0 :=
          .parenthesis parenthesis (.here (Nat.le_refl 0) (Nat.zero_le 4))
        have dueBody : Due sentence (.nested .expression) (.primary :: callers) (current + 1)
            depth := due.behind_opener rfl leads below behind
        rw [if_pos opens, Recorded.bind_of_ok (quietly_eq (advance_eq found notEnd)),
          Grammar.operandOf_parenthesis parenthesis, ← plain_nested_expression]
        refine Conducted.of_le ?_ (Nat.le_succ current)
        refine (conducts _ _ dueBody).bind fun body afterBody later _ _ within => ?_
        exact (settles_closeBehind delimits within token body).conducted
          (agrees_closeBehind delimits within notEnd body)
      · have notOpening := fun data => opens (Grammar.isOneOf_singleton.mpr data)
        rw [if_neg opens, Grammar.operandOf_other (notUnary token rfl) notOpening, denotes]
        exact missing
  · rw [Recorded.bind_of_ok (quietly_eq (peek_eq found)), Token.isEnd_iff.mp isEnd]
    dsimp only [Token.Data.literal?]
    rw [if_neg (not_isOneOf_of_isEnd isEnd)]
    rw [behind] at missing ⊢
    exact missing

theorem conductsFrom_unary
    (operands : ConductsFrom tokens sentence need (.nested .unary) depth)
    (bodies : ConductsFrom tokens sentence need (.nested .expression) depth) :
    ConductsFrom tokens sentence (need + 2) .unary depth := by
  refine conductsFrom_succ fun allowed enough callers current earlier due => ?_
  obtain ⟨allowed, rfl⟩ : ∃ fewer, allowed = fewer + 1 :=
    Nat.exists_eq_succ_of_ne_zero (Nat.ne_zero_of_lt enough)
  have inside := due.inside
  have others (notUnary : ∀ token ∈ (sentence.tokens.drop current).head?, ¬ token.IsUnary) :
      Conducted sentence current depth earlier
        (call tokens (allowed + 1) (.unary :: callers) .primary
          { reader := { current, depth }, events := earlier })
        (RuleName.unary.plain depth (sentence.tokens.drop current)) := by
    have duePrimary : Due sentence .primary (.unary :: callers) current depth :=
      due.pass rfl rfl (Nat.le_refl 4)
    refine conducted_call duePrimary (conducted_primary delimits duePrimary notUnary ?_)
    exact bodies allowed (Nat.le_of_succ_le_succ enough) _
  rw [carryOut]
  rcases next_cases delimits inside with
    ⟨token, found, notEnd, below, behind⟩ | ⟨mark, found, isEnd, -, behind⟩
  · by_cases isUnary : isOneOf Grammar.unaryOperators token = true
    · have unary := Grammar.isOneOf_unaryOperators.mp isUnary
      have leads : Leads 4 [token] 1 4 := .unary unary (.here (Nat.le_refl 4) (Nat.le_refl 4))
      have dueOperand : Due sentence (.nested .unary) (.unary :: callers) (current + 1) depth :=
        due.behind_opener rfl leads below behind
      rw [Recorded.bind_of_ok (quietly_eq (advanceIf_of_isOneOf found isUnary)),
        plain_unary due.shallow, behind, Grammar.operandOf_unary unary, ← plain_nested_unary]
      refine Conducted.of_le ?_ (Nat.le_succ current)
      refine (operands _ (Nat.le_of_succ_le enough) _ _ _ dueOperand).bind
        fun operand afterOperand later _ _ within => ?_
      exact (settles_complete within _ _ _).conducted (agrees_complete notEnd within _ _)
    · rw [Recorded.bind_of_ok (quietly_eq (advanceIf_of_other found isUnary))]
      refine others fun next member unary => isUnary ?_
      rw [behind] at member
      obtain rfl := Option.mem_some.mp member
      exact Grammar.isOneOf_unaryOperators.mpr unary
  · rw [Recorded.bind_of_ok (quietly_eq (advanceIf_of_other found (not_isOneOf_of_isEnd isEnd)))]
    refine others fun next member => ?_
    rw [behind] at member
    cases member

/-! ### Expressions -/

theorem conductsFrom_equality (room : sentence.tokens.length < need)
    (conducts : ConductsFrom tokens sentence need .unary depth) :
    ConductsFrom tokens sentence (need + 4) .equality depth := by
  have factor : ConductsFrom tokens sentence (need + 1) .factor depth :=
    conductsFrom_chain delimits (fun _ _ => rfl) rfl isTier_products rfl rfl rfl room conducts
  have term : ConductsFrom tokens sentence (need + 2) .term depth :=
    conductsFrom_chain delimits (fun _ _ => rfl) rfl isTier_sums rfl rfl rfl (by omega) factor
  have comparison : ConductsFrom tokens sentence (need + 3) .comparison depth :=
    conductsFrom_chain delimits (fun _ _ => rfl) rfl isTier_comparisons rfl rfl rfl (by omega) term
  exact conductsFrom_chain delimits (fun _ _ => rfl) rfl isTier_equalities rfl rfl rfl (by omega)
    comparison

omit delimits in
theorem conductsFrom_expression (conducts : ConductsFrom tokens sentence need .equality depth) :
    ConductsFrom tokens sentence (need + 1) .expression depth :=
  conductsFrom_succ fun allowed enough _ current earlier due =>
    conducts allowed enough _ current earlier (due.pass rfl rfl (Nat.le_refl 0))

/-- Eight calls are enough for a level, and three for an operand at the limit. -/
theorem conductsFrom_unary_of_levels {levels : Nat} (sum : depth + levels = heightLimit) :
    ConductsFrom tokens sentence (sentence.tokens.length + 3 + 8 * levels) .unary depth := by
  induction levels generalizing depth with
  | zero =>
    obtain rfl : depth = heightLimit := sum
    have enough : 1 ≤ sentence.tokens.length + 1 := Nat.le_add_left 1 _
    exact conductsFrom_unary delimits ((conductsFrom_nested_spent delimits _).of_le enough)
      ((conductsFrom_nested_spent delimits _).of_le enough)
  | succ levels inductionHypothesis =>
    have shallow : depth < heightLimit := by omega
    have operands := inductionHypothesis (show depth + 1 + levels = heightLimit by omega)
    have bodies := conductsFrom_expression (conductsFrom_equality delimits (by omega) operands)
    have inside : ConductsFrom tokens sentence (sentence.tokens.length + 3 + 8 * levels + 6)
        (.nested .unary) depth := (conductsFrom_nested rfl shallow operands).of_le (by omega)
    exact conductsFrom_unary delimits inside (conductsFrom_nested rfl shallow bodies)

end Operand

end Calls

/-! ### Runs -/

/-- The first call of a run: the rule for expressions at the first token, with nothing open. -/
def Call.first : Call where
  rule := .expression
  callers := []
  entry := {}

/-- What holds of the journal of a run. The run is one call of the rule for expressions, and every
call in it is exact. In the end nothing is open, and the index is no further than the end mark. -/
structure Journal.Exact (sentence : Sentence) (journal : Journal) : Prop where
  account : Account sentence 0 journal.reader.current journal.events
  whole : ∃ outcome events,
    journal.events = .called .first :: (events ++ [.returned .first outcome journal.reader])
  depth_eq : journal.reader.depth = 0
  inside : journal.reader.current ≤ sentence.tokens.length

/-- So much allowed is enough for a run on so many tokens. -/
def allowance (length : Nat) : Nat := length + 8 * heightLimit + 8

section Runs

variable {tokens : List Token} {sentence : Sentence}

/-- The rule for expressions is carried out to an end, and its journal is exact. -/
theorem exists_call_expression_eq (delimits : Delimits tokens sentence.tokens sentence.stop) :
    ∃ outcome journal, call tokens (allowance sentence.tokens.length) [] .expression {} =
        some (outcome, journal) ∧ journal.Exact sentence ∧
      Agrees sentence.tokens sentence.stop 0 0 (some (outcome, journal.reader))
        (Grammar.expression sentence.tokens) := by
  have unary : ConductsFrom tokens sentence (sentence.tokens.length + 3 + 8 * heightLimit)
      .unary 0 := conductsFrom_unary_of_levels delimits (Nat.zero_add heightLimit)
  have equality := conductsFrom_equality delimits (by omega) unary
  have due : Due sentence .expression [] 0 0 :=
    { inside := Nat.zero_le _
      shallow := Nat.zero_le _
      counted := rfl
      leads := .here (Nat.le_refl 0) (Nat.zero_le 4) }
  have enough : allowance sentence.tokens.length =
      sentence.tokens.length + 3 + 8 * heightLimit + 4 + 1 := by
    rw [allowance]
    omega
  have body : Conducted sentence 0 0 ([] ++ [.called .first])
      (carryOut tokens (call tokens (sentence.tokens.length + 3 + 8 * heightLimit + 4)
          [.expression]) (sentence.tokens.length + 3 + 8 * heightLimit + 4) .expression
        { events := [] ++ [.called .first] })
      (RuleName.expression.plain 0 (sentence.tokens.drop 0)) :=
    equality _ (Nat.le_refl _) _ _ _ (due.pass rfl rfl (Nat.le_refl 0))
  obtain ⟨outcome, exit, events, came, returned, inner⟩ := exists_call_eq due body
  rw [← enough] at came
  refine ⟨outcome, _, came, ?_, returned.agrees⟩
  exact
    { account := Account.call due.entered returned inner
      whole := ⟨outcome, events, rfl⟩
      depth_eq := returned.depth_eq
      inside := returned.inside }

/-- An input is read with an exact journal if, behind the expression at its front, no rule is called
and what is done at the index comes to what is made of the tokens from there on. -/
theorem exists_bind_call_journal (delimits : Delimits tokens sentence.tokens sentence.stop)
    {behind : Subtree → Recorded Expr}
    {behindRule : Subtree × List Token → Except Grammar.Failure Expr}
    (ends : ∀ (tree : Subtree) (current : Nat) (events : List Event),
      current ≤ sentence.tokens.length → behind tree { reader := { current }, events } =
        some (Grammar.located (behindRule (tree, sentence.tokens.drop current)) sentence.stop,
          { reader := { current }, events })) :
    ∃ journal, (call tokens (allowance sentence.tokens.length) [] .expression >>= behind) {} =
        some (Grammar.located (Grammar.expression sentence.tokens >>= behindRule) sentence.stop,
          journal) ∧ journal.Exact sentence := by
  obtain ⟨outcome, ⟨reader, events⟩, came, exact, agrees⟩ := exists_call_expression_eq delimits
  refine ⟨_, ?_, exact⟩
  dsimp only at agrees
  generalize Grammar.expression sentence.tokens = ruled at agrees
  cases agrees with
  | @ok tree current _ inside =>
    rw [Recorded.bind_of_ok came]
    exact ends tree current events inside
  | error => exact Recorded.bind_of_error came

/-- The front of the tokens is read with an exact journal. -/
theorem exists_frontExpression_journal
    (delimits : Delimits tokens sentence.tokens sentence.stop) :
    ∃ journal, Recorded.frontExpression tokens (allowance sentence.tokens.length) {} =
        some (Grammar.located (Grammar.frontExpression sentence.tokens) sentence.stop, journal) ∧
      journal.Exact sentence :=
  exists_bind_call_journal delimits fun _ _ _ _ => rfl

/-- The tokens as a whole are read with an exact journal. -/
theorem exists_wholeExpression_journal
    (delimits : Delimits tokens sentence.tokens sentence.stop) :
    ∃ journal, Recorded.wholeExpression tokens (allowance sentence.tokens.length) {} =
        some (Grammar.located (Grammar.wholeExpression sentence.tokens) sentence.stop, journal) ∧
      journal.Exact sentence := by
  refine exists_bind_call_journal delimits fun tree current events inside => ?_
  rw [Recorded.endBehind_eq_quietly]
  exact quietly_eq (endBehind_eq delimits inside tree.expr)

end Runs

/-- The bookkeeping of a run is exact. Every list of tokens, with the end mark that it gets if it
needs one, is read to an end, however much more is allowed than enough, and what comes out is what
the library reads. The journal of the run is exact: whenever a rule is called, the depth is the
number of unary operators and parentheses that are open there, and no more than the limit, so the
rules inside one another that open a level are no more than that either; whenever a call has come to
a result or an error, the depth is what it was, the index has not gone back and has not passed the
first end mark, and with a result at least one token has been read and the height is that of the
tree and within the limit. -/
theorem bookkeeping_is_exact (tokens : List Token) :
    let delimited := Sentence.delimited tokens
    let sentence := Sentence.ofTokens tokens
    Delimits delimited sentence.tokens sentence.stop ∧
    (∃ journal, journal.Exact sentence ∧ ∀ allowed, allowance sentence.tokens.length ≤ allowed →
      Recorded.frontExpression delimited allowed {} = some (LoxFront.parseFront tokens, journal)) ∧
    ∃ journal, journal.Exact sentence ∧ ∀ allowed, allowance sentence.tokens.length ≤ allowed →
      Recorded.wholeExpression delimited allowed {} =
        some (LoxFront.parseWhole tokens, journal) := by
  intro delimited sentence
  have delimits : Delimits delimited sentence.tokens sentence.stop := delimits_delimited tokens
  refine ⟨delimits, ?_, ?_⟩
  · obtain ⟨journal, came, exact⟩ := exists_frontExpression_journal delimits
    refine ⟨journal, exact, fun allowed more => ?_⟩
    rw [Recorded.below_frontExpression more _ _ came, parseFront_eq_located]
  · obtain ⟨journal, came, exact⟩ := exists_wholeExpression_journal delimits
    refine ⟨journal, exact, fun allowed more => ?_⟩
    rw [Recorded.below_wholeExpression more _ _ came, parseWhole_eq_located]

/-- In `-1` the operand is read one level further down than the rest, with the index behind the
sign. -/
example : (Recorded.frontExpression (LoxFront.tokenize "-1".toList).1 (allowance 2) {}).map
    (fun (_, journal) => journal.events.map fun event =>
      (event.reader.current, event.reader.depth)) =
    some (List.replicate 6 (0, 0) ++ (1, 0) :: List.replicate 2 (1, 1) ++
      List.replicate 2 (2, 1) ++ List.replicate 7 (2, 0)) := by
  decide +kernel

end LoxFront.Checked
