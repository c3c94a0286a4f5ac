/-
This file proves that the height limit is exact, although two counters keep it: the levels that
are left on the way down, and the height of a tree when it is complete. The height of a tree does
not tell whether a rule reads it, since a flat chain takes up height but no level. But a rule that
reads anything reads what it should, and the tree that comes out of it only ever grows: it is as
high as every tree that was complete on the way, and higher by one for every level that was open
around that. So nothing within the limit goes on from where the limit was exceeded.
-/

import LoxFront.Proofs.Sentences

namespace LoxFront

namespace Grammar

/-- If the rule reads anything from the tokens of a well-shaped tree of a tier, of whatever
height, it reads that tree. -/
structure Faithful (rule : Rule) (tier : Nat) : Prop where
  reads : ∀ {front rest later : List Token} {expr : Expr} {tree : Subtree}, expr.WellShaped →
    expr.Yields front → tier ≤ expr.tier → HaltsAt tier rest →
    rule (front ++ rest) = .ok (tree, later) →
    tree = { expr, height := expr.height } ∧ rest = later

/-! ### Chains -/

section Chain

variable {operators : List Symbol} {operand : Rule} {tier : Nat}

/-- A round that is carried out reads a right operand, and goes on with a node within the limit. -/
theorem chainFrom_operator_eq_ok {rounds : Nat} {left : Subtree} {operator : Token}
    {tokens : List Token} {outcome : Subtree × List Token}
    (isOperator : isOneOf operators operator = true) :
    chainFrom operators operand (rounds + 1) left (operator :: tokens) = .ok outcome ↔
      ∃ right rest, operand tokens = .ok (right, rest) ∧
        max left.height right.height + 1 ≤ heightLimit ∧
        chainFrom operators operand rounds
          { expr := .binary left.expr operator right.expr
            height := max left.height right.height + 1 } rest = .ok outcome := by
  constructor
  · intro read
    rw [chainFrom_operator isOperator] at read
    obtain ⟨⟨right, rest⟩, readRight, readBehind⟩ := bind_eq_ok.mp read
    obtain ⟨⟨node, later⟩, completed, readMore⟩ := bind_eq_ok.mp readBehind
    obtain ⟨small, rfl, rfl⟩ := complete_eq_ok.mp completed
    exact ⟨right, later, readRight, small, readMore⟩
  · rintro ⟨right, rest, readRight, small, readMore⟩
    rw [chainFrom_round isOperator readRight small, readMore]

/-- A chain grows from what has been read of it. -/
theorem height_le_of_chainFrom {rounds : Nat} {left tree : Subtree} {tokens rest : List Token}
    (read : chainFrom operators operand rounds left tokens = .ok (tree, rest)) :
    left.height ≤ tree.height := by
  induction rounds generalizing left tokens with
  | zero =>
    cases read
    exact Nat.le_refl _
  | succ rounds inductionHypothesis =>
    cases tokens with
    | nil =>
      cases read
      exact Nat.le_refl _
    | cons operator behind =>
      by_cases isOperator : isOneOf operators operator = true
      · obtain ⟨right, _, -, -, readMore⟩ := (chainFrom_operator_eq_ok isOperator).mp read
        have grown : max left.height right.height + 1 ≤ tree.height := inductionHypothesis readMore
        omega
      · rw [chainFrom, if_neg isOperator] at read
        cases read
        exact Nat.le_refl _

/-- A chain that has been read, and starts with the tokens of a tree of the tier, has been read as
that tree at some point and gone on from there. -/
theorem Faithful.chain_reaches (faithful : Faithful operand (tier + 1))
    (isTier : IsTier operators tier) (expr : Expr) {front rest : List Token}
    {outcome : Subtree × List Token} (shaped : expr.WellShaped) (yields : expr.Yields front)
    (tight : tier ≤ expr.tier) (loose : tier < 4) (halts : HaltsAt (tier + 1) rest)
    (read : chain operators operand (front ++ rest) = .ok outcome) :
    ∃ rounds, rest.length ≤ rounds ∧
      chainFrom operators operand rounds { expr, height := expr.height } rest = .ok outcome := by
  induction expr generalizing front rest with
  | grouping | literal | unary =>
    obtain ⟨⟨first, later⟩, readFirst, readMore⟩ := bind_eq_ok.mp read
    obtain ⟨rfl, rfl⟩ := faithful.reads shaped yields loose halts readFirst
    exact ⟨rest.length, Nat.le_refl _, readMore⟩
  | binary left operator right inductionLeft _ =>
    rcases Nat.eq_or_lt_of_le tight with same | tighter
    · obtain ⟨own, known, tightLeft, tightRight, shapedLeft, shapedRight⟩ := shaped
      obtain rfl : tier = own := same.trans (Expr.tier_binary known)
      cases yields with
      | @binary _ _ _ front back yieldsLeft yieldsRight =>
        rw [List.append_assoc, List.cons_append] at read
        obtain ⟨rounds, enough, readFrom⟩ := inductionLeft shapedLeft yieldsLeft tightLeft
          (haltsAt_operator known _) read
        -- The left operand leaves at least the operator, so there is a round to read it in.
        obtain ⟨rounds, rfl⟩ : ∃ fewer, rounds = fewer + 1 :=
          Nat.exists_eq_succ_of_ne_zero (Nat.ne_zero_of_lt enough)
        obtain ⟨_, _, readRight, -, readMore⟩ :=
          (chainFrom_operator_eq_ok ((isTier operator).mpr known)).mp readFrom
        obtain ⟨rfl, rfl⟩ := faithful.reads shapedRight yieldsRight tightRight halts readRight
        rw [List.length_cons, List.length_append] at enough
        exact ⟨rounds, by omega, readMore⟩
    · obtain ⟨⟨first, later⟩, readFirst, readMore⟩ := bind_eq_ok.mp read
      obtain ⟨rfl, rfl⟩ := faithful.reads shaped yields tighter halts readFirst
      exact ⟨rest.length, Nat.le_refl _, readMore⟩

theorem Faithful.chain (faithful : Faithful operand (tier + 1)) (isTier : IsTier operators tier)
    (loose : tier < 4) : Faithful (Grammar.chain operators operand) tier where
  reads {front rest later expr tree} shaped yields tight halts read := by
    obtain ⟨rounds, -, readFrom⟩ :=
      faithful.chain_reaches isTier expr shaped yields tight loose halts.succ read
    rw [chainFrom_halts isTier rounds _ halts] at readFrom
    cases readFrom
    exact ⟨rfl, rfl⟩

end Chain

/-! ### All rules -/

theorem faithful_ruleAt_of_operand {levels tier : Nat} (faithful : Faithful (operand levels) 4)
    (known : tier ≤ 4) : Faithful (ruleAt tier levels) tier := by
  induction known using Nat.decreasingInduction with
  | self => exact faithful
  | of_succ tier loose inductionHypothesis =>
    obtain ⟨operators, isTier, isChain⟩ := exists_ruleAt_eq_chain loose
    rw [isChain]
    exact inductionHypothesis.chain isTier loose

theorem faithful_operandOf {levels : Nat} (faithful : Faithful (operand levels) 4) :
    Faithful (operandOf (operand levels)) 4 where
  reads {front rest later expr tree} shaped yields tight _ read := by
    cases yields with
    | binary =>
      obtain ⟨own, known, -⟩ := shaped
      rw [Expr.tier_binary known] at tight
      exact absurd (Token.tier?_lt known) (Nat.not_lt.mpr tight)
    | @grouping body opening closing inner opens closes yieldsBody =>
      rw [List.cons_append, List.append_assoc, List.singleton_append,
        operandOf_parenthesis opens] at read
      obtain ⟨⟨_, _⟩, readBody, closed⟩ := bind_eq_ok.mp read
      have shapedBody : body.WellShaped := shaped
      have faithfulBody := faithful_ruleAt_of_operand faithful (Nat.zero_le 4)
      obtain ⟨rfl, rfl⟩ := faithfulBody.reads shapedBody yieldsBody (Nat.zero_le _)
        (haltsAt_closing closes rest) readBody
      obtain ⟨_, equal, -, -, rfl⟩ := closeBehind_eq_ok.mp closed
      exact ⟨rfl, (List.cons.inj equal).2⟩
    | @literal value token denotes =>
      rw [List.singleton_append, operandOf_literal denotes] at read
      cases read
      exact ⟨rfl, rfl⟩
    | unary yieldsOperand =>
      obtain ⟨isUnary, exactTier, shapedOperand⟩ := shaped
      rw [List.cons_append, operandOf_unary isUnary] at read
      obtain ⟨⟨_, _⟩, readOperand, completed⟩ := bind_eq_ok.mp read
      obtain ⟨rfl, rfl⟩ := faithful.reads shapedOperand yieldsOperand
        (Nat.le_of_eq exactTier.symm) (haltsAt_four rest) readOperand
      obtain ⟨-, rfl, rfl⟩ := complete_eq_ok.mp completed
      exact ⟨rfl, rfl⟩

theorem faithful_operand (levels : Nat) : Faithful (operand levels) 4 := by
  induction levels with
  | zero => exact ⟨fun _ _ _ _ read => by cases read⟩
  | succ levels inductionHypothesis => exact faithful_operandOf inductionHypothesis

theorem faithful_ruleAt {tier : Nat} (known : tier ≤ 4) (levels : Nat) :
    Faithful (ruleAt tier levels) tier :=
  faithful_ruleAt_of_operand (faithful_operand levels) known

/-! ### Growth -/

section Growth

variable {tier own levels : Nat} {tokens rest : List Token} {tree : Subtree}

/-- What is read for a tier starts with what is read there for a tighter one. -/
theorem exists_tighter_read (loose : tier ≤ own) (known : own ≤ 4)
    (read : ruleAt tier levels tokens = .ok (tree, rest)) :
    ∃ first later, ruleAt own levels tokens = .ok (first, later) ∧
      first.height ≤ tree.height := by
  induction loose using Nat.decreasingInduction generalizing tree rest with
  | self => exact ⟨tree, rest, read, Nat.le_refl _⟩
  | of_succ tier loose inductionHypothesis =>
    obtain ⟨operators, -, isChain⟩ := exists_ruleAt_eq_chain (Nat.lt_of_lt_of_le loose known)
    rw [isChain] at read
    obtain ⟨⟨head, afterHead⟩, readHead, readMore⟩ := bind_eq_ok.mp read
    obtain ⟨first, later, readFirst, height⟩ := inductionHypothesis readHead
    exact ⟨first, later, readFirst, Nat.le_trans height (height_le_of_chainFrom readMore)⟩

/-- What is read starts with an operand, and there is a level for it. -/
theorem exists_operand_read (known : tier ≤ 4)
    (read : ruleAt tier levels tokens = .ok (tree, rest)) :
    ∃ fewer first later, levels = fewer + 1 ∧
      operandOf (operand fewer) tokens = .ok (first, later) ∧ first.height ≤ tree.height := by
  obtain ⟨first, later, readFirst, height⟩ := exists_tighter_read known (Nat.le_refl 4) read
  cases levels with
  | zero => cases readFirst
  | succ fewer => exact ⟨fewer, first, later, rfl, readFirst, height⟩

theorem exists_read_behind_unary {operator : Token} (known : tier ≤ 4)
    (isUnary : operator.IsUnary)
    (read : ruleAt tier levels (operator :: tokens) = .ok (tree, rest)) :
    ∃ fewer inner later, levels = fewer + 1 ∧ ruleAt 4 fewer tokens = .ok (inner, later) ∧
      inner.height + 1 ≤ tree.height := by
  obtain ⟨fewer, first, later, rfl, readFirst, height⟩ := exists_operand_read known read
  rw [operandOf_unary isUnary] at readFirst
  obtain ⟨⟨inner, afterInner⟩, readInner, completed⟩ := bind_eq_ok.mp readFirst
  obtain ⟨-, rfl, -⟩ := complete_eq_ok.mp completed
  exact ⟨fewer, inner, afterInner, rfl, readInner, height⟩

theorem exists_read_behind_parenthesis {opening : Token} (known : tier ≤ 4)
    (opens : opening.data = .symbol .leftParen)
    (read : ruleAt tier levels (opening :: tokens) = .ok (tree, rest)) :
    ∃ fewer inner later, levels = fewer + 1 ∧ ruleAt 0 fewer tokens = .ok (inner, later) ∧
      inner.height + 1 ≤ tree.height := by
  obtain ⟨fewer, first, later, rfl, readFirst, height⟩ := exists_operand_read known read
  rw [operandOf_parenthesis opens] at readFirst
  obtain ⟨⟨inner, afterInner⟩, readInner, closed⟩ := bind_eq_ok.mp readFirst
  obtain ⟨_, -, -, -, rfl⟩ := closeBehind_eq_ok.mp closed
  exact ⟨fewer, inner, afterInner, rfl, readInner, height⟩

/-- Behind a complete operand and an operator a right operand is read, and the tree is higher than
both. -/
theorem exists_read_behind_operator {left : Expr} {operator : Token} {front : List Token}
    (known : operator.tier? = some own) (loose : tier ≤ own) (tight : own ≤ left.tier)
    (shaped : left.WellShaped) (yields : left.Yields front)
    (read : ruleAt tier levels (front ++ operator :: tokens) = .ok (tree, rest)) :
    ∃ right later, ruleAt (own + 1) levels tokens = .ok (right, later) ∧
      max left.height right.height + 1 ≤ tree.height := by
  have below := Token.tier?_lt known
  obtain ⟨first, afterFirst, readFirst, height⟩ :=
    exists_tighter_read loose (Nat.le_of_lt below) read
  obtain ⟨operators, isTier, isChain⟩ := exists_ruleAt_eq_chain below
  rw [isChain] at readFirst
  obtain ⟨rounds, enough, readFrom⟩ := (faithful_ruleAt below levels).chain_reaches isTier left
    shaped yields tight below (haltsAt_operator known tokens) readFirst
  obtain ⟨rounds, rfl⟩ : ∃ fewer, rounds = fewer + 1 :=
    Nat.exists_eq_succ_of_ne_zero (Nat.ne_zero_of_lt enough)
  obtain ⟨right, later, readRight, -, readMore⟩ :=
    (chainFrom_operator_eq_ok ((isTier operator).mpr known)).mp readFrom
  exact ⟨right, later, readRight, Nat.le_trans (height_le_of_chainFrom readMore) height⟩

/-- What is read is as high as every tree that it starts with, whatever follows. -/
theorem height_le_of_read {expr : Expr} {front : List Token} (shaped : expr.WellShaped)
    (yields : expr.Yields front) (tight : tier ≤ expr.tier)
    (read : ruleAt tier levels (front ++ tokens) = .ok (tree, rest)) :
    expr.height ≤ tree.height := by
  have known := Nat.le_trans tight expr.tier_le
  induction yields generalizing tier levels tokens tree rest with
  | literal => exact Nat.zero_le _
  | unary _ inductionHypothesis =>
    obtain ⟨isUnary, exactTier, shapedOperand⟩ := shaped
    obtain ⟨fewer, inner, later, rfl, readInner, height⟩ :=
      exists_read_behind_unary known isUnary read
    have heightInner := inductionHypothesis shapedOperand (Nat.le_of_eq exactTier.symm) readInner
      (Nat.le_refl 4)
    exact Nat.le_trans (Nat.succ_le_succ heightInner) height
  | grouping opens _ _ inductionHypothesis =>
    rw [List.cons_append, List.append_assoc] at read
    obtain ⟨fewer, inner, later, rfl, readInner, height⟩ :=
      exists_read_behind_parenthesis known opens read
    have heightInner := inductionHypothesis shaped (Nat.zero_le _) readInner (Nat.zero_le 4)
    exact Nat.le_trans (Nat.succ_le_succ heightInner) height
  | binary yieldsLeft _ _ inductionRight =>
    obtain ⟨own, isTier, tightLeft, tightRight, shapedLeft, shapedRight⟩ := shaped
    rw [Expr.tier_binary isTier] at tight
    rw [List.append_assoc, List.cons_append] at read
    obtain ⟨right, later, readRight, height⟩ :=
      exists_read_behind_operator isTier tight tightLeft shapedLeft yieldsLeft read
    have heightRight := inductionRight shapedRight tightRight readRight (Token.tier?_lt isTier)
    rw [Expr.height]
    omega

/-- What leads to a hole takes up its levels, and what is read is higher by them than what is read
in the hole. -/
theorem exists_read_in_hole {front : List Token} {opened hole : Nat} (known : tier ≤ 4)
    (leads : Leads tier front opened hole)
    (read : ruleAt tier levels (front ++ tokens) = .ok (tree, rest)) :
    ∃ spare inner later, levels = opened + spare ∧
      ruleAt hole spare tokens = .ok (inner, later) ∧ inner.height + opened ≤ tree.height := by
  induction leads generalizing levels tree rest with
  | here loose knownHole =>
    obtain ⟨inner, later, readInner, height⟩ := exists_tighter_read loose knownHole read
    exact ⟨levels, inner, later, (Nat.zero_add levels).symm, readInner, height⟩
  | unary isUnary _ inductionHypothesis =>
    obtain ⟨fewer, outer, _, rfl, readOuter, heightOuter⟩ :=
      exists_read_behind_unary known isUnary read
    obtain ⟨spare, inner, later, rfl, readInner, height⟩ :=
      inductionHypothesis (Nat.le_refl 4) readOuter
    exact ⟨spare, inner, later, by omega, readInner, by omega⟩
  | parenthesis opens _ inductionHypothesis =>
    obtain ⟨fewer, outer, _, rfl, readOuter, heightOuter⟩ :=
      exists_read_behind_parenthesis known opens read
    obtain ⟨spare, inner, later, rfl, readInner, height⟩ :=
      inductionHypothesis (Nat.zero_le 4) readOuter
    exact ⟨spare, inner, later, by omega, readInner, by omega⟩
  | operand isTier loose tight shaped yields _ _ inductionHypothesis =>
    rw [List.append_assoc, List.cons_append] at read
    obtain ⟨right, _, readRight, heightRight⟩ :=
      exists_read_behind_operator isTier loose tight shaped yields read
    obtain ⟨spare, inner, later, rfl, readInner, height⟩ :=
      inductionHypothesis (Token.tier?_lt isTier) readRight
    exact ⟨spare, inner, later, rfl, readInner, by omega⟩

end Growth

/-! ### The limit -/

/-- Behind an opener there is a level less. -/
theorem exists_level_of_opens {tier levels : Nat} {opener : Token} {tokens rest : List Token}
    {tree : Subtree} (known : tier ≤ 4) (opens : opener.Opens)
    (read : ruleAt tier levels (opener :: tokens) = .ok (tree, rest)) :
    ∃ fewer, levels = fewer + 2 := by
  rcases opens with isUnary | opens
  · obtain ⟨fewer, inner, later, rfl, readInner, -⟩ := exists_read_behind_unary known isUnary read
    obtain ⟨least, -, -, rfl, -⟩ := exists_operand_read (Nat.le_refl 4) readInner
    exact ⟨least, rfl⟩
  · obtain ⟨fewer, inner, later, rfl, readInner, -⟩ :=
      exists_read_behind_parenthesis known opens read
    obtain ⟨least, -, -, rfl, -⟩ := exists_operand_read (Nat.zero_le 4) readInner
    exact ⟨least, rfl⟩

theorem exists_expression_of_small {expr : Expr} {tokens : List Token} (shaped : expr.WellShaped)
    (yields : expr.Yields tokens) (small : expr.height ≤ heightLimit) :
    ∃ tree, expression tokens = .ok (tree, []) ∧ tree.height ≤ heightLimit := by
  refine ⟨{ expr, height := expr.height }, expression_eq_ok.mpr ?_, small⟩
  exact ⟨rfl, shaped, small, ⟨tokens, (List.append_nil _).symm, yields⟩,
    fun _ member => by cases member⟩

/-- Nothing within the limit starts with what was read when the reading got stuck for its height. -/
theorem height_gt_of_stuck {before taken more : List Token} {opened spare hole : Nat}
    {failure : Failure} {expr : Expr} (leads : Leads 0 before opened hole)
    (sum : heightLimit = opened + spare) (stuck : Stuck hole spare taken failure)
    (high : failure.cause = .tooHigh) (shaped : expr.WellShaped)
    (yields : expr.Yields (before ++ taken ++ more)) : heightLimit < expr.height := by
  refine Nat.lt_of_not_le fun small => ?_
  obtain ⟨tree, read, smallTree⟩ := exists_expression_of_small shaped yields small
  rw [List.append_assoc] at read
  obtain ⟨levels, inner, later, sumLevels, readInner, height⟩ :=
    exists_read_in_hole (Nat.zero_le 4) leads read
  cases stuck with
  | missing => cases high
  | unclosed => cases high
  | spent opens =>
    -- All levels but one are open around the hole, and behind the opener there is not even that.
    obtain ⟨fewer, rfl⟩ := exists_level_of_opens leads.hole_le opens readInner
    omega
  | overfull shapedNode yieldsNode tight heightNode _ =>
    -- Whatever is read in the hole is as high as the node, and that is too high.
    have grown := height_le_of_read shapedNode yieldsNode tight readInner
    omega

/-- How the limit is reported, given the tokens up to the end mark and what was read of them. -/
inductive TooHighAt (delimited read : List Token) : Token → Prop
  /-- As many levels as the limit allows are open, and the last token that was read opens one more.
  The report is about the token behind it. -/
  | behindOpener {before later : List Token} {hole : Nat} {opener token : Token}
      (split : read = before ++ [opener]) (leads : Leads 0 before heightLimit hole)
      (opens : opener.Opens) (next : delimited = read ++ token :: later) :
      TooHighAt delimited read token
  /-- A node is complete and one higher than the limit, and no node that was complete before it is
  higher than the limit. The report is about the operator or the opening parenthesis of the node. -/
  | origin {before taken : List Token} {opened hole : Nat} {node : Expr} {token : Token}
      (split : read = before ++ taken) (leads : Leads 0 before opened hole)
      (shaped : node.WellShaped) (yields : node.Yields taken) (tight : hole ≤ node.tier)
      (height : node.height = heightLimit + 1) (starts : node.origin? taken = some token) :
      TooHighAt delimited read token

theorem origin_mem {node : Expr} {tokens : List Token} {token : Token} (yields : node.Yields tokens)
    (starts : node.origin? tokens = some token) : token ∈ tokens := by
  cases yields with
  | binary | unary =>
    obtain rfl := Option.some.inj starts
    simp
  | grouping => exact List.mem_of_head? starts
  | literal => cases starts

theorem exists_tooHighAt {tokens before taken : List Token} {opened spare hole : Nat}
    {failure : Failure}
    (split : (Sentence.ofTokens tokens).tokens = before ++ taken ++ failure.unread)
    (leads : Leads 0 before opened hole) (sum : heightLimit = opened + spare)
    (stuck : Stuck hole spare taken failure) (high : failure.cause = .tooHigh) :
    ∃ token, TooHighAt (Sentence.delimited tokens) (before ++ taken) token ∧
      failure.located (Sentence.ofTokens tokens).stop = .about .tooHigh token := by
  cases stuck with
  | missing => cases high
  | unclosed => cases high
  | spent opens =>
    obtain rfl : heightLimit = opened := sum
    obtain ⟨token, later, delimits, located, -⟩ := exists_located_atFront split .tooHigh
    exact ⟨token, .behindOpener rfl leads opens delimits, located⟩
  | @overfull _ node _ unread origin shaped yields tight height starts =>
    have member : origin ∈ (Sentence.ofTokens tokens).tokens := by
      have inside := origin_mem yields starts
      rw [split]
      simp [inside]
    exact ⟨origin, .origin rfl leads shaped yields tight height starts,
      located_some rfl (Sentence.isEnd_of_mem_tokens member) _⟩

/-- A whole sentence is refused for no other reason than its height. -/
theorem cause_of_isSentence {tokens : List Token} {failure : Failure}
    (sentence : IsSentence (tokens.map Token.kind))
    (failed : wholeExpression tokens = .error failure) : failure.cause = .tooHigh := by
  refine Decidable.byContradiction fun notHigh => ?_
  obtain ⟨read, split, -, earliest⟩ := earliest_of_wholeExpression failed notHigh
  rw [split, List.map_append] at sentence
  cases unread : failure.unread with
  | nil =>
    rw [unread, List.map_nil, List.append_nil] at sentence
    exact earliest.not_whole (by rw [unread]; rfl) sentence
  | cons next later =>
    rw [unread] at sentence
    refine earliest.not_longer next.kind (by rw [unread]; rfl) ⟨later.map Token.kind, ?_⟩
    rwa [List.append_assoc]

end Grammar

open Grammar

theorem exists_tooHigh_of_yields {tokens : List Token} {expr : Expr} (shaped : expr.WellShaped)
    (yields : expr.Yields (tokens.takeWhile fun token => !token.isEnd))
    (high : heightLimit < expr.height) :
    ∃ error, parseWhole tokens = .error error ∧ error.cause = .tooHigh := by
  cases outcome : wholeExpression (Sentence.ofTokens tokens).tokens with
  | error failure =>
    refine ⟨_, parseWhole_eq_error.mpr ⟨failure, outcome, rfl⟩, ?_⟩
    rw [located_cause]
    exact cause_of_isSentence ⟨expr, _, shaped, yields, rfl⟩ outcome
  | ok other =>
    obtain ⟨tree, read, -⟩ := wholeExpression_eq_ok.mp outcome
    have small := (exact_expression.sound _ _ _ read).choose_spec.2.1.small
    rw [← List.append_nil (Sentence.ofTokens tokens).tokens] at read
    have grown := height_le_of_read shaped yields (Nat.zero_le _) read
    omega

/-- The height limit is exact. If the tokens before the end mark are those of a well-shaped tree,
they are read as it when it is within the limit and refused for their height when it is not. And
whenever anything is refused for its height, nothing within the limit starts with what was read;
the report is about the token behind the opener of one level more than the limit, or about the
operator or opening parenthesis of the first node that is higher than the limit. -/
theorem heightLimit_exact (tokens : List Token) :
    (∀ expr : Expr, expr.WellShaped →
      expr.Yields (tokens.takeWhile fun token => !token.isEnd) →
      (expr.height ≤ heightLimit → parseWhole tokens = .ok expr) ∧
      (heightLimit < expr.height →
        ∃ error, parseWhole tokens = .error error ∧ error.cause = .tooHigh)) ∧
    ∀ error, parseFront tokens = .error error ∨ parseWhole tokens = .error error →
      error.cause = .tooHigh →
      ∃ read failure token,
        expression (Sentence.ofTokens tokens).tokens = .error failure ∧
        (Sentence.ofTokens tokens).tokens = read ++ failure.unread ∧
        (∀ (expr : Expr) (more : List Token), expr.WellShaped → expr.Yields (read ++ more) →
          heightLimit < expr.height) ∧
        TooHighAt (Sentence.delimited tokens) read token ∧ error = .about .tooHigh token := by
  refine ⟨fun expr shaped yields => ⟨fun small => ?_, exists_tooHigh_of_yields shaped yields⟩, ?_⟩
  · exact parseWhole_iff_yields.mpr ⟨shaped, yields, small⟩
  intro error failed high
  have failedFront : parseFront tokens = .error error := by
    rcases failed with front | whole
    · exact front
    · exact parseFront_eq_error_iff.mpr ⟨whole, by rw [high]; decide⟩
  obtain ⟨failure, failedExpression, rfl⟩ := parseFront_eq_error.mp failedFront
  rw [located_cause] at high
  obtain ⟨before, taken, opened, spare, hole, split, sum, leads, stuck⟩ :=
    blocked_of_expression_eq_error failedExpression
  rw [← List.append_assoc] at split
  obtain ⟨token, tooHighAt, located⟩ := exists_tooHighAt split leads sum stuck high
  refine ⟨before ++ taken, failure, token, failedExpression, split, ?_, tooHighAt, located⟩
  exact fun expr more shaped yields => height_gt_of_stuck leads sum stuck high shaped yields

/-- Behind one sign more than the limit allows the reading ends, whatever stands there. -/
theorem heightLimit_exact_of_many_signs :
    ∃ error, parseWhole (tokenize (List.replicate 129 '-')).1 = .error error ∧
      error = { cause := .tooHigh, line := 1, column := 130, lexeme? := none } ∧
      ∃ read token,
        TooHighAt (Sentence.delimited (tokenize (List.replicate 129 '-')).1) read token ∧
        error = .about .tooHigh token := by
  have failed : parseWhole (tokenize (List.replicate 129 '-')).1 =
      .error { cause := .tooHigh, line := 1, column := 130, lexeme? := none } := by
    decide +kernel
  obtain ⟨read, failure, token, -, -, -, tooHighAt, about⟩ :=
    (heightLimit_exact _).2 _ (Or.inr failed) rfl
  exact ⟨_, failed, rfl, read, token, tooHighAt, about⟩

end LoxFront
