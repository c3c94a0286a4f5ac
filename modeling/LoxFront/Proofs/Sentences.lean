/-
This file proves that a syntax error is found at the earliest token at which it can be. A sentence
is the sorts of the tokens of a well-shaped tree, of whatever height, and a beginning is what some
sentence starts with. What has been read when a rule gets stuck is always a beginning: the open
levels can be closed again, one by one from the inside. That no sentence goes on with the next
token is another matter, since it is about all trees at once. It is seen from what is due behind a
beginning, an operand or an operator, and how many parentheses are open there, which the sorts of
the tokens alone determine.
-/

import LoxFront.Proofs.EndMarks
import LoxFront.Proofs.Failures

namespace LoxFront

namespace Grammar

/-- The sorts of the tokens of an expression. -/
def IsSentence (kinds : List Token.Kind) : Prop :=
  ∃ (expr : Expr) (tokens : List Token),
    expr.WellShaped ∧ expr.Yields tokens ∧ tokens.map Token.kind = kinds

/-- What the sorts of the tokens of some expression start with. -/
def IsBeginning (kinds : List Token.Kind) : Prop :=
  ∃ rest, IsSentence (kinds ++ rest)

/-- An operand is due: a value can come next. -/
def OperandDue (kinds : List Token.Kind) : Prop := IsBeginning (kinds ++ [.number])

/-- An operator is due: the one that binds loosest can come next. -/
def OperatorDue (kinds : List Token.Kind) : Prop :=
  IsBeginning (kinds ++ [.symbol .equalEqual])

/-- A closing parenthesis is due, which there is only inside an open parenthesis. -/
def ClosingDue (kinds : List Token.Kind) : Prop :=
  IsBeginning (kinds ++ [.symbol .rightParen])

/-! ### What is due -/

/-- What is due behind the front of an expression inside a number of open parentheses. -/
inductive Standing
  | operandDue (opened : Nat)
  | operatorDue (opened : Nat)

namespace Standing

/-- What is due behind one more token. -/
def step : Standing → Token.Kind → Option Standing
  | operandDue opened, .symbol .leftParen => some (operandDue (opened + 1))
  | operandDue opened, .symbol .bang | operandDue opened, .symbol .minus =>
    some (operandDue opened)
  | operandDue opened, .string | operandDue opened, .number
  | operandDue opened, .keyword .trueWord | operandDue opened, .keyword .falseWord
  | operandDue opened, .keyword .nilWord => some (operatorDue opened)
  | operatorDue (opened + 1), .symbol .rightParen => some (operatorDue opened)
  | operatorDue opened, .symbol mark => mark.tier?.map fun _ => operandDue opened
  | _, _ => none

/-- What is due behind some more tokens. -/
def after (standing : Standing) (kinds : List Token.Kind) : Option Standing :=
  kinds.foldlM step standing

theorem after_append (standing : Standing) (front back : List Token.Kind) :
    standing.after (front ++ back) = (standing.after front).bind fun later => later.after back :=
  List.foldlM_append

theorem after_cons (standing : Standing) (kind : Token.Kind) (kinds : List Token.Kind) :
    standing.after (kind :: kinds) = (standing.step kind).bind fun later => later.after kinds :=
  List.foldlM_cons

variable {token : Token} {opened : Nat}

theorem step_unary (isUnary : token.IsUnary) :
    (operandDue opened).step token.kind = some (operandDue opened) := by
  rcases isUnary with data | data <;> rw [Token.kind, data] <;> rfl

theorem step_leftParen (opens : token.data = .symbol .leftParen) :
    (operandDue opened).step token.kind = some (operandDue (opened + 1)) := by
  rw [Token.kind, opens]
  rfl

theorem step_rightParen (closes : token.data = .symbol .rightParen) :
    (operatorDue (opened + 1)).step token.kind = some (operatorDue opened) := by
  rw [Token.kind, closes]
  rfl

theorem step_literal {value : Literal} (denotes : token.data.literal? = some value) :
    (operandDue opened).step token.kind = some (operatorDue opened) := by
  rw [Token.kind]
  cases data : token.data with
  | string | number => rfl
  | keyword word => cases word <;> simp_all [Token.Data.literal?, Token.Data.kind, step]
  | symbol | identifier | endOfInput =>
    rw [data] at denotes
    cases denotes

theorem step_operator {tier : Nat} (known : token.tier? = some tier) :
    (operatorDue opened).step token.kind = some (operandDue opened) := by
  rw [Token.kind]
  unfold Token.tier? at known
  cases data : token.data with
  | symbol mark => cases mark <;> simp_all [Symbol.tier?, Token.Data.kind, step]
  | keyword | identifier | string | number | endOfInput =>
    rw [data] at known
    cases known

theorem step_of_not_startsOperand (noOperand : ¬ token.StartsOperand) :
    (operandDue opened).step token.kind = none := by
  unfold Token.StartsOperand Token.Opens Token.IsUnary at noOperand
  rw [Token.kind]
  cases data : token.data with
  | symbol mark => cases mark <;> simp_all [Token.Data.kind, step]
  | keyword word => cases word <;> simp_all [Token.Data.literal?, Token.Data.kind, step]
  | identifier | endOfInput => rfl
  | string | number => simp_all [Token.Data.literal?]

theorem step_of_tier?_eq_none (noOperator : token.tier? = none)
    (notClosed : opened = 0 ∨ token.data ≠ .symbol .rightParen) :
    (operatorDue opened).step token.kind = none := by
  rw [Token.kind]
  unfold Token.tier? at noOperator
  cases data : token.data with
  | symbol mark => cases mark <;> cases opened <;> simp_all [Symbol.tier?, Token.Data.kind, step]
  | keyword | identifier | string | number | endOfInput => cases opened <;> rfl

/-- A whole expression stands where an operand is due. -/
theorem after_yields {expr : Expr} {tokens : List Token} (yields : expr.Yields tokens)
    (shaped : expr.WellShaped) (opened : Nat) :
    (operandDue opened).after (tokens.map Token.kind) = some (operatorDue opened) := by
  induction yields generalizing opened with
  | binary _ _ inductionLeft inductionRight =>
    obtain ⟨tier, known, -, -, shapedLeft, shapedRight⟩ := shaped
    rw [List.map_append, after_append, inductionLeft shapedLeft, List.map_cons, Option.bind_some,
      after_cons, step_operator known, Option.bind_some, inductionRight shapedRight]
  | grouping opens closes _ inductionHypothesis =>
    rw [List.map_cons, after_cons, step_leftParen opens, Option.bind_some, List.map_append,
      after_append, inductionHypothesis shaped, Option.bind_some, List.map_singleton, after_cons,
      step_rightParen closes]
    rfl
  | literal denotes =>
    rw [List.map_singleton, after_cons, step_literal denotes]
    rfl
  | unary _ inductionHypothesis =>
    obtain ⟨isUnary, -, shapedOperand⟩ := shaped
    rw [List.map_cons, after_cons, step_unary isUnary, Option.bind_some,
      inductionHypothesis shapedOperand]

theorem after_leads {tier levels hole : Nat} {front : List Token}
    (leads : Leads tier front levels hole) (opened : Nat) :
    ∃ more, (operandDue opened).after (front.map Token.kind) =
      some (operandDue (opened + more)) := by
  induction leads generalizing opened with
  | here => exact ⟨0, rfl⟩
  | unary isUnary _ inductionHypothesis =>
    obtain ⟨more, later⟩ := inductionHypothesis opened
    exact ⟨more, by rw [List.map_cons, after_cons, step_unary isUnary, Option.bind_some, later]⟩
  | parenthesis opens _ inductionHypothesis =>
    obtain ⟨more, later⟩ := inductionHypothesis (opened + 1)
    refine ⟨1 + more, ?_⟩
    rw [List.map_cons, after_cons, step_leftParen opens, Option.bind_some, later, Nat.add_assoc]
  | operand known _ _ shaped yields _ _ inductionHypothesis =>
    obtain ⟨more, later⟩ := inductionHypothesis opened
    refine ⟨more, ?_⟩
    rw [List.map_append, after_append, after_yields yields shaped, Option.bind_some, List.map_cons,
      after_cons, step_operator known, Option.bind_some, later]

end Standing

open Standing

theorem IsSentence.after {kinds : List Token.Kind} (sentence : IsSentence kinds) :
    (operandDue 0).after kinds = some (operatorDue 0) := by
  obtain ⟨expr, tokens, shaped, yields, rfl⟩ := sentence
  exact after_yields yields shaped 0

/-- Behind a beginning something is due, and the next token of a longer beginning fits in. -/
theorem IsBeginning.step {kinds : List Token.Kind} {kind : Token.Kind} {standing : Standing}
    (beginning : IsBeginning (kinds ++ [kind]))
    (reached : (operandDue 0).after kinds = some standing) : standing.step kind ≠ none := by
  obtain ⟨rest, sentence⟩ := beginning
  have whole := sentence.after
  rw [List.append_assoc, after_append, reached, Option.bind_some, List.singleton_append,
    after_cons] at whole
  intro refused
  rw [refused] at whole
  cases whole

/-! ### Closing what is open -/

/-- A token that says something, wherever it stands. -/
def spare (data : Token.Data) : Token where
  data := data
  span := { start := Place.ofText [], lexeme := [] }

/-- A tree that may stand in a hole becomes part of a tree that may stand where the hole was looked
for: the parentheses that are open around it are closed behind it. -/
theorem exists_closed {tier opened hole : Nat} {front : List Token} (limited : tier ≤ 4)
    (leads : Leads tier front opened hole) {expr : Expr} {tokens : List Token}
    (shaped : expr.WellShaped) (tight : hole ≤ expr.tier) (yields : expr.Yields tokens) :
    ∃ (whole : Expr) (rest : List Token), whole.WellShaped ∧ tier ≤ whole.tier ∧
      whole.Yields (front ++ (tokens ++ rest)) := by
  induction leads with
  | here loose _ =>
    exact ⟨expr, [], shaped, Nat.le_trans loose tight, by rwa [List.append_nil]⟩
  | unary isUnary _ inductionHypothesis =>
    obtain ⟨operand, rest, shapedOperand, tightOperand, yieldsOperand⟩ :=
      inductionHypothesis (Nat.le_refl 4) tight
    have exactTier := Nat.le_antisymm operand.tier_le tightOperand
    exact ⟨.unary _ operand, rest, ⟨isUnary, exactTier, shapedOperand⟩, limited,
      .unary yieldsOperand⟩
  | parenthesis opens _ inductionHypothesis =>
    obtain ⟨body, rest, shapedBody, -, yieldsBody⟩ := inductionHypothesis (Nat.zero_le 4) tight
    have closes : (spare (.symbol .rightParen)).data = .symbol .rightParen := rfl
    have grouped := Expr.Yields.grouping opens closes yieldsBody
    refine ⟨.grouping body, rest ++ [spare (.symbol .rightParen)], shapedBody, limited, ?_⟩
    rwa [List.append_assoc, List.append_assoc] at grouped
  | @operand _ own _ _ left operator _ _ known _ tightLeft shapedLeft yieldsLeft _ _
      inductionHypothesis =>
    obtain ⟨right, rest, shapedRight, tightRight, yieldsRight⟩ :=
      inductionHypothesis (Token.tier?_lt known) tight
    refine ⟨.binary left operator right, rest, ?_, ?_, ?_⟩
    · exact ⟨own, known, tightLeft, tightRight, shapedLeft, shapedRight⟩
    · rwa [Expr.tier_binary known]
    · rw [List.append_assoc, List.cons_append]
      exact .binary yieldsLeft yieldsRight

/-- The front of the tokens of a tree in a hole is the front of a sentence. -/
theorem isBeginning_of_leads {opened hole : Nat} {before front behind : List Token}
    (leads : Leads 0 before opened hole) (expr : Expr) (shaped : expr.WellShaped)
    (tight : hole ≤ expr.tier) (yields : expr.Yields (front ++ behind)) :
    IsBeginning ((before ++ front).map Token.kind) := by
  obtain ⟨whole, rest, shapedWhole, -, yieldsWhole⟩ :=
    exists_closed (Nat.zero_le 4) leads shaped tight yields
  refine ⟨(behind ++ rest).map Token.kind, whole, _, shapedWhole, yieldsWhole, ?_⟩
  simp

theorem IsBeginning.of_append {front back : List Token.Kind}
    (beginning : IsBeginning (front ++ back)) : IsBeginning front := by
  obtain ⟨rest, sentence⟩ := beginning
  exact ⟨back ++ rest, by rwa [← List.append_assoc]⟩

theorem operandDue_of_leads {opened hole : Nat} {before : List Token}
    (leads : Leads 0 before opened hole) : OperandDue (before.map Token.kind) := by
  have value : (Expr.literal (.number .nan)).Yields ([spare (.number .nan)] ++ []) :=
    .literal rfl
  have beginning :=
    isBeginning_of_leads leads (.literal (.number .nan)) trivial leads.hole_le value
  rwa [List.map_append] at beginning

/-- Behind an open parenthesis and an expression there is a choice. -/
theorem due_of_unclosed {opened hole : Nat} {before inner : List Token} {opening : Token}
    {body : Expr} (leads : Leads 0 before opened hole) (opens : opening.data = .symbol .leftParen)
    (shaped : body.WellShaped) (yields : body.Yields inner) :
    OperatorDue ((before ++ opening :: inner).map Token.kind) ∧
      ClosingDue ((before ++ opening :: inner).map Token.kind) := by
  have grouped {other : Expr} {tokens : List Token} (shapedOther : other.WellShaped)
      (yieldsOther : other.Yields tokens) (front behind : List Token)
      (split : opening :: (tokens ++ [spare (.symbol .rightParen)]) = front ++ behind) :
      IsBeginning ((before ++ front).map Token.kind) := by
    have whole := Expr.Yields.grouping opens (show (spare _).data = _ from rfl) yieldsOther
    rw [split] at whole
    exact isBeginning_of_leads leads (.grouping other) shapedOther leads.hole_le whole
  constructor
  · have equation : (Expr.binary body (spare (.symbol .equalEqual))
        (.literal (.number .nan))).WellShaped :=
      ⟨0, rfl, Nat.zero_le _, by decide, shaped, trivial⟩
    have value : (Expr.literal (.number .nan)).Yields [spare (.number .nan)] := .literal rfl
    have beginning := grouped equation (.binary yields value)
      (opening :: inner ++ [spare (.symbol .equalEqual)])
      [spare (.number .nan), spare (.symbol .rightParen)] (by simp)
    rwa [← List.append_assoc, List.map_append] at beginning
  · have beginning := grouped shaped yields (opening :: inner ++ [spare (.symbol .rightParen)]) []
      (by simp)
    rwa [← List.append_assoc, List.map_append] at beginning

/-! ### Failures -/

/-- A failure at the next token is found as early as it can be, and its cause says what was due:
what was read is the beginning of a sentence, but with the next token, or as a whole if there is
none, it is not. -/
structure Earliest (read : List Token.Kind) (next? : Option Token.Kind)
    (cause : SyntaxError.Cause) : Prop where
  beginning : IsBeginning read
  not_longer : ∀ next ∈ next?, ¬ IsBeginning (read ++ [next])
  not_whole : next? = none → ¬ IsSentence read
  missingOperand : cause = .missingOperand ↔ OperandDue read
  unclosedParenthesis : cause = .unclosedParenthesis ↔ OperatorDue read ∧ ClosingDue read
  trailingTokens : cause = .trailingTokens ↔ IsSentence read

section Earliest

variable {read : List Token.Kind} {next? : Option Token.Kind} {opened : Nat}

theorem not_isSentence_of_operandDue
    (reached : (operandDue 0).after read = some (operandDue opened)) : ¬ IsSentence read := by
  intro sentence
  rw [sentence.after] at reached
  cases reached

theorem earliest_missingOperand
    (reached : (operandDue 0).after read = some (operandDue opened)) (due : OperandDue read)
    (refused : ∀ next ∈ next?, (operandDue opened).step next = none) :
    Earliest read next? .missingOperand where
  beginning := due.of_append
  not_longer next member longer := longer.step reached (refused next member)
  not_whole _ := not_isSentence_of_operandDue reached
  missingOperand := ⟨fun _ => due, fun _ => rfl⟩
  unclosedParenthesis := by
    refine ⟨fun equal => (by cases equal), fun ⟨_, closing⟩ => ?_⟩
    exact absurd rfl (closing.step reached)
  trailingTokens := by
    refine ⟨fun equal => (by cases equal), fun sentence => ?_⟩
    exact absurd sentence (not_isSentence_of_operandDue reached)

theorem earliest_unclosedParenthesis
    (reached : (operandDue 0).after read = some (operatorDue (opened + 1)))
    (due : OperatorDue read ∧ ClosingDue read)
    (refused : ∀ next ∈ next?, (operatorDue (opened + 1)).step next = none) :
    Earliest read next? .unclosedParenthesis where
  beginning := due.1.of_append
  not_longer next member longer := longer.step reached (refused next member)
  not_whole _ sentence := by
    rw [sentence.after] at reached
    cases reached
  missingOperand := by
    refine ⟨fun equal => (by cases equal), fun operand => ?_⟩
    exact absurd rfl (operand.step reached)
  unclosedParenthesis := ⟨fun _ => due, fun _ => rfl⟩
  trailingTokens := by
    refine ⟨fun equal => (by cases equal), fun sentence => ?_⟩
    rw [sentence.after] at reached
    cases reached

theorem earliest_trailingTokens {next : Token.Kind} (sentence : IsSentence read)
    (refused : (operatorDue 0).step next = none) :
    Earliest read (some next) .trailingTokens where
  beginning := ⟨[], by rwa [List.append_nil]⟩
  not_longer other member longer := by
    obtain rfl := Option.mem_some.mp member
    exact longer.step sentence.after refused
  not_whole impossible := by cases impossible
  missingOperand := by
    refine ⟨fun equal => (by cases equal), fun operand => ?_⟩
    exact absurd rfl (operand.step sentence.after)
  unclosedParenthesis := by
    refine ⟨fun equal => (by cases equal), fun ⟨_, closing⟩ => ?_⟩
    exact absurd rfl (closing.step sentence.after)
  trailingTokens := ⟨fun _ => sentence, fun _ => rfl⟩

end Earliest

/-- A rule that gets stuck without having run out of height is stuck at the earliest token. -/
theorem earliest_of_blocked {levels : Nat} {tokens : List Token} {failure : Failure}
    (blocked : Blocked 0 levels tokens failure) (notHigh : failure.cause ≠ .tooHigh) :
    ∃ read, tokens = read ++ failure.unread ∧
      failure = .atFront failure.cause failure.unread ∧
      Earliest (read.map Token.kind) (failure.unread.head?.map Token.kind) failure.cause := by
  obtain ⟨before, taken, opened, spare, hole, split, -, leads, stuck⟩ := blocked
  obtain ⟨more, reached⟩ := after_leads leads 0
  refine ⟨before ++ taken, by rw [split, List.append_assoc], ?_⟩
  cases stuck with
  | @missing _ unread noOperand =>
    refine ⟨rfl, ?_⟩
    rw [List.append_nil]
    refine earliest_missingOperand reached (operandDue_of_leads leads) ?_
    intro next member
    obtain ⟨token, first, rfl⟩ := Option.map_eq_some_iff.mp (Option.mem_def.mp member)
    exact step_of_not_startsOperand (noOperand token first)
  | spent => exact absurd rfl notHigh
  | @unclosed _ opening body inner unread opens shaped yields noOperator notClosed =>
    refine ⟨rfl, ?_⟩
    have reachedBehind : (operandDue 0).after ((before ++ opening :: inner).map Token.kind) =
        some (operatorDue (0 + more + 1)) := by
      rw [List.map_append, after_append, reached, Option.bind_some, List.map_cons, after_cons,
        step_leftParen opens, Option.bind_some, after_yields yields shaped]
    refine earliest_unclosedParenthesis reachedBehind
      (due_of_unclosed leads opens shaped yields) ?_
    intro next member
    obtain ⟨token, first, rfl⟩ := Option.map_eq_some_iff.mp (Option.mem_def.mp member)
    exact step_of_tier?_eq_none (noOperator token first) (Or.inr (notClosed token first))
  | overfull => exact absurd rfl notHigh

/-- What stands behind the tree at the front is no failure. -/
theorem frontExpression_eq_error {tokens : List Token} {failure : Failure} :
    frontExpression tokens = .error failure ↔ expression tokens = .error failure := by
  rw [frontExpression, bind_eq_error, or_iff_left]
  rintro ⟨_, -, equal⟩
  cases equal

theorem wholeExpression_eq_error {tokens : List Token} {failure : Failure} :
    wholeExpression tokens = .error failure ↔
      expression tokens = .error failure ∨
        ∃ tree token rest, expression tokens = .ok (tree, token :: rest) ∧
          failure = .atFront .trailingTokens (token :: rest) := by
  rw [wholeExpression, bind_eq_error]
  refine or_congr_right ⟨?_, ?_⟩
  · rintro ⟨⟨tree, rest⟩, read, atEnd⟩
    cases rest with
    | nil => cases atEnd
    | cons token rest =>
      cases atEnd
      exact ⟨tree, token, rest, read, rfl⟩
  · rintro ⟨tree, token, rest, read, rfl⟩
    exact ⟨(tree, token :: rest), read, rfl⟩

theorem earliest_of_wholeExpression {tokens : List Token} {failure : Failure}
    (failed : wholeExpression tokens = .error failure) (notHigh : failure.cause ≠ .tooHigh) :
    ∃ read, tokens = read ++ failure.unread ∧
      failure = .atFront failure.cause failure.unread ∧
      Earliest (read.map Token.kind) (failure.unread.head?.map Token.kind) failure.cause := by
  rcases wholeExpression_eq_error.mp failed with inside | ⟨tree, token, rest, read, rfl⟩
  · exact earliest_of_blocked (blocked_of_expression_eq_error inside) notHigh
  · obtain ⟨-, shaped, -, ⟨front, rfl, yields⟩, halts⟩ := expression_eq_ok.mp read
    refine ⟨front, rfl, rfl, earliest_trailingTokens ⟨_, _, shaped, yields, rfl⟩ ?_⟩
    exact step_of_tier?_eq_none (halts token rfl) (Or.inl rfl)

end Grammar

open Grammar

theorem parseWhole_eq_error {tokens : List Token} {error : SyntaxError} :
    parseWhole tokens = .error error ↔
      ∃ failure, wholeExpression (Sentence.ofTokens tokens).tokens = .error failure ∧
        error = failure.located (Sentence.ofTokens tokens).stop := by
  rw [parseWhole_eq_located, located_eq_error]

theorem parseFront_eq_error {tokens : List Token} {error : SyntaxError} :
    parseFront tokens = .error error ↔
      ∃ failure, expression (Sentence.ofTokens tokens).tokens = .error failure ∧
        error = failure.located (Sentence.ofTokens tokens).stop := by
  rw [parseFront_eq_located, located_eq_error]
  simp only [frontExpression_eq_error]

theorem Grammar.located_cause (failure : Failure) (stop : Place) :
    (failure.located stop).cause = failure.cause := by
  unfold Failure.located
  split <;> rfl

theorem Grammar.cause_ne_trailingTokens {tokens : List Token} {failure : Failure}
    (failed : expression tokens = .error failure) : failure.cause ≠ .trailingTokens := by
  obtain ⟨_, _, _, _, _, _, _, _, stuck⟩ := blocked_of_expression_eq_error failed
  intro trailing
  cases stuck <;> cases trailing

/-- The front of the tokens cannot be read exactly if the whole of them cannot, for the same reason,
and the reason is not that something is left over. -/
theorem parseFront_eq_error_iff {tokens : List Token} {error : SyntaxError} :
    parseFront tokens = .error error ↔
      parseWhole tokens = .error error ∧ error.cause ≠ .trailingTokens := by
  rw [parseFront_eq_error, parseWhole_eq_error]
  constructor
  · rintro ⟨failure, failed, rfl⟩
    refine ⟨⟨failure, wholeExpression_eq_error.mpr (Or.inl failed), rfl⟩, ?_⟩
    rw [located_cause]
    exact cause_ne_trailingTokens failed
  · rintro ⟨⟨failure, failed, rfl⟩, notTrailing⟩
    rw [located_cause] at notTrailing
    rcases wholeExpression_eq_error.mp failed with inside | ⟨_, _, _, _, rfl⟩
    · exact ⟨failure, inside, rfl⟩
    · exact absurd rfl notTrailing

/-- Syntax errors are found at the earliest token. If the tokens are no expression, and not
because of their height, the error is about the first token of the delimited list with which what
was read is no longer the beginning of a sentence; that token is left unread, and the cause says
what was due in its place. Where only the front of the tokens is read there are the same errors,
but nothing is left over. -/
theorem syntaxError_at_earliest_token (tokens : List Token) :
    (∀ error, parseWhole tokens = .error error → error.cause ≠ .tooHigh →
      ∃ read token later failure, Sentence.delimited tokens = read ++ token :: later ∧
        (∀ other ∈ read, other.isEnd = false) ∧ error = .about error.cause token ∧
        Earliest (read.map Token.kind) (if token.isEnd then none else some token.kind)
          error.cause ∧
        wholeExpression (Sentence.ofTokens tokens).tokens = .error failure ∧
        (Sentence.ofTokens tokens).tokens = read ++ failure.unread) ∧
    ∀ error, parseFront tokens = .error error ↔
      parseWhole tokens = .error error ∧ error.cause ≠ .trailingTokens := by
  refine ⟨fun error failed notHigh => ?_, fun _ => parseFront_eq_error_iff⟩
  obtain ⟨failure, failedWhole, rfl⟩ := parseWhole_eq_error.mp failed
  rw [located_cause] at notHigh ⊢
  obtain ⟨read, split, atFront, earliest⟩ := earliest_of_wholeExpression failedWhole notHigh
  obtain ⟨token, later, delimits, located, next⟩ := exists_located_atFront split failure.cause
  rw [← atFront] at located
  refine ⟨read, token, later, failure, delimits, fun other member => ?_, located, ?_,
    failedWhole, split⟩
  · exact Sentence.isEnd_of_mem_tokens (by rw [split]; exact List.mem_append_left _ member)
  · rcases next with ⟨ended, isEnd⟩ | ⟨behind, unread, notEnd⟩
    · rw [ended] at earliest
      rwa [if_pos isEnd]
    · rw [unread] at earliest
      rwa [if_neg (by simp [notEnd])]

/-- In `(1 2)` an operator or the closing parenthesis is due where the second number stands. -/
theorem syntaxError_at_second_number :
    ∃ error, parseWhole (tokenize "(1 2)".toList).1 = .error error ∧
      error = { cause := .unclosedParenthesis, line := 1, column := 4, lexeme? := some ['2'] } ∧
      ∃ read token later failure,
        Sentence.delimited (tokenize "(1 2)".toList).1 = read ++ token :: later ∧
        (∀ other ∈ read, other.isEnd = false) ∧ error = .about error.cause token ∧
        Earliest (read.map Token.kind) (if token.isEnd then none else some token.kind)
          error.cause ∧
        wholeExpression (Sentence.ofTokens (tokenize "(1 2)".toList).1).tokens = .error failure ∧
        (Sentence.ofTokens (tokenize "(1 2)".toList).1).tokens = read ++ failure.unread := by
  have failed : parseWhole (tokenize "(1 2)".toList).1 =
      .error { cause := .unclosedParenthesis, line := 1, column := 4, lexeme? := some ['2'] } := by
    decide +kernel
  exact ⟨_, failed, rfl, (syntaxError_at_earliest_token _).1 _ failed (by decide)⟩

end LoxFront
