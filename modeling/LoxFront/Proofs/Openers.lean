/-
This file says what is open behind some tokens, by looking at the tokens alone. An opener is a
unary operator where an operand is due, or an opening parenthesis. A parenthesis is open until the
one that closes it, and a unary operator until its operand is complete, which it is behind a value
or a closing parenthesis. What leads to a hole has as many openers open as the hole has levels
around it, because a tree that is complete before the hole leaves nothing of its own open.
-/

import LoxFront.Proofs.Failures

namespace LoxFront

open Grammar

/-- What is open behind some tokens, the last that was opened first, and whether an operand is due
there. -/
structure Openings where
  openers : List Token := []
  operandDue : Bool := true

namespace Openings

/-- The openers that stay open when an operand is complete, which is not so of the unary operators
that stand right before it. -/
def afterOperand (openers : List Token) : List Token :=
  openers.dropWhile (isOneOf unaryOperators)

/-- What is open behind one more token. -/
def step (openings : Openings) (token : Token) : Openings :=
  if openings.operandDue then
    if isOneOf unaryOperators token || isOneOf [.leftParen] token then
      { openers := token :: openings.openers, operandDue := true }
    else { openers := afterOperand openings.openers, operandDue := false }
  else if isOneOf [.rightParen] token then
    { openers := afterOperand openings.openers.tail, operandDue := false }
  else { openers := openings.openers, operandDue := true }

/-- What is open behind some more tokens. -/
def behind (openings : Openings) (tokens : List Token) : Openings := tokens.foldl step openings

end Openings

/-- The unary operators and opening parentheses that are open behind some tokens. -/
def openers (tokens : List Token) : List Token := (({} : Openings).behind tokens).openers

namespace Openings

theorem behind_cons (openings : Openings) (token : Token) (tokens : List Token) :
    openings.behind (token :: tokens) = (openings.step token).behind tokens := rfl

theorem behind_append (openings : Openings) (front back : List Token) :
    openings.behind (front ++ back) = (openings.behind front).behind back :=
  List.foldl_append

/-! ### One token -/

section Step

variable {token : Token} {stack : List Token}

theorem afterOperand_unary (isUnary : token.IsUnary) :
    afterOperand (token :: stack) = afterOperand stack :=
  List.dropWhile_cons_of_pos (isOneOf_unaryOperators.mpr isUnary)

theorem afterOperand_parenthesis (opens : token.data = .symbol .leftParen) :
    afterOperand (token :: stack) = token :: stack := by
  refine List.dropWhile_cons_of_neg ?_
  rw [isOneOf_unaryOperators, opens]
  decide

theorem step_opener (opens : token.Opens) :
    step { openers := stack, operandDue := true } token =
      { openers := token :: stack, operandDue := true } := by
  have isOpener : (isOneOf unaryOperators token || isOneOf [.leftParen] token) = true := by
    rw [Bool.or_eq_true, isOneOf_unaryOperators, isOneOf_singleton]
    exact opens
  rw [step, if_pos rfl, if_pos isOpener]

theorem step_value {value : Literal} (denotes : token.data.literal? = some value) :
    step { openers := stack, operandDue := true } token =
      { openers := afterOperand stack, operandDue := false } := by
  have noOpener : ¬ (isOneOf unaryOperators token || isOneOf [.leftParen] token) = true := by
    rw [Bool.or_eq_true, isOneOf_unaryOperators, isOneOf_singleton]
    rintro ((data | data) | data) <;> rw [data] at denotes <;> cases denotes
  rw [step, if_pos rfl, if_neg noOpener]

theorem step_closing (closes : token.data = .symbol .rightParen) :
    step { openers := stack, operandDue := false } token =
      { openers := afterOperand stack.tail, operandDue := false } := by
  rw [step, if_neg Bool.false_ne_true, if_pos (isOneOf_singleton.mpr closes)]

theorem step_operator {tier : Nat} (known : token.tier? = some tier) :
    step { openers := stack, operandDue := false } token =
      { openers := stack, operandDue := true } := by
  have notClosing : ¬ isOneOf [.rightParen] token = true := by
    rw [isOneOf_singleton]
    intro data
    rw [Token.tier?, data] at known
    cases known
  rw [step, if_neg Bool.false_ne_true, if_neg notClosing]

end Step

/-! ### Trees and what leads to a hole -/

/-- Where a tree of the tier is due nothing has to be closed before an operator behind it. A tree
that is no binary expression may be the operand of a unary operator, all others may not. -/
def Admits (stack : List Token) (tier : Nat) : Prop := tier = 4 ∨ afterOperand stack = stack

/-- A complete tree leaves nothing open that was not open before it. -/
theorem behind_yields {expr : Expr} {tokens stack : List Token} (yields : expr.Yields tokens)
    (shaped : expr.WellShaped) (admits : Admits stack expr.tier) :
    behind { openers := stack, operandDue := true } tokens =
      { openers := afterOperand stack, operandDue := false } := by
  induction yields generalizing stack with
  | binary _ _ inductionLeft inductionRight =>
    obtain ⟨own, known, -, -, shapedLeft, shapedRight⟩ := shaped
    rw [Admits, Expr.tier_binary known] at admits
    have closed := admits.resolve_left (Nat.ne_of_lt (Token.tier?_lt known))
    rw [behind_append, inductionLeft shapedLeft (Or.inr closed), behind_cons, closed,
      step_operator known, inductionRight shapedRight (Or.inr closed), closed]
  | @grouping _ opening _ _ opens closes _ inductionHypothesis =>
    have kept : afterOperand (opening :: stack) = opening :: stack := afterOperand_parenthesis opens
    rw [behind_cons, step_opener (Or.inr opens), behind_append,
      inductionHypothesis shaped (Or.inr kept), kept, behind_cons, step_closing closes]
    rfl
  | literal denotes =>
    rw [behind_cons, step_value denotes]
    rfl
  | unary _ inductionHypothesis =>
    obtain ⟨isUnary, exactTier, shapedOperand⟩ := shaped
    rw [behind_cons, step_opener (Or.inl isUnary),
      inductionHypothesis shapedOperand (Or.inl exactTier), afterOperand_unary isUnary]

/-- What leads to a hole opens as many levels as there are around the hole. -/
theorem exists_behind_leads {tier opened hole : Nat} {front stack : List Token}
    (leads : Leads tier front opened hole) (admits : Admits stack tier) :
    ∃ more, more.length = opened ∧ behind { openers := stack, operandDue := true } front =
      { openers := more ++ stack, operandDue := true } := by
  induction leads generalizing stack with
  | here => exact ⟨[], rfl, rfl⟩
  | @unary _ _ _ operator _ isUnary _ inductionHypothesis =>
    have admitsOperand : Admits (operator :: stack) 4 := Or.inl rfl
    obtain ⟨more, length, later⟩ := inductionHypothesis admitsOperand
    refine ⟨more ++ [operator], by rw [List.length_append, length]; rfl, ?_⟩
    rw [behind_cons, step_opener (Or.inl isUnary), later, List.append_assoc]
    rfl
  | @parenthesis _ _ _ opening _ opens _ inductionHypothesis =>
    have admitsBody : Admits (opening :: stack) 0 := Or.inr (afterOperand_parenthesis opens)
    obtain ⟨more, length, later⟩ := inductionHypothesis admitsBody
    refine ⟨more ++ [opening], by rw [List.length_append, length]; rfl, ?_⟩
    rw [behind_cons, step_opener (Or.inr opens), later, List.append_assoc]
    rfl
  | operand known loose _ shaped yields _ _ inductionHypothesis =>
    have below := Token.tier?_lt known
    have closed := admits.resolve_left (by omega)
    obtain ⟨more, length, later⟩ := inductionHypothesis (Or.inr closed)
    refine ⟨more, length, ?_⟩
    rw [behind_append, behind_yields yields shaped (Or.inr closed), closed, behind_cons,
      step_operator known, later]

end Openings

/-- The number of levels around a hole is the number of openers that are open before it. -/
theorem length_openers_of_leads {opened hole : Nat} {before : List Token}
    (leads : Leads 0 before opened hole) : (openers before).length = opened := by
  have admits : Openings.Admits [] 0 := Or.inr rfl
  obtain ⟨more, length, reached⟩ := Openings.exists_behind_leads leads admits
  show (Openings.behind { openers := [], operandDue := true } before).openers.length = opened
  rw [reached, List.append_nil, length]

/-- The last sign and the parenthesis are open, but not the first sign, whose operand is
complete. -/
example : (openers (tokenize "-1 * (2 - !".toList).1.dropLast).map Token.lexeme =
    [['!'], ['(']] := by
  decide +kernel

/-! ### A hole in a hole -/

namespace Grammar

variable {tier opened hole deeper within : Nat} {front back : List Token}

/-- What leads to a hole in a hole leads to it from outside, and the levels add up. -/
theorem Leads.trans (leads : Leads tier front opened hole)
    (inside : Leads hole back deeper within) :
    Leads tier (front ++ back) (opened + deeper) within := by
  induction leads with
  | here tight _ =>
    rw [List.nil_append, Nat.zero_add]
    exact inside.of_le tight
  | unary isUnary _ inductionHypothesis =>
    rw [Nat.add_right_comm]
    exact .unary isUnary (inductionHypothesis inside)
  | parenthesis opens _ inductionHypothesis =>
    rw [Nat.add_right_comm]
    exact .parenthesis opens (inductionHypothesis inside)
  | operand known loose tight shaped yields small _ inductionHypothesis =>
    rw [List.append_assoc, List.cons_append]
    exact .operand known loose tight shaped yields small (inductionHypothesis inside)

/-- A hole is one for a tighter tree too. -/
theorem Leads.tighten (leads : Leads tier front opened hole) (tighter : hole ≤ within)
    (known : within ≤ 4) : Leads tier front opened within := by
  have whole := leads.trans (.here tighter known)
  rwa [List.append_nil, Nat.add_zero] at whole

end Grammar

end LoxFront
