/-
This file proves that printed source is canonical, also for a tree that no text is read as. The
source form of a tree shows its tokens but not its shape: a tree that was put together by hand may
group its operators against their tiers, may have a sign in front of a whole sum, or a sign within
a number. Such a tree is regrouped into one of the grammar that is printed the same. The new tree
is put together node by node: a sign moves down to the first operand, and an operator moves down
between its operands to where its tier belongs. So the text is read as the regrouped tree, or it is
refused for nothing but the height of that tree.
-/

import LoxFront.Proofs.HeightLimit
import LoxFront.Proofs.Survival

namespace LoxFront

/-! ### Trees that are printed as tokens -/

/-- A value that is printed as tokens: a finite number of either sign, or a string without a
quote. -/
def Literal.Printable : Literal → Prop
  | .number value => ∃ negative magnitude, value = .finite negative magnitude
  | .string value => '"' ∉ value
  | .boolean _ | .nil => True

/-- A tree of any shape that is printed as tokens: its operators are binary and unary ones, each
written as the symbol it is. -/
def Expr.Printable : Expr → Prop
  | binary left operator right =>
    (∃ mark : Symbol, operator.asLexeme = mark.asLexeme ∧ mark.tier? ≠ none) ∧
      left.Printable ∧ right.Printable
  | grouping body => body.Printable
  | literal value => value.Printable
  | unary operator operand =>
    (operator.asLexeme = Symbol.bang.asLexeme ∨ operator.asLexeme = Symbol.minus.asLexeme) ∧
      operand.Printable

theorem Token.tier?_eq_of_spelled {operator : Token} {mark : Symbol}
    (spelled : operator.asLexeme = mark.asLexeme) : operator.tier? = mark.tier? := by
  rw [tier?, data_eq_of_spelled spelled]

namespace Expr

/-! ### A sign in front of a tree -/

/-- A unary operator moved down to the first operand of a tree. -/
def signed (operator : Token) : Expr → Expr
  | binary left other right => binary (left.signed operator) other right
  | operand => unary operator operand

section Signed

variable {sign : Token} {expr : Expr}

theorem sourceForm_signed (sign : Token) (expr : Expr) :
    (expr.signed sign).sourceForm = sign.lexeme ++ expr.sourceForm := by
  induction expr with
  | binary left other right inductionLeft =>
    rw [signed, sourceForm, sourceForm, inductionLeft]
    simp only [List.append_assoc]
  | grouping | literal | unary => rfl

theorem tier_signed (sign : Token) (expr : Expr) : (expr.signed sign).tier = expr.tier := by
  cases expr <;> rfl

theorem wellShaped_signed (isSign : sign.data = .symbol .bang ∨ sign.data = .symbol .minus)
    (shaped : expr.WellShaped) : (expr.signed sign).WellShaped := by
  induction expr with
  | binary left other right inductionLeft =>
    obtain ⟨tier, known, tightLeft, tightRight, shapedLeft, shapedRight⟩ := shaped
    rw [← left.tier_signed] at tightLeft
    exact ⟨tier, known, tightLeft, tightRight, inductionLeft shapedLeft, shapedRight⟩
  | grouping | literal | unary => exact ⟨isSign, rfl, shaped⟩

theorem writable_signed
    (spelled : sign.asLexeme = Symbol.bang.asLexeme ∨ sign.asLexeme = Symbol.minus.asLexeme)
    (writable : expr.Writable) : (expr.signed sign).Writable := by
  induction expr with
  | binary left other right inductionLeft =>
    obtain ⟨spelledOther, writableLeft, writableRight⟩ := writable
    exact ⟨spelledOther, inductionLeft writableLeft, writableRight⟩
  | grouping | literal | unary => exact ⟨spelled, writable⟩

end Signed

/-! ### An operator between two trees -/

/-- An operator behind a tree, with a right operand that binds more tightly. It takes as its left
operand only what does not bind looser. -/
def joinTight : Expr → Token → Expr → Expr
  | binary left other behind, operator, right =>
    if (binary left other behind).tier < operator.tier?.getD 0 then
      binary left other (behind.joinTight operator right)
    else binary (binary left other behind) operator right
  | left, operator, right => binary left operator right

/-- An operator between two trees. It takes as its right operand only what binds more tightly, and
the operators of the right tree that do not come behind it. -/
def join (left : Expr) (operator : Token) : Expr → Expr
  | binary between other right =>
    if operator.tier?.getD 0 < (binary between other right).tier then
      left.joinTight operator (binary between other right)
    else (join left operator between).joinTight other right
  | right => left.joinTight operator right

section Join

variable {left right : Expr} {operator : Token}

theorem sourceForm_joinTight (left : Expr) (operator : Token) (right : Expr) :
    (left.joinTight operator right).sourceForm = (binary left operator right).sourceForm := by
  induction left with
  | binary left other behind _ inductionBehind =>
    rw [joinTight]
    split
    · rw [sourceForm, inductionBehind]
      simp [sourceForm]
    · rfl
  | grouping | literal | unary => rfl

theorem sourceForm_join (left : Expr) (operator : Token) (right : Expr) :
    (left.join operator right).sourceForm = (binary left operator right).sourceForm := by
  induction right with
  | binary between other right inductionBetween _ =>
    rw [join]
    split
    · exact sourceForm_joinTight _ _ _
    · rw [sourceForm_joinTight, sourceForm, inductionBetween]
      simp [sourceForm]
  | grouping | literal | unary => exact sourceForm_joinTight _ _ _

theorem writable_joinTight (spelled : operator.Spelled) (writableLeft : left.Writable)
    (writableRight : right.Writable) : (left.joinTight operator right).Writable := by
  induction left with
  | binary left other behind _ inductionBehind =>
    rw [joinTight]
    split
    · obtain ⟨spelledOther, writableFirst, writableBehind⟩ := writableLeft
      exact ⟨spelledOther, writableFirst, inductionBehind writableBehind⟩
    · exact ⟨spelled, writableLeft, writableRight⟩
  | grouping | literal | unary => exact ⟨spelled, writableLeft, writableRight⟩

theorem writable_join (spelled : operator.Spelled) (writableLeft : left.Writable)
    (writableRight : right.Writable) : (left.join operator right).Writable := by
  induction right with
  | binary between other right inductionBetween _ =>
    rw [join]
    split
    · exact writable_joinTight spelled writableLeft writableRight
    · obtain ⟨spelledOther, writableBetween, writableLast⟩ := writableRight
      exact writable_joinTight spelledOther (inductionBetween writableBetween) writableLast
  | grouping | literal | unary => exact writable_joinTight spelled writableLeft writableRight

variable {tier : Nat}

/-- The outermost operator is the new one or that of the left tree. -/
theorem le_tier_joinTight {bound : Nat} (known : operator.tier? = some tier)
    (looser : bound ≤ tier) (tight : bound ≤ left.tier) :
    bound ≤ (left.joinTight operator right).tier := by
  have own (left : Expr) : bound ≤ (binary left operator right).tier := by
    rwa [tier_binary known]
  cases left with
  | binary left other behind =>
    rw [joinTight]
    split
    · exact tight
    · exact own _
  | grouping | literal | unary => exact own _

theorem wellShaped_joinTight (known : operator.tier? = some tier) (tight : tier < right.tier)
    (shapedLeft : left.WellShaped) (shapedRight : right.WellShaped) :
    (left.joinTight operator right).WellShaped := by
  have operatorTier : operator.tier?.getD 0 = tier := by rw [known]; rfl
  have beyond : tier ≤ 4 := Nat.le_of_lt (Token.tier?_lt known)
  induction left with
  | binary left other behind _ inductionBehind =>
    rw [joinTight, operatorTier]
    split
    · next looser =>
      obtain ⟨own, knownOther, tightLeft, tightBehind, shapedFirst, shapedBehind⟩ := shapedLeft
      rw [tier_binary knownOther] at looser
      exact ⟨own, knownOther, tightLeft, le_tier_joinTight known looser tightBehind, shapedFirst,
        inductionBehind shapedBehind⟩
    · next notLooser =>
      exact ⟨tier, known, Nat.le_of_not_lt notLooser, tight, shapedLeft, shapedRight⟩
  | grouping | literal | unary => exact ⟨tier, known, beyond, tight, shapedLeft, shapedRight⟩

theorem wellShaped_join (known : operator.tier? = some tier) (shapedLeft : left.WellShaped)
    (shapedRight : right.WellShaped) : (left.join operator right).WellShaped := by
  have operatorTier : operator.tier?.getD 0 = tier := by rw [known]; rfl
  have beyond : tier < 4 := Token.tier?_lt known
  induction right with
  | binary between other right inductionBetween _ =>
    rw [join, operatorTier]
    split
    · next tight => exact wellShaped_joinTight known tight shapedLeft shapedRight
    · obtain ⟨own, knownOther, -, tightRight, shapedBetween, shapedLast⟩ := shapedRight
      -- The other operator now comes last, and its right operand is the one that it had before.
      exact wellShaped_joinTight knownOther tightRight (inductionBetween shapedBetween) shapedLast
  | grouping | literal | unary => exact wellShaped_joinTight known beyond shapedLeft shapedRight

end Join

/-! ### Regrouping a tree -/

/-- The tree of the grammar that is printed the same. -/
def regrouped : Expr → Expr
  | binary left operator right => left.regrouped.join operator right.regrouped
  | grouping body => grouping body.regrouped
  | literal value => ofLiteral value
  | unary operator operand => operand.regrouped.signed operator

variable {expr : Expr}

theorem sourceForm_regrouped (expr : Expr) : expr.regrouped.sourceForm = expr.sourceForm := by
  induction expr with
  | binary left operator right equalLeft equalRight =>
    rw [regrouped, sourceForm_join, sourceForm, sourceForm, equalLeft, equalRight]
  | grouping body equalBody => rw [regrouped, sourceForm, sourceForm, equalBody]
  | literal value => exact sourceForm_signsApart (literal value)
  | unary operator operand equalOperand =>
    rw [regrouped, sourceForm_signed, sourceForm, equalOperand]

theorem wellShaped_regrouped (printable : expr.Printable) : expr.regrouped.WellShaped := by
  induction expr with
  | binary left operator right inductionLeft inductionRight =>
    obtain ⟨⟨mark, spelled, binary⟩, printableLeft, printableRight⟩ := printable
    obtain ⟨tier, known⟩ := Option.ne_none_iff_exists'.mp binary
    exact wellShaped_join ((Token.tier?_eq_of_spelled spelled).trans known)
      (inductionLeft printableLeft) (inductionRight printableRight)
  | grouping body inductionHypothesis => exact inductionHypothesis printable
  | literal value =>
    rcases ofLiteral_cases value with ⟨magnitude, rfl⟩ | plain
    · exact ⟨Or.inr rfl, rfl, trivial⟩
    · rw [regrouped, plain]
      trivial
  | unary operator operand inductionHypothesis =>
    obtain ⟨spelled, printableOperand⟩ := printable
    exact wellShaped_signed (spelled.imp Token.data_eq_of_spelled Token.data_eq_of_spelled)
      (inductionHypothesis printableOperand)

theorem writable_regrouped (printable : expr.Printable) : expr.regrouped.Writable := by
  induction expr with
  | binary left operator right inductionLeft inductionRight =>
    obtain ⟨⟨mark, spelled, -⟩, printableLeft, printableRight⟩ := printable
    exact writable_join ⟨mark, spelled⟩ (inductionLeft printableLeft)
      (inductionRight printableRight)
  | grouping body inductionHypothesis => exact inductionHypothesis printable
  | literal value =>
    cases value with
    | number value =>
      obtain ⟨negative, magnitude, rfl⟩ := printable
      cases negative with
      | false => exact ⟨magnitude, rfl⟩
      | true => exact ⟨Or.inr rfl, magnitude, rfl⟩
    | string => exact printable
    | boolean | nil => trivial
  | unary operator operand inductionHypothesis =>
    obtain ⟨spelled, printableOperand⟩ := printable
    exact writable_signed spelled (inductionHypothesis printableOperand)

end Expr

/-! ### Reading printed source -/

theorem parseText_eq_error {text : Text} {error : SyntaxError} (clean : (tokenize text).2 = [])
    (failed : parseWhole (tokenize text).1 = .error error) :
    parseText text = .error [error.diagnostic] := by
  rw [parseText_of_clean clean, failed]
  rfl

/-- A tree of the grammar that is too high can be printed, but what is printed is refused for its
height. -/
theorem Expr.parseText_sourceForm_of_high {expr : Expr} (writable : expr.Writable)
    (shaped : expr.WellShaped) (high : heightLimit < expr.height) :
    ∃ error, parseWhole (tokenize expr.sourceForm).1 = .error error ∧ error.cause = .tooHigh ∧
      parseText expr.sourceForm = .error [error.diagnostic] := by
  obtain ⟨clean, written⟩ := tokenize_sourceForm writable
  obtain ⟨again, yields, alike⟩ := exists_alike expr written
  have shapedAgain := alike.wellShaped Token.kind_eq_of_asLexeme shaped
  obtain ⟨error, failed, tooHigh⟩ :=
    exists_tooHigh_of_yields shapedAgain yields (alike.height_eq ▸ high)
  exact ⟨error, failed, tooHigh, parseText_eq_error clean failed⟩

/-- Printed source is canonical. Whatever the shape and the height of a tree, if it is printed as
tokens, the text has no lexical errors; and it is read as a tree that is printed as the same text,
or a single error says that it is nested too deeply. -/
theorem sourceForm_is_canonical (expr : Expr) (printable : expr.Printable) :
    (tokenize expr.sourceForm).2 = [] ∧
      ((∃ again, parseText expr.sourceForm = .ok again ∧
          again.sourceForm = expr.sourceForm) ∨
        ∃ error, parseWhole (tokenize expr.sourceForm).1 = .error error ∧
          error.cause = .tooHigh ∧ parseText expr.sourceForm = .error [error.diagnostic]) := by
  have writable := Expr.writable_regrouped printable
  have shaped := Expr.wellShaped_regrouped printable
  rw [← expr.sourceForm_regrouped]
  refine ⟨(Expr.tokenize_sourceForm writable).1, ?_⟩
  rcases Nat.lt_or_ge heightLimit expr.regrouped.height with high | small
  · exact Or.inr (Expr.parseText_sourceForm_of_high writable shaped high)
  · obtain ⟨again, read, alike⟩ := Expr.parseText_sourceForm writable shaped small
    exact Or.inl ⟨again, read, (alike.sourceForm_eq Token.lexeme_eq_of_asLexeme).symm⟩

/-- A difference of a negative zero and a second difference, with a sign in front of the whole of
the second one. -/
def crookedTree : Expr :=
  .binary (.literal (.number (.finite true { code := 0, code_lt := by decide })))
    Expr.minusSign
    (.unary Expr.minusSign
      (.binary (.literal .nil) Expr.minusSign (.literal (.string ['a']))))

theorem sourceForm_of_crookedTree_is_canonical :
    ¬ crookedTree.WellShaped ∧ crookedTree.sourceForm = "-0 - -nil - \"a\"".toList ∧
      (tokenize crookedTree.sourceForm).2 = [] ∧
      ((∃ again, parseText crookedTree.sourceForm = .ok again ∧
          again.sourceForm = crookedTree.sourceForm) ∨
        ∃ error, parseWhole (tokenize crookedTree.sourceForm).1 = .error error ∧
          error.cause = .tooHigh ∧
          parseText crookedTree.sourceForm = .error [error.diagnostic]) := by
  have minus : ∃ mark : Symbol, Expr.minusSign.asLexeme = mark.asLexeme ∧ mark.tier? ≠ none :=
    ⟨.minus, rfl, by decide⟩
  have unquoted : '"' ∉ ['a'] := by decide
  have printable : crookedTree.Printable :=
    ⟨minus, ⟨true, _, rfl⟩, Or.inr rfl, minus, trivial, unquoted⟩
  refine ⟨?_, by decide +kernel, sourceForm_is_canonical crookedTree printable⟩
  rintro ⟨_, _, _, _, _, _, inner, _⟩
  cases inner

end LoxFront
