/-
This file proves that equality of trees is a congruence for both printers, and says how far it is an
equality at all. Every tree is cut down to its essence, which is what the comparison looks at:
operators without their places and without the values that they carry, and one zero for the two.
Two trees are equal exactly if they have the same essence and none of their numbers is
not-a-number. So equality is symmetric and transitive because identity is, and what is printed of a
tree is printed of its essence, the sign of a zero apart.
-/

import LoxFront.Proofs.Relocation
import LoxFront.Proofs.Survival

namespace LoxFront

/-! ### Numbers and values -/

namespace Binary64

/-- The zero with a sign. -/
def negativeZero : Binary64 := .finite true .zero

/-- The number, without a sign if it is zero. -/
def essence : Binary64 → Binary64
  | .finite negative magnitude => .finite (negative && magnitude.code != 0) magnitude
  | value => value

theorem numericallyEqual_iff {first second : Binary64} :
    first.numericallyEqual second = true ↔ first.essence = second.essence ∧ first ≠ .nan := by
  cases first with
  | nan => simp [numericallyEqual]
  | infinity negative => cases second <;> simp [numericallyEqual, essence]
  | finite negative magnitude =>
    cases second with
    | nan | infinity => simp [numericallyEqual, essence]
    | finite negative' magnitude' =>
      obtain ⟨code, bound⟩ := magnitude
      obtain ⟨code', bound'⟩ := magnitude'
      simp only [numericallyEqual, essence, Bool.and_eq_true, Bool.or_eq_true, beq_iff_eq,
        finite.injEq, Magnitude.mk.injEq, ne_eq, reduceCtorEq, not_false_eq_true, and_true]
      grind

theorem essence_eq_nan {value : Binary64} : value.essence = .nan ↔ value = .nan := by
  cases value <;> simp [essence]

theorem essence_eq_self {value : Binary64} (signed : value ≠ negativeZero) :
    value.essence = value := by
  cases value with
  | nan | infinity => rfl
  | finite negative magnitude =>
    obtain ⟨code, bound⟩ := magnitude
    simp only [negativeZero, Magnitude.zero, ne_eq, finite.injEq, Magnitude.mk.injEq] at signed
    simp only [essence, finite.injEq, and_true]
    grind

end Binary64

namespace Literal

/-- The value, without a sign if it is zero. -/
def essence : Literal → Literal
  | .number value => .number value.essence
  | value => value

theorem same_iff {first second : Literal} :
    first.same second = true ↔ first.essence = second.essence ∧ first ≠ .number .nan := by
  cases first with
  | number value =>
    cases second with
    | number other => simp [same, essence, Binary64.numericallyEqual_iff]
    | string | boolean | nil => simp [same, essence]
  | string | boolean | nil => cases second <;> simp [same, essence]

theorem essence_eq_nan {value : Literal} : value.essence = .number .nan ↔ value = .number .nan := by
  cases value <;> simp [essence, Binary64.essence_eq_nan]

theorem essence_eq_self {value : Literal} (signed : value ≠ .number .negativeZero) :
    value.essence = value := by
  cases value with
  | number value =>
    rw [essence, Binary64.essence_eq_self fun zero => signed (congrArg number zero)]
  | string | boolean | nil => rfl

end Literal

/-! ### Operators -/

/-- What a token of the sort says, with a value that is the same for all of them. -/
def Token.Kind.essence : Token.Kind → Token.Data
  | .symbol mark => .symbol mark
  | .keyword word => .keyword word
  | .identifier => .identifier
  | .string => .string []
  | .number => .number .nan
  | .endOfInput => .endOfInput

/-- The sort and the text of a token, without its place and without the value it carries. -/
def Token.essence (token : Token) : Token where
  data := token.kind.essence
  span := { start := Place.ofText [], lexeme := token.lexeme }

theorem Token.kind_essence (token : Token) : token.essence.kind = token.kind := by
  show token.kind.essence.kind = token.kind
  cases token.kind <;> rfl

theorem Token.sameOperator_iff {first second : Token} :
    first.sameOperator second = true ↔ first.essence = second.essence := by
  constructor
  · intro same
    rw [essence, essence, kind_eq_of_sameOperator same, lexeme_eq_of_sameOperator same]
  · intro equal
    have kinds := congrArg kind equal
    have lexemes := congrArg lexeme equal
    rw [kind_essence, kind_essence] at kinds
    rw [sameOperator, kinds, show first.lexeme = second.lexeme from lexemes]
    simp

/-! ### Trees -/

namespace Expr

/-- The tree as far as the comparison looks at it. -/
def essence : Expr → Expr
  | binary left operator right => binary left.essence operator.essence right.essence
  | grouping body => grouping body.essence
  | literal value => literal value.essence
  | unary operator operand => unary operator.essence operand.essence

variable {first second third expr : Expr}

/-- Trees are equal if they have the same essence and hold numbers only. -/
theorem same_iff :
    first.same second = true ↔
      first.essence = second.essence ∧ .number .nan ∉ first.literals := by
  induction first generalizing second with
  | binary left operator right inductionLeft inductionRight =>
    cases second with
    | binary left' operator' right' =>
      simp only [same, essence, literals, Bool.and_eq_true, inductionLeft, inductionRight,
        Token.sameOperator_iff, binary.injEq, List.mem_append, not_or]
      constructor
      · rintro ⟨⟨operators, lefts, numbersLeft⟩, rights, numbersRight⟩
        exact ⟨⟨lefts, operators, rights⟩, numbersLeft, numbersRight⟩
      · rintro ⟨⟨lefts, operators, rights⟩, numbersLeft, numbersRight⟩
        exact ⟨⟨operators, lefts, numbersLeft⟩, rights, numbersRight⟩
    | grouping | literal | unary => simp [same, essence]
  | grouping body inductionHypothesis =>
    cases second with
    | grouping body' => simp only [same, essence, literals, inductionHypothesis, grouping.injEq]
    | binary | literal | unary => simp [same, essence]
  | literal value =>
    cases second with
    | literal value' =>
      simp only [same, essence, literals, Literal.same_iff, literal.injEq, List.mem_singleton,
        ne_comm]
    | binary | grouping | unary => simp [same, essence]
  | unary operator operand inductionHypothesis =>
    cases second with
    | unary operator' operand' =>
      simp only [same, essence, literals, Bool.and_eq_true, inductionHypothesis,
        Token.sameOperator_iff, unary.injEq, and_assoc]
    | binary | grouping | literal => simp [same, essence]

theorem literals_essence (expr : Expr) : expr.essence.literals = expr.literals.map .essence := by
  induction expr with
  | binary left operator right equalLeft equalRight =>
    rw [essence, literals, literals, List.map_append, equalLeft, equalRight]
  | grouping body equalBody => exact equalBody
  | literal value => rfl
  | unary operator operand equalOperand => exact equalOperand

theorem nan_mem_literals_essence :
    .number .nan ∈ expr.essence.literals ↔ .number .nan ∈ expr.literals := by
  rw [literals_essence, List.mem_map]
  constructor
  · rintro ⟨value, member, equal⟩
    exact Literal.essence_eq_nan.mp equal ▸ member
  · intro member
    exact ⟨_, member, rfl⟩

theorem same_symm (equal : first.same second = true) : second.same first = true := by
  obtain ⟨essences, numbers⟩ := same_iff.mp equal
  rw [← nan_mem_literals_essence, essences, nan_mem_literals_essence] at numbers
  exact same_iff.mpr ⟨essences.symm, numbers⟩

theorem same_trans (equal : first.same second = true) (equal' : second.same third = true) :
    first.same third = true := by
  obtain ⟨essences, numbers⟩ := same_iff.mp equal
  exact same_iff.mpr ⟨essences.trans (same_iff.mp equal').1, numbers⟩

theorem same_self_iff : expr.same expr = true ↔ .number .nan ∉ expr.literals := by
  rw [same_iff, and_iff_right rfl]

/-! ### What is printed -/

/-- Without a negative zero nothing that is printed is lost. -/
theorem related_essence (unsigned : .number .negativeZero ∉ expr.literals) :
    Related (fun operator other => operator.lexeme = other.lexeme) Eq expr.essence expr := by
  induction expr with
  | binary left operator right relatedLeft relatedRight =>
    obtain ⟨unsignedLeft, unsignedRight⟩ := not_or.mp (List.mem_append.not.mp unsigned)
    exact .binary rfl (relatedLeft unsignedLeft) (relatedRight unsignedRight)
  | grouping body relatedBody => exact .grouping (relatedBody unsigned)
  | literal value =>
    exact .literal (Literal.essence_eq_self fun zero =>
      unsigned (List.mem_singleton.mpr zero.symm))
  | unary operator operand relatedOperand => exact .unary rfl (relatedOperand unsigned)

section Printed

variable (equal : first.same second = true) (unsigned : .number .negativeZero ∉ first.literals)
  (unsigned' : .number .negativeZero ∉ second.literals)

include equal unsigned unsigned'

theorem prefixForm_eq_of_same : first.prefixForm = second.prefixForm := by
  rw [← (related_essence unsigned).prefixForm_eq id, (same_iff.mp equal).1,
    (related_essence unsigned').prefixForm_eq id]

theorem sourceForm_eq_of_same : first.sourceForm = second.sourceForm := by
  rw [← (related_essence unsigned).sourceForm_eq id, (same_iff.mp equal).1,
    (related_essence unsigned').sourceForm_eq id]

end Printed

/-! ### Operators that are moved -/

section Moves

variable {shift : Token → Token}

theorem literals_move (shift : Token → Token) (expr : Expr) :
    (expr.move shift).literals = expr.literals := by
  induction expr with
  | binary left operator right equalLeft equalRight =>
    rw [move, literals, literals, equalLeft, equalRight]
  | grouping body equalBody => exact equalBody
  | literal value => rfl
  | unary operator operand equalOperand => exact equalOperand

variable (keeps : ∀ token, (shift token).kind = token.kind ∧ (shift token).lexeme = token.lexeme)

include keeps

theorem essence_move (expr : Expr) : (expr.move shift).essence = expr.essence := by
  have operators (token : Token) : (shift token).essence = token.essence := by
    rw [Token.essence, Token.essence, (keeps token).1, (keeps token).2]
  induction expr with
  | binary left operator right equalLeft equalRight =>
    rw [move, essence, essence, operators, equalLeft, equalRight]
  | grouping body equalBody => rw [move, essence, essence, equalBody]
  | literal value => rfl
  | unary operator operand equalOperand => rw [move, essence, essence, operators, equalOperand]

/-- The comparison does not notice that operators are moved or carry another value. -/
theorem same_move (first second : Expr) : (first.move shift).same second = first.same second := by
  rw [Bool.eq_iff_iff, same_iff, same_iff, essence_move keeps, literals_move]

end Moves

end Expr

/-! ### The congruence -/

/-- Equality of trees is a congruence for the printers, whatever the trees hold. It is symmetric and
transitive; a tree equals itself exactly if none of its numbers is not-a-number; it makes no
difference where the operators of a tree stand and what they carry besides their sort and their
text; and equal trees without a negative zero are printed alike in both forms. -/
theorem equality_is_congruence (first second third : Expr) :
    (first.same second = true → second.same first = true) ∧
    (first.same second = true → second.same third = true → first.same third = true) ∧
    (first.same first = true ↔ .number .nan ∉ first.literals) ∧
    (∀ shift : Token → Token,
      (∀ token, (shift token).kind = token.kind ∧ (shift token).lexeme = token.lexeme) →
        (first.move shift).same second = first.same second) ∧
    (first.same second = true → .number .negativeZero ∉ first.literals →
      .number .negativeZero ∉ second.literals →
        first.sourceForm = second.sourceForm ∧ first.prefixForm = second.prefixForm) := by
  refine ⟨Expr.same_symm, Expr.same_trans, Expr.same_self_iff, ?_, ?_⟩
  · intro shift keeps
    exact Expr.same_move keeps first second
  · intro equal unsigned unsigned'
    exact ⟨Expr.sourceForm_eq_of_same equal unsigned unsigned',
      Expr.prefixForm_eq_of_same equal unsigned unsigned'⟩

/-- A zero behind an operator that no text is read as: a number token that carries a value. -/
def oddZero (negative : Bool) (carried : Binary64) (place : Place) : Expr :=
  .unary { data := .number carried, span := { start := place, lexeme := ['~'] } }
    (.literal (.number (.finite negative .zero)))

/-- What the operator carries is not compared, be it not-a-number, and neither is the sign of the
zero, which is printed. -/
theorem equality_is_congruence_of_oddZeros :
    let first := oddZero false .nan (Place.ofText ['~'])
    let second := oddZero false (.infinity true) (Place.ofText ['\n', '~'])
    let third := oddZero true (.infinity true) (Place.ofText [])
    first ≠ second ∧ first.same second = true ∧ second.same first = true ∧
      second.same third = true ∧ first.same third = true ∧ first.same first = true ∧
      (first.move Token.essence).same second = true ∧
      first.sourceForm = second.sourceForm ∧ first.prefixForm = second.prefixForm ∧
      second.sourceForm ≠ third.sourceForm := by
  intro first second third
  have equal : first.same second = true := by decide
  have equal' : second.same third = true := by decide
  obtain ⟨symmetric, transitive, reflexive, moved, printed⟩ :=
    equality_is_congruence first second third
  have keeps (token : Token) : token.essence.kind = token.kind ∧
      token.essence.lexeme = token.lexeme := ⟨token.kind_essence, rfl⟩
  obtain ⟨source, inPrefix⟩ := printed equal (by decide) (by decide)
  exact ⟨by decide, equal, symmetric equal, equal', transitive equal equal',
    reflexive.mpr (by decide), (moved Token.essence keeps).trans equal, source, inPrefix,
    by decide +kernel⟩

end LoxFront
