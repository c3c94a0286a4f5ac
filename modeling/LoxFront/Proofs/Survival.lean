/-
This file says exactly which trees survive being printed and read again. A tree that was put
together by hand may hold anything: operators of any sort with any text, strings with quotes,
numbers that no numeral denotes. If it comes back equal, it is equal to a tree that was read from
a text, and from that all conditions but one follow. The one that does not is the sign of a zero,
since the two zeros are equal as numbers: here the tokens are counted. A negative number is
printed like a unary minus in front of its magnitude, so a tree with negative numbers in it is
printed with more tokens than any tree that equals it has.
-/

import LoxFront.Proofs.RoundTrip

namespace LoxFront

namespace Expr

/-! ### Equal trees -/

/-- Two trees have the same shape, the same operators and equal values. -/
def Matches : Expr → Expr → Prop :=
  Related (fun operator other => operator.sameOperator other = true)
    (fun value other => value.same other = true)

theorem matches_of_same {first second : Expr} (equal : first.same second = true) :
    Matches first second := by
  fun_induction Expr.same first second with
  | case1 left operator right left' operator' right' inductionLeft inductionRight =>
    simp only [Bool.and_eq_true] at equal
    exact .binary equal.1.1 (inductionLeft equal.1.2) (inductionRight equal.2)
  | case2 body body' inductionHypothesis => exact .grouping (inductionHypothesis equal)
  | case3 value value' => exact .literal equal
  | case4 operator operand operator' operand' inductionHypothesis =>
    simp only [Bool.and_eq_true] at equal
    exact .unary equal.1 (inductionHypothesis equal.2)
  | case5 => cases equal

end Expr

namespace Token

variable {first second : Token}

theorem kind_eq_of_sameOperator (same : first.sameOperator second = true) :
    first.kind = second.kind := by
  rw [sameOperator, Bool.and_eq_true] at same
  exact eq_of_beq same.1

theorem lexeme_eq_of_sameOperator (same : first.sameOperator second = true) :
    first.lexeme = second.lexeme := by
  rw [sameOperator, Bool.and_eq_true] at same
  exact eq_of_beq same.2

/-- An operator that is the same as one spelled properly is spelled properly. -/
theorem asLexeme_of_sameOperator {mark : Symbol} (same : first.sameOperator second = true)
    (spelled : first.asLexeme = mark.asLexeme) : second.asLexeme = mark.asLexeme := by
  have lexeme : first.lexeme = mark.spelling := congrArg Lexeme.text spelled
  have symbol : second.data = .symbol mark :=
    (data_eq_symbol_congr (kind_eq_of_sameOperator same) mark).mp (data_eq_of_spelled spelled)
  rw [asLexeme, ← lexeme_eq_of_sameOperator same, symbol, lexeme]
  rfl

end Token

namespace Expr

variable {first second : Expr}

theorem Related.length_lexemes_eq {operators : Token → Token → Prop}
    {values : Literal → Literal → Prop} (trees : Related operators values first second) :
    first.lexemes.length = second.lexemes.length := by
  induction trees with
  | binary _ _ _ equalLefts equalRights =>
    simp only [lexemes, List.length_append, List.length_cons, equalLefts, equalRights]
  | grouping _ equalBodies =>
    simp only [lexemes, List.length_cons, List.length_append, equalBodies]
  | literal => rfl
  | unary _ _ equalOperands => simp only [lexemes, List.length_cons, equalOperands]

/-! ### Negative numbers -/

/-- The sign that is printed in front of a negative number, as a token of its own. -/
def minusSign : Token where
  data := .symbol .minus
  span := { start := Place.ofText [], lexeme := Symbol.minus.spelling }

/-- A value as a tree, in which the sign of a negative number is a unary operator. -/
def ofLiteral : Literal → Expr
  | .number (.finite true magnitude) =>
    unary minusSign (literal (.number (.finite false magnitude)))
  | value => literal value

/-- The tree with the signs of negative numbers as unary operators. -/
def signsApart : Expr → Expr
  | binary left operator right => binary left.signsApart operator right.signsApart
  | grouping body => grouping body.signsApart
  | literal value => ofLiteral value
  | unary operator operand => unary operator operand.signsApart

/-- A number is negative, or a tree of a value is that value. -/
theorem ofLiteral_cases (value : Literal) :
    (∃ magnitude, value = .number (.finite true magnitude)) ∨ ofLiteral value = literal value := by
  unfold ofLiteral
  split
  · next magnitude => exact Or.inl ⟨magnitude, rfl⟩
  · exact Or.inr rfl

/-- Whether a sign belongs to a number or is an operator in front of it cannot be seen in print. -/
theorem sourceForm_signsApart (expr : Expr) : expr.signsApart.sourceForm = expr.sourceForm := by
  induction expr with
  | binary left operator right equalLeft equalRight =>
    rw [signsApart, sourceForm, sourceForm, equalLeft, equalRight]
  | grouping body equalBody => rw [signsApart, sourceForm, sourceForm, equalBody]
  | literal value =>
    rcases ofLiteral_cases value with ⟨magnitude, rfl⟩ | plain
    · simp only [signsApart, ofLiteral, sourceForm, literalForm, Literal.text, Binary64.text,
        if_true, Bool.false_eq_true, if_false]
      rfl
    · rw [signsApart, plain]
  | unary operator operand equalOperand => rw [signsApart, sourceForm, sourceForm, equalOperand]

theorem length_lexemes_le_signsApart (expr : Expr) :
    expr.lexemes.length ≤ expr.signsApart.lexemes.length := by
  induction expr with
  | binary left operator right shorterLeft shorterRight =>
    simp only [signsApart, lexemes, List.length_append, List.length_cons]
    omega
  | grouping body shorterBody =>
    simp only [signsApart, lexemes, List.length_append, List.length_cons]
    omega
  | literal value =>
    rcases ofLiteral_cases value with ⟨magnitude, rfl⟩ | plain
    · exact Nat.le_succ 1
    · rw [signsApart, plain]
  | unary operator operand shorterOperand =>
    simp only [signsApart, lexemes, List.length_cons]
    omega

/-- If as many tokens are printed as the tree has, no number is negative. -/
theorem signsApart_eq_self {expr : Expr}
    (equal : expr.signsApart.lexemes.length = expr.lexemes.length) : expr.signsApart = expr := by
  induction expr with
  | binary left operator right inductionLeft inductionRight =>
    simp only [signsApart, lexemes, List.length_append, List.length_cons] at equal
    have lefts := left.length_lexemes_le_signsApart
    have rights := right.length_lexemes_le_signsApart
    rw [signsApart, inductionLeft (by omega), inductionRight (by omega)]
  | grouping body inductionHypothesis =>
    simp only [signsApart, lexemes, List.length_append, List.length_cons] at equal
    rw [signsApart, inductionHypothesis (by omega)]
  | literal value =>
    rcases ofLiteral_cases value with ⟨magnitude, rfl⟩ | plain
    · cases equal
    · rw [signsApart, plain]
  | unary operator operand inductionHypothesis =>
    simp only [signsApart, lexemes, List.length_cons] at equal
    rw [signsApart, inductionHypothesis (by omega)]

/-! ### Values of equal trees -/

theorem writable_ofLiteral {value other : Literal} (equal : value.same other = true)
    (writable : value.Writable) : (ofLiteral other).Writable := by
  cases value with
  | number value =>
    obtain ⟨magnitude, rfl⟩ := writable
    cases other with
    | number other =>
      cases other with
      | nan | infinity => cases equal
      | finite negative magnitude =>
        cases negative with
        | false => exact ⟨magnitude, rfl⟩
        | true => exact ⟨Or.inr rfl, magnitude, rfl⟩
    | string | boolean | nil => cases equal
  | string value =>
    cases other with
    | string other =>
      obtain rfl : value = other := eq_of_beq equal
      exact writable
    | number | boolean | nil => cases equal
  | boolean | nil =>
    cases other with
    | boolean | nil => trivial
    | number | string => cases equal

/-- A tree that equals one that can be written can be written, up to the signs of its numbers. -/
theorem Matches.writable_signsApart (equal : Matches first second) (writable : first.Writable) :
    second.signsApart.Writable := by
  induction equal with
  | binary operators _ _ inductionLeft inductionRight =>
    obtain ⟨⟨mark, spelled⟩, writableLeft, writableRight⟩ := writable
    exact ⟨⟨mark, Token.asLexeme_of_sameOperator operators spelled⟩, inductionLeft writableLeft,
      inductionRight writableRight⟩
  | grouping _ inductionHypothesis => exact inductionHypothesis writable
  | literal values => exact writable_ofLiteral values writable
  | unary operators _ inductionHypothesis =>
    exact ⟨writable.1.imp (Token.asLexeme_of_sameOperator operators)
      (Token.asLexeme_of_sameOperator operators), inductionHypothesis writable.2⟩

theorem Yields.length_eq {expr : Expr} {tokens : List Token} (yields : expr.Yields tokens) :
    tokens.length = expr.lexemes.length := by
  induction yields with
  | binary _ _ equalLeft equalRight =>
    simp only [lexemes, List.length_append, List.length_cons, equalLeft, equalRight]
  | grouping _ _ _ equalBody =>
    simp only [lexemes, List.length_append, List.length_cons, List.length_nil, equalBody]
  | literal => rfl
  | unary _ equalOperand => simp only [lexemes, List.length_cons, equalOperand]

/-! ### The conditions one by one -/

/-- The tokens that stand as operators in a tree, from left to right. -/
def operators : Expr → List Token
  | binary left operator right => left.operators ++ operator :: right.operators
  | grouping body => body.operators
  | literal _ => []
  | unary operator operand => operator :: operand.operators

/-- The values in a tree, from left to right. -/
def literals : Expr → List Literal
  | binary left _ right => left.literals ++ right.literals
  | grouping body => body.literals
  | literal value => [value]
  | unary _ operand => operand.literals

theorem asLexeme_of_spelled {operator : Token} {mark : Symbol} (spelled : operator.Spelled)
    (symbol : operator.data = .symbol mark) : operator.asLexeme = mark.asLexeme := by
  obtain ⟨other, written⟩ := spelled
  obtain rfl : mark = other :=
    Token.Data.symbol.inj (symbol.symm.trans (Token.data_eq_of_spelled written))
  exact written

/-- A tree of the grammar can be written exactly if each of its operators and values can. -/
theorem writable_iff {expr : Expr} (shaped : expr.WellShaped) :
    expr.Writable ↔ (∀ operator ∈ expr.operators, operator.Spelled) ∧
      ∀ value ∈ expr.literals, value.Writable := by
  induction expr with
  | binary left operator right inductionLeft inductionRight =>
    obtain ⟨-, -, -, -, shapedLeft, shapedRight⟩ := shaped
    rw [Writable, inductionLeft shapedLeft, inductionRight shapedRight]
    simp only [operators, literals, List.forall_mem_append, List.forall_mem_cons]
    constructor
    · rintro ⟨own, ⟨spelledLeft, writableLeft⟩, spelledRight, writableRight⟩
      exact ⟨⟨spelledLeft, own, spelledRight⟩, writableLeft, writableRight⟩
    · rintro ⟨⟨spelledLeft, own, spelledRight⟩, writableLeft, writableRight⟩
      exact ⟨own, ⟨spelledLeft, writableLeft⟩, spelledRight, writableRight⟩
  | grouping body inductionHypothesis => exact inductionHypothesis shaped
  | literal value => simp [Writable, operators, literals]
  | unary operator operand inductionHypothesis =>
    obtain ⟨isUnary, -, shapedOperand⟩ := shaped
    rw [Writable, inductionHypothesis shapedOperand]
    simp only [operators, literals, List.forall_mem_cons]
    constructor
    · rintro ⟨bang | minus, spelled, writable⟩
      · exact ⟨⟨⟨_, bang⟩, spelled⟩, writable⟩
      · exact ⟨⟨⟨_, minus⟩, spelled⟩, writable⟩
    · rintro ⟨⟨own, spelled⟩, writable⟩
      exact ⟨isUnary.imp (asLexeme_of_spelled own) (asLexeme_of_spelled own), spelled, writable⟩

theorem forall_writable_iff {values : List Literal} :
    (∀ value ∈ values, value.Writable) ↔
      (∀ value, .string value ∈ values → '"' ∉ value) ∧
        ∀ value, .number value ∈ values → ∃ magnitude, value = .finite false magnitude := by
  constructor
  · intro writable
    exact ⟨fun _ => writable _, fun _ => writable _⟩
  · rintro ⟨strings, numbers⟩ value member
    cases value with
    | number value => exact numbers value member
    | string value => exact strings value member
    | boolean | nil => trivial

end Expr

/-! ### Printing and reading again -/

theorem parseText_eq_ok_iff {text : Text} {expr : Expr} :
    parseText text = .ok expr ↔
      (tokenize text).2 = [] ∧ parseWhole (tokenize text).1 = .ok expr := by
  refine ⟨fun read => ?_, fun ⟨clean, parsed⟩ => parseText_eq_ok clean parsed⟩
  by_cases clean : (tokenize text).2 = []
  · rw [parseText_of_clean clean] at read
    cases parsed : parseWhole (tokenize text).1 with
    | error error =>
      rw [parsed] at read
      cases read
    | ok other =>
      rw [parsed] at read
      cases read
      exact ⟨clean, rfl⟩
  · rw [parseText_of_unclean clean] at read
    cases read

/-- A tree that comes back equal can be written as it is: no sign has become an operator. -/
theorem Expr.writable_of_survives {expr again : Expr}
    (read : parseText expr.sourceForm = .ok again) (equal : Matches again expr) :
    expr.Writable := by
  obtain ⟨-, parsed⟩ := parseText_eq_ok_iff.mp read
  have writable := equal.writable_signsApart (writable_of_parse (.inr parsed)).1
  obtain ⟨-, yields, -⟩ := parseWhole_iff_yields.mp parsed
  have printed := congrArg List.length (tokenize_sourceForm writable).2
  rw [sourceForm_signsApart, List.length_map, yields.length_eq, equal.length_lexemes_eq] at printed
  rwa [signsApart_eq_self printed.symm] at writable

/-- Exactly these trees come back equal when they are printed and read again: the trees of the
grammar that are no higher than the limit, whose operators are written as the symbols they are,
whose strings hold no quote, and whose numbers are finite and without a sign, also where they are
zero. -/
theorem sourceForm_survives_iff (expr : Expr) :
    (∃ again, parseText expr.sourceForm = .ok again ∧ again.same expr = true) ↔
      expr.WellShaped ∧ (∀ operator ∈ expr.operators, operator.Spelled) ∧
        expr.height ≤ heightLimit ∧ (∀ value, .string value ∈ expr.literals → '"' ∉ value) ∧
        ∀ value, .number value ∈ expr.literals → ∃ magnitude, value = .finite false magnitude := by
  rw [← Expr.forall_writable_iff]
  constructor
  · rintro ⟨again, read, same⟩
    have equal := Expr.matches_of_same same
    obtain ⟨-, parsed⟩ := parseText_eq_ok_iff.mp read
    obtain ⟨-, shapedAgain, small⟩ := writable_of_parse (.inr parsed)
    have shaped := equal.wellShaped Token.kind_eq_of_sameOperator shapedAgain
    obtain ⟨spelled, writable⟩ :=
      (Expr.writable_iff shaped).mp (Expr.writable_of_survives read equal)
    exact ⟨shaped, spelled, equal.height_eq ▸ small, writable⟩
  · rintro ⟨shaped, spelled, small, values⟩
    have writable := (Expr.writable_iff shaped).mpr ⟨spelled, values⟩
    obtain ⟨again, read, alike⟩ := Expr.parseText_sourceForm writable shaped small
    exact ⟨again, read, alike.same writable⟩

end LoxFront
