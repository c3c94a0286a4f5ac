/-
This file proves that the prefix form of a tree without strings can be read in one way only. Behind
an opening parenthesis stands a name, an operator or the word for a grouping, which is told from
what follows it as the tokens of a text are. Behind the name stand the operands; how many there are
is not said, so a sign in front of one operand and a difference of two begin alike. The induction
leaves open what stands behind the two trees, as long as no value goes on there: then both end at
the same place, and no prefix form is the beginning of another one. A string is shown without its
quotes and may look like anything, also like a tree.
-/

import Mathlib.Data.List.Forall2
import LoxFront.Proofs.Equality

namespace LoxFront

/-! ### Values -/

namespace Literal

variable {value value' : Literal} {tail tail' : Text}

theorem text_asLexeme (unquoted : ∀ text, value ≠ .string text) :
    value.asLexeme.text = value.text := by
  cases value with
  | string text => exact absurd rfl (unquoted text)
  | number | boolean | nil => rfl

section Read

variable (writable : value.Writable) (unquoted : ∀ text, value ≠ .string text)
  (bounded : tail.Bounded)

include writable unquoted bounded

theorem front_text : Lexeme.front (value.text ++ tail) = value.asLexeme := by
  rw [← text_asLexeme unquoted]
  exact (readBefore writable bounded).front

theorem eq_of_text_append_eq (writable' : value'.Writable)
    (unquoted' : ∀ text, value' ≠ .string text) (bounded' : tail'.Bounded)
    (same : value.text ++ tail = value'.text ++ tail') : value = value' ∧ tail = tail' := by
  have read := front_text writable unquoted bounded
  rw [same, front_text writable' unquoted' bounded'] at read
  have data : value'.data = value.data := Except.ok.inj (congrArg Lexeme.content read)
  have values : some value' = some value := by rw [← literal?_data, ← literal?_data, data]
  obtain rfl := Option.some.inj values
  exact ⟨rfl, List.append_cancel_left same⟩

theorem text_append_ne_parenthesis : value.text ++ tail ≠ '(' :: tail' := by
  intro same
  have ends : Symbol.leftParen.Ends tail' := by simp [Symbol.Ends]
  have opening : Lexeme.front ('(' :: tail') = Symbol.leftParen.asLexeme :=
    Lexeme.front_symbol ends
  have read := front_text writable unquoted bounded
  rw [same, opening] at read
  have data : Token.Data.symbol .leftParen = value.data :=
    Except.ok.inj (congrArg Lexeme.content read)
  have denotes := value.literal?_data
  rw [← data] at denotes
  cases denotes

end Read

end Literal

namespace Expr

variable {expr first second : Expr} {name : Lexeme} {tail tail' : Text}

/-! ### Names and operands -/

/-- What stands behind the opening parenthesis of a tree: an operator, or the word for a
grouping. -/
def name? : Expr → Option Lexeme
  | binary _ operator _ | unary operator _ => some operator.asLexeme
  | grouping _ => some { text := "group".toList, content := .ok .identifier }
  | literal _ => none

/-- The trees that stand behind the name. -/
def operands : Expr → List Expr
  | binary left _ right => [left, right]
  | grouping body => [body]
  | literal _ => []
  | unary _ operand => [operand]

/-- Trees as they stand behind a name. -/
def spaced (trees : List Expr) : Text := trees.flatMap fun tree => ' ' :: tree.prefixForm

theorem prefixForm_of_name? (named : expr.name? = some name) (tail : Text) :
    expr.prefixForm ++ tail = '(' :: (name.text ++ (spaced expr.operands ++ ')' :: tail)) := by
  cases expr with
  | binary left operator right =>
    obtain rfl := Option.some.inj named
    simp [prefixForm_binary, spaced, operands, Token.asLexeme]
  | grouping body =>
    obtain rfl := Option.some.inj named
    simp [prefixForm_grouping, spaced, operands]
  | literal => cases named
  | unary operator operand =>
    obtain rfl := Option.some.inj named
    simp [prefixForm_unary, spaced, operands, Token.asLexeme]

/-- A name is read as one token, since a space follows it. -/
theorem front_name (writable : expr.Writable) (named : expr.name? = some name) (tail : Text) :
    Lexeme.front (name.text ++ (spaced expr.operands ++ tail)) = name := by
  have symbol {operator : Token} {mark : Symbol} (written : operator.asLexeme = mark.asLexeme)
      (operand : Expr) (others : List Expr) :
      Lexeme.front (operator.asLexeme.text ++ (spaced (operand :: others) ++ tail)) =
        operator.asLexeme := by
    rw [written]
    exact Lexeme.front_symbol fun _ => Text.stops_cons rfl
  cases expr with
  | binary left operator right =>
    cases named
    obtain ⟨⟨mark, written⟩, -⟩ := writable
    exact symbol written left [right]
  | grouping body =>
    cases named
    have letters : ∀ character ∈ ['r', 'o', 'u', 'p'], Lexeme.continuesWord character = true :=
      List.all_eq_true.mp rfl
    exact Lexeme.front_word rfl letters (Text.stops_cons rfl)
  | literal => cases named
  | unary operator operand =>
    cases named
    obtain ⟨bang | minus, -⟩ := writable
    · exact symbol bang operand []
    · exact symbol minus operand []

/-- Trees of one name whose operands are alike are alike themselves. -/
theorem alike_of_operands (writable : first.Writable) (writable' : second.Writable)
    (named : first.name? = some name) (named' : second.name? = some name)
    (alike : List.Forall₂ Alike first.operands second.operands) : first.Alike second := by
  have names {second : Expr} (named' : second.name? = some name) : first.name? = second.name? :=
    named.trans named'.symm
  have noWord {operator : Token} (written : operator.asLexeme = Symbol.bang.asLexeme ∨
      operator.asLexeme = Symbol.minus.asLexeme) : operator.asLexeme.content ≠ .ok .identifier := by
    intro identifier
    rcases written with written | written <;> rw [written] at identifier <;> cases identifier
  cases first with
  | binary left operator right =>
    cases second with
    | binary left' operator' right' =>
      simp only [operands, List.forall₂_cons] at alike
      obtain ⟨lefts, rights, -⟩ := alike
      exact .binary (Option.some.inj (names named')) lefts rights
    | grouping | unary => simp [operands] at alike
    | literal => cases named'
  | grouping body =>
    cases second with
    | grouping body' =>
      simp only [operands, List.forall₂_cons] at alike
      exact .grouping alike.1
    | binary => simp [operands] at alike
    | literal => cases named'
    | unary operator operand =>
      -- No operator is written as a word, so the name tells the two apart.
      have word := congrArg Lexeme.content (Option.some.inj (names named')).symm
      exact absurd word (noWord writable'.1)
  | literal => cases named
  | unary operator operand =>
    cases second with
    | unary operator' operand' =>
      simp only [operands, List.forall₂_cons] at alike
      exact .unary (Option.some.inj (names named')) alike.1
    | binary => simp [operands] at alike
    | literal => cases named'
    | grouping body =>
      have word := congrArg Lexeme.content (Option.some.inj (names named'))
      exact absurd word (noWord writable.1)

/-- A tree that can be made out in prefix form: it can be written, and there is no string in it. -/
structure Legible (expr : Expr) : Prop where
  writable : expr.Writable
  unquoted : ∀ text, .string text ∉ expr.literals

theorem Legible.of_mem_operands (legible : expr.Legible) {operand : Expr}
    (member : operand ∈ expr.operands) : operand.Legible := by
  obtain ⟨writable, unquoted⟩ := legible
  cases expr with
  | binary left operator right =>
    have parts (text : Text) := not_or.mp (List.mem_append.not.mp (unquoted text))
    simp only [operands, List.mem_cons, List.not_mem_nil, or_false] at member
    rcases member with rfl | rfl
    · exact ⟨writable.2.1, fun text => (parts text).1⟩
    · exact ⟨writable.2.2, fun text => (parts text).2⟩
  | grouping body =>
    obtain rfl := List.mem_singleton.mp member
    exact ⟨writable, unquoted⟩
  | literal => cases member
  | unary operator operand' =>
    obtain rfl := List.mem_singleton.mp member
    exact ⟨writable.2, unquoted⟩

theorem Legible.ne_string {value : Literal} (legible : (literal value).Legible) (text : Text) :
    value ≠ .string text :=
  fun equal => legible.unquoted text (List.mem_singleton.mpr equal.symm)

/-! ### Where a tree ends -/

/-- Where the prefix forms of the tree and of another one begin a text, the trees are alike, and the
two end at the same place. -/
def Unmistakable (expr : Expr) : Prop :=
  ∀ (other : Expr) (tail tail' : Text), other.Legible → tail.Bounded → tail'.Bounded →
    expr.prefixForm ++ tail = other.prefixForm ++ tail' → expr.Alike other ∧ tail = tail'

theorem bounded_spaced (trees : List Expr) (tail : Text) :
    Text.Bounded (spaced trees ++ ')' :: tail) := by
  intro character member
  cases trees with
  | nil => exact Or.inr (Option.mem_some.mp member).symm
  | cons tree later => exact Or.inl (Option.mem_some.mp member).symm

/-- If each of some trees is unmistakable, so are all of them, and so is their number. -/
theorem alike_of_spaced_eq {trees trees' : List Expr}
    (each : ∀ tree ∈ trees, tree.Unmistakable) (legible' : ∀ tree ∈ trees', tree.Legible)
    (same : spaced trees ++ ')' :: tail = spaced trees' ++ ')' :: tail') :
    List.Forall₂ Alike trees trees' ∧ tail = tail' := by
  have spaced_cons (tree : Expr) (later : List Expr) (tail : Text) :
      spaced (tree :: later) ++ ')' :: tail =
        ' ' :: (tree.prefixForm ++ (spaced later ++ ')' :: tail)) := by
    simp [spaced]
  induction trees generalizing trees' with
  | nil =>
    cases trees' with
    | nil => exact ⟨.nil, List.tail_eq_of_cons_eq same⟩
    | cons tree' later' =>
      -- One text closes the parenthesis where the other one has a space.
      rw [spaced_cons] at same
      cases List.head_eq_of_cons_eq same
  | cons tree later inductionHypothesis =>
    rw [spaced_cons] at same
    cases trees' with
    | nil => cases List.head_eq_of_cons_eq same
    | cons tree' later' =>
      rw [spaced_cons] at same
      obtain ⟨unmistakable, others⟩ := List.forall_mem_cons.mp each
      obtain ⟨legibleTree, legibleOthers⟩ := List.forall_mem_cons.mp legible'
      obtain ⟨alike, behind⟩ := unmistakable tree' _ _ legibleTree (bounded_spaced later _)
        (bounded_spaced later' _) (List.tail_eq_of_cons_eq same)
      obtain ⟨alikeOthers, ends⟩ := inductionHypothesis others legibleOthers behind
      exact ⟨.cons alike alikeOthers, ends⟩

theorem unmistakable_literal {value : Literal} (legible : (literal value).Legible) :
    (literal value).Unmistakable := by
  intro other tail tail' legible' bounded bounded' same
  cases named' : other.name? with
  | none =>
    cases other with
    | literal value' =>
      obtain ⟨rfl, ends⟩ := Literal.eq_of_text_append_eq legible.writable legible.ne_string bounded
        legible'.writable legible'.ne_string bounded' same
      exact ⟨.literal rfl, ends⟩
    | binary | grouping | unary => cases named'
  | some name' =>
    rw [prefixForm_of_name? named'] at same
    exact absurd same
      (Literal.text_append_ne_parenthesis legible.writable legible.ne_string bounded)

theorem unmistakable_of_name? (named : expr.name? = some name) (legible : expr.Legible)
    (each : ∀ operand ∈ expr.operands, operand.Unmistakable) : expr.Unmistakable := by
  intro other tail tail' legible' bounded bounded' same
  rw [prefixForm_of_name? named] at same
  cases named' : other.name? with
  | none =>
    cases other with
    | literal value' =>
      exact absurd same.symm
        (Literal.text_append_ne_parenthesis legible'.writable legible'.ne_string bounded')
    | binary | grouping | unary => cases named'
  | some name' =>
    rw [prefixForm_of_name? named'] at same
    have behind := List.tail_eq_of_cons_eq same
    have read := front_name legible.writable named (')' :: tail)
    rw [behind, front_name legible'.writable named'] at read
    subst read
    obtain ⟨alike, ends⟩ := alike_of_spaced_eq each (fun _ => legible'.of_mem_operands)
      (List.append_cancel_left behind)
    exact ⟨alike_of_operands legible.writable legible'.writable named named' alike, ends⟩

/-- No prefix form is the beginning of another one. -/
theorem Legible.unmistakable (legible : expr.Legible) : expr.Unmistakable := by
  induction expr with
  | binary left operator right inductionLeft inductionRight =>
    refine unmistakable_of_name? rfl legible
      (List.forall_mem_cons.mpr ⟨?_, List.forall_mem_singleton.mpr ?_⟩)
    · exact inductionLeft (legible.of_mem_operands (by simp [operands]))
    · exact inductionRight (legible.of_mem_operands (by simp [operands]))
  | grouping body inductionHypothesis =>
    refine unmistakable_of_name? rfl legible (List.forall_mem_singleton.mpr ?_)
    exact inductionHypothesis (legible.of_mem_operands List.mem_cons_self)
  | literal value => exact unmistakable_literal legible
  | unary operator operand inductionHypothesis =>
    refine unmistakable_of_name? rfl legible (List.forall_mem_singleton.mpr ?_)
    exact inductionHypothesis (legible.of_mem_operands List.mem_cons_self)

/-- A tree of the grammar that can be written holds no zero with a sign. -/
theorem negativeZero_notMem_literals (writable : expr.Writable) (shaped : expr.WellShaped) :
    .number .negativeZero ∉ expr.literals := by
  intro member
  obtain ⟨magnitude, unsigned⟩ := ((writable_iff shaped).mp writable).2 _ member
  cases unsigned

end Expr

/-! ### Trees that were read -/

/-- Trees that were read from texts and hold no string have the same prefix form exactly if they are
equal. -/
theorem prefixForm_is_unambiguous (source source' : Text) (first second : Expr)
    (parsed : parseFront (tokenize source).1 = .ok first ∨
      parseWhole (tokenize source).1 = .ok first)
    (parsed' : parseFront (tokenize source').1 = .ok second ∨
      parseWhole (tokenize source').1 = .ok second)
    (unquoted : ∀ text, .string text ∉ first.literals)
    (unquoted' : ∀ text, .string text ∉ second.literals) :
    first.prefixForm = second.prefixForm ↔ first.same second = true := by
  obtain ⟨writable, shaped, -⟩ := writable_of_parse parsed
  obtain ⟨writable', shaped', -⟩ := writable_of_parse parsed'
  constructor
  · intro printed
    have bounded : Text.Bounded [] := fun _ member => by cases member
    have legible : first.Legible := ⟨writable, unquoted⟩
    obtain ⟨alike, -⟩ := legible.unmistakable second [] [] ⟨writable', unquoted'⟩ bounded bounded
      (congrArg (· ++ []) printed)
    exact Expr.same_symm (alike.same writable)
  · intro equal
    exact Expr.prefixForm_eq_of_same equal (Expr.negativeZero_notMem_literals writable shaped)
      (Expr.negativeZero_notMem_literals writable' shaped')

theorem prefixForm_is_unambiguous_of_respaced :
    ∃ first second, parseFront (tokenize "007-- ( nil ) 8".toList).1 = .ok first ∧
      parseWhole (tokenize "7.0 - -(nil)".toList).1 = .ok second ∧ first ≠ second ∧
      first.prefixForm = "(- 7 (- (group nil)))".toList ∧ first.same second = true := by
  have shown : (parseFront (tokenize "007-- ( nil ) 8".toList).1).toOption.map
        (fun tree => (tree.prefixForm, tree.literals)) =
      (parseWhole (tokenize "7.0 - -(nil)".toList).1).toOption.map
        (fun tree => (tree.prefixForm, tree.literals)) := by decide +kernel
  have known : (parseWhole (tokenize "7.0 - -(nil)".toList).1).toOption.map
        (fun tree => (tree.prefixForm, tree.literals)) =
      some ("(- 7 (- (group nil)))".toList,
        [.number (.finite false { code := 1025 * 2 ^ 52 + 3 * 2 ^ 50, code_lt := by decide }),
          .nil]) := by decide +kernel
  have apart : parseFront (tokenize "007-- ( nil ) 8".toList).1 ≠
      parseWhole (tokenize "7.0 - -(nil)".toList).1 := by decide +kernel
  cases read : parseFront (tokenize "007-- ( nil ) 8".toList).1 with
  | error failure =>
    rw [read, known] at shown
    cases shown
  | ok first =>
    cases read' : parseWhole (tokenize "7.0 - -(nil)".toList).1 with
    | error failure =>
      rw [read'] at known
      cases known
    | ok second =>
      rw [read, read'] at shown apart
      rw [read'] at known
      obtain ⟨forms, values⟩ := Prod.mk.inj (Option.some.inj shown)
      obtain ⟨form, value⟩ := Prod.mk.inj (Option.some.inj known)
      have unquoted' (text : Text) : .string text ∉ second.literals := by simp [value]
      have unquoted (text : Text) : .string text ∉ first.literals := values ▸ unquoted' text
      exact ⟨first, second, rfl, rfl, fun equal => apart (congrArg Except.ok equal),
        forms.trans form, (prefixForm_is_unambiguous _ _ first second (.inl read) (.inr read')
          unquoted unquoted').mp forms⟩

/-- A string may look like another value. -/
example : (Expr.literal (.string "nil".toList)).prefixForm = (Expr.literal .nil).prefixForm ∧
    (Expr.literal (.string "nil".toList)).same (Expr.literal .nil) = false := by decide

end LoxFront
