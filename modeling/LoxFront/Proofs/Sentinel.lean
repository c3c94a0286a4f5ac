/-
This file proves that an end mark is a sentinel and nothing more. A list of tokens is read alike
with an end mark behind it, with anything behind that mark, and without one: the tree is the same,
and so is a failure, except that a failure at the end is reported where the mark stands or else
where the last token ends. This is shown for the readers of lists first, which cut a list at its
first end mark. The readers that go through a list by an index put an end mark behind it and never
pass one, and they come to the same.
-/

import LoxFront.Proofs.Checked.Inputs
import LoxFront.Proofs.Relocation

namespace LoxFront

/-- The line and the column at which the last of some tokens ends, or at which a text starts if
there are none. -/
def endOfTokens (tokens : List Token) : Nat × Nat :=
  match tokens.getLast? with
  | some last => (last.span.stop.line, last.span.stop.column)
  | none => (1, 1)

/-- Two results that are the same, but for the position of a failure at the end of the input, which
is one for the first result and another one for the second. -/
inductive SameButForEnd (position position' : Nat × Nat) :
    Except SyntaxError Expr → Except SyntaxError Expr → Prop
  | ok (expr : Expr) : SameButForEnd position position' (.ok expr) (.ok expr)
  | atToken (cause : SyntaxError.Cause) (line column : Nat) (lexeme : Text) :
      SameButForEnd position position' (.error { cause, line, column, lexeme? := some lexeme })
        (.error { cause, line, column, lexeme? := some lexeme })
  | atEnd (cause : SyntaxError.Cause) :
      SameButForEnd position position'
        (.error { cause, line := position.1, column := position.2, lexeme? := none })
        (.error { cause, line := position'.1, column := position'.2, lexeme? := none })

/-! ### Readers of lists -/

theorem Grammar.sameButForEnd_located (result : Except Failure Expr) (stop stop' : Place) :
    SameButForEnd (stop.line, stop.column) (stop'.line, stop'.column) (located result stop)
      (located result stop') := by
  cases result with
  | ok expr => exact .ok expr
  | error failure =>
    show SameButForEnd _ _ (.error (failure.located stop)) (.error (failure.located stop'))
    unfold Failure.located
    cases failure.token? with
    | some token => exact .atToken failure.cause token.span.line token.span.column token.lexeme
    | none => exact .atEnd failure.cause

/-- A reader of lists carries out a rule on the tokens up to the first end mark, and of that mark it
uses nothing but the place. -/
theorem exists_located {parse : List Token → Except SyntaxError Expr}
    (reader : parse ∈ [parseFront, parseWhole]) :
    ∃ rule : List Token → Except Grammar.Failure Expr, ∀ tokens, parse tokens =
      Grammar.located (rule (Sentence.ofTokens tokens).tokens) (Sentence.ofTokens tokens).stop := by
  simp only [List.mem_cons, List.not_mem_nil, or_false] at reader
  rcases reader with rfl | rfl
  · exact ⟨_, parseFront_eq_located⟩
  · exact ⟨_, parseWhole_eq_located⟩

theorem endOfTokens_eq {tokens : List Token} (unmarked : ∀ token ∈ tokens, token.isEnd = false) :
    endOfTokens tokens =
      ((Sentence.ofTokens tokens).stop.line, (Sentence.ofTokens tokens).stop.column) := by
  rw [Sentence.ofTokens_of_unmarked unmarked, endOfTokens]
  cases tokens.getLast? <;> rfl

section Mark

variable {parse : List Token → Except SyntaxError Expr} {tokens : List Token} {mark : Token}
  (reader : parse ∈ [parseFront, parseWhole]) (unmarked : ∀ token ∈ tokens, token.isEnd = false)
  (marked : mark.isEnd = true)

include reader unmarked marked

theorem parse_append_mark (later : List Token) :
    parse (tokens ++ mark :: later) = parse (tokens ++ [mark]) := by
  obtain ⟨rule, located⟩ := exists_located reader
  rw [located, located, Sentence.ofTokens_append_mark unmarked marked,
    Sentence.ofTokens_append_mark unmarked marked]

theorem sameButForEnd_of_mark :
    SameButForEnd (mark.span.line, mark.span.column) (endOfTokens tokens)
      (parse (tokens ++ [mark])) (parse tokens) := by
  obtain ⟨rule, located⟩ := exists_located reader
  have read : (Sentence.ofTokens tokens).tokens = tokens := by
    rw [Sentence.ofTokens_of_unmarked unmarked]
  rw [located, located, Sentence.ofTokens_append_mark unmarked marked, read,
    endOfTokens_eq unmarked]
  exact Grammar.sameButForEnd_located (rule tokens) mark.span.start _

end Mark

/-! ### Readers by an index -/

/-- A reader by an index comes to what a reader of lists comes to. -/
theorem Checked.exists_reader {parse : List Token → Option (Except SyntaxError Expr)}
    (reader : parse ∈ [Checked.parseFront, Checked.parseWhole]) :
    ∃ plain ∈ [LoxFront.parseFront, LoxFront.parseWhole], ∀ tokens : List Token,
      (∀ token ∈ tokens, token.span.Constructed) → parse tokens = some (plain tokens) := by
  simp only [List.mem_cons, List.not_mem_nil, or_false] at reader
  rcases reader with rfl | rfl
  · exact ⟨LoxFront.parseFront, by simp, fun _ => parseFront_eq⟩
  · exact ⟨LoxFront.parseWhole, by simp, fun _ => parseWhole_eq⟩

/-! ### The sentinel -/

/-- An end mark is only a sentinel. Let an end mark stand behind tokens that are none, and let
anything stand behind it. Then what stands behind the end mark makes no difference, and the end
mark itself makes none but for the position of a failure at the end, which is where the mark stands
if there is one and where the last token ends if there is none. This holds of reading the front of
the tokens and of reading them as a whole, and it holds of the readers by an index too, which are
not at fault on any of these lists. -/
theorem endMark_is_sentinel (tokens later : List Token) (mark : Token)
    (unmarked : ∀ token ∈ tokens, token.isEnd = false) (marked : mark.isEnd = true) :
    (∀ parse ∈ [parseFront, parseWhole],
      parse (tokens ++ mark :: later) = parse (tokens ++ [mark]) ∧
      SameButForEnd (mark.span.line, mark.span.column) (endOfTokens tokens)
        (parse (tokens ++ [mark])) (parse tokens)) ∧
    ((∀ token ∈ tokens ++ mark :: later, token.span.Constructed) →
      ∀ parse ∈ [Checked.parseFront, Checked.parseWhole], ∃ withMark withoutMark,
        parse (tokens ++ mark :: later) = some withMark ∧
        parse (tokens ++ [mark]) = some withMark ∧ parse tokens = some withoutMark ∧
        SameButForEnd (mark.span.line, mark.span.column) (endOfTokens tokens)
          withMark withoutMark) := by
  constructor
  · intro parse reader
    exact ⟨parse_append_mark reader unmarked marked later,
      sameButForEnd_of_mark reader unmarked marked⟩
  · intro constructed parse reader
    obtain ⟨plain, plainReader, same⟩ := Checked.exists_reader reader
    have upToMark : tokens ++ [mark] <+: tokens ++ mark :: later := ⟨later, by simp⟩
    have upToTokens : tokens <+: tokens ++ mark :: later := List.prefix_append _ _
    refine ⟨plain (tokens ++ [mark]), plain tokens, ?_, ?_, ?_,
      sameButForEnd_of_mark plainReader unmarked marked⟩
    · rw [same _ constructed, parse_append_mark plainReader unmarked marked]
    · exact same _ fun token member => constructed token (upToMark.mem member)
    · exact same _ fun token member => constructed token (upToTokens.mem member)

/-- An operand that is missing stays missing, although one stands behind the end mark, and it is
missed at the mark or else at the end of the operator. -/
theorem endMark_is_sentinel_behind_operator :
    let tokens := (tokenize "(1 +".toList).1.dropLast
    let mark := Token.endMark ((Place.ofText "\n\n x".toList).skip 3)
    let later := (tokenize "2)".toList).1
    let failure (line column : Nat) : Except SyntaxError Expr :=
      .error { cause := .missingOperand, line, column, lexeme? := none }
    tokens.map Token.lexeme = [['('], ['1'], ['+']] ∧
      parseWhole (tokens ++ mark :: later) = failure 3 2 ∧ parseWhole tokens = failure 1 5 ∧
      Checked.parseWhole (tokens ++ mark :: later) = some (failure 3 2) ∧
      Checked.parseWhole tokens = some (failure 1 5) := by
  intro tokens mark later failure
  have unmarked : ∀ token ∈ tokens, token.isEnd = false := by decide +kernel
  have constructed : ∀ token ∈ tokens ++ mark :: later, token.span.Constructed := by
    intro token member
    rcases List.mem_append.mp member with inside | behind
    · exact Checked.constructed_of_mem_tokenize ((List.dropLast_prefix _).mem inside)
    · rcases List.mem_cons.mp behind with rfl | behind
      · exact Span.constructed_skip mark.span.start 0
      · exact Checked.constructed_of_mem_tokenize behind
  obtain ⟨plain, byIndex⟩ := endMark_is_sentinel tokens later mark unmarked rfl
  obtain ⟨cut, same⟩ := plain parseWhole (by simp)
  obtain ⟨withMark, withoutMark, onAll, onMarked, onTokens, same'⟩ :=
    byIndex constructed Checked.parseWhole (by simp)
  have missing : parseWhole (tokens ++ [mark]) = failure 3 2 := by decide +kernel
  have missing' : Checked.parseWhole (tokens ++ [mark]) = some (failure 3 2) := by decide +kernel
  have position : endOfTokens tokens = (1, 5) := by decide +kernel
  obtain rfl : withMark = failure 3 2 := Option.some.inj (onMarked.symm.trans missing')
  rw [missing, position] at same
  rw [position] at same'
  refine ⟨by decide +kernel, cut.trans missing, ?_, onAll, onTokens.trans (congrArg some ?_)⟩
  · generalize parseWhole tokens = result at same
    cases same
    rfl
  · cases same'
    rfl

end LoxFront
