/-
This file proves that no input is at fault. A text is read and run with byte slices and indices,
each of which has to be in range, and so is a list of tokens that stand anywhere, as long as each
lies between two places of some text. What comes out is what the library computes without them, so
there is always a result.
-/

import LoxFront.Proofs.Checked.Rules
import LoxFront.Proofs.Checked.Scanning
import LoxFront.Proofs.Emission
import LoxFront.Proofs.Spans

namespace LoxFront.Checked

/-! ### Inputs -/

/-- The tokens, with an end mark behind them if the last one is none. -/
def delimited (tokens : List Token) : Option (List Token) :=
  match tokens.getLast? with
  | some last =>
    if last.isEnd then some tokens
    else do
      let stop ← last.span.stop?
      let mark ← token? .endOfInput stop stop
      some (tokens ++ [mark])
  | none => do
    let mark ← token? .endOfInput (Place.ofText []) (Place.ofText [])
    some [mark]

/-- The expression at the front of the tokens. -/
def parseFront (tokens : List Token) : Option (Except SyntaxError Expr) := do
  let whole ← delimited tokens
  let (outcome, _) ← frontExpression whole {}
  some outcome

/-- The expression that the tokens are as a whole. -/
def parseWhole (tokens : List Token) : Option (Except SyntaxError Expr) := do
  let whole ← delimited tokens
  let (outcome, _) ← wholeExpression whole {}
  some outcome

/-- The expression that a text is as a whole. -/
def parseText (text : Text) : Option (Except (List Diagnostic) Expr) := do
  let (tokens, errors) ← tokenize text
  if errors.isEmpty then
    match ← parseWhole tokens with
    | .ok expr => some (.ok expr)
    | .error error => some (.error [error.diagnostic])
  else some (.error (errors.map LexicalError.diagnostic))

/-- What is left of a run when the tokens have been listed. -/
def conclude (tokens : List Token) (errors : List LexicalError) (sink : Sink) :
    Option (Except RunFailure Unit × Sink) :=
  if errors.isEmpty then do
    match ← parseWhole tokens with
    | .ok expr => some ((emitLine expr.prefixForm).run.run sink)
    | .error error => some (.error (.diagnostics [error.diagnostic]), sink)
  else some (.error (.diagnostics (errors.map LexicalError.diagnostic)), sink)

/-- The result of a run, and the sink after it. -/
def runInto (sink : Sink) (source : Text) (listTokens : Bool) :
    Option (Except RunFailure Unit × Sink) := do
  let (tokens, errors) ← tokenize source
  if listTokens then
    match (emitLine (Text.joinLines (tokens.map Token.listing))).run.run sink with
    | (.error failure, later) => some (.error failure, later)
    | (.ok _, later) => conclude tokens errors later
  else conclude tokens errors sink

/-! ### Tokens -/

theorem token?_endMark (place : Place) :
    token? .endOfInput place place = some (.endMark place) := by
  have sliced : place.sliceUntil? place = some [] := Place.sliceUntil?_skip place 0
  rw [token?, sliced]
  rfl

theorem delimited_eq {tokens : List Token}
    (constructed : ∀ token ∈ tokens, token.span.Constructed) :
    delimited tokens = some (Sentence.delimited tokens) := by
  rw [delimited, Sentence.delimited]
  cases found : tokens.getLast? with
  | none =>
    dsimp only
    rw [token?_endMark]
    rfl
  | some last =>
    have stop := (constructed last (List.mem_of_getLast? found)).stop?_eq
    dsimp only
    by_cases isEnd : last.isEnd = true
    · rw [if_pos isEnd, if_pos isEnd]
    · rw [if_neg isEnd, if_neg isEnd, stop]
      show (token? _ _ _).bind _ = _
      rw [token?_endMark]
      rfl

theorem delimits_delimited (tokens : List Token) :
    Delimits (Sentence.delimited tokens) (Sentence.ofTokens tokens).tokens
      (Sentence.ofTokens tokens).stop where
  unmarked _ member := Sentence.isEnd_of_mem_tokens member
  marked := Sentence.exists_delimited tokens

section Parse

variable {tokens : List Token} (constructed : ∀ token ∈ tokens, token.span.Constructed)

include constructed

/-- What an attempt on the delimited list comes to is given to the caller. -/
theorem outcome_eq {attempt : List Token → Attempt Expr} {outcome : Except SyntaxError Expr}
    (came : ∃ reader, attempt (Sentence.delimited tokens) {} = some (outcome, reader)) :
    (do
      let whole ← delimited tokens
      let (outcome, _) ← attempt whole {}
      some outcome) = some outcome := by
  obtain ⟨reader, came⟩ := came
  rw [delimited_eq constructed]
  show (attempt (Sentence.delimited tokens) {}).bind _ = _
  rw [came]
  rfl

theorem parseFront_eq : parseFront tokens = some (LoxFront.parseFront tokens) := by
  rw [parseFront_eq_located]
  exact outcome_eq constructed (exists_frontExpression_eq (delimits_delimited tokens))

theorem parseWhole_eq : parseWhole tokens = some (LoxFront.parseWhole tokens) := by
  rw [parseWhole_eq_located]
  exact outcome_eq constructed (exists_wholeExpression_eq (delimits_delimited tokens))

end Parse

/-! ### Texts -/

/-- The tokens of a text lie between two places of it. -/
theorem constructed_of_mem_tokenize {text : Text} {token : Token}
    (member : token ∈ (LoxFront.tokenize text).1) : token.span.Constructed := by
  obtain ⟨count, -, covers⟩ := Token.exists_isBehind member
  have front := List.prefix_iff_eq_take.mp (Lexeme.front_prefix token.span.start.rest)
  have lexeme : token.span.lexeme = token.span.start.rest.take token.span.lexeme.length := by
    rw [← Token.lexeme, covers]
    exact front
  have constructed := Span.constructed_skip token.span.start token.span.lexeme.length
  rw [← lexeme] at constructed
  exact constructed

theorem parseText_eq (text : Text) : parseText text = some (LoxFront.parseText text) := by
  have whole : parseWhole (LoxFront.tokenize text).1 =
      some (LoxFront.parseWhole (LoxFront.tokenize text).1) :=
    parseWhole_eq fun _ => constructed_of_mem_tokenize
  rw [parseText, LoxFront.parseText, tokenize_eq]
  dsimp only [Option.bind_eq_bind, Option.bind_some]
  rw [whole]
  split
  · dsimp only [Option.bind_some]
    cases LoxFront.parseWhole (LoxFront.tokenize text).1 <;> rfl
  · rfl

theorem conclude_eq {tokens : List Token} (errors : List LexicalError) (sink : Sink)
    (constructed : ∀ token ∈ tokens, token.span.Constructed) :
    conclude tokens errors sink = some ((do
      unless errors.isEmpty do
        throw (.diagnostics (errors.map LexicalError.diagnostic))
      match LoxFront.parseWhole tokens with
      | .ok expr => emitLine expr.prefixForm
      | .error error => throw (.diagnostics [error.diagnostic]) : Emission Unit).run.run sink) := by
  rw [conclude, parseWhole_eq constructed]
  by_cases clean : errors.isEmpty = true
  · rw [if_pos clean, if_pos clean]
    cases LoxFront.parseWhole tokens <;> rfl
  · rw [if_neg clean, if_neg clean]
    rfl

theorem runInto_eq (sink : Sink) (source : Text) (listTokens : Bool) :
    runInto sink source listTokens = some (LoxFront.runInto sink source listTokens) := by
  have constructed : ∀ token ∈ (LoxFront.tokenize source).1, token.span.Constructed :=
    fun _ => constructed_of_mem_tokenize
  rw [runInto, LoxFront.runInto, run, tokenize_eq]
  dsimp only [Option.bind_eq_bind, Option.bind_some]
  cases listTokens with
  | false => exact conclude_eq _ sink constructed
  | true =>
    rw [if_pos rfl, if_pos rfl, run_andThen]
    obtain ⟨outcome, later⟩ := (emitLine (Text.joinLines
      ((LoxFront.tokenize source).1.map Token.listing))).run.run sink
    cases outcome with
    | error failure => rfl
    | ok => exact conclude_eq _ later constructed

/-! ### No faults -/

/-- Nothing that can be given to the front end is at fault. Every text can be read into tokens, read
as an expression and run, and every list of tokens can be read that each lie between two places of
a text, whatever they say and wherever they stand: no slice is out of range or cuts a character,
no index is out of range, and no place passes the end of its text. What comes out is the result of
the functions that keep no count of bytes and indices. -/
theorem no_fault :
    (∀ text, Checked.tokenize text = some (LoxFront.tokenize text)) ∧
    (∀ text, Checked.parseText text = some (LoxFront.parseText text)) ∧
    (∀ sink source listTokens,
      Checked.runInto sink source listTokens = some (LoxFront.runInto sink source listTokens)) ∧
    (∀ span : Span, span.Constructed → span.stop? = some span.stop) ∧
    ∀ tokens : List Token, (∀ token ∈ tokens, token.span.Constructed) →
      Checked.parseFront tokens = some (LoxFront.parseFront tokens) ∧
      Checked.parseWhole tokens = some (LoxFront.parseWhole tokens) :=
  ⟨tokenize_eq, parseText_eq, runInto_eq, fun _ constructed => constructed.stop?_eq,
    fun _ constructed => ⟨parseFront_eq constructed, parseWhole_eq constructed⟩⟩

/-- Tokens that overlap, stand in no order, and have an end mark between them. -/
def strewn : List Token :=
  let place := Place.ofText "é+(".toList
  [{ data := .number .nan, span := { start := place.skip 1, lexeme := "+(".toList } },
    { data := .symbol .plus, span := { start := place, lexeme := "é".toList } },
    { data := .endOfInput, span := { start := place.skip 2, lexeme := [] } },
    { data := .symbol .leftParen, span := { start := place, lexeme := "é+(".toList } }]

/-- Strewn tokens are read up to the end mark, where an operand is missing. -/
theorem no_fault_strewn :
    (∀ token ∈ strewn, token.span.Constructed) ∧
      Checked.parseFront strewn = some (LoxFront.parseFront strewn) ∧
      Checked.parseWhole strewn =
        some (.error { cause := .missingOperand, line := 1, column := 3, lexeme? := none }) := by
  have constructed : ∀ token ∈ strewn, token.span.Constructed := by
    intro token member
    let place := Place.ofText "é+(".toList
    simp only [strewn, List.mem_cons, List.not_mem_nil, or_false] at member
    rcases member with rfl | rfl | rfl | rfl
    · exact ⟨place.skip 1, place.skip 3, by decide⟩
    · exact ⟨place, place.skip 1, by decide⟩
    · exact ⟨place.skip 2, place.skip 2, by decide⟩
    · exact ⟨place, place.skip 3, by decide⟩
  obtain ⟨front, whole⟩ := no_fault.2.2.2.2 strewn constructed
  have missing : LoxFront.parseWhole strewn =
      .error { cause := .missingOperand, line := 1, column := 3, lexeme? := none } := by
    decide +kernel
  exact ⟨constructed, front, whole.trans (congrArg some missing)⟩

end LoxFront.Checked
