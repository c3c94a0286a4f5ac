/-
This file describes a list of tokens by the end marks in it. A list whose last token is no end
mark gets one, at the place where the last token ends. Up to the first end mark that is the
sentence that is read, and the place of that end mark is where the sentence stops. So every
failure is about one of the tokens of the completed list, and it is reported as that token: at its
line and column, with its text, or as the end if it is the end mark.
-/

import LoxFront.Parsing
import Mathlib.Data.List.TakeWhile

namespace LoxFront

theorem Token.isEnd_iff {token : Token} : token.isEnd = true ↔ token.data = .endOfInput := by
  cases data : token.data <;> simp [Token.isEnd, Token.kind, Token.Data.kind, data]

/-- The token that marks the end of the input at a place. -/
def Token.endMark (place : Place) : Token where
  data := .endOfInput
  span := { start := place, lexeme := [] }

/-- A failure that is about a token. -/
def SyntaxError.about (cause : SyntaxError.Cause) (token : Token) : SyntaxError where
  cause := cause
  line := token.span.line
  column := token.span.column
  lexeme? := if token.isEnd then none else some token.lexeme

namespace Sentence

/-- The tokens, with an end mark behind them if the last one is none. -/
def delimited (tokens : List Token) : List Token :=
  match tokens.getLast? with
  | some last => if last.isEnd then tokens else tokens ++ [.endMark last.span.stop]
  | none => [.endMark (Place.ofText [])]

theorem isEnd_of_mem_tokens {tokens : List Token} {token : Token}
    (member : token ∈ (ofTokens tokens).tokens) : token.isEnd = false := by
  simpa using List.mem_takeWhile_imp member

/-- Behind the first end mark nothing is read. -/
theorem ofTokens_append_mark {front : List Token} {mark : Token}
    (unmarked : ∀ token ∈ front, token.isEnd = false) (isEnd : mark.isEnd = true)
    (later : List Token) :
    ofTokens (front ++ mark :: later) = { tokens := front, stop := mark.span.start } := by
  have others : ∀ token ∈ front, (!token.isEnd) = true := by simpa using unmarked
  have found : (front ++ mark :: later).find? Token.isEnd = some mark :=
    List.find?_eq_some_iff_append.mpr ⟨isEnd, front, later, rfl, others⟩
  rw [ofTokens, found, List.takeWhile_append_of_pos others,
    List.takeWhile_cons_of_neg (by simp [isEnd]), List.append_nil]

/-- Without an end mark everything is read, up to the end of the last token. -/
theorem ofTokens_of_unmarked {tokens : List Token}
    (unmarked : ∀ token ∈ tokens, token.isEnd = false) :
    ofTokens tokens =
      { tokens
        stop := match tokens.getLast? with
          | some last => last.span.stop
          | none => Place.ofText [] } := by
  have missing : tokens.find? Token.isEnd = none := List.find?_eq_none.mpr (by simpa using unmarked)
  have read : (tokens.takeWhile fun token => !token.isEnd) = tokens :=
    List.takeWhile_eq_self_iff.mpr (by simpa using unmarked)
  rw [ofTokens, missing, read]
  cases tokens.getLast? <;> rfl

/-- A list is its own beginning when it is delimited. -/
theorem exists_delimited_eq_append {tokens : List Token} (nonempty : tokens ≠ []) :
    ∃ marks, delimited tokens = tokens ++ marks := by
  rw [delimited, List.getLast?_eq_some_getLast nonempty]
  dsimp only
  split
  · exact ⟨[], (List.append_nil tokens).symm⟩
  · exact ⟨_, rfl⟩

/-- What is read is what stands before the first end mark, and it stops where that mark is. -/
theorem exists_delimited (tokens : List Token) :
    ∃ mark later, delimited tokens = (ofTokens tokens).tokens ++ mark :: later ∧
      mark.isEnd = true ∧ mark.span.start = (ofTokens tokens).stop := by
  cases found : tokens.find? Token.isEnd with
  | some mark =>
    obtain ⟨isEnd, front, later, split, others⟩ := List.find?_eq_some_iff_append.mp found
    have nonempty : tokens ≠ [] := by
      rw [split]
      exact List.append_ne_nil_of_right_ne_nil front (List.cons_ne_nil mark later)
    obtain ⟨marks, delimits⟩ := exists_delimited_eq_append nonempty
    have sentence := ofTokens_append_mark (by simpa using others) isEnd later
    rw [← split] at sentence
    refine ⟨mark, later ++ marks, ?_, isEnd, by rw [sentence]⟩
    rw [delimits, sentence, split, List.append_assoc, List.cons_append]
  | none =>
    have unmarked : ∀ token ∈ tokens, token.isEnd = false := by
      simpa using List.find?_eq_none.mp found
    rw [ofTokens_of_unmarked unmarked, delimited]
    cases last : tokens.getLast? with
    | some token =>
      have notEnd := unmarked token (List.mem_of_getLast? last)
      exact ⟨.endMark token.span.stop, [], by simp [notEnd], rfl, rfl⟩
    | none =>
      obtain rfl := List.getLast?_eq_none_iff.mp last
      exact ⟨.endMark (Place.ofText []), [], rfl, rfl, rfl⟩

end Sentence

namespace Grammar

theorem located_some {failure : Failure} {token : Token} (known : failure.token? = some token)
    (notEnd : token.isEnd = false) (stop : Place) :
    failure.located stop = .about failure.cause token := by
  rw [Failure.located, known, SyntaxError.about, notEnd]
  rfl

theorem located_none {failure : Failure} {mark : Token} (known : failure.token? = none)
    (isEnd : mark.isEnd = true) :
    failure.located mark.span.start = .about failure.cause mark := by
  rw [Failure.located, known, SyntaxError.about, isEnd]
  rfl

/-- A failure at the front of what is unread is about the next token of the delimited list. -/
theorem exists_located_atFront {tokens read unread : List Token}
    (split : (Sentence.ofTokens tokens).tokens = read ++ unread) (cause : SyntaxError.Cause) :
    ∃ token later, Sentence.delimited tokens = read ++ token :: later ∧
      (Failure.atFront cause unread).located (Sentence.ofTokens tokens).stop =
        .about cause token ∧
      ((unread = [] ∧ token.isEnd = true) ∨
        ∃ behind, unread = token :: behind ∧ token.isEnd = false) := by
  obtain ⟨mark, later, delimits, isEnd, start⟩ := Sentence.exists_delimited tokens
  rw [split] at delimits
  cases unread with
  | nil =>
    refine ⟨mark, later, ?_, ?_, Or.inl ⟨rfl, isEnd⟩⟩
    · rwa [List.append_nil] at delimits
    · rw [← start]
      exact located_none rfl isEnd
  | cons token behind =>
    have notEnd : token.isEnd = false := Sentence.isEnd_of_mem_tokens (by rw [split]; simp)
    refine ⟨token, behind ++ mark :: later, ?_, ?_, Or.inr ⟨behind, rfl, notEnd⟩⟩
    · rw [delimits, List.append_assoc, List.cons_append]
    · exact located_some rfl notEnd _

end Grammar

end LoxFront
