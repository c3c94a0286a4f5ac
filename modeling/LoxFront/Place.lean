/-
This file defines a place: a point between two characters of a text, together with the text on
both sides of it. Every token and every diagnostic is located by a place. A place moves forward
only, one character at a time, and always knows its line, its column and its distance in bytes
from the start.
-/

import LoxFront.Text

namespace LoxFront

/-- A point in a text. Keeping the passed characters in reverse makes a step forward cheap and
leaves the whole text recoverable. -/
structure Place where
  /-- The characters already passed, the nearest one first. -/
  before : Text := []
  /-- The characters still to come. -/
  rest : Text
  /-- The line of the place, counted from one. -/
  line : Nat := 1
  deriving DecidableEq

namespace Place

/-- The place before the first character of a text. -/
def ofText (text : Text) : Place := { rest := text }

/-- The whole text that the place is in. -/
def text (place : Place) : Text := place.before.reverse ++ place.rest

/-! ### Coordinates -/

/-- The number of bytes from the start of the text to the place. -/
def offset (place : Place) : Nat := place.before.utf8Size

/-- The column of the place, counted in characters from one at the start of its line. -/
def column (place : Place) : Nat :=
  (place.before.takeWhile fun character => character ≠ '\n').length + 1

/-- The next character. -/
def peek? (place : Place) : Option Char := place.rest.head?

/-- The character after the next one. -/
def peekSecond? (place : Place) : Option Char := place.rest.tail.head?

/-! ### Moving forward -/

/-- The place one character further on. The end of the text is not passed. -/
def step (place : Place) : Place :=
  match place.rest with
  | [] => place
  | character :: rest =>
    { before := character :: place.before
      rest
      line := if character = '\n' then place.line + 1 else place.line }

/-- The place up to `count` characters further on. -/
def skip : Place → Nat → Place
  | place, 0 => place
  | place, count + 1 => if place.rest.isEmpty then place else place.step.skip count

/-- The place after the next character, if that is the expected one. -/
def stepIf? (place : Place) (expected : Char) : Option Place :=
  if place.peek? = some expected then some place.step else none

/-- How many characters a test accepts before it first refuses one. The test carries a state, and
sees each character once and in order. -/
def acceptedCount {State : Type} (test : State → Char → Bool × State) : State → Text → Nat
  | _, [] => 0
  | state, character :: rest =>
    match test state character with
    | (true, later) => acceptedCount test later rest + 1
    | (false, _) => 0

/-- The place before the first character that a test with a state refuses. -/
def skipAccepted {State : Type} (test : State → Char → Bool × State) (state : State)
    (place : Place) : Place :=
  place.skip (acceptedCount test state place.rest)

/-- The place before the first character that fails a test. -/
def skipWhile (test : Char → Bool) (place : Place) : Place :=
  place.skipAccepted (fun _ character => (test character, ())) ()

/-! ### Comparing places -/

/-- Whether two places are at the same point of the same text. The line is left out, since the
text and the point determine it. -/
def same (first second : Place) : Bool :=
  first.rest == second.rest && first.text == second.text

/-- The text from one place up to another: nothing if the two are in different texts, or if the
second comes before the first. -/
def textUntil? (start stop : Place) : Option Text :=
  if start.text = stop.text ∧ start.offset ≤ stop.offset then
    some (start.rest.take (stop.before.length - start.before.length))
  else
    none

/-! ### The effect of moving -/

@[simp] theorem text_ofText (text : Text) : (ofText text).text = text := rfl

theorem text_step (place : Place) : place.step.text = place.text := by
  unfold step text
  split
  · rfl
  · next character rest equation => simp [equation]

theorem skip_nil (place : Place) (count : Nat) (ended : place.rest = []) :
    place.skip count = place := by
  cases count with
  | zero => rfl
  | succ count => simp [skip, ended]

/-- Moving on by one more is a step and then the remaining moves, also at the end of the text. -/
theorem skip_succ (place : Place) (count : Nat) :
    place.skip (count + 1) = place.step.skip count := by
  by_cases ended : place.rest = []
  · have still : place.step = place := by simp [step, ended]
    rw [still, skip_nil place count ended, skip_nil place (count + 1) ended]
  · simp [skip, ended]

theorem text_skip (place : Place) (count : Nat) : (place.skip count).text = place.text := by
  induction count generalizing place with
  | zero => rfl
  | succ count inductionHypothesis =>
    rw [skip_succ, inductionHypothesis, text_step]

theorem rest_step (place : Place) : place.step.rest = place.rest.drop 1 := by
  unfold step
  split <;> next equation => simp [equation]

theorem before_step (place : Place) :
    place.step.before = (place.rest.take 1).reverse ++ place.before := by
  unfold step
  split <;> next equation => simp [equation]

theorem line_step (place : Place) :
    place.step.line = place.line + (place.rest.take 1).count '\n' := by
  unfold step
  split
  · next equation => simp [equation]
  · next character rest equation =>
    by_cases newline : character = '\n' <;> simp [equation, newline]

/-- The characters that are passed by one more move are the next one and those behind it. -/
theorem take_succ_rest (place : Place) (count : Nat) :
    place.rest.take (count + 1) = place.rest.take 1 ++ place.step.rest.take count := by
  rw [rest_step, Nat.add_comm, List.take_add]

theorem rest_skip (place : Place) (count : Nat) :
    (place.skip count).rest = place.rest.drop count := by
  induction count generalizing place with
  | zero => rfl
  | succ count inductionHypothesis =>
    rw [skip_succ, inductionHypothesis, rest_step, List.drop_drop, Nat.add_comm]

theorem before_skip (place : Place) (count : Nat) :
    (place.skip count).before = (place.rest.take count).reverse ++ place.before := by
  induction count generalizing place with
  | zero => rfl
  | succ count inductionHypothesis =>
    rw [skip_succ, inductionHypothesis, before_step, take_succ_rest place count,
      List.reverse_append, List.append_assoc]

theorem line_skip (place : Place) (count : Nat) :
    (place.skip count).line = place.line + (place.rest.take count).count '\n' := by
  induction count generalizing place with
  | zero => rfl
  | succ count inductionHypothesis =>
    rw [skip_succ, inductionHypothesis, line_step, take_succ_rest place count, List.count_append,
      Nat.add_assoc]

end Place

end LoxFront
