/-
This file collects what the reading of blanks, words, numbers and strings have in common: each
takes up a run of characters that pass a test, and stops before the first one that fails it. A run
is known once its characters and the character behind it are.
-/

import LoxFront.Text
import Mathlib.Data.List.TakeWhile

namespace LoxFront.Text

/-- What a text leaves behind its front, also where the front is computed from the text. -/
theorem drop_of_eq_append {text front rest : Text} (split : text = front ++ rest) :
    text.drop front.length = rest := by
  subst split
  exact List.drop_left

/-- A text without a certain character is a run of characters other than that. -/
theorem forall_ne_of_notMem {stop : Char} {body : Text} (absent : stop ∉ body) :
    ∀ character ∈ body, decide (character ≠ stop) = true := by
  intro character member
  exact decide_eq_true fun equal => absent (equal ▸ member)

variable {test : Char → Bool} {body rest : Text}

/-- No further character of the text belongs to a run. -/
def Stops (test : Char → Bool) (text : Text) : Prop :=
  ∀ character ∈ text.head?, test character = false

theorem stops_nil (test : Char → Bool) : Stops test [] := by
  intro character member
  cases member

theorem stops_cons {first : Char} (fails : test first = false) : Stops test (first :: rest) := by
  intro character member
  obtain rfl := Option.mem_some.mp member
  exact fails

theorem stops_cons_iff {first : Char} : Stops test (first :: rest) ↔ test first = false :=
  ⟨fun stops => stops first rfl, stops_cons⟩

theorem takeWhile_of_stops (stops : Stops test rest) : rest.takeWhile test = [] := by
  cases rest with
  | nil => rfl
  | cons first later => simp [stops first rfl]

theorem dropWhile_of_stops (stops : Stops test rest) : rest.dropWhile test = rest := by
  cases rest with
  | nil => rfl
  | cons first later => simp [stops first rfl]

/-- A run ends where its characters do if none follows that passes the test. -/
theorem takeWhile_run (inside : ∀ character ∈ body, test character = true)
    (stops : Stops test rest) : (body ++ rest).takeWhile test = body := by
  rw [List.takeWhile_append_of_pos inside, takeWhile_of_stops stops, List.append_nil]

/-- No run goes on into a text that stops it. -/
theorem takeWhile_append_of_stops (text : Text) (stops : Stops test rest) :
    (text ++ rest).takeWhile test = text.takeWhile test := by
  rw [List.takeWhile_append]
  split
  · next whole =>
    rw [takeWhile_of_stops stops, List.append_nil]
    exact ((List.takeWhile_prefix test).eq_of_length whole).symm
  · rfl

theorem dropWhile_run (inside : ∀ character ∈ body, test character = true)
    (stops : Stops test rest) : (body ++ rest).dropWhile test = rest := by
  rw [List.dropWhile_append_of_pos inside, dropWhile_of_stops stops]

theorem stops_dropWhile (test : Char → Bool) (text : Text) : Stops test (text.dropWhile test) := by
  intro character member
  have stopped := List.head?_dropWhile_not test text
  rw [Option.mem_def.mp member] at stopped
  simpa using stopped

/-- Every text is a run and a text at which the run stops. -/
theorem exists_run (test : Char → Bool) (text : Text) :
    ∃ body rest, text = body ++ rest ∧ (∀ character ∈ body, test character = true) ∧
      Stops test rest :=
  ⟨text.takeWhile test, text.dropWhile test, List.takeWhile_append_dropWhile.symm,
    fun _ member => List.mem_takeWhile_imp member, stops_dropWhile test text⟩

end LoxFront.Text
