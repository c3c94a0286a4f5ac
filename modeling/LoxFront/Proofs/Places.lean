/-
This file says where a place is in terms of the text before it alone. The line and the column of a
place are carried along while the place moves; here they are read off the text that has been
passed, so that a statement about positions needs no walk. More text before a place puts it later
in the order of lines and columns.
-/

import LoxFront.Place
import LoxFront.Proofs.Runs

namespace LoxFront

namespace Text

/-- The line on which a text ends, counted from one. -/
def endLine (passed : Text) : Nat := passed.count '\n' + 1

/-- The column behind the last character of a text, counted from one at the start of its line. -/
def endColumn (passed : Text) : Nat := (passed.reverse.takeWhile (· ≠ '\n')).length + 1

/-- Behind more text the line is a later one, or the same with a later column. -/
theorem end_lt_append (front : Text) {back : Text} (nonempty : back ≠ []) :
    front.endLine < endLine (front ++ back) ∨
      front.endLine = endLine (front ++ back) ∧ front.endColumn < endColumn (front ++ back) := by
  unfold endLine endColumn
  by_cases newline : '\n' ∈ back
  · have counted := List.count_pos_iff.mpr newline
    rw [List.count_append]
    omega
  · have inside := forall_ne_of_notMem (mt List.mem_reverse.mp newline)
    have positive := List.length_pos_iff.mpr nonempty
    rw [List.count_append, List.count_eq_zero.mpr newline, List.reverse_append,
      List.takeWhile_append_of_pos inside, List.length_append, List.length_reverse]
    omega

/-- A position tells how much of a text has been passed. -/
theorem eq_of_end_eq {front back front' back' : Text}
    (whole : front ++ back = front' ++ back') (line : front.endLine = front'.endLine)
    (column : front.endColumn = front'.endColumn) : front = front' := by
  have nothing {passed more : Text} (line : passed.endLine = endLine (passed ++ more))
      (column : passed.endColumn = endColumn (passed ++ more)) : more = [] := by
    by_contra nonempty
    have further := passed.end_lt_append nonempty
    omega
  rcases List.append_eq_append_iff.mp whole with ⟨more, rfl, -⟩ | ⟨more, rfl, -⟩
  · rw [nothing line column, List.append_nil]
  · rw [nothing line.symm column.symm, List.append_nil]

end Text

namespace Place

theorem skip_skip (place : Place) (first second : Nat) :
    (place.skip first).skip second = place.skip (first + second) := by
  induction first generalizing place with
  | zero => rw [Nat.zero_add]; rfl
  | succ first inductionHypothesis =>
    rw [skip_succ, inductionHypothesis, ← skip_succ, Nat.add_right_comm]

theorem step_eq_skip (place : Place) : place.step = place.skip 1 := (skip_succ place 0).symm

/-- The place between two texts. -/
def between (front back : Text) : Place where
  before := front.reverse
  rest := back
  line := front.endLine

theorem skip_between (front middle back : Text) :
    (between front (middle ++ back)).skip middle.length = between (front ++ middle) back := by
  have before : ((between front (middle ++ back)).skip middle.length).before =
      (front ++ middle).reverse := by
    rw [before_skip, between, List.take_left, List.reverse_append]
  have rest : ((between front (middle ++ back)).skip middle.length).rest = back := by
    rw [rest_skip, between, List.drop_left]
  have line : ((between front (middle ++ back)).skip middle.length).line =
      (front ++ middle).endLine := by
    rw [line_skip]
    show front.count '\n' + 1 + ((middle ++ back).take middle.length).count '\n' =
      (front ++ middle).count '\n' + 1
    rw [List.take_left, List.count_append]
    omega
  generalize (between front (middle ++ back)).skip middle.length = place at before rest line
  obtain ⟨_, _, _⟩ := place
  exact Place.mk.injEq .. ▸ ⟨before, rest, line⟩

end Place

end LoxFront
