/-
This file follows places through every way of moving them. Places are opened on texts, copied and
moved, in any order, and beside each place a count is kept of the characters that were consumed on
the way to it. The one invariant is that a place stands between the consumed front of its text and
the rest. What a place says of itself can therefore be read off that front, also where it is
computed from bytes, and it does not matter which moves have led there.
-/

import LoxFront.Proofs.Checked.Slices
import LoxFront.Proofs.Places

namespace LoxFront

/-! ### Moves and walks -/

/-- A way to move a place forward. A test comes with a state of any kind. -/
inductive Move : Type 1
  | step
  | skip (count : Nat)
  | stepIf (expected : Char)
  | skipAccepted {State : Type} (test : State → Char → Bool × State) (state : State)

namespace Move

/-- Where the move leads. -/
def lead : Move → Place → Place
  | step, place => place.step
  | skip count, place => place.skip count
  | stepIf expected, place => (place.stepIf? expected).getD place
  | skipAccepted test state, place => place.skipAccepted test state

/-- How many characters are consumed, as far as the one who moves the place can tell: those that
are given out, the expected one if it is there, those that the test accepts. -/
def consumption : Move → Place → Nat
  | step, place => place.peek?.toList.length
  | skip count, place => (place.rest.take count).length
  | stepIf expected, place => (place.stepIf? expected).toList.length
  | skipAccepted test state, place => Place.acceptedCount test state place.rest

end Move

/-- A place on its way through a text. -/
structure Walker where
  /-- The text that the place was opened on. -/
  source : Text
  /-- How many characters have been consumed since. -/
  consumed : Nat
  place : Place
  deriving DecidableEq

namespace Walker

/-- A walker that starts on a text. -/
def start (text : Text) : Walker where
  source := text
  consumed := 0
  place := Place.ofText text

/-- The walker after a move. -/
def follow (walker : Walker) (move : Move) : Walker where
  source := walker.source
  consumed := walker.consumed + move.consumption walker.place
  place := move.lead walker.place

end Walker

/-- What is done with walkers that are kept in a list: a new one starts, one is copied to the end of
the list, or one is moved. -/
inductive Command : Type 1
  | start (text : Text)
  | copy (index : Nat)
  | advance (index : Nat) (move : Move)

/-- The walkers after a command. Where there is no walker, nothing is copied or moved. -/
def Command.perform (walkers : List Walker) : Command → List Walker
  | start text => walkers ++ [Walker.start text]
  | copy index => walkers ++ walkers[index]?.toList
  | advance index move => walkers.modify index fun walker => walker.follow move

/-- All walkers after a list of commands. -/
def walkersAfter (commands : List Command) : List Walker := commands.foldl Command.perform []

/-! ### The invariant -/

namespace Place

/-- The place stands behind the first characters of a text. -/
structure IsBehind (place : Place) (source : Text) (count : Nat) : Prop where
  inside : count ≤ source.length
  eq_between : place = between (source.take count) (source.drop count)

theorem isBehind_ofText (text : Text) : (ofText text).IsBehind text 0 :=
  ⟨Nat.zero_le _, rfl⟩

namespace IsBehind

variable {place : Place} {source : Text} {count : Nat} (behind : place.IsBehind source count)

include behind

theorem rest_eq : place.rest = source.drop count := by
  rw [behind.eq_between]
  rfl

theorem length_rest : place.rest.length = source.length - count := by
  rw [behind.rest_eq, List.length_drop]

theorem skip {more : Nat} (enough : more ≤ place.rest.length) :
    (place.skip more).IsBehind source (count + more) := by
  have inside := behind.inside
  rw [behind.length_rest] at enough
  refine ⟨by omega, ?_⟩
  have middle : ((source.drop count).take more).length = more := by
    rw [List.length_take, List.length_drop]
    omega
  have moved := skip_between (source.take count) ((source.drop count).take more)
    ((source.drop count).drop more)
  rw [List.take_append_drop, middle, ← List.take_add, List.drop_drop,
    ← behind.eq_between] at moved
  exact moved

end IsBehind

theorem acceptedCount_le {State : Type} (test : State → Char → Bool × State) (state : State)
    (text : Text) : acceptedCount test state text ≤ text.length := by
  induction text generalizing state with
  | nil => exact Nat.le_refl 0
  | cons character rest inductionHypothesis =>
    rw [acceptedCount]
    split
    · next later _ => exact Nat.succ_le_succ (inductionHypothesis later)
    · exact Nat.zero_le _

theorem peek?_eq_some {place : Place} {character : Char} (next : place.peek? = some character) :
    1 ≤ place.rest.length := by
  obtain ⟨later, split⟩ := List.head?_eq_some_iff.mp next
  rw [split, List.length_cons]
  omega

end Place

namespace Move

theorem consumption_le (move : Move) (place : Place) :
    move.consumption place ≤ place.rest.length := by
  cases move with
  | step =>
    rw [consumption]
    cases next : place.peek? with
    | none => exact Nat.zero_le _
    | some => exact Place.peek?_eq_some next
  | skip count =>
    rw [consumption, List.length_take]
    exact Nat.min_le_right _ _
  | stepIf expected =>
    rw [consumption, Place.stepIf?]
    split
    · next found => exact Place.peek?_eq_some found
    · exact Nat.zero_le _
  | skipAccepted test state => exact Place.acceptedCount_le test state place.rest

/-- Every move skips what it consumes. -/
theorem lead_eq_skip (move : Move) (place : Place) :
    move.lead place = place.skip (move.consumption place) := by
  cases move with
  | step =>
    rw [lead, consumption, Place.step_eq_skip]
    cases next : place.peek? with
    | none => exact Place.skip_nil place 1 (List.head?_eq_none_iff.mp next)
    | some => rfl
  | skip count =>
    rw [lead, consumption, List.length_take]
    rcases Nat.le_total count place.rest.length with enough | short
    · rw [Nat.min_eq_left enough]
    · -- At the end of the text no move leads any further.
      obtain ⟨more, rfl⟩ := Nat.exists_eq_add_of_le short
      have ended : (place.skip place.rest.length).rest = [] := by
        rw [Place.rest_skip, List.drop_length]
      rw [Nat.min_eq_right short, ← Place.skip_skip, Place.skip_nil _ more ended]
  | stepIf expected =>
    rw [lead, consumption, Place.stepIf?]
    split
    · exact Place.step_eq_skip place
    · rfl
  | skipAccepted test state => rfl

end Move

theorem Place.IsBehind.lead {place : Place} {source : Text} {count : Nat}
    (behind : place.IsBehind source count) (move : Move) :
    (move.lead place).IsBehind source (count + move.consumption place) := by
  rw [move.lead_eq_skip]
  exact behind.skip (move.consumption_le place)

namespace Walker

/-- The walker has consumed the front of its text and nothing else. -/
def Sound (walker : Walker) : Prop := walker.place.IsBehind walker.source walker.consumed

theorem sound_start (text : Text) : (start text).Sound := Place.isBehind_ofText text

theorem Sound.follow {walker : Walker} (sound : walker.Sound) (move : Move) :
    (walker.follow move).Sound := Place.IsBehind.lead sound move

theorem sound_perform {walkers : List Walker} (sound : ∀ walker ∈ walkers, walker.Sound)
    (command : Command) : ∀ walker ∈ Command.perform walkers command, walker.Sound := by
  intro walker member
  cases command with
  | start text =>
    rcases List.mem_append.mp member with old | new
    · exact sound walker old
    · rw [List.mem_singleton.mp new]
      exact sound_start text
  | copy index =>
    rcases List.mem_append.mp member with old | new
    · exact sound walker old
    · exact sound walker (List.mem_of_getElem? (Option.mem_toList.mp new))
  | advance index move =>
    obtain ⟨place, found⟩ := List.mem_iff_getElem?.mp member
    rw [Command.perform, List.getElem?_modify] at found
    obtain ⟨before, foundBefore, rfl⟩ := Option.map_eq_some_iff.mp found
    have soundBefore := sound before (List.mem_of_getElem? foundBefore)
    split
    · exact soundBefore.follow move
    · exact soundBefore

theorem sound_foldl {walkers : List Walker} (sound : ∀ walker ∈ walkers, walker.Sound)
    (commands : List Command) :
    ∀ walker ∈ commands.foldl Command.perform walkers, walker.Sound := by
  induction commands generalizing walkers with
  | nil => exact sound
  | cons command later inductionHypothesis =>
    exact inductionHypothesis (sound_perform sound command)

theorem sound_of_mem_walkersAfter {commands : List Command} {walker : Walker}
    (member : walker ∈ walkersAfter commands) : walker.Sound :=
  sound_foldl (fun _ none => absurd none List.not_mem_nil) commands walker member

end Walker

/-! ### What a place tells -/

namespace Place

/-- What a place says of itself, and what lies ahead, is told by the first characters of a text. -/
structure Tells (place : Place) (source : Text) (count : Nat) : Prop where
  inside : count ≤ source.length
  text : place.text = source
  rest : place.rest = source.drop count
  offset : place.offset = Text.utf8Size (source.take count)
  offsetBytes : place.offset? = some (Text.utf8Size (source.take count))
  line : place.line = (source.take count).count '\n' + 1
  column : ∃ earlier lastLine, source.take count = earlier ++ lastLine ∧
    (earlier = [] ∨ earlier.getLast? = some '\n') ∧ '\n' ∉ lastLine ∧
    place.column = lastLine.length + 1 ∧ place.column? = some (lastLine.length + 1)
  peek : place.peek? = source[count]?
  peekSecond : place.peekSecond? = source[count + 1]?

/-- The characters behind the last newline of a text, and what is in front of them. -/
theorem exists_lastLine (passed : Text) :
    ∃ earlier lastLine, passed = earlier ++ lastLine ∧
      (earlier = [] ∨ earlier.getLast? = some '\n') ∧ '\n' ∉ lastLine ∧
      lastLine.length = (passed.reverse.takeWhile (· ≠ '\n')).length := by
  obtain ⟨line, lines, split, inside, stops⟩ := Text.exists_run (· ≠ '\n') passed.reverse
  refine ⟨lines.reverse, line.reverse, ?_, ?_, ?_, ?_⟩
  · rw [← List.reverse_append, ← split, List.reverse_reverse]
  · cases lines with
    | nil => exact Or.inl rfl
    | cons first others =>
      obtain rfl : first = '\n' := by simpa using stops first rfl
      exact Or.inr (by simp)
  · intro member
    simpa using inside '\n' (List.mem_reverse.mp member)
  · rw [split, Text.takeWhile_run inside stops, List.length_reverse]

theorem IsBehind.tells {place : Place} {source : Text} {count : Nat}
    (behind : place.IsBehind source count) : place.Tells source count := by
  have before : place.before = (source.take count).reverse := by
    rw [behind.eq_between]
    rfl
  have offset : place.offset = Text.utf8Size (source.take count) := by
    rw [Place.offset, before, Text.utf8Size_reverse]
  refine {
    inside := behind.inside
    text := ?_
    rest := behind.rest_eq
    offset
    offsetBytes := by rw [offset?_eq, offset]
    line := ?_
    column := ?_
    peek := ?_
    peekSecond := ?_ }
  · rw [Place.text, before, List.reverse_reverse, behind.rest_eq, List.take_append_drop]
  · rw [behind.eq_between]
    rfl
  · obtain ⟨earlier, lastLine, split, closed, oneLine, length⟩ :=
      exists_lastLine (source.take count)
    have column : place.column = lastLine.length + 1 := by
      rw [length, Place.column, before]
    exact ⟨earlier, lastLine, split, closed, oneLine, column, by rw [column?_eq, column]⟩
  · rw [peek?, behind.rest_eq, List.head?_drop]
  · rw [peekSecond?, behind.rest_eq, List.tail_drop, List.head?_drop]

/-! ### Runs that a test accepts -/

/-- The answers that a test gives to characters when it sees each of them once and in order. -/
def answers {State : Type} (test : State → Char → Bool × State) : State → Text → List Bool
  | _, [] => []
  | state, character :: rest =>
    (test state character).1 :: answers test (test state character).2 rest

/-- So many characters of a text are accepted, and the next one, if there is one, is not. -/
def IsLongestRun {State : Type} (test : State → Char → Bool × State) (state : State) (text : Text)
    (count : Nat) : Prop :=
  count ≤ text.length ∧ (∀ index < count, (answers test state text)[index]? = some true) ∧
    (count < text.length → (answers test state text)[count]? = some false)

theorem isLongestRun_acceptedCount {State : Type} (test : State → Char → Bool × State)
    (state : State) (text : Text) :
    IsLongestRun test state text (acceptedCount test state text) := by
  induction text generalizing state with
  | nil => exact ⟨Nat.le_refl 0, by simp [acceptedCount], by simp [acceptedCount]⟩
  | cons character rest inductionHypothesis =>
    refine ⟨acceptedCount_le test state _, ?_⟩
    rw [acceptedCount, answers]
    obtain ⟨accepted, later⟩ := test state character
    cases accepted with
    | false => exact ⟨by simp, fun _ => rfl⟩
    | true =>
      obtain ⟨-, accepts, rejects⟩ := inductionHypothesis later
      refine ⟨fun index inside => ?_, fun inside => ?_⟩
      · cases index with
        | zero => rfl
        | succ index => exact accepts index (Nat.lt_of_succ_lt_succ inside)
      · exact rejects (Nat.lt_of_succ_lt_succ inside)

end Place

/-- A place tells how far its text has been consumed and nothing else. However the places were
opened, copied and moved, a place behind `consumed` characters has the rest, the offset, the line,
the column and the characters ahead that the front of its text determines. From there on it is moved
over an expected character exactly if that comes next, and over the longest run that a test
accepts. -/
theorem place_tells_consumed {commands : List Command} {walker : Walker}
    (member : walker ∈ walkersAfter commands) :
    walker.place.Tells walker.source walker.consumed ∧
      (∀ expected, match walker.place.stepIf? expected with
        | some later => walker.source[walker.consumed]? = some expected ∧
            later.Tells walker.source (walker.consumed + 1)
        | none => walker.source[walker.consumed]? ≠ some expected) ∧
      ∀ {State : Type} (test : State → Char → Bool × State) (state : State),
        ∃ accepted, Place.IsLongestRun test state (walker.source.drop walker.consumed) accepted ∧
          (walker.place.skipAccepted test state).Tells walker.source
            (walker.consumed + accepted) := by
  have sound := Walker.sound_of_mem_walkersAfter member
  have tells := Place.IsBehind.tells sound
  refine ⟨tells, fun expected => ?_, fun test state => ?_⟩
  · rw [Place.stepIf?, tells.peek]
    by_cases found : walker.source[walker.consumed]? = some expected
    · rw [if_pos found]
      have next : walker.place.peek? = some expected := tells.peek.trans found
      rw [Place.step_eq_skip]
      exact ⟨found, (sound.skip (Place.peek?_eq_some next)).tells⟩
    · rw [if_neg found]
      exact found
  · refine ⟨Place.acceptedCount test state walker.place.rest, ?_, ?_⟩
    · rw [← tells.rest]
      exact Place.isLongestRun_acceptedCount test state _
    · exact (sound.skip (Place.acceptedCount_le test state _)).tells

/-- A test that accepts three characters is let loose on a copy, over a newline and characters of
several bytes; then the copy is moved over one more, which is the expected one. -/
theorem place_tells_consumed_behind_newline :
    let commands := [.start "é\n€x€".toList, .copy 0,
      .advance 1 (.skipAccepted (fun left _ => (left != 0, left - 1)) 3), .advance 1 (.stepIf 'x')]
    let place : Place := { before := "x€\né".toList, rest := ['€'], line := 2 }
    { source := "é\n€x€".toList, consumed := 4, place } ∈ walkersAfter commands ∧
      place.Tells "é\n€x€".toList 4 := by
  intro commands place
  have member : { source := "é\n€x€".toList, consumed := 4, place } ∈ walkersAfter commands := by
    decide
  exact ⟨member, (place_tells_consumed member).1⟩

end LoxFront
