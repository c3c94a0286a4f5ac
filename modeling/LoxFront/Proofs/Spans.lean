/-
This file proves slices and spans exact and reversible. Two places in one text are told apart by
how many characters stand before them, and the offset in bytes grows with that number. So a slice
between two places is there unless the texts differ or the offsets are the wrong way round; it is
what a walk from the first place to the second reads, slices that meet make up a longer one, and
the walk over the characters of a span ends at the place the span was cut up to.
-/

import LoxFront.Proofs.Walks
import LoxFront.Tokenizer

namespace LoxFront

namespace Text

theorem utf8Size_take_lt {text : Text} {fewer more : Nat} (less : fewer < more)
    (inside : more ≤ text.length) : utf8Size (text.take fewer) < utf8Size (text.take more) := by
  obtain ⟨between, rfl⟩ := Nat.exists_eq_add_of_lt less
  have nonempty : (text.drop fewer).take (between + 1) ≠ [] := by
    rw [← List.length_pos_iff, List.length_take, List.length_drop]
    omega
  have positive := utf8Size_pos nonempty
  rw [Nat.add_assoc, List.take_add, utf8Size_append]
  omega

end Text

namespace Place

/-- What is read from a place on when it is moved step by step until it is at an offset, and the
place where that is. -/
inductive ReadsUpTo (offset : Nat) : Place → Text → Place → Prop
  | reached {place : Place} (there : place.offset = offset) : ReadsUpTo offset place [] place
  | step {place last : Place} {character : Char} {text : Text} (short : place.offset < offset)
      (next : place.peek? = some character) (later : ReadsUpTo offset place.step text last) :
      ReadsUpTo offset place (character :: text) last

/-! ### Two places in one text -/

namespace IsBehind

variable {first second : Place} {source : Text} {fewer more : Nat}

theorem unique (here : first.IsBehind source fewer) (there : second.IsBehind source fewer) :
    first = second :=
  here.eq_between.trans there.eq_between.symm

theorem offset_lt (here : first.IsBehind source fewer) (there : second.IsBehind source more)
    (less : fewer < more) : first.offset < second.offset := by
  rw [here.tells.offset, there.tells.offset]
  exact Text.utf8Size_take_lt less there.inside

theorem offset_le_iff (here : first.IsBehind source fewer) (there : second.IsBehind source more) :
    first.offset ≤ second.offset ↔ fewer ≤ more := by
  constructor
  · intro le
    by_contra greater
    have less := there.offset_lt here (Nat.lt_of_not_le greater)
    omega
  · intro le
    rcases Nat.lt_or_eq_of_le le with less | rfl
    · exact Nat.le_of_lt (here.offset_lt there less)
    · rw [here.unique there]

theorem offset_eq_iff (here : first.IsBehind source fewer) (there : second.IsBehind source more) :
    first.offset = second.offset ↔ fewer = more := by
  rw [Nat.eq_iff_le_and_ge, Nat.eq_iff_le_and_ge, here.offset_le_iff there,
    there.offset_le_iff here]

theorem sub_le_length_rest (here : first.IsBehind source fewer)
    (there : second.IsBehind source more) : more - fewer ≤ first.rest.length := by
  have inside := there.inside
  rw [here.length_rest]
  omega

/-- The second place is reached from the first one. -/
theorem skip_eq (here : first.IsBehind source fewer) (there : second.IsBehind source more)
    (le : fewer ≤ more) : first.skip (more - fewer) = second := by
  have moved := here.skip (here.sub_le_length_rest there)
  rw [Nat.add_sub_cancel' le] at moved
  exact moved.unique there

end IsBehind

/-! ### Slices -/

theorem textUntil?_eq {first second : Place} {source other : Text} {fewer more : Nat}
    (here : first.IsBehind source fewer) (there : second.IsBehind other more) :
    first.textUntil? second =
      if source = other ∧ fewer ≤ more then some ((source.drop fewer).take (more - fewer))
      else none := by
  have counted {place : Place} {text : Text} {count : Nat} (behind : place.IsBehind text count) :
      place.before.length = count := by
    rw [behind.eq_between, between, List.length_reverse, List.length_take]
    exact Nat.min_eq_left behind.inside
  rw [textUntil?, here.tells.text, there.tells.text, here.tells.rest, counted here, counted there]
  by_cases same : source = other
  · subst same
    simp only [here.offset_le_iff there]
  · rw [if_neg fun both => same both.1, if_neg fun both => same both.1]

theorem textUntil?_eq_none_iff {first second : Place} {source other : Text} {fewer more : Nat}
    (here : first.IsBehind source fewer) (there : second.IsBehind other more) :
    first.textUntil? second = none ↔ source ≠ other ∨ second.offset < first.offset := by
  rw [textUntil?, here.tells.text, there.tells.text, ite_eq_right_iff]
  simp only [reduceCtorEq, imp_false, not_and_or, Nat.not_le]

theorem source_eq {first second : Place} {source other : Text} {fewer more : Nat}
    (here : first.IsBehind source fewer) (there : second.IsBehind other more) {slice : Text}
    (found : first.textUntil? second = some slice) : source = other := by
  rw [textUntil?_eq here there, Option.ite_none_right_eq_some] at found
  exact found.1.1

/-- Stepping reads what is skipped, up to the offset behind it. -/
theorem readsUpTo_skip {place : Place} {source : Text} {count more : Nat}
    (behind : place.IsBehind source count) (enough : more ≤ place.rest.length) :
    ReadsUpTo (place.skip more).offset place (place.rest.take more) (place.skip more) := by
  induction more generalizing place count with
  | zero => exact .reached rfl
  | succ more inductionHypothesis =>
    cases rest : place.rest with
    | nil =>
      rw [rest] at enough
      cases enough
    | cons character later =>
      have next : place.peek? = some character := by rw [peek?, rest, List.head?_cons]
      have short := behind.offset_lt (behind.skip enough) (by omega)
      have stepped : place.step.IsBehind source (count + 1) := by
        rw [step_eq_skip]
        exact behind.skip (peek?_eq_some next)
      have restStep : place.step.rest = later := by rw [step, rest]
      rw [rest, List.length_cons] at enough
      have reads := inductionHypothesis stepped (by rw [restStep]; omega)
      rw [← skip_succ, restStep] at reads
      exact .step short next reads

theorem ReadsUpTo.unique {offset : Nat} {place last last' : Place} {text text' : Text}
    (reads : ReadsUpTo offset place text last) (other : ReadsUpTo offset place text' last') :
    text = text' ∧ last = last' := by
  induction reads generalizing text' with
  | reached there =>
    cases other with
    | reached => exact ⟨rfl, rfl⟩
    | step short => exact absurd there (Nat.ne_of_lt short)
  | step short next _ inductionHypothesis =>
    cases other with
    | reached there => exact absurd there (Nat.ne_of_lt short)
    | step _ next' later =>
      obtain rfl := Option.some.inj (next.symm.trans next')
      obtain ⟨rfl, rfl⟩ := inductionHypothesis later
      exact ⟨rfl, rfl⟩

theorem ReadsUpTo.text_eq {offset : Nat} {place last : Place} {text : Text}
    (reads : ReadsUpTo offset place text last) :
    place.text = last.text ∧ place.offset ≤ offset ∧ last.offset = offset := by
  induction reads with
  | reached there => exact ⟨rfl, Nat.le_of_eq there, there⟩
  | step short _ _ inductionHypothesis =>
    obtain ⟨same, -, there⟩ := inductionHypothesis
    rw [text_step] at same
    exact ⟨same, Nat.le_of_lt short, there⟩

/-- A slice is what is read on the way. -/
theorem textUntil?_eq_some_iff {first second : Place} {source other : Text} {fewer more : Nat}
    (here : first.IsBehind source fewer) (there : second.IsBehind other more) {slice : Text} :
    first.textUntil? second = some slice ↔ ReadsUpTo second.offset first slice second := by
  have reads {slice : Text} (found : first.textUntil? second = some slice) :
      ReadsUpTo second.offset first slice second := by
    rw [textUntil?_eq here there] at found
    split at found
    · next both =>
      obtain ⟨rfl, le⟩ := both
      have walked := readsUpTo_skip here (here.sub_le_length_rest there)
      rw [here.skip_eq there le, here.rest_eq] at walked
      exact Option.some.inj found ▸ walked
    · cases found
  refine ⟨reads, fun walked => ?_⟩
  obtain ⟨same, le, -⟩ := walked.text_eq
  cases found : first.textUntil? second with
  | none =>
    rw [textUntil?, if_pos ⟨same, le⟩] at found
    cases found
  | some sliced => rw [((reads found).unique walked).1]

theorem textUntil?_append {first second third : Place} {source other another : Text}
    {fewer more most : Nat} (here : first.IsBehind source fewer)
    (there : second.IsBehind other more) (further : third.IsBehind another most)
    {slice later : Text} (found : first.textUntil? second = some slice)
    (foundLater : second.textUntil? third = some later) :
    first.textUntil? third = some (slice ++ later) := by
  rw [textUntil?_eq here there, Option.ite_none_right_eq_some] at found
  rw [textUntil?_eq there further, Option.ite_none_right_eq_some] at foundLater
  obtain ⟨⟨rfl, le⟩, equal⟩ := found
  obtain ⟨⟨rfl, leLater⟩, equalLater⟩ := foundLater
  obtain rfl := Option.some.inj equal
  obtain rfl := Option.some.inj equalLater
  have count : most - fewer = (more - fewer) + (most - more) := by omega
  have reached : fewer + (more - fewer) = more := Nat.add_sub_cancel' le
  rw [textUntil?_eq here further, if_pos ⟨rfl, Nat.le_trans le leLater⟩, count, List.take_add,
    List.drop_drop, reached]

end Place

/-! ### Spans -/

namespace Span

variable {first second : Place} {source other : Text} {fewer more : Nat} {span : Span}

theorem between?_eq_some (found : between? first second = some span) :
    first.textUntil? second = some span.lexeme ∧ span.start = first := by
  obtain ⟨lexeme, sliced, rfl⟩ := Option.map_eq_some_iff.mp found
  exact ⟨sliced, rfl⟩

/-- The end of a span is the place it was cut up to. -/
theorem stop_eq (here : first.IsBehind source fewer) (there : second.IsBehind other more)
    (found : between? first second = some span) : span.stop = second := by
  obtain ⟨sliced, start⟩ := between?_eq_some found
  rw [Place.textUntil?_eq here there, Option.ite_none_right_eq_some] at sliced
  obtain ⟨⟨rfl, le⟩, equal⟩ := sliced
  have length : span.lexeme.length = more - fewer := by
    have inside := there.inside
    rw [← Option.some.inj equal, List.length_take, List.length_drop]
    omega
  rw [stop, start, length, here.skip_eq there le]

end Span

/-! ### Spans of tokens -/

/-- Items start at places of the text that is read. -/
theorem Tokenizer.exists_isBehind_of_mem_take {tokenizer : Tokenizer} {source : Text}
    {passed count : Nat} (behind : tokenizer.place.IsBehind source passed) {item : Item}
    (member : item ∈ tokenizer.take count) :
    ∃ start further, Place.IsBehind start source further ∧
      item = (Lexeme.front start.rest).itemAt start := by
  induction count generalizing tokenizer passed with
  | zero => cases member
  | succ count inductionHypothesis =>
    have starts := behind.lead (.skip (Text.leadingTrivia tokenizer.place.rest).length)
    rw [take, next?] at member
    by_cases finished : tokenizer.finished = true
    · rw [if_pos finished] at member
      cases member
    · rw [if_neg finished] at member
      rcases List.mem_cons.mp member with first | later
      · exact ⟨_, _, starts, first⟩
      · exact inductionHypothesis (starts.lead (.skip _)) later

/-- A token starts at a place of its text and covers the lexeme there. -/
theorem Token.exists_isBehind {source : Text} {token : Token}
    (member : token ∈ (tokenize source).1) :
    ∃ count, token.span.start.IsBehind source count ∧
      token.lexeme = (Lexeme.front token.span.start.rest).text := by
  obtain ⟨item, itemMember, isToken⟩ := List.mem_filterMap.mp member
  obtain ⟨start, count, behind, rfl⟩ :=
    Tokenizer.exists_isBehind_of_mem_take (Place.isBehind_ofText source) itemMember
  rw [Lexeme.itemAt] at isToken
  cases content : (Lexeme.front start.rest).content with
  | error cause =>
    rw [content] at isToken
    cases isToken
  | ok data =>
    rw [content] at isToken
    obtain rfl := Option.some.inj isToken
    exact ⟨count, behind, rfl⟩

/-! ### Exactness -/

theorem Place.same_self (place : Place) : place.same place = true := by
  rw [same, beq_self_eq_true, beq_self_eq_true]
  rfl

/-- Slices and spans are exact and reversible. Between two places, however they were reached, there
is a slice and a span unless the places are in different texts or the second has the smaller
offset. The slice is what stepping reads from the first place up to the offset of the second, and
slices that meet add up. The end of the span is the second place again, and its line and column are
those of the first. -/
theorem slices_exact_and_reversible {commands : List Command} {first second third : Walker}
    (here : first ∈ walkersAfter commands) (there : second ∈ walkersAfter commands)
    (further : third ∈ walkersAfter commands) :
    (first.place.sliceUntil? second.place = none ↔
        first.source ≠ second.source ∨ second.place.offset < first.place.offset) ∧
      (Span.between? first.place second.place = none ↔
        first.source ≠ second.source ∨ second.place.offset < first.place.offset) ∧
      (∀ slice, first.place.sliceUntil? second.place = some slice ↔
        Place.ReadsUpTo second.place.offset first.place slice second.place) ∧
      (∀ slice later, first.place.sliceUntil? second.place = some slice →
        second.place.sliceUntil? third.place = some later →
          first.place.sliceUntil? third.place = some (slice ++ later)) ∧
      ∀ span, Span.between? first.place second.place = some span →
        first.place.sliceUntil? second.place = some span.lexeme ∧
          span.stop.same second.place = true ∧ span.stop.offset = second.place.offset ∧
          span.stop.line = second.place.line ∧ span.stop.column = second.place.column ∧
          span.line = first.place.line ∧ span.column = first.place.column := by
  have soundHere := Walker.sound_of_mem_walkersAfter here
  have soundThere := Walker.sound_of_mem_walkersAfter there
  have soundFurther := Walker.sound_of_mem_walkersAfter further
  simp only [Place.sliceUntil?_eq]
  refine ⟨Place.textUntil?_eq_none_iff soundHere soundThere, ?_,
    fun slice => Place.textUntil?_eq_some_iff soundHere soundThere,
    fun slice later => Place.textUntil?_append soundHere soundThere soundFurther, ?_⟩
  · rw [Span.between?, Option.map_eq_none_iff]
    exact Place.textUntil?_eq_none_iff soundHere soundThere
  · intro span found
    obtain ⟨sliced, start⟩ := Span.between?_eq_some found
    rw [Span.stop_eq soundHere soundThere found, Span.line, Span.column, start]
    exact ⟨sliced, second.place.same_self, rfl, rfl, rfl, rfl, rfl⟩

/-- Three places around a newline and characters of several bytes. The two slices between neighbours
make up the one between the outer places, and there is none the other way round. -/
theorem slices_exact_and_reversible_over_newline :
    let commands := [.start "é\n€x".toList, .copy 0, .advance 1 (.skip 1), .copy 1,
      .advance 2 (.skipAccepted (fun _ character => (character != 'x', ())) ())]
    let first : Place := .ofText "é\n€x".toList
    let second : Place := { before := ['é'], rest := "\n€x".toList }
    let third : Place := { before := "€\né".toList, rest := ['x'], line := 2 }
    (walkersAfter commands).map Walker.place = [first, second, third] ∧
      first.sliceUntil? second = some ['é'] ∧ second.sliceUntil? third = some "\n€".toList ∧
      first.sliceUntil? third = some "é\n€".toList ∧ third.sliceUntil? second = none := by
  intro commands first second third
  have walked : walkersAfter commands =
      [{ source := "é\n€x".toList, consumed := 0, place := first },
        { source := "é\n€x".toList, consumed := 1, place := second },
        { source := "é\n€x".toList, consumed := 3, place := third }] := by decide
  have here : first.sliceUntil? second = some ['é'] := by decide
  have there : second.sliceUntil? third = some "\n€".toList := by decide
  have atFirst : ⟨"é\n€x".toList, 0, first⟩ ∈ walkersAfter commands := by simp [walked]
  have atSecond : ⟨"é\n€x".toList, 1, second⟩ ∈ walkersAfter commands := by simp [walked]
  have atThird : ⟨"é\n€x".toList, 3, third⟩ ∈ walkersAfter commands := by simp [walked]
  obtain ⟨-, -, -, adds, -⟩ := slices_exact_and_reversible atFirst atSecond atThird
  obtain ⟨backward, -⟩ := slices_exact_and_reversible atThird atSecond atSecond
  exact ⟨by rw [walked]; rfl, here, there, adds _ _ here there,
    backward.mpr (Or.inr (by decide))⟩

end LoxFront
