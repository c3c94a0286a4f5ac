/-
This file slices texts by their bytes. An offset counts bytes of the UTF-8 encoding, and an offset
behind the end or inside a character is a fault, which is the absence of a result. Elsewhere in
the library a slice is a list of characters and cannot be at fault. Here it is shown to be the
same: the offset of a place lies between two characters, whatever the characters are, so a slice
between two places of a text is at fault only if the second place comes first.
-/

import LoxFront.Span
import Mathlib.Data.Nat.Init

namespace LoxFront

namespace Text

/-- The text cut behind a number of bytes. Behind its end and inside a character there is no place
to cut it. -/
def splitAtByte? : Text → Nat → Option (Text × Text)
  | text, 0 => some ([], text)
  | [], _ + 1 => none
  | first :: rest, count + 1 =>
    if first.utf8Size ≤ count + 1 then
      (splitAtByte? rest (count + 1 - first.utf8Size)).map fun (front, back) =>
        (first :: front, back)
    else none

/-- The part of the text from one byte offset up to another. -/
def slice? (text : Text) (start stop : Nat) : Option Text := do
  let (front, _) ← text.splitAtByte? stop
  let (_, part) ← front.splitAtByte? start
  some part

/-- The byte offset behind the last newline of the text. -/
def lineStart (text : Text) : Nat :=
  match text.reverse.dropWhile (· ≠ '\n') with
  | [] => 0
  | _ :: passed => utf8Size passed + 1

theorem utf8Size_pos {text : Text} (nonempty : text ≠ []) : 0 < text.utf8Size := by
  obtain ⟨first, rest, rfl⟩ := List.exists_cons_of_ne_nil nonempty
  have positive := first.utf8Size_pos
  rw [utf8Size_cons]
  omega

theorem splitAtByte?_zero (text : Text) : text.splitAtByte? 0 = some ([], text) := by
  cases text <;> rfl

theorem splitAtByte?_append (front back : Text) :
    splitAtByte? (front ++ back) front.utf8Size = some (front, back) := by
  induction front with
  | nil => exact splitAtByte?_zero back
  | cons first rest inductionHypothesis =>
    have positive := first.utf8Size_pos
    rw [utf8Size_cons]
    obtain ⟨size, sum⟩ : ∃ size, first.utf8Size + utf8Size rest = size + 1 :=
      Nat.exists_eq_succ_of_ne_zero (by omega)
    have behind : size + 1 - first.utf8Size = utf8Size rest := by omega
    rw [sum, List.cons_append, splitAtByte?, if_pos (by omega), behind, inductionHypothesis]
    rfl

theorem splitAtByte?_eq_some {text front back : Text} {count : Nat} :
    text.splitAtByte? count = some (front, back) ↔
      text = front ++ back ∧ front.utf8Size = count := by
  constructor
  · intro cut
    induction text generalizing count front with
    | nil =>
      cases count with
      | zero =>
        cases cut
        exact ⟨rfl, rfl⟩
      | succ count => cases cut
    | cons first rest inductionHypothesis =>
      cases count with
      | zero =>
        cases cut
        exact ⟨rfl, rfl⟩
      | succ count =>
        rw [splitAtByte?] at cut
        split at cut
        · next fits =>
          obtain ⟨⟨inner, behind⟩, cutInner, equal⟩ := Option.map_eq_some_iff.mp cut
          cases equal
          obtain ⟨split, size⟩ := inductionHypothesis cutInner
          exact ⟨congrArg (first :: ·) split, by rw [utf8Size_cons, size]; omega⟩
        · cases cut
  · rintro ⟨rfl, rfl⟩
    exact splitAtByte?_append front back

/-- A slice is a part of the text that starts and ends with whole characters, at the two offsets. -/
theorem slice?_eq_some {text part : Text} {start stop : Nat} :
    text.slice? start stop = some part ↔
      ∃ front back, text = front ++ part ++ back ∧ front.utf8Size = start ∧
        utf8Size (front ++ part) = stop := by
  constructor
  · intro sliced
    obtain ⟨⟨upTo, back⟩, cutStop, rest⟩ := Option.bind_eq_some_iff.mp sliced
    obtain ⟨⟨front, part⟩, cutStart, equal⟩ := Option.bind_eq_some_iff.mp rest
    cases equal
    obtain ⟨rfl, size⟩ := splitAtByte?_eq_some.mp cutStop
    obtain ⟨rfl, sizeFront⟩ := splitAtByte?_eq_some.mp cutStart
    exact ⟨front, back, rfl, sizeFront, size⟩
  · rintro ⟨front, back, rfl, rfl, rfl⟩
    rw [slice?, splitAtByte?_append]
    show (splitAtByte? (front ++ part) front.utf8Size).bind _ = some part
    rw [splitAtByte?_append]
    rfl

/-- The last line of a text is a slice of it. -/
theorem slice?_lineStart (passed : Text) :
    passed.slice? passed.lineStart passed.utf8Size =
      some (passed.reverse.takeWhile (· ≠ '\n')).reverse := by
  have whole := List.takeWhile_append_dropWhile (p := (· ≠ '\n')) (l := passed.reverse)
  rw [slice?_eq_some]
  cases older : passed.reverse.dropWhile (· ≠ '\n') with
  | nil =>
    have line : (passed.reverse.takeWhile (· ≠ '\n')).reverse = passed := by
      rw [older, List.append_nil] at whole
      rw [whole, List.reverse_reverse]
    rw [line]
    refine ⟨[], [], (List.append_nil passed).symm, ?_, rfl⟩
    rw [lineStart, older]
    rfl
  | cons newline lines =>
    obtain rfl : newline = '\n' := by
      have stopped := List.head?_dropWhile_not (· ≠ '\n') passed.reverse
      rw [older] at stopped
      simpa using stopped
    have split : passed =
        (lines.reverse ++ ['\n']) ++ (passed.reverse.takeWhile (· ≠ '\n')).reverse := by
      rw [older] at whole
      have reversed := congrArg List.reverse whole
      simpa using reversed.symm
    refine ⟨lines.reverse ++ ['\n'], [], ?_, ?_, ?_⟩
    · rw [← split, List.append_nil]
    · rw [utf8Size_append, utf8Size_reverse, lineStart, older]
      rfl
    · rw [← split]

end Text

namespace Place

/-- The number of bytes up to the place, counted as the bytes of the whole text without those that
are still to come. -/
def offset? (place : Place) : Option Nat :=
  if place.rest.utf8Size ≤ place.text.utf8Size then
    some (place.text.utf8Size - place.rest.utf8Size)
  else none

/-- The slice from one place up to another. Places in different texts are a fault. -/
def sliceUntil? (start stop : Place) : Option Text :=
  if start.text = stop.text then do
    let first ← start.offset?
    let last ← stop.offset?
    start.text.slice? first last
  else none

/-- The column of the place, counted in the slice from the start of its line. -/
def column? (place : Place) : Option Nat := do
  let offset ← place.offset?
  let passed ← place.text.slice? 0 offset
  let line ← passed.slice? passed.lineStart passed.utf8Size
  some (line.length + 1)

/-- The place a number of characters further on. To pass the end of the text is a fault. -/
def skip? : Place → Nat → Option Place
  | place, 0 => some place
  | place, count + 1 => if place.rest.isEmpty then none else place.step.skip? count

theorem offset?_eq (place : Place) : place.offset? = some place.offset := by
  have sum : place.text.utf8Size = place.offset + place.rest.utf8Size := by
    rw [text, Text.utf8Size_append, Text.utf8Size_reverse, offset]
  rw [offset?, sum, if_pos (Nat.le_add_left _ _), Nat.add_sub_cancel]

/-- Of two places in one text, the one at the greater offset is behind the other. -/
theorem exists_between {start stop : Place} (sameText : start.text = stop.text)
    (le : start.offset ≤ stop.offset) :
    ∃ middle, stop.before.reverse = start.before.reverse ++ middle ∧
      start.rest = middle ++ stop.rest := by
  rcases List.append_eq_append_iff.mp sameText with
    ⟨middle, before, rest⟩ | ⟨middle, before, rest⟩
  · exact ⟨middle, before, rest⟩
  -- Otherwise the first place is the one behind, but by no bytes and so by no characters.
  · have size : start.offset = stop.offset + Text.utf8Size middle := by
      rw [offset, ← Text.utf8Size_reverse, before, Text.utf8Size_append, Text.utf8Size_reverse,
        offset]
    obtain rfl : middle = [] := by
      cases middle with
      | nil => rfl
      | cons first later =>
        have positive := Text.utf8Size_pos (List.cons_ne_nil first later)
        omega
    exact ⟨[], by rw [before]; simp, by rw [rest]; rfl⟩

/-- The slice between two places is the text between them, and a fault where there is none. -/
theorem sliceUntil?_eq (start stop : Place) : start.sliceUntil? stop = start.textUntil? stop := by
  unfold sliceUntil? textUntil?
  by_cases sameText : start.text = stop.text
  · rw [if_pos sameText, offset?_eq, offset?_eq]
    show start.text.slice? start.offset stop.offset = _
    by_cases le : start.offset ≤ stop.offset
    · obtain ⟨middle, before, rest⟩ := exists_between sameText le
      have length : stop.before.length - start.before.length = middle.length := by
        have total := congrArg List.length before
        rw [List.length_append, List.length_reverse, List.length_reverse] at total
        omega
      rw [if_pos ⟨sameText, le⟩, length, rest, List.take_left, Text.slice?_eq_some]
      refine ⟨start.before.reverse, stop.rest, ?_, Text.utf8Size_reverse _, ?_⟩
      · rw [text, rest, List.append_assoc]
      · rw [← before, Text.utf8Size_reverse, offset]
    · rw [if_neg fun both => le both.2, Option.eq_none_iff_forall_ne_some]
      intro part sliced
      obtain ⟨front, back, -, size, sum⟩ := Text.slice?_eq_some.mp sliced
      rw [Text.utf8Size_append] at sum
      omega
  · rw [if_neg sameText, if_neg fun both => sameText both.1]

/-- Up to a place further on there is a slice, the characters that are passed on the way. -/
theorem sliceUntil?_skip (start : Place) (count : Nat) :
    start.sliceUntil? (start.skip count) = some (start.rest.take count) := by
  have before := before_skip start count
  have le : start.offset ≤ (start.skip count).offset := by
    rw [offset, offset, before, Text.utf8Size_append]
    exact Nat.le_add_left _ _
  rw [sliceUntil?_eq, textUntil?, if_pos ⟨(text_skip start count).symm, le⟩, before,
    List.length_append, List.length_reverse, Nat.add_sub_cancel, List.length_take]
  congr 1
  rw [← List.take_take, List.take_length]

/-- The column is counted without a fault, and it is the one that the place has. -/
theorem column?_eq (place : Place) : place.column? = some place.column := by
  have passed : place.text.slice? 0 place.offset = some place.before.reverse :=
    Text.slice?_eq_some.mpr ⟨[], place.rest, rfl, rfl, Text.utf8Size_reverse place.before⟩
  rw [column?, offset?_eq]
  show (place.text.slice? 0 place.offset).bind _ = _
  rw [passed]
  show (Text.slice? place.before.reverse _ _).bind _ = _
  rw [Text.slice?_lineStart, List.reverse_reverse, Option.bind_some, List.length_reverse, column]

theorem skip?_eq {place : Place} {count : Nat} (enough : count ≤ place.rest.length) :
    place.skip? count = some (place.skip count) := by
  induction count generalizing place with
  | zero => rfl
  | succ count inductionHypothesis =>
    cases rest : place.rest with
    | nil =>
      rw [rest] at enough
      cases enough
    | cons first later =>
      have stepped : place.step.rest = later := by rw [step, rest]
      rw [rest, List.length_cons] at enough
      rw [skip?, rest, skip_succ]
      exact inductionHypothesis (by rw [stepped]; omega)

end Place

namespace Span

/-- The place behind the span, reached character by character. -/
def stop? (span : Span) : Option Place := span.start.skip? span.lexeme.length

/-- The span lies between two places of a text, as every span does that can be constructed. -/
def Constructed (span : Span) : Prop :=
  ∃ start stop, between? start stop = some span

theorem constructed_skip (start : Place) (count : Nat) :
    Constructed { start, lexeme := start.rest.take count } := by
  refine ⟨start, start.skip count, ?_⟩
  rw [between?, ← Place.sliceUntil?_eq, Place.sliceUntil?_skip]
  rfl

/-- Behind a span that could be constructed the text has not ended too early. -/
theorem Constructed.stop?_eq {span : Span} (constructed : span.Constructed) :
    span.stop? = some span.stop := by
  obtain ⟨start, stop, built⟩ := constructed
  obtain ⟨lexeme, found, rfl⟩ := Option.map_eq_some_iff.mp built
  refine Place.skip?_eq ?_
  rw [Place.textUntil?] at found
  split at found
  · cases found
    rw [List.length_take]
    exact Nat.min_le_right _ _
  · cases found

end Span

end LoxFront
