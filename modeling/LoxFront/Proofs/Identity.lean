/-
This file proves that equality is identity of place. Two places are compared by their text and by
what is left of it, and the line is left out; since the line follows from how much has been passed,
places that compare equal are the same in every respect. A span is a place and as many characters
as lie up to its end. The tokens of one text start at different places, the end mark among them,
because each stands behind the one before it.
-/

import LoxFront.Proofs.Coverage
import LoxFront.Proofs.RoundTrip
import LoxFront.Proofs.Spans

namespace LoxFront

/-! ### Places -/

namespace Place.IsBehind

variable {first second : Place} {source other : Text} {fewer more : Nat}

/-- The line is left out of the comparison, but it follows. -/
theorem same_iff_eq (here : first.IsBehind source fewer) (there : second.IsBehind other more) :
    first.same second = true ↔ first = second := by
  constructor
  · intro same
    obtain ⟨rests, texts⟩ := Bool.and_eq_true_iff.mp same
    have rest := congrArg List.length (eq_of_beq rests)
    have text := eq_of_beq texts
    rw [here.tells.text, there.tells.text] at text
    subst text
    rw [here.length_rest, there.length_rest] at rest
    have inside := here.inside
    have insideThere := there.inside
    obtain rfl : fewer = more := by omega
    exact here.unique there
  · rintro rfl
    exact first.same_self

theorem eq_iff (here : first.IsBehind source fewer) (there : second.IsBehind other more) :
    first = second ↔ source = other ∧ first.offset = second.offset := by
  constructor
  · rintro rfl
    exact ⟨here.tells.text.symm.trans there.tells.text, rfl⟩
  · rintro ⟨rfl, offset⟩
    obtain rfl := (here.offset_eq_iff there).mp offset
    exact here.unique there

end Place.IsBehind

/-! ### Spans -/

namespace Span

theorem same_self (span : Span) : span.same span = true := by
  rw [same, beq_self_eq_true, span.start.same_self]
  rfl

section Between

variable {first last first' last' : Place} {source other source' other' : Text}
  {count stop count' stop' : Nat} {span span' : Span} (here : first.IsBehind source count)
  (ends : last.IsBehind other stop) (here' : first'.IsBehind source' count')
  (ends' : last'.IsBehind other' stop') (found : between? first last = some span)
  (found' : between? first' last' = some span')

include here here' found found'

theorem same_iff_eq : span.same span' = true ↔ span = span' := by
  constructor
  · intro same
    obtain ⟨lexemes, starts⟩ := Bool.and_eq_true_iff.mp same
    have start := (between?_eq_some found).2
    have start' := (between?_eq_some found').2
    rw [start, start', here.same_iff_eq here', ← start, ← start'] at starts
    obtain ⟨_, _⟩ := span
    obtain ⟨_, _⟩ := span'
    exact Span.mk.injEq .. ▸ ⟨starts, eq_of_beq lexemes⟩
  · rintro rfl
    exact span.same_self

include ends ends'

theorem eq_iff : span = span' ↔ source = source' ∧ span.start.offset = span'.start.offset ∧
    span.stop.offset = span'.stop.offset := by
  obtain ⟨sliced, start⟩ := between?_eq_some found
  obtain ⟨sliced', start'⟩ := between?_eq_some found'
  constructor
  · rintro rfl
    exact ⟨((here.eq_iff here').mp (start.symm.trans start')).1, rfl, rfl⟩
  · rintro ⟨sameText, starts, stops⟩
    rw [start, start'] at starts
    rw [stop_eq here ends found, stop_eq here' ends' found'] at stops
    have lastText : other = other' :=
      ((Place.source_eq here ends sliced).symm.trans sameText).trans
        (Place.source_eq here' ends' sliced')
    obtain rfl := (here.eq_iff here').mpr ⟨sameText, starts⟩
    obtain rfl := (ends.eq_iff ends').mpr ⟨lastText, stops⟩
    exact Option.some.inj (found.symm.trans found')

end Between

end Span

/-! ### Tokens -/

/-- Tokens come in the order of the text. -/
theorem pairwise_precedes_tokens (source : Text) :
    (tokenize source).1.Pairwise fun first second => Item.Precedes (.ok first) (.ok second) :=
  pairwise_precedes_filterMap .ok Item.token?_eq_some.mp source

/-- Only one token of a text starts at a place. -/
theorem index_eq_of_start_eq {source : Text} {index index' : Nat} {token token' : Token}
    (here : (tokenize source).1[index]? = some token)
    (there : (tokenize source).1[index']? = some token')
    (start : token.span.start = token'.span.start) : index = index' := by
  have apart {before after : Nat} {early late : Token} (less : before < after)
      (foundEarly : (tokenize source).1[before]? = some early)
      (foundLate : (tokenize source).1[after]? = some late)
      (start : early.span.start = late.span.start) : False := by
    obtain ⟨inside, rfl⟩ := List.getElem?_eq_some_iff.mp foundEarly
    obtain ⟨insideLate, rfl⟩ := List.getElem?_eq_some_iff.mp foundLate
    have precedes := List.pairwise_iff_getElem.mp (pairwise_precedes_tokens source) before after
      inside insideLate less
    simp only [Item.Precedes, Item.line, Item.column, Span.line, Span.column, start] at precedes
    omega
  rcases Nat.lt_trichotomy index index' with less | equal | greater
  · exact (apart less here there start).elim
  · exact equal
  · exact (apart greater there here start.symm).elim

theorem Token.same_self {token : Token} {text : Text} (fits : token.data.Fits text) :
    token.same token = true := by
  have data : token.data.same token.data = true := by
    unfold Data.same
    cases content : token.data with
    | number value =>
      rw [content] at fits
      obtain ⟨magnitude, rfl⟩ := fits
      simp [Data.carried?, Literal.same, Binary64.numericallyEqual]
    | string value => simp [Data.carried?, Literal.same]
    | symbol | keyword | identifier | endOfInput => simp [Data.carried?]
  rw [same, data, token.span.same_self]
  rfl

theorem Token.same_iff {source source' : Text} {index index' : Nat} {token token' : Token}
    (here : (tokenize source).1[index]? = some token)
    (there : (tokenize source').1[index']? = some token') :
    token.same token' = true ↔ source = source' ∧ index = index' := by
  constructor
  · intro same
    obtain ⟨-, spans⟩ := Bool.and_eq_true_iff.mp same
    obtain ⟨-, starts⟩ := Bool.and_eq_true_iff.mp spans
    obtain ⟨count, behind, -⟩ := Token.exists_isBehind (List.mem_of_getElem? here)
    obtain ⟨count', behind', -⟩ := Token.exists_isBehind (List.mem_of_getElem? there)
    have start := (behind.same_iff_eq behind').mp starts
    obtain ⟨rfl, -⟩ := (behind.eq_iff behind').mp start
    exact ⟨rfl, index_eq_of_start_eq here there start⟩
  · rintro ⟨rfl, rfl⟩
    obtain rfl := Option.some.inj (here.symm.trans there)
    exact same_self (fits_of_mem_tokenize (List.mem_of_getElem? here))

/-- Equality of places, spans and tokens is identity of place. Places, however they were reached,
compare equal if and only if they are in equal texts at equal offsets, and then they are at equal
lines and columns too; spans between such places, if and only if their texts and the offsets of
their starts and of their ends are equal; and tokens of texts, if and only if the texts are equal
and the tokens are at the same index. -/
theorem equality_is_identity_of_place :
    (∀ {commands : List Command} {first second : Walker}, first ∈ walkersAfter commands →
      second ∈ walkersAfter commands →
        (first.place.same second.place = true ↔
          first.source = second.source ∧ first.place.offset = second.place.offset) ∧
        (first.place.same second.place = true →
          first.place.line = second.place.line ∧ first.place.column = second.place.column)) ∧
      (∀ {commands : List Command} {first last first' last' : Walker} {span span' : Span},
        first ∈ walkersAfter commands → last ∈ walkersAfter commands →
        first' ∈ walkersAfter commands → last' ∈ walkersAfter commands →
        Span.between? first.place last.place = some span →
        Span.between? first'.place last'.place = some span' →
          (span.same span' = true ↔ first.source = first'.source ∧
            span.start.offset = span'.start.offset ∧ span.stop.offset = span'.stop.offset)) ∧
      ∀ {source source' : Text} {index index' : Nat} {token token' : Token},
        (tokenize source).1[index]? = some token → (tokenize source').1[index']? = some token' →
          (token.same token' = true ↔ source = source' ∧ index = index') := by
  refine ⟨fun here there => ?_, fun here stops here' stops' found found' => ?_, Token.same_iff⟩
  · have soundHere := Walker.sound_of_mem_walkersAfter here
    have soundThere := Walker.sound_of_mem_walkersAfter there
    rw [Place.IsBehind.same_iff_eq soundHere soundThere]
    refine ⟨Place.IsBehind.eq_iff soundHere soundThere, fun equal => ?_⟩
    rw [equal]
    exact ⟨rfl, rfl⟩
  · have soundHere := Walker.sound_of_mem_walkersAfter here
    have soundStops := Walker.sound_of_mem_walkersAfter stops
    have soundHere' := Walker.sound_of_mem_walkersAfter here'
    have soundStops' := Walker.sound_of_mem_walkersAfter stops'
    rw [Span.same_iff_eq soundHere soundHere' found found']
    exact Span.eq_iff soundHere soundStops soundHere' soundStops' found found'

/-- Two places at one offset that were reached in different ways, and two tokens that say the same
at different places of a text. -/
theorem equality_is_identity_of_place_of_ones :
    let commands := [.start "é\n1 1".toList, .copy 0, .advance 0 (.skip 2),
      .advance 1 (.skipAccepted (fun _ character => (character != '1', ())) ())]
    let place : Place := { before := "\né".toList, rest := "1 1".toList, line := 2 }
    let token (start : Place) : Token := {
      data := .number (.finite false { code := 1023 * 2 ^ 52, code_lt := by decide })
      span := { start, lexeme := ['1'] } }
    (walkersAfter commands).map Walker.place = [place, place] ∧ place.same place = true ∧
      (tokenize "é\n1 1".toList).1.take 2 = [token place, token (place.skip 2)] ∧
      (token place).same (token (place.skip 2)) = false := by
  intro commands place token
  have walked : walkersAfter commands =
      [{ source := "é\n1 1".toList, consumed := 2, place },
        { source := "é\n1 1".toList, consumed := 2, place }] := by decide
  have tokens : (tokenize "é\n1 1".toList).1.take 2 = [token place, token (place.skip 2)] := by
    decide +kernel
  have first : (tokenize "é\n1 1".toList).1[0]? = some (token place) := by decide +kernel
  have second : (tokenize "é\n1 1".toList).1[1]? = some (token (place.skip 2)) := by decide +kernel
  have member : { source := "é\n1 1".toList, consumed := 2, place } ∈ walkersAfter commands := by
    rw [walked]
    exact List.mem_cons_self
  obtain ⟨places, -, ones⟩ := equality_is_identity_of_place
  refine ⟨by rw [walked]; rfl, (places member member).1.mpr ⟨rfl, rfl⟩, tokens, ?_⟩
  rw [← Bool.not_eq_true, ones first second]
  exact fun both => absurd both.2 (by decide)

end LoxFront
