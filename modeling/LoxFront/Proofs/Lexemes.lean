/-
This file takes the reading of one lexeme apart. A text that starts an item starts with a string, a
number, a word, a symbol or a character that starts nothing, and for each of these one lemma says
what is read, whatever follows, as long as what follows does not go on with it. The case analysis
at the end turns this round: every text is of one of these forms, so a fact about the lexeme at the
front of a text is proved form by form.
-/

import LoxFront.Lexeme
import LoxFront.Proofs.Runs

namespace LoxFront

open Text (Stops)

/-! ### Numbers -/

namespace Numeral

/-- A numeral that starts with a digit and has nothing but digits on both sides of the point. -/
structure Proper (numeral : Numeral) : Prop where
  nonempty : numeral.whole ≠ []
  whole : ∀ character ∈ numeral.whole, character.isDigit = true
  fraction : ∀ character ∈ numeral.fraction, character.isDigit = true

/-- The text behind a numeral does not go on with it: neither by a digit, nor, where there is no
point yet, by a point and a digit. -/
def Ends (numeral : Numeral) (tail : Text) : Prop :=
  Stops Char.isDigit tail ∧
    (numeral.fraction = [] → ∀ rest, tail = '.' :: rest → Stops Char.isDigit rest)

theorem text_of_fraction_nil {numeral : Numeral} (whole : numeral.fraction = []) :
    numeral.text = numeral.whole := by
  rw [text, whole]
  rfl

theorem text_of_fraction_ne_nil {numeral : Numeral} (split : numeral.fraction ≠ []) :
    numeral.text = numeral.whole ++ '.' :: numeral.fraction := by
  rw [text, if_neg (by simpa using split)]

theorem ends_nil (numeral : Numeral) : numeral.Ends [] :=
  ⟨Text.stops_nil _, fun _ _ empty => by cases empty⟩

/-- A numeral is read back from its text. -/
theorem front_text {numeral : Numeral} (proper : numeral.Proper) {tail : Text}
    (ends : numeral.Ends tail) : front (numeral.text ++ tail) = numeral := by
  obtain ⟨whole, fraction⟩ := numeral
  cases fraction with
  | nil =>
    rw [text_of_fraction_nil rfl, front]
    congr 1
    · exact Text.takeWhile_run proper.whole ends.1
    · rw [Text.dropWhile_run proper.whole ends.1]
      split
      · next rest => exact Text.takeWhile_of_stops (ends.2 rfl rest rfl)
      · rfl
  | cons first others =>
    have point : Stops Char.isDigit ('.' :: (first :: others ++ tail)) := Text.stops_cons rfl
    rw [text_of_fraction_ne_nil (List.cons_ne_nil first others), List.append_assoc,
      List.cons_append, front]
    congr 1
    · exact Text.takeWhile_run proper.whole point
    · rw [Text.dropWhile_run proper.whole point]
      exact Text.takeWhile_run proper.fraction ends.1

theorem text_injective {first second : Numeral} (proper : first.Proper)
    (properSecond : second.Proper) (same : first.text = second.text) : first = second := by
  have read := front_text proper first.ends_nil
  rw [same, front_text properSecond second.ends_nil] at read
  exact read.symm

theorem length_whole_le (numeral : Numeral) : numeral.whole.length ≤ numeral.text.length := by
  unfold text
  split
  · exact Nat.le_refl _
  · rw [List.length_append]
    omega

/-- What is read at the front of a text is no shorter than any numeral there. -/
theorem length_le_front {numeral : Numeral} (proper : numeral.Proper) {text : Text}
    (isFront : numeral.text <+: text) : numeral.text.length ≤ (front text).text.length := by
  obtain ⟨tail, rfl⟩ := isFront
  by_cases whole : numeral.fraction = []
  · rw [text_of_fraction_nil whole]
    refine Nat.le_trans ?_ (length_whole_le _)
    show _ ≤ ((numeral.whole ++ tail).takeWhile Char.isDigit).length
    rw [List.takeWhile_append_of_pos proper.whole, List.length_append]
    omega
  · have point : Stops Char.isDigit ('.' :: (numeral.fraction ++ tail)) := Text.stops_cons rfl
    have longer : (numeral.fraction ++ tail).takeWhile Char.isDigit =
        numeral.fraction ++ tail.takeWhile Char.isDigit :=
      List.takeWhile_append_of_pos proper.fraction
    have read : front (numeral.whole ++ '.' :: (numeral.fraction ++ tail)) =
        { whole := numeral.whole
          fraction := numeral.fraction ++ tail.takeWhile Char.isDigit } := by
      rw [front, Text.takeWhile_run proper.whole point, Text.dropWhile_run proper.whole point]
      exact congrArg (Numeral.mk numeral.whole) longer
    rw [text_of_fraction_ne_nil whole, List.append_assoc, List.cons_append, read,
      text_of_fraction_ne_nil (List.append_ne_nil_of_left_ne_nil whole _)]
    simp

/-- A text that starts with a digit starts with a numeral that does not go on behind it. -/
theorem exists_front {first : Char} (digit : first.isDigit = true) (rest : Text) :
    ∃ numeral tail, first :: rest = text numeral ++ tail ∧ numeral.Proper ∧ numeral.Ends tail := by
  obtain ⟨others, behind, rfl, inside, stops⟩ := Text.exists_run Char.isDigit rest
  have insideAll : ∀ character ∈ first :: others, character.isDigit = true := by
    intro character member
    rcases List.mem_cons.mp member with rfl | member
    · exact digit
    · exact inside character member
  by_cases decimal : ∃ next later, behind = '.' :: next :: later ∧ next.isDigit = true
  · obtain ⟨next, later, rfl, nextDigit⟩ := decimal
    obtain ⟨places, tail, rfl, insidePlaces, stopsPlaces⟩ := Text.exists_run Char.isDigit later
    refine ⟨{ whole := first :: others, fraction := next :: places }, tail, ?_,
      ⟨List.cons_ne_nil _ _, insideAll, ?_⟩, stopsPlaces, fun empty => by cases empty⟩
    · rw [text_of_fraction_ne_nil (List.cons_ne_nil next places)]
      simp
    · intro character member
      rcases List.mem_cons.mp member with rfl | member
      · exact nextDigit
      · exact insidePlaces character member
  · refine ⟨{ whole := first :: others }, behind, by rw [text_of_fraction_nil rfl]; rfl,
      ⟨List.cons_ne_nil _ _, insideAll, fun _ member => by cases member⟩, stops, ?_⟩
    rintro - later rfl next member
    obtain ⟨others, rfl⟩ := List.head?_eq_some_iff.mp (Option.mem_def.mp member)
    by_contra isDigit
    exact decimal ⟨next, others, rfl, by simpa using isDigit⟩

theorem exists_text_eq_cons {numeral : Numeral} (proper : numeral.Proper) :
    ∃ first rest, numeral.text = first :: rest ∧ first.isDigit = true := by
  obtain ⟨first, others, split⟩ := List.exists_cons_of_ne_nil proper.nonempty
  have digit := proper.whole first (by rw [split]; exact List.mem_cons_self)
  by_cases decimal : numeral.fraction = []
  · exact ⟨first, others, by rw [text_of_fraction_nil decimal, split], digit⟩
  · exact ⟨first, _, by rw [text_of_fraction_ne_nil decimal, split]; rfl, digit⟩

end Numeral

/-! ### Symbols -/

namespace Symbol

/-- The text behind a symbol does not make a longer symbol of it. -/
def Ends (mark : Symbol) (tail : Text) : Prop :=
  mark ∈ [bang, equal, greater, less] → Stops (· == '=') tail

theorem ends_nil (mark : Symbol) : mark.Ends [] :=
  fun _ => Text.stops_nil _

/-- A symbol is read back from its spelling. -/
theorem front?_spelling {mark : Symbol} {tail : Text} (ends : mark.Ends tail) :
    front? (mark.spelling ++ tail) = some mark := by
  cases tail with
  | nil => cases mark <;> rfl
  | cons first rest =>
    have single : mark ∈ [bang, equal, greater, less] → ('=' == first) = false := by
      intro member
      exact beq_eq_false_iff_ne.mpr (Ne.symm (by simpa using ends member first rfl))
    cases mark <;> simp_all [front?, all, spelling, List.isPrefixOf]

theorem ends_of_front? {mark : Symbol} {tail : Text}
    (found : front? (mark.spelling ++ tail) = some mark) : mark.Ends tail := by
  intro member first firstMember
  obtain ⟨rest, rfl⟩ := List.head?_eq_some_iff.mp (Option.mem_def.mp firstMember)
  by_contra equal
  obtain rfl : first = '=' := by simpa using equal
  simp only [List.mem_cons, List.not_mem_nil, or_false] at member
  rcases member with rfl | rfl | rfl | rfl <;> simp [front?, all, spelling] at found

/-- A symbol that is found stands at the front, and the longest one is found. -/
theorem exists_of_front? {mark : Symbol} {text : Text} (found : front? text = some mark) :
    ∃ tail, text = mark.spelling ++ tail ∧ mark.Ends tail := by
  have spelled := List.find?_some (p := fun symbol : Symbol => symbol.spelling.isPrefixOf text)
    found
  obtain ⟨tail, rfl⟩ := List.isPrefixOf_iff_prefix.mp spelled
  exact ⟨tail, rfl, ends_of_front? found⟩

theorem not_prefix_of_front? {text : Text} (missing : front? text = none) (mark : Symbol) :
    ¬ mark.spelling <+: text := by
  have refused := List.find?_eq_none.mp missing mark (mem_all mark)
  rwa [List.isPrefixOf_iff_prefix] at refused

/-- No symbol at the front of a text is longer than the one that is found. -/
theorem length_le_of_front? {mark other : Symbol} {text : Text} (found : front? text = some mark)
    (isFront : other.spelling <+: text) : other.spelling.length ≤ mark.spelling.length := by
  obtain ⟨-, before, after, split, refused⟩ := List.find?_eq_some_iff_append.mp found
  have sorted : all.Pairwise fun first second =>
    second.spelling.length ≤ first.spelling.length := by decide
  have member := mem_all other
  rw [split] at sorted member
  rcases List.mem_append.mp member with early | late
  · have fails := refused other early
    rw [List.isPrefixOf_iff_prefix.mpr isFront] at fails
    cases fails
  · rcases List.mem_cons.mp late with rfl | late
    · exact Nat.le_refl _
    · exact List.rel_of_pairwise_cons (List.pairwise_append.mp sorted).2.1 late

end Symbol

/-! ### Keywords -/

namespace Keyword

theorem spelling_injective {first second : Keyword} (same : first.spelling = second.spelling) :
    first = second := by
  have found := ofText?_spelling first
  rw [same, ofText?_spelling] at found
  exact (Option.some.inj found).symm

theorem spelling_ne_of_ofText?_eq_none {word : Text} (missing : ofText? word = none)
    (keyword : Keyword) : keyword.spelling ≠ word := by
  rintro rfl
  rw [ofText?_spelling] at missing
  cases missing

end Keyword

namespace Lexeme

/-! ### What is read, kind by kind -/

/-- What is read of a word: the keyword that it is, or else an identifier. -/
def wordContent (letters : Text) : Except LexicalError.Cause Token.Data :=
  .ok (match Keyword.ofText? letters with
    | some keyword => .keyword keyword
    | none => .identifier)

/-- The first character of a string is read as such, also where no other one would be. -/
theorem front_string {value : Text} (unquoted : '"' ∉ value) (tail : Text) :
    front ('"' :: (value ++ '"' :: tail)) =
      { text := '"' :: (value ++ ['"']), content := .ok (.string value) } := by
  have inside := Text.forall_ne_of_notMem unquoted
  have closing : Stops (· ≠ '"') ('"' :: tail) := Text.stops_cons rfl
  rw [front, if_pos rfl, string, Text.takeWhile_run inside closing,
    Text.dropWhile_run inside closing]

theorem front_unclosed {value : Text} (unquoted : '"' ∉ value) :
    front ('"' :: value) = { text := '"' :: value, content := .error .unclosedString } := by
  have inside := Text.forall_ne_of_notMem unquoted
  have whole : value.takeWhile (· ≠ '"') = value ∧ value.dropWhile (· ≠ '"') = [] :=
    ⟨by simpa using Text.takeWhile_run inside (Text.stops_nil _),
      by simpa using Text.dropWhile_run inside (Text.stops_nil _)⟩
  rw [front, if_pos rfl, string, whole.1, whole.2]

theorem front_of_numeral {numeral : Numeral} (proper : numeral.Proper) (tail : Text) :
    front (numeral.text ++ tail) = number (numeral.text ++ tail) := by
  obtain ⟨first, rest, split, digit⟩ := Numeral.exists_text_eq_cons proper
  have notQuote : first ≠ '"' := by
    rintro rfl
    cases digit
  rw [split, List.cons_append, front, if_neg notQuote, if_pos digit]

theorem front_number {numeral : Numeral} (proper : numeral.Proper) {tail : Text}
    (ends : numeral.Ends tail) {magnitude : Magnitude}
    (finite : numeral.magnitude? = some magnitude) :
    front (numeral.text ++ tail) =
      { text := numeral.text, content := .ok (.number (.finite false magnitude)) } := by
  rw [front_of_numeral proper]
  simp only [number, Numeral.front_text proper ends, finite]

theorem front_oversized {numeral : Numeral} (proper : numeral.Proper) {tail : Text}
    (ends : numeral.Ends tail) (oversized : numeral.magnitude? = none) :
    front (numeral.text ++ tail) =
      { text := numeral.text, content := .error (.oversizedNumber numeral.text) } := by
  rw [front_of_numeral proper]
  simp only [number, Numeral.front_text proper ends, oversized]

theorem isDigit_of_startsWord {character : Char} (starts : startsWord character = true) :
    character.isDigit = false := by
  have letter : character.isAlpha = true ∨ character = '_' := by simpa [startsWord] using starts
  rcases letter with alpha | rfl
  · delta Char.isAlpha Char.isUpper Char.isLower at alpha
    delta Char.isDigit
    grind
  · rfl

theorem continuesWord_of_startsWord {character : Char} (starts : startsWord character = true) :
    continuesWord character = true := by
  have letter : character.isAlpha = true ∨ character = '_' := by simpa [startsWord] using starts
  simpa [continuesWord, Char.isAlphanum, isDigit_of_startsWord starts] using letter

theorem front_word {first : Char} {others tail : Text} (starts : startsWord first = true)
    (inside : ∀ character ∈ others, continuesWord character = true)
    (stops : Stops continuesWord tail) :
    front (first :: others ++ tail) =
      { text := first :: others, content := wordContent (first :: others) } := by
  have notQuote : first ≠ '"' := by
    rintro rfl
    cases starts
  have insideAll : ∀ character ∈ first :: others, continuesWord character = true :=
    List.forall_mem_cons.mpr ⟨continuesWord_of_startsWord starts, inside⟩
  rw [List.cons_append, front, if_neg notQuote,
    if_neg (by rw [isDigit_of_startsWord starts]; decide), if_pos starts, word,
    ← List.cons_append, Text.takeWhile_run insideAll stops]
  rfl

/-- A character with which neither a string, nor a number, nor a word starts. -/
def StartsSymbol (character : Char) : Prop :=
  character ≠ '"' ∧ character.isDigit = false ∧ startsWord character = false

theorem front_of_startsSymbol {character : Char} (starts : StartsSymbol character) (rest : Text) :
    front (character :: rest) = symbol character rest := by
  rw [front, if_neg starts.1, if_neg (by rw [starts.2.1]; decide),
    if_neg (by rw [starts.2.2]; decide)]

theorem exists_spelling_eq_cons (mark : Symbol) :
    ∃ first others, mark.spelling = first :: others ∧ StartsSymbol first := by
  cases mark <;> exact ⟨_, _, rfl, by decide, by decide, by decide⟩

theorem front_symbol {mark : Symbol} {tail : Text} (ends : mark.Ends tail) :
    front (mark.spelling ++ tail) = { text := mark.spelling, content := .ok (.symbol mark) } := by
  obtain ⟨first, others, spelled, starts⟩ := exists_spelling_eq_cons mark
  have found := Symbol.front?_spelling ends
  rw [spelled, List.cons_append] at found ⊢
  rw [front_of_startsSymbol starts, symbol, found, ← spelled]

theorem front_stray {character : Char} (starts : StartsSymbol character) {rest : Text}
    (missing : Symbol.front? (character :: rest) = none) :
    front (character :: rest) =
      { text := [character], content := .error (.strayCharacter character) } := by
  rw [front_of_startsSymbol starts, symbol, missing]

/-! ### The case analysis -/

/-- What holds of every form of text and of the lexeme at its front holds of every text. -/
theorem front_cases {motive : Text → Lexeme → Prop}
    (nil : motive [] { text := [], content := .ok .endOfInput })
    (string : ∀ value tail, '"' ∉ value → motive ('"' :: (value ++ '"' :: tail))
      { text := '"' :: (value ++ ['"']), content := .ok (.string value) })
    (unclosed : ∀ value, '"' ∉ value → motive ('"' :: value)
      { text := '"' :: value, content := .error .unclosedString })
    (number : ∀ (numeral : Numeral) tail magnitude, numeral.Proper → numeral.Ends tail →
      numeral.magnitude? = some magnitude → motive (numeral.text ++ tail)
        { text := numeral.text, content := .ok (.number (.finite false magnitude)) })
    (oversized : ∀ (numeral : Numeral) tail, numeral.Proper → numeral.Ends tail →
      numeral.magnitude? = none → motive (numeral.text ++ tail)
        { text := numeral.text, content := .error (.oversizedNumber numeral.text) })
    (word : ∀ first others tail, startsWord first = true →
      (∀ character ∈ others, continuesWord character = true) → Stops continuesWord tail →
      motive (first :: others ++ tail)
        { text := first :: others, content := wordContent (first :: others) })
    (symbol : ∀ (mark : Symbol) tail, mark.Ends tail → motive (mark.spelling ++ tail)
      { text := mark.spelling, content := .ok (.symbol mark) })
    (stray : ∀ character rest, StartsSymbol character →
      Symbol.front? (character :: rest) = none → motive (character :: rest)
        { text := [character], content := .error (.strayCharacter character) })
    (text : Text) : motive text (front text) := by
  cases text with
  | nil => exact nil
  | cons character rest =>
    by_cases quote : character = '"'
    · subst quote
      obtain ⟨value, behind, rfl, inside, stops⟩ := Text.exists_run (· ≠ '"') rest
      have unquoted : '"' ∉ value := fun member => by simpa using inside _ member
      cases behind with
      | nil =>
        rw [List.append_nil, front_unclosed unquoted]
        exact unclosed value unquoted
      | cons closing tail =>
        obtain rfl : closing = '"' := by simpa using stops closing rfl
        rw [front_string unquoted]
        exact string value tail unquoted
    · by_cases digit : character.isDigit = true
      · obtain ⟨numeral, tail, split, proper, ends⟩ := Numeral.exists_front digit rest
        cases found : numeral.magnitude? with
        | none =>
          rw [split, front_oversized proper ends found]
          exact oversized numeral tail proper ends found
        | some magnitude =>
          rw [split, front_number proper ends found]
          exact number numeral tail magnitude proper ends found
      · by_cases starts : startsWord character = true
        · obtain ⟨others, tail, rfl, inside, stops⟩ := Text.exists_run continuesWord rest
          rw [← List.cons_append, front_word starts inside stops]
          exact word character others tail starts inside stops
        · have startsSymbol : StartsSymbol character :=
            ⟨quote, by simpa using digit, by simpa using starts⟩
          cases found : Symbol.front? (character :: rest) with
          | none =>
            rw [front_stray startsSymbol found]
            exact stray character rest startsSymbol found
          | some mark =>
            obtain ⟨tail, split, ends⟩ := Symbol.exists_of_front? found
            rw [split, front_symbol ends]
            exact symbol mark tail ends

/-- A lexeme is the front of the text that it is read from. -/
theorem front_prefix (text : Text) : (front text).text <+: text := by
  induction text using front_cases with
  | nil => exact List.prefix_rfl
  | string value tail => exact ⟨tail, by simp⟩
  | unclosed => exact List.prefix_rfl
  | number numeral tail => exact List.prefix_append _ _
  | oversized numeral tail => exact List.prefix_append _ _
  | word first others tail => exact List.prefix_append _ _
  | symbol mark tail => exact List.prefix_append _ _
  | stray character rest => exact List.prefix_append [character] rest

theorem front_text_of_unclosed {text : Text}
    (unclosed : (front text).content = .error .unclosedString) : (front text).text = text := by
  induction text using front_cases with
  | unclosed => rfl
  | nil | string | number | oversized | word | symbol | stray => cases unclosed

theorem front_text_of_stray {text : Text} {character : Char}
    (isStray : (front text).content = .error (.strayCharacter character)) :
    (front text).text = [character] := by
  induction text using front_cases with
  | stray =>
    cases isStray
    rfl
  | nil | string | unclosed | number | oversized | word | symbol => cases isStray

/-- Only the end of the text is read without taking up a character. -/
theorem front_text_eq_nil {text : Text} : (front text).text = [] ↔ text = [] := by
  refine ⟨fun empty => ?_, fun empty => by rw [empty]; rfl⟩
  induction text using front_cases with
  | nil => rfl
  | string => cases empty
  | unclosed => cases empty
  | number numeral tail magnitude proper =>
    obtain ⟨first, rest, split, -⟩ := Numeral.exists_text_eq_cons proper
    rw [split] at empty
    cases empty
  | oversized numeral tail proper =>
    obtain ⟨first, rest, split, -⟩ := Numeral.exists_text_eq_cons proper
    rw [split] at empty
    cases empty
  | word => cases empty
  | symbol mark =>
    obtain ⟨first, others, spelled, -⟩ := exists_spelling_eq_cons mark
    rw [spelled] at empty
    cases empty
  | stray => cases empty

theorem front_content_eq_end {text : Text} :
    (front text).content = .ok .endOfInput ↔ text = [] := by
  refine ⟨fun marked => ?_, fun empty => by rw [empty]; rfl⟩
  induction text using front_cases with
  | nil => rfl
  | string => cases marked
  | unclosed => cases marked
  | number => cases marked
  | oversized => cases marked
  | word first others =>
    unfold wordContent at marked
    split at marked <;> cases marked
  | symbol => cases marked
  | stray => cases marked

end Lexeme

end LoxFront
