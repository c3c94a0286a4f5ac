/-
This file reads tokens with byte slices. What a token covers is sliced out of the text between the
place where it starts and the place where the reading has come to, the value of a string is sliced
out of its lexeme, and the column of a failure is counted in a slice of the text. Each of these
can be at fault. That none is follows from what is read for every kind of lexeme: the place has
moved on by exactly the characters of the lexeme, and a string has a quote of one byte at both
ends.
-/

import LoxFront.Proofs.Checked.Slices
import LoxFront.Proofs.Lexemes
import LoxFront.Proofs.Places
import LoxFront.Tokenizer

namespace LoxFront

open Text (Stops)

namespace Checked

/-! ### Items -/

/-- The token between two places. -/
def token? (data : Token.Data) (start stop : Place) : Option Token := do
  let lexeme ← start.sliceUntil? stop
  some { data, span := { start, lexeme } }

/-- The failure to read a token from a place on. -/
def error? (cause : LexicalError.Cause) (start : Place) : Option LexicalError := do
  let column ← start.column?
  some { cause, line := start.line, column }

/-- What is read from a place on, and how far the reading has come then. -/
abbrev Reading := Option (Item × Place)

/-- A token was read up to a place. -/
def accept (data : Token.Data) (start stop : Place) : Reading := do
  let token ← token? data start stop
  some (.ok token, stop)

/-- No token could be read, and a place was reached in the attempt. -/
def refuse (cause : LexicalError.Cause) (start stop : Place) : Reading := do
  let error ← error? cause start
  some (.error error, stop)

/-- A string. Its value is the lexeme without its first and its last byte. -/
def string (start : Place) : Reading :=
  let closing := start.step.skipWhile (· ≠ '"')
  match closing.stepIf? '"' with
  | none => refuse .unclosedString start closing
  | some stop => do
    let lexeme ← start.sliceUntil? stop
    let value ← lexeme.slice? 1 (lexeme.utf8Size - 1)
    accept (.string value) start stop

/-- The place behind a number. A point is passed only if a digit follows. -/
def numberStop (start : Place) : Place :=
  let whole := start.step.skipWhile Char.isDigit
  if whole.peek? = some '.' ∧ whole.peekSecond?.any Char.isDigit then
    whole.step.skipWhile Char.isDigit
  else whole

/-- A number, unless it is too large. -/
def number (start : Place) : Reading := do
  let stop := numberStop start
  let lexeme ← start.sliceUntil? stop
  match (Numeral.front lexeme).magnitude? with
  | some magnitude => accept (.number (.finite false magnitude)) start stop
  | none => refuse (.oversizedNumber lexeme) start stop

/-- A keyword or an identifier. -/
def word (start : Place) : Reading := do
  let stop := start.step.skipWhile Lexeme.continuesWord
  let letters ← start.sliceUntil? stop
  match Keyword.ofText? letters with
  | some keyword => accept (.keyword keyword) start stop
  | none => accept .identifier start stop

/-- A symbol, or a character that starts nothing. -/
def symbol (character : Char) (start : Place) : Reading :=
  match Symbol.front? start.rest with
  | some mark => accept (.symbol mark) start (start.skip mark.spelling.length)
  | none => refuse (.strayCharacter character) start start.step

/-- The item that starts at a place. -/
def item (start : Place) : Reading :=
  match start.rest with
  | [] => accept .endOfInput start start
  | character :: _ =>
    if character = '"' then string start
    else if character.isDigit then number start
    else if Lexeme.startsWord character then word start
    else symbol character start

/-! ### Texts -/

/-- The first items of a tokenizer. -/
def take : Tokenizer → Nat → Option (List Item)
  | _, 0 => some []
  | tokenizer, count + 1 =>
    if tokenizer.finished then some []
    else do
      let (item, place) ← item tokenizer.itemStart
      let later ← take { place, finished := Item.isEnd item } count
      some (item :: later)

/-- The tokens of a text and the failures to read one, each in order. -/
def tokenize (text : Text) : Option (List Token × List LexicalError) := do
  let tokenizer := Tokenizer.ofText text
  let items ← take tokenizer tokenizer.itemLimit
  some (items.filterMap Item.token?, items.filterMap Item.error?)

/-! ### Places that have been reached -/

theorem acceptedCount_eq (test : Char → Bool) (text : Text) :
    Place.acceptedCount (fun _ character => (test character, ())) () text =
      (text.takeWhile test).length := by
  induction text with
  | nil => rfl
  | cons first rest inductionHypothesis =>
    rw [Place.acceptedCount, List.takeWhile_cons]
    cases test first with
    | true => exact congrArg (· + 1) inductionHypothesis
    | false => rfl

theorem rest_skip_append {place : Place} {front back : Text} (split : place.rest = front ++ back) :
    (place.skip front.length).rest = back := by
  rw [Place.rest_skip, split, List.drop_left]

/-- Behind a character and a run the place has moved on by as many characters. -/
theorem step_skipWhile {place : Place} {test : Char → Bool} {first : Char} {body tail : Text}
    (split : place.rest = first :: (body ++ tail))
    (inside : ∀ character ∈ body, test character = true) (stops : Stops test tail) :
    place.step.skipWhile test = place.skip (first :: body).length := by
  have rest : (place.skip 1).rest = body ++ tail := by
    rw [Place.rest_skip, split]
    rfl
  rw [Place.step_eq_skip, Place.skipWhile, Place.skipAccepted, acceptedCount_eq, rest,
    Text.takeWhile_run inside stops, Place.skip_skip, List.length_cons, Nat.add_comm]

section Kinds

variable {start : Place} {front back : Text}

/-- What was passed on the way from a place is sliced out between the two places. -/
theorem sliceUntil?_run (split : start.rest = front ++ back) :
    start.sliceUntil? (start.skip front.length) = some front := by
  rw [Place.sliceUntil?_skip, split, List.take_left]

theorem accept_run (split : start.rest = front ++ back) (data : Token.Data) :
    accept data start (start.skip front.length) =
      some (.ok { data, span := { start, lexeme := front } }, start.skip front.length) := by
  rw [accept, token?, sliceUntil?_run split]
  rfl

theorem refuse_eq (cause : LexicalError.Cause) (start stop : Place) :
    refuse cause start stop =
      some (.error { cause, line := start.line, column := start.column }, stop) := by
  rw [refuse, error?, Place.column?_eq]
  rfl

/-! ### Kinds of lexemes -/

/-- The two quotes are one byte each, whatever stands between them. -/
theorem slice?_quoted (value : Text) :
    Text.slice? ('"' :: (value ++ ['"'])) 1 (Text.utf8Size ('"' :: (value ++ ['"'])) - 1) =
      some value := by
  refine Text.slice?_eq_some.mpr ⟨['"'], ['"'], rfl, rfl, ?_⟩
  rw [Text.utf8Size_cons, Text.utf8Size_append, Text.utf8Size_append]
  show '"'.utf8Size + Text.utf8Size value = '"'.utf8Size + (Text.utf8Size value + 1) - 1
  omega

theorem string_eq {rest : Text} (split : start.rest = '"' :: rest) :
    string start = some ((Lexeme.string rest).itemAt start,
      start.skip (Lexeme.string rest).text.length) := by
  obtain ⟨value, behind, rfl, inside, stops⟩ := Text.exists_run (· ≠ '"') rest
  have closing := step_skipWhile split inside stops
  have atClosing : (start.skip ('"' :: value).length).rest = behind := rest_skip_append split
  rw [string, closing, Lexeme.string, Text.takeWhile_run inside stops,
    Text.dropWhile_run inside stops, Place.stepIf?, Place.peek?, atClosing]
  cases behind with
  | nil => exact refuse_eq _ _ _
  | cons quote tail =>
    obtain rfl : quote = '"' := by simpa using stops quote rfl
    have stop : (start.skip ('"' :: value).length).step =
        start.skip ('"' :: (value ++ ['"'])).length := by
      rw [Place.step_eq_skip, Place.skip_skip]
      simp
    have whole : start.rest = '"' :: (value ++ ['"']) ++ tail := by
      rw [split]
      simp
    rw [List.head?_cons, if_pos rfl, stop]
    show (start.sliceUntil? _).bind _ = _
    rw [sliceUntil?_run whole]
    show (Text.slice? _ _ _).bind _ = _
    rw [slice?_quoted]
    exact accept_run whole _

theorem numberStop_eq {numeral : Numeral} {tail : Text} (proper : numeral.Proper)
    (ends : numeral.Ends tail) (split : start.rest = numeral.text ++ tail) :
    numberStop start = start.skip numeral.text.length := by
  obtain ⟨first, others, whole⟩ := List.exists_cons_of_ne_nil proper.nonempty
  have inside : ∀ character ∈ others, character.isDigit = true := fun character member =>
    proper.whole character (by rw [whole]; exact List.mem_cons_of_mem _ member)
  rw [numberStop]
  by_cases decimal : numeral.fraction = []
  · rw [Numeral.text_of_fraction_nil decimal, whole] at split ⊢
    rw [step_skipWhile split inside ends.1]
    -- A point may follow, but then no digit stands behind it.
    refine if_neg fun ⟨point, digit⟩ => ?_
    rw [Place.peek?, rest_skip_append split] at point
    obtain ⟨later, rfl⟩ := List.head?_eq_some_iff.mp point
    rw [Place.peekSecond?, rest_skip_append split, List.tail_cons] at digit
    cases later with
    | nil => cases digit
    | cons next behind =>
      have refused : next.isDigit = false := ends.2 decimal _ rfl next rfl
      have accepted : next.isDigit = true := digit
      rw [refused] at accepted
      cases accepted
  · obtain ⟨next, places, fraction⟩ := List.exists_cons_of_ne_nil decimal
    have insidePlaces := proper.fraction
    rw [Numeral.text_of_fraction_ne_nil decimal, whole, fraction] at split ⊢
    rw [fraction] at insidePlaces
    have splitWhole : start.rest = (first :: others) ++ '.' :: (next :: places ++ tail) := by
      rw [split]
      simp
    have atPoint : (start.skip (first :: others).length).rest = '.' :: (next :: places ++ tail) :=
      rest_skip_append splitWhole
    have digit : next.isDigit = true := insidePlaces next List.mem_cons_self
    rw [step_skipWhile splitWhole inside (Text.stops_cons rfl), if_pos,
      step_skipWhile atPoint insidePlaces ends.1, Place.skip_skip, List.length_append]
    rw [Place.peek?, Place.peekSecond?, atPoint]
    exact ⟨rfl, digit⟩

theorem number_eq {character : Char} {rest : Text} (split : start.rest = character :: rest)
    (digit : character.isDigit = true) :
    number start = some ((Lexeme.number (character :: rest)).itemAt start,
      start.skip (Lexeme.number (character :: rest)).text.length) := by
  obtain ⟨numeral, tail, numeralSplit, proper, ends⟩ := Numeral.exists_front digit rest
  have read := Numeral.front_text proper numeral.ends_nil
  rw [List.append_nil] at read
  rw [numeralSplit] at split ⊢
  rw [number, numberStop_eq proper ends split]
  show (start.sliceUntil? _).bind _ = _
  rw [sliceUntil?_run split, Option.bind_some, read, Lexeme.number,
    Numeral.front_text proper ends]
  dsimp only
  cases numeral.magnitude? with
  | some magnitude => exact accept_run split _
  | none => exact refuse_eq _ _ _

theorem word_eq {character : Char} {rest : Text} (split : start.rest = character :: rest)
    (starts : Lexeme.startsWord character = true) :
    word start = some ((Lexeme.word (character :: rest)).itemAt start,
      start.skip (Lexeme.word (character :: rest)).text.length) := by
  obtain ⟨others, tail, rfl, inside, stops⟩ := Text.exists_run Lexeme.continuesWord rest
  have continues : Lexeme.continuesWord character = true := by
    rcases Bool.or_eq_true_iff.mp starts with letter | underscore
    · simp [Lexeme.continuesWord, Char.isAlphanum, letter]
    · simp [Lexeme.continuesWord, underscore]
  have letters : (character :: (others ++ tail)).takeWhile Lexeme.continuesWord =
      character :: others := by
    rw [List.takeWhile_cons_of_pos continues, Text.takeWhile_run inside stops]
  have whole : start.rest = character :: others ++ tail := split
  rw [word, step_skipWhile split inside stops]
  show (start.sliceUntil? _).bind _ = _
  rw [sliceUntil?_run whole, Option.bind_some, Lexeme.word, letters]
  cases Keyword.ofText? (character :: others) with
  | some keyword => exact accept_run whole _
  | none => exact accept_run whole _

theorem symbol_eq {character : Char} {rest : Text} (split : start.rest = character :: rest) :
    symbol character start = some ((Lexeme.symbol character rest).itemAt start,
      start.skip (Lexeme.symbol character rest).text.length) := by
  rw [symbol, Lexeme.symbol, split]
  cases found : Symbol.front? (character :: rest) with
  | none =>
    rw [Place.step_eq_skip]
    exact refuse_eq _ _ _
  | some mark =>
    obtain ⟨tail, spelled, -⟩ := Symbol.exists_of_front? found
    rw [spelled] at split
    exact accept_run split _

end Kinds

/-- Nothing is at fault where an item is read, and it is the item that is there. -/
theorem item_eq (start : Place) :
    item start = some ((Lexeme.front start.rest).itemAt start,
      start.skip (Lexeme.front start.rest).text.length) := by
  rw [item]
  cases split : start.rest with
  | nil =>
    have nothing : start.rest = [] ++ [] := split
    exact accept_run nothing _
  | cons character rest =>
    rw [Lexeme.front]
    dsimp only
    by_cases quote : character = '"'
    · subst quote
      rw [if_pos rfl, if_pos rfl]
      exact string_eq split
    rw [if_neg quote, if_neg quote]
    by_cases digit : character.isDigit = true
    · rw [if_pos digit, if_pos digit]
      exact number_eq split digit
    rw [if_neg digit, if_neg digit]
    by_cases starts : Lexeme.startsWord character = true
    · rw [if_pos starts, if_pos starts]
      exact word_eq split starts
    rw [if_neg starts, if_neg starts]
    exact symbol_eq split

/-! ### Whole texts -/

theorem take_eq (tokenizer : Tokenizer) (count : Nat) :
    take tokenizer count = some (tokenizer.take count) := by
  induction count generalizing tokenizer with
  | zero => rfl
  | succ count inductionHypothesis =>
    rw [take, Tokenizer.take, Tokenizer.next?]
    by_cases finished : tokenizer.finished = true
    · rw [if_pos finished, if_pos finished]
    · rw [if_neg finished, if_neg finished, item_eq]
      show (take _ count).bind _ = _
      rw [inductionHypothesis]
      rfl

/-- No text is at fault when it is read into tokens. -/
theorem tokenize_eq (text : Text) : tokenize text = some (LoxFront.tokenize text) := by
  rw [tokenize, take_eq]
  rfl

end Checked

end LoxFront
