/-
This file states lexical structure as a longest match and proves the tokenizer equal to it. The
classes of lexemes are regular languages, written as such; trivia is one more. An item is what is
left of a text behind its longest front that is trivia, up to the longest front of the rest that is
in any class. The tokenizer never compares fronts: it looks at one or two characters and takes up
runs. That no front is longer is proved class by class, since the first character of a word decides
its class.
-/

import LoxFront.Proofs.Pieces
import Mathlib.Computability.Language
import Mathlib.Order.CompletePartialOrder

namespace LoxFront.LongestMatch

open Computability Lexeme

/-! ### The languages -/

/-- The words of one character that passes a test. -/
def oneOf (test : Char → Bool) : Language Char :=
  {word | ∃ character, word = [character] ∧ test character = true}

/-- Blanks, and comments up to the end of the line. -/
def trivia : Language Char :=
  (oneOf (fun character => character ∈ [' ', '\r', '\t', '\n']) +
    {['/', '/']} * (oneOf (· ≠ '\n'))∗)∗

/-- The classes of lexemes. -/
inductive Class
  | symbol (mark : Symbol)
  | string
  | number
  | word

namespace Class

/-- The lexemes of a class. -/
def language : Class → Language Char
  | symbol mark => {mark.spelling}
  | string => {['"']} * (oneOf (· ≠ '"'))∗ * {['"']}
  | number =>
    oneOf Char.isDigit * (oneOf Char.isDigit)∗ *
      (1 + {['.']} * (oneOf Char.isDigit * (oneOf Char.isDigit)∗))
  | word =>
    oneOf (fun character => character.isAlpha || character == '_') *
      (oneOf fun character => character.isAlphanum || character == '_')∗

/-- What a lexeme of a class is read as: a symbol as itself, a string as the text between its
quotes, a number as its value unless that is too large, a word as a keyword if it is one. -/
def Content (kind : Class) (lexeme : Text)
    (content : Except LexicalError.Cause Token.Data) : Prop :=
  match kind with
  | symbol mark => content = .ok (.symbol mark)
  | string => content = .ok (.string lexeme.tail.dropLast)
  | number =>
    ∃ numeral : Numeral, numeral.Proper ∧ numeral.text = lexeme ∧
      ((∃ magnitude, numeral.magnitude? = some magnitude ∧
          content = .ok (.number (.finite false magnitude))) ∨
        numeral.magnitude? = none ∧ content = .error (.oversizedNumber lexeme))
  | word =>
    (∃ keyword : Keyword, keyword.spelling = lexeme ∧ content = .ok (.keyword keyword)) ∨
      (∀ keyword : Keyword, keyword.spelling ≠ lexeme) ∧ content = .ok .identifier

end Class

/-- The lexemes of all classes. -/
def anyClass : Language Char := ⨆ kind : Class, kind.language

/-- The longest front of a text that is in a language. -/
structure IsLongest (language : Language Char) (text front : Text) : Prop where
  isFront : front <+: text
  member : front ∈ language
  longest : ∀ other : Text, other <+: text → other ∈ language → other.length ≤ front.length

/-- What is read at the front of a text without trivia. -/
inductive Reads : Text → Lexeme → Prop
  | lexeme {text : Text} {lexeme : Lexeme} {kind : Class}
      (longest : IsLongest anyClass text lexeme.text) (member : lexeme.text ∈ kind.language)
      (content : kind.Content lexeme.text lexeme.content) : Reads text lexeme
  | ended : Reads [] { text := [], content := .ok .endOfInput }
  | unclosed {rest : Text} (unmatched : ∀ front : Text, front <+: '"' :: rest → front ∉ anyClass) :
      Reads ('"' :: rest) { text := '"' :: rest, content := .error .unclosedString }
  | stray {character : Char} {rest : Text} (notQuote : character ≠ '"')
      (unmatched : ∀ front : Text, front <+: character :: rest → front ∉ anyClass) :
      Reads (character :: rest)
        { text := [character], content := .error (.strayCharacter character) }

/-- What is read of a text: trivia and then a lexeme, again and again up to the end. -/
inductive Scans : Text → List Lexeme → Prop
  | ended {gap : Text} {mark : Lexeme} (longest : IsLongest trivia gap gap)
      (reads : Reads [] mark) : Scans gap [mark]
  | item {gap text later : Text} {lexeme : Lexeme} {lexemes : List Lexeme}
      (longest : IsLongest trivia (gap ++ text) gap) (nonempty : text ≠ [])
      (reads : Reads text lexeme) (split : text = lexeme.text ++ later)
      (scans : Scans later lexemes) : Scans (gap ++ text) (lexeme :: lexemes)

/-! ### Words of the languages -/

theorem mem_kstar_oneOf {test : Char → Bool} {word : Text} :
    word ∈ (oneOf test)∗ ↔ ∀ character ∈ word, test character = true := by
  rw [Language.mem_kstar]
  constructor
  · rintro ⟨parts, rfl, each⟩ character member
    obtain ⟨part, partMember, inPart⟩ := List.mem_flatten.mp member
    obtain ⟨single, rfl, passes⟩ := each part partMember
    rwa [List.mem_singleton.mp inPart]
  · intro passes
    refine ⟨word.map fun character => [character], ?_, ?_⟩
    · induction word with
      | nil => rfl
      | cons first rest inductionHypothesis =>
        rw [List.map_cons, List.flatten_cons, ← inductionHypothesis fun character member =>
          passes character (List.mem_cons_of_mem _ member)]
        rfl
    · intro part member
      obtain ⟨character, characterMember, rfl⟩ := List.mem_map.mp member
      exact ⟨character, rfl, passes character characterMember⟩

/-- One character that passes a test, and then a run of characters that pass another. -/
theorem mem_oneOf_mul_kstar {test testRest : Char → Bool} {word : Text} :
    word ∈ oneOf test * (oneOf testRest)∗ ↔
      ∃ first others, word = first :: others ∧ test first = true ∧
        ∀ character ∈ others, testRest character = true := by
  rw [Language.mem_mul]
  constructor
  · rintro ⟨_, ⟨first, rfl, passes⟩, others, inside, rfl⟩
    exact ⟨first, others, rfl, passes, mem_kstar_oneOf.mp inside⟩
  · rintro ⟨first, others, rfl, passes, inside⟩
    exact ⟨[first], ⟨first, rfl, passes⟩, others, mem_kstar_oneOf.mpr inside, rfl⟩

theorem mem_string {word : Text} :
    word ∈ Class.string.language ↔ ∃ value, '"' ∉ value ∧ word = '"' :: (value ++ ['"']) := by
  have unquoted (value : Text) :
      (∀ character ∈ value, decide (character ≠ '"') = true) ↔ '"' ∉ value := by
    simp only [decide_eq_true_eq]
    exact ⟨fun inside member => inside _ member rfl,
      fun missing character member equal => missing (equal ▸ member)⟩
  constructor
  · rintro ⟨_, ⟨_, rfl, value, inside, rfl⟩, _, rfl, rfl⟩
    exact ⟨value, (unquoted value).mp (mem_kstar_oneOf.mp inside), rfl⟩
  · rintro ⟨value, missing, rfl⟩
    exact ⟨'"' :: value, ⟨['"'], rfl, value, mem_kstar_oneOf.mpr ((unquoted value).mpr missing),
      rfl⟩, ['"'], rfl, rfl⟩

theorem mem_word {word : Text} :
    word ∈ Class.word.language ↔ ∃ first others, word = first :: others ∧
      startsWord first = true ∧ ∀ character ∈ others, continuesWord character = true :=
  mem_oneOf_mul_kstar

theorem mem_number {word : Text} :
    word ∈ Class.number.language ↔ ∃ numeral : Numeral, numeral.Proper ∧ word = numeral.text := by
  constructor
  · rintro ⟨whole, wholeMember, tail, tailMember, rfl⟩
    obtain ⟨first, others, rfl, digit, digits⟩ := mem_oneOf_mul_kstar.mp wholeMember
    have inside : ∀ character ∈ first :: others, character.isDigit = true :=
      List.forall_mem_cons.mpr ⟨digit, digits⟩
    rcases tailMember with rfl | ⟨_, rfl, fraction, fractionMember, rfl⟩
    · refine ⟨{ whole := first :: others }, ⟨List.cons_ne_nil _ _, inside, by simp⟩, ?_⟩
      rw [Numeral.text_of_fraction_nil rfl]
      exact List.append_nil _
    · obtain ⟨next, places, rfl, nextDigit, placeDigits⟩ := mem_oneOf_mul_kstar.mp fractionMember
      refine ⟨{ whole := first :: others, fraction := next :: places },
        ⟨List.cons_ne_nil _ _, inside, List.forall_mem_cons.mpr ⟨nextDigit, placeDigits⟩⟩, ?_⟩
      rw [Numeral.text_of_fraction_ne_nil (List.cons_ne_nil _ _)]
      rfl
  · rintro ⟨⟨whole, fraction⟩, proper, rfl⟩
    obtain ⟨first, others, rfl⟩ := List.exists_cons_of_ne_nil proper.nonempty
    have digits := List.forall_mem_cons.mp proper.whole
    have wholeMember := mem_oneOf_mul_kstar.mpr ⟨first, others, rfl, digits.1, digits.2⟩
    cases fraction with
    | nil =>
      rw [Numeral.text_of_fraction_nil rfl]
      exact ⟨_, wholeMember, [], Or.inl rfl, List.append_nil _⟩
    | cons next places =>
      have decimals := List.forall_mem_cons.mp proper.fraction
      rw [Numeral.text_of_fraction_ne_nil (List.cons_ne_nil _ _)]
      exact ⟨_, wholeMember, _, Or.inr ⟨['.'], rfl, _,
        mem_oneOf_mul_kstar.mpr ⟨next, places, rfl, decimals.1, decimals.2⟩, rfl⟩, rfl⟩

/-! ### The class of a lexeme -/

namespace Class

/-- How the lexemes of a class start. -/
def Starts : Class → Char → Prop
  | symbol _, character => StartsSymbol character
  | string, character => character = '"'
  | number, character => character.isDigit = true
  | word, character => startsWord character = true

theorem exists_cons_of_mem {kind : Class} {lexeme : Text} (member : lexeme ∈ kind.language) :
    ∃ first others, lexeme = first :: others ∧ kind.Starts first := by
  cases kind with
  | symbol mark =>
    obtain rfl : lexeme = mark.spelling := member
    exact exists_spelling_eq_cons mark
  | string =>
    obtain ⟨value, -, rfl⟩ := mem_string.mp member
    exact ⟨_, _, rfl, rfl⟩
  | number =>
    obtain ⟨numeral, proper, rfl⟩ := mem_number.mp member
    exact Numeral.exists_text_eq_cons proper
  | word =>
    obtain ⟨first, others, rfl, starts, -⟩ := mem_word.mp member
    exact ⟨first, others, rfl, starts⟩

/-- The class that a content shows. -/
def ofContent : Except LexicalError.Cause Token.Data → Option Class
  | .ok (.symbol mark) => some (symbol mark)
  | .ok (.string _) => some string
  | .ok (.number _) => some number
  | .error (.oversizedNumber _) => some number
  | .ok (.keyword _) => some word
  | .ok .identifier => some word
  | _ => none

theorem ofContent_eq {kind : Class} {lexeme : Text}
    {content : Except LexicalError.Cause Token.Data} (shown : kind.Content lexeme content) :
    ofContent content = some kind := by
  cases kind with
  | symbol mark =>
    obtain rfl := shown
    rfl
  | string =>
    obtain rfl := shown
    rfl
  | number => obtain ⟨_, _, _, ⟨_, _, rfl⟩ | ⟨_, rfl⟩⟩ := shown <;> rfl
  | word => obtain ⟨_, _, rfl⟩ | ⟨_, rfl⟩ := shown <;> rfl

theorem content_unique {kind : Class} {lexeme : Text}
    {first second : Except LexicalError.Cause Token.Data} (shown : kind.Content lexeme first)
    (other : kind.Content lexeme second) : first = second := by
  cases kind with
  | symbol mark => exact Eq.trans shown (Eq.symm other)
  | string => exact Eq.trans shown (Eq.symm other)
  | number =>
    obtain ⟨numeral, proper, rfl, shown⟩ := shown
    obtain ⟨numeral', proper', same, other⟩ := other
    obtain rfl := Numeral.text_injective proper' proper same
    rcases shown with ⟨magnitude, found, rfl⟩ | ⟨missing, rfl⟩ <;>
      rcases other with ⟨magnitude', found', rfl⟩ | ⟨missing', rfl⟩
    · rw [Option.some.inj (found.symm.trans found')]
    · cases found.symm.trans missing'
    · cases missing.symm.trans found'
    · rfl
  | word =>
    rcases shown with ⟨keyword, rfl, rfl⟩ | ⟨missing, rfl⟩ <;>
      rcases other with ⟨keyword', same, rfl⟩ | ⟨missing', rfl⟩
    · rw [Keyword.spelling_injective same]
    · exact absurd rfl (missing' keyword)
    · exact absurd same (missing keyword')
    · rfl

end Class

theorem content_string (value : Text) :
    Class.string.Content ('"' :: (value ++ ['"'])) (.ok (.string value)) := by
  rw [Class.Content, List.tail_cons, List.dropLast_concat]

theorem content_word (letters : Text) : Class.word.Content letters (wordContent letters) := by
  unfold wordContent
  cases found : Keyword.ofText? letters with
  | none => exact Or.inr ⟨Keyword.spelling_ne_of_ofText?_eq_none found, rfl⟩
  | some keyword => exact Or.inl ⟨keyword, (Keyword.eq_spelling_of_ofText? found).symm, rfl⟩

/-- A word of a class is read whole, as a lexeme of the class. -/
theorem front_of_mem {kind : Class} {lexeme : Text} (member : lexeme ∈ kind.language) :
    (front lexeme).text = lexeme ∧ kind.Content lexeme (front lexeme).content := by
  cases kind with
  | symbol mark =>
    obtain rfl : lexeme = mark.spelling := member
    have read := front_symbol (mark.ends_nil)
    rw [List.append_nil] at read
    rw [read]
    exact ⟨rfl, rfl⟩
  | string =>
    obtain ⟨value, unquoted, rfl⟩ := mem_string.mp member
    rw [front_string unquoted]
    exact ⟨rfl, content_string value⟩
  | number =>
    obtain ⟨numeral, proper, rfl⟩ := mem_number.mp member
    cases found : numeral.magnitude? with
    | none =>
      have read := front_oversized proper numeral.ends_nil found
      rw [List.append_nil] at read
      rw [read]
      exact ⟨rfl, numeral, proper, rfl, Or.inr ⟨found, rfl⟩⟩
    | some magnitude =>
      have read := front_number proper numeral.ends_nil found
      rw [List.append_nil] at read
      rw [read]
      exact ⟨rfl, numeral, proper, rfl, Or.inl ⟨magnitude, found, rfl⟩⟩
  | word =>
    obtain ⟨first, others, rfl, starts, inside⟩ := mem_word.mp member
    have read := front_word starts inside (Text.stops_nil _)
    rw [List.append_nil] at read
    rw [read]
    exact ⟨rfl, content_word _⟩

theorem Class.eq_of_mem {first second : Class} {lexeme : Text} (member : lexeme ∈ first.language)
    (other : lexeme ∈ second.language) : first = second :=
  Option.some.inj ((ofContent_eq (front_of_mem member).2).symm.trans
    (ofContent_eq (front_of_mem other).2))

/-! ### No front is longer -/

/-- No word of a class at the front of a text is longer than what is read there. -/
theorem length_le_front {kind : Class} {text other : Text} (member : other ∈ kind.language)
    (isFront : other <+: text) : other.length ≤ (front text).text.length := by
  obtain ⟨tail, rfl⟩ := isFront
  cases kind with
  | symbol mark =>
    obtain rfl : other = mark.spelling := member
    obtain ⟨first, others, spelled, starts⟩ := exists_spelling_eq_cons mark
    have isFront : mark.spelling <+: first :: (others ++ tail) :=
      ⟨tail, by rw [spelled, List.cons_append]⟩
    rw [spelled, List.cons_append, front_of_startsSymbol starts, symbol, ← spelled]
    cases found : Symbol.front? (first :: (others ++ tail)) with
    | none => exact absurd isFront (Symbol.not_prefix_of_front? found mark)
    | some longest => exact Symbol.length_le_of_front? found isFront
  | string =>
    obtain ⟨value, unquoted, rfl⟩ := mem_string.mp member
    have read := front_string unquoted tail
    simp only [List.cons_append, List.append_assoc, List.nil_append]
    rw [read]
  | number =>
    obtain ⟨numeral, proper, rfl⟩ := mem_number.mp member
    rw [front_of_numeral proper]
    exact Numeral.length_le_front proper (List.prefix_append _ _)
  | word =>
    obtain ⟨first, others, rfl, starts, inside⟩ := mem_word.mp member
    obtain ⟨more, rest, rfl, insideMore, stops⟩ := Text.exists_run continuesWord tail
    have read := front_word starts (List.forall_mem_append.mpr ⟨inside, insideMore⟩) stops
    rw [← List.append_assoc, List.cons_append, read]
    show (first :: others).length ≤ (first :: (others ++ more)).length
    simp

theorem mem_anyClass {lexeme : Text} :
    lexeme ∈ anyClass ↔ ∃ kind : Class, lexeme ∈ kind.language :=
  Language.mem_iSup

theorem isLongest_front {kind : Class} {text : Text}
    (member : (front text).text ∈ kind.language) :
    IsLongest anyClass text (front text).text where
  isFront := front_prefix text
  member := mem_anyClass.mpr ⟨kind, member⟩
  longest other isFront otherMember := by
    obtain ⟨otherKind, inKind⟩ := mem_anyClass.mp otherMember
    exact length_le_front inKind isFront

theorem reads_of_mem {kind : Class} {text : Text} {lexeme : Lexeme} (read : lexeme = front text)
    (member : lexeme.text ∈ kind.language) (content : kind.Content lexeme.text lexeme.content) :
    Reads text lexeme := by
  subst read
  exact Reads.lexeme (isLongest_front member) member content

/-- A string without a closing quote has no front in a class. -/
theorem unmatched_unclosed {value : Text} (unquoted : '"' ∉ value) (other : Text)
    (isFront : other <+: '"' :: value) : other ∉ anyClass := by
  intro member
  obtain ⟨kind, inKind⟩ := mem_anyClass.mp member
  obtain ⟨first, others, rfl, starts⟩ := Class.exists_cons_of_mem inKind
  obtain ⟨rfl, behind⟩ := List.cons_prefix_cons.mp isFront
  cases kind with
  | symbol mark => exact starts.1 rfl
  | number => cases starts
  | word => cases starts
  | string =>
    obtain ⟨body, -, same⟩ := mem_string.mp inKind
    obtain ⟨-, rfl⟩ := List.cons_eq_cons.mp same
    exact unquoted (behind.subset (by simp))

theorem unmatched_stray {character : Char} {rest : Text} (starts : StartsSymbol character)
    (missing : Symbol.front? (character :: rest) = none) (other : Text)
    (isFront : other <+: character :: rest) : other ∉ anyClass := by
  intro member
  obtain ⟨kind, inKind⟩ := mem_anyClass.mp member
  obtain ⟨first, others, rfl, startsKind⟩ := Class.exists_cons_of_mem inKind
  obtain ⟨rfl, -⟩ := List.cons_prefix_cons.mp isFront
  cases kind with
  | symbol mark =>
    have same : first :: others = mark.spelling := inKind
    exact Symbol.not_prefix_of_front? missing mark (same ▸ isFront)
  | string => exact starts.1 startsKind
  | number => exact Bool.false_ne_true (starts.2.1.symm.trans startsKind)
  | word => exact Bool.false_ne_true (starts.2.2.symm.trans startsKind)

/-- What is read at the front of a text is the longest match. -/
theorem reads_front (text : Text) : Reads text (front text) := by
  refine front_cases (motive := fun text lexeme => lexeme = front text → Reads text lexeme)
    ?nil ?string ?unclosed ?number ?oversized ?word ?symbol ?stray text rfl
  case nil => exact fun _ => Reads.ended
  case string =>
    exact fun value tail unquoted read =>
      reads_of_mem read (mem_string.mpr ⟨value, unquoted, rfl⟩) (content_string value)
  case unclosed =>
    exact fun value unquoted _ => Reads.unclosed (unmatched_unclosed unquoted)
  case number =>
    exact fun numeral tail magnitude proper _ finite read =>
      reads_of_mem read (mem_number.mpr ⟨numeral, proper, rfl⟩)
        ⟨numeral, proper, rfl, Or.inl ⟨magnitude, finite, rfl⟩⟩
  case oversized =>
    exact fun numeral tail proper _ oversized read =>
      reads_of_mem read (mem_number.mpr ⟨numeral, proper, rfl⟩)
        ⟨numeral, proper, rfl, Or.inr ⟨oversized, rfl⟩⟩
  case word =>
    exact fun first others tail starts inside _ read =>
      reads_of_mem read (mem_word.mpr ⟨first, others, rfl, starts, inside⟩) (content_word _)
  case symbol =>
    exact fun mark tail _ read =>
      reads_of_mem read (show mark.spelling ∈ (Class.symbol mark).language from rfl) rfl
  case stray =>
    exact fun character rest starts missing _ =>
      Reads.stray starts.1 (unmatched_stray starts missing)

theorem nil_notMem_anyClass : [] ∉ anyClass := by
  intro member
  obtain ⟨kind, inKind⟩ := mem_anyClass.mp member
  obtain ⟨first, others, empty, -⟩ := Class.exists_cons_of_mem inKind
  cases empty

theorem isLongest_unique {language : Language Char} {text first second : Text}
    (longest : IsLongest language text first) (other : IsLongest language text second) :
    first = second := by
  have shorter := other.longest first longest.isFront longest.member
  have longer := longest.longest second other.isFront other.member
  exact (List.prefix_of_prefix_length_le longest.isFront other.isFront shorter).eq_of_length
    (le_antisymm shorter longer)

/-- The longest match leaves no choice. -/
theorem reads_unique {text : Text} {first second : Lexeme} (reads : Reads text first)
    (other : Reads text second) : first = second := by
  cases reads with
  | lexeme longest member content =>
    cases other with
    | lexeme longestOther memberOther contentOther =>
      have sameText := isLongest_unique longest longestOther
      rw [← sameText] at memberOther contentOther
      have sameKind := Class.eq_of_mem member memberOther
      rw [← sameKind] at contentOther
      have sameContent := Class.content_unique content contentOther
      obtain ⟨_, _⟩ := first
      obtain ⟨_, _⟩ := second
      exact Lexeme.mk.injEq .. ▸ ⟨sameText, sameContent⟩
    | ended =>
      exact absurd (List.prefix_nil.mp longest.isFront ▸ longest.member) nil_notMem_anyClass
    | unclosed unmatched => exact absurd longest.member (unmatched _ longest.isFront)
    | stray _ unmatched => exact absurd longest.member (unmatched _ longest.isFront)
  | ended =>
    cases other with
    | lexeme longest =>
      exact absurd (List.prefix_nil.mp longest.isFront ▸ longest.member) nil_notMem_anyClass
    | ended => rfl
  | unclosed unmatched =>
    cases other with
    | lexeme longest => exact absurd longest.member (unmatched _ longest.isFront)
    | unclosed => rfl
    | stray notQuote => exact absurd rfl notQuote
  | stray notQuote unmatched =>
    cases other with
    | lexeme longest => exact absurd longest.member (unmatched _ longest.isFront)
    | unclosed => exact absurd rfl notQuote
    | stray => rfl

theorem reads_iff {text : Text} {lexeme : Lexeme} : Reads text lexeme ↔ lexeme = front text :=
  ⟨fun reads => reads_unique reads (reads_front text), fun read => read ▸ reads_front text⟩

/-! ### Trivia -/

theorem append_mem_trivia (part : Text) {rest : Text}
    (member : part ∈ oneOf (fun character => character ∈ [' ', '\r', '\t', '\n']) +
      {['/', '/']} * (oneOf (· ≠ '\n'))∗) (others : rest ∈ trivia) : part ++ rest ∈ trivia := by
  obtain ⟨parts, rfl, each⟩ := Language.mem_kstar.mp others
  exact Language.mem_kstar.mpr ⟨part :: parts, rfl, List.forall_mem_cons.mpr ⟨member, each⟩⟩

theorem leadingTrivia_mem (text : Text) : text.leadingTrivia ∈ trivia := by
  induction text using Trivia.text_induction with
  | blank character rest space inductionHypothesis =>
    rw [Trivia.leadingTrivia_blank rest space]
    exact append_mem_trivia [character]
      (Or.inl ⟨character, rfl, decide_eq_true (Trivia.isBlank_iff.mp space)⟩) inductionHypothesis
  | comment body rest oneLine ended inductionHypothesis =>
    have inside : body ∈ (oneOf (· ≠ '\n'))∗ :=
      mem_kstar_oneOf.mpr (Text.forall_ne_of_notMem oneLine)
    rw [Trivia.leadingTrivia_comment oneLine ended]
    exact append_mem_trivia ('/' :: '/' :: body) (Or.inr ⟨['/', '/'], rfl, body, inside, rfl⟩)
      inductionHypothesis
  | absent text absent =>
    rw [Trivia.leadingTrivia_absent absent]
    exact Language.nil_mem_kstar _

/-- Inside a comment no less is passed over than outside. -/
theorem length_leading_le (text : Text) :
    (Trivia.leading false text).length ≤ (Trivia.leading true text).length := by
  induction text with
  | nil => exact le_rfl
  | cons character rest inductionHypothesis =>
    have step : (Trivia.leading false rest).length ≤
        (Trivia.leading (character != '\n') rest).length := by
      cases character != '\n' with
      | false => exact le_rfl
      | true => exact inductionHypothesis
    rw [Trivia.leading, Trivia.leading]
    split
    · simpa using step
    · split
      · next slashes =>
        obtain ⟨later, shape⟩ := List.isPrefixOf_iff_prefix.mp slashes
        obtain ⟨rfl, -⟩ := List.cons_eq_cons.mp shape
        exact le_rfl
      · exact Nat.zero_le _

/-- No front of a text that is trivia is longer than what is passed over. A comment may be cut
short in such a front, but the characters it leaves are then passed over as a comment anyway. -/
theorem length_le_leadingTrivia {text other : Text} (member : other ∈ trivia)
    (isFront : other <+: text) : other.length ≤ text.leadingTrivia.length := by
  obtain ⟨parts, rfl, each⟩ := Language.mem_kstar.mp member
  clear member
  induction parts generalizing text with
  | nil => exact Nat.zero_le _
  | cons part parts inductionHypothesis =>
    obtain ⟨partMember, each⟩ := List.forall_mem_cons.mp each
    obtain ⟨tail, rfl⟩ := isFront
    rw [List.flatten_cons, List.append_assoc, List.length_append]
    have later := inductionHypothesis each (List.prefix_append parts.flatten tail)
    rcases partMember with ⟨character, rfl, space⟩ | ⟨_, rfl, body, inside, rfl⟩
    · have space := Trivia.isBlank_iff.mpr (of_decide_eq_true space)
      rw [List.singleton_append, Trivia.leadingTrivia_blank _ space]
      simp only [List.length_cons, List.length_nil]
      omega
    · have oneLine : '\n' ∉ body := fun newline =>
        of_decide_eq_true (mem_kstar_oneOf.mp inside _ newline) rfl
      have passed : Text.leadingTrivia ('/' :: '/' :: (body ++ (parts.flatten ++ tail))) =
          '/' :: '/' :: (body ++ Trivia.leading true (parts.flatten ++ tail)) := by
        rw [← Trivia.leading_true_append oneLine]
        rfl
      have longer := length_leading_le (parts.flatten ++ tail)
      show ('/' :: '/' :: body).length + _ ≤
        (Text.leadingTrivia ('/' :: '/' :: (body ++ (parts.flatten ++ tail)))).length
      rw [passed]
      simp only [List.length_cons, List.length_append] at later ⊢
      rw [Text.leadingTrivia] at later
      omega

theorem isLongest_leadingTrivia (text : Text) : IsLongest trivia text text.leadingTrivia where
  isFront := ⟨text.core, text.leadingTrivia_append_core⟩
  member := leadingTrivia_mem text
  longest _ isFront member := length_le_leadingTrivia member isFront

/-! ### The whole text -/

theorem scans_lexemes (text : Text) : Scans text text.lexemes := by
  unfold Text.lexemes
  fun_induction Text.pieces text with
  | case1 text ended =>
    have longest := isLongest_leadingTrivia text
    have whole := text.leadingTrivia_append_core
    rw [ended, List.append_nil] at whole
    rw [whole] at longest
    exact Scans.ended longest (reads_iff.mpr (congrArg front ended))
  | case2 text unfinished inductionHypothesis =>
    have longest : IsLongest trivia (text.leadingTrivia ++ text.core) text.leadingTrivia := by
      rw [text.leadingTrivia_append_core]
      exact isLongest_leadingTrivia text
    have scans := Scans.item longest unfinished (reads_front text.core)
      text.lexeme_append_behindPiece.symm inductionHypothesis
    rwa [text.leadingTrivia_append_core] at scans

/-- The longest matches of a text are its pieces, and there is no other way to scan it. -/
theorem scans_iff {text : Text} {lexemes : List Lexeme} :
    Scans text lexemes ↔ lexemes = text.lexemes := by
  refine ⟨fun scans => ?_, fun equal => equal ▸ scans_lexemes text⟩
  induction scans with
  | @ended gap mark longest reads =>
    have whole := isLongest_unique longest (isLongest_leadingTrivia gap)
    have ended : gap.core = [] := Text.drop_of_eq_append (by rw [List.append_nil]; exact whole)
    rw [Text.lexemes_of_core_eq_nil ended, reads_iff.mp reads]
    rfl
  | @item gap text later lexeme lexemes longest nonempty reads split scans inductionHypothesis =>
    have passed := isLongest_unique longest (isLongest_leadingTrivia (gap ++ text))
    have core : Text.core (gap ++ text) = text := Text.drop_of_eq_append (by rw [← passed])
    have read : (Text.piece (gap ++ text)).lexeme = lexeme := by
      rw [reads_iff.mp reads]
      exact congrArg front core
    have behind : Text.behindPiece (gap ++ text) = later := by
      rw [Text.behindPiece, read, core]
      exact Text.drop_of_eq_append split
    rw [Text.lexemes_of_core_ne_nil (by rwa [core]), behind, ← inductionHypothesis, core,
      ← reads_iff.mp reads]

/-- An item shows what was read: a token has its text and its data, a failure its cause. -/
def Shows (item : Item) (lexeme : Lexeme) : Prop :=
  match item with
  | .ok token => lexeme.content = .ok token.data ∧ lexeme.text = token.lexeme
  | .error error => lexeme.content = .error error.cause

theorem shows_layOut (place : Place) (pieces : List Piece) :
    List.Forall₂ Shows (Piece.layOut place pieces) (pieces.map Piece.lexeme) := by
  induction pieces generalizing place with
  | nil => exact List.Forall₂.nil
  | cons piece later inductionHypothesis =>
    rw [Piece.layOut, List.map_cons]
    refine List.Forall₂.cons ?_ (inductionHypothesis _)
    unfold Lexeme.itemAt
    cases content : piece.lexeme.content with
    | ok data => exact ⟨content, rfl⟩
    | error cause => exact content

/-- The items of a text are its longest matches: there is exactly one way to scan the text by them,
and the tokenizer's items show what it finds. -/
theorem items_are_longest_matches (source : Text) :
    ∃ lexemes, (∀ others, Scans source others ↔ others = lexemes) ∧
      List.Forall₂ Shows source.items lexemes := by
  refine ⟨source.lexemes, fun others => scans_iff, ?_⟩
  rw [source.items_eq_layOut]
  exact shows_layOut _ _

end LoxFront.LongestMatch
