/-
This file says when tokens can be written side by side. If the lexemes of the tokens of a text are
joined with nothing between them, then the same tokens are read again, unless at some point a token
and those right behind it are read as something else: two words, a number behind a word or a number,
a number that gets a fraction, a symbol that gets an equals sign, or two slashes that start a
comment. Whether a token fuses depends on the kinds of at most three tokens. The way back needs no
look at what is read instead: lexemes that come back unchanged take up the whole text, so there is
no gap between them, and each of them has been read right in front of the others.
-/

import LoxFront.Proofs.Rescanning

namespace LoxFront

open Text (Stops)

/-- Whether a token of the kind is a word: a keyword, or else an identifier. -/
def Token.Kind.IsWord : Token.Kind → Prop
  | .keyword _ | .identifier => True
  | .symbol _ | .string | .number | .endOfInput => False

/-- The first of the tokens is read as something else if the others stand right behind it. -/
inductive Fuses : List Token → Prop
  /-- A word goes on with the letters or the digits behind it. -/
  | word {first second : Token} {later : List Token} (isWord : first.kind.IsWord)
      (goesOn : second.kind.IsWord ∨ second.kind = .number) : Fuses (first :: second :: later)
  /-- A number goes on with the digits behind it. -/
  | digits {first second : Token} {later : List Token} (isNumber : first.kind = .number)
      (goesOn : second.kind = .number) : Fuses (first :: second :: later)
  /-- A number without a point gets a fraction. -/
  | fraction {first point third : Token} {later : List Token} (isNumber : first.kind = .number)
      (whole : '.' ∉ first.lexeme) (isPoint : point.kind = .symbol .dot)
      (places : third.kind = .number) : Fuses (first :: point :: third :: later)
  /-- An equals sign makes a longer symbol. -/
  | equal {first second : Token} {later : List Token} {mark : Symbol}
      (isMark : first.kind = .symbol mark) (short : mark ∈ [.bang, .equal, .greater, .less])
      (goesOn : second.kind = .symbol .equal ∨ second.kind = .symbol .equalEqual) :
      Fuses (first :: second :: later)
  /-- Two slashes start a comment. -/
  | comment {first second : Token} {later : List Token} (isSlash : first.kind = .symbol .slash)
      (goesOn : second.kind = .symbol .slash) : Fuses (first :: second :: later)

/-- The lexemes of tokens with nothing between them. -/
def joined (tokens : List Token) : Text := tokens.flatMap Token.lexeme

/-! ### Fusion by the kind of the first token -/

section Fusion

variable {first : Token} {later : List Token}

theorem fuses_iff_of_word (isWord : first.kind.IsWord) :
    Fuses (first :: later) ↔
      ∃ second ∈ later.head?, second.kind.IsWord ∨ second.kind = .number := by
  constructor
  · intro fuses
    cases fuses with
    | word _ goesOn => exact ⟨_, rfl, goesOn⟩
    | digits kind | fraction kind | equal kind | comment kind =>
      rw [kind] at isWord
      exact isWord.elim
  · rintro ⟨second, member, goesOn⟩
    obtain ⟨rest, rfl⟩ := List.head?_eq_some_iff.mp member
    exact .word isWord goesOn

theorem not_fuses_of_string (isString : first.kind = .string) : ¬ Fuses (first :: later) := by
  intro fuses
  cases fuses with
  | word isWord =>
    rw [isString] at isWord
    exact isWord
  | digits kind | fraction kind | equal kind | comment kind =>
    rw [isString] at kind
    cases kind

theorem fuses_iff_of_number (isNumber : first.kind = .number) :
    Fuses (first :: later) ↔ (∃ second ∈ later.head?, second.kind = .number) ∨
      ('.' ∉ first.lexeme ∧ ∃ point more, later = point :: more ∧
        point.kind = .symbol .dot ∧ ∃ third ∈ more.head?, third.kind = .number) := by
  constructor
  · intro fuses
    cases fuses with
    | word isWord =>
      rw [isNumber] at isWord
      exact isWord.elim
    | digits _ goesOn => exact .inl ⟨_, rfl, goesOn⟩
    | fraction _ whole isPoint places =>
      exact .inr ⟨whole, _, _, rfl, isPoint, _, rfl, places⟩
    | equal kind | comment kind =>
      rw [isNumber] at kind
      cases kind
  · rintro (⟨second, member, goesOn⟩ | ⟨whole, point, more, rfl, isPoint, third, member, places⟩)
    · obtain ⟨rest, rfl⟩ := List.head?_eq_some_iff.mp member
      exact .digits isNumber goesOn
    · obtain ⟨rest, rfl⟩ := List.head?_eq_some_iff.mp member
      exact .fraction isNumber whole isPoint places

theorem fuses_iff_of_symbol {mark : Symbol} (isMark : first.kind = .symbol mark) :
    Fuses (first :: later) ↔
      (mark ∈ [.bang, .equal, .greater, .less] ∧ ∃ second ∈ later.head?,
        second.kind = .symbol .equal ∨ second.kind = .symbol .equalEqual) ∨
      (mark = .slash ∧ ∃ second ∈ later.head?, second.kind = .symbol .slash) := by
  constructor
  · intro fuses
    cases fuses with
    | word isWord =>
      rw [isMark] at isWord
      exact isWord.elim
    | digits kind | fraction kind =>
      rw [isMark] at kind
      cases kind
    | equal kind short goesOn =>
      obtain rfl : mark = _ := Token.Kind.symbol.inj (isMark.symm.trans kind)
      exact .inl ⟨short, _, rfl, goesOn⟩
    | comment kind goesOn =>
      exact .inr ⟨Token.Kind.symbol.inj (isMark.symm.trans kind), _, rfl, goesOn⟩
  · rintro (⟨short, second, member, goesOn⟩ | ⟨rfl, second, member, goesOn⟩)
    · obtain ⟨rest, rfl⟩ := List.head?_eq_some_iff.mp member
      exact .equal isMark short goesOn
    · obtain ⟨rest, rfl⟩ := List.head?_eq_some_iff.mp member
      exact .comment isMark goesOn

end Fusion

/-! ### The first character of a token -/

/-- The first character of a token tells its kind, as far as a token in front of it can go on with
the character. -/
structure Token.Kind.OpensWith (kind : Token.Kind) (first : Char) : Prop where
  letter : Lexeme.startsWord first = true ↔ kind.IsWord
  digit : first.isDigit = true ↔ kind = .number
  equals : first = '=' ↔ kind = .symbol .equal ∨ kind = .symbol .equalEqual
  slash : first = '/' ↔ kind = .symbol .slash
  point : first = '.' ↔ kind = .symbol .dot

theorem Lexeme.continuesWord_iff {character : Char} :
    continuesWord character = true ↔ startsWord character = true ∨ character.isDigit = true := by
  simp only [continuesWord, startsWord, Char.isAlphanum, Bool.or_eq_true]
  exact or_right_comm

theorem Symbol.exists_opening (mark : Symbol) :
    ∃ first others, mark.spelling = first :: others ∧ (Token.Kind.symbol mark).OpensWith first ∧
      (mark = .dot → others = []) := by
  cases mark <;> exact ⟨_, _, rfl,
    ⟨by simp [Token.Kind.IsWord, Lexeme.startsWord], by simp, by simp, by simp, by simp⟩, by simp⟩

namespace Token

theorem Kind.opensWith_quote : Kind.string.OpensWith '"' :=
  ⟨by simp [IsWord, Lexeme.startsWord], by simp, by simp, by simp, by simp⟩

theorem Kind.opensWith_digit {first : Char} (digit : first.isDigit = true) :
    Kind.number.OpensWith first where
  letter := by
    refine ⟨fun letter => ?_, False.elim⟩
    rw [Lexeme.isDigit_of_startsWord letter] at digit
    cases digit
  digit := iff_of_true digit rfl
  equals := iff_of_false (by rintro rfl; cases digit) (by simp)
  slash := iff_of_false (by rintro rfl; cases digit) (by simp)
  point := iff_of_false (by rintro rfl; cases digit) (by simp)

theorem Kind.IsWord.opensWith {kind : Kind} (isWord : kind.IsWord) {first : Char}
    (starts : Lexeme.startsWord first = true) : kind.OpensWith first where
  letter := iff_of_true starts isWord
  digit := by
    rw [Lexeme.isDigit_of_startsWord starts]
    exact iff_of_false (by simp) (by rintro rfl; exact isWord)
  equals := iff_of_false (by rintro rfl; cases starts) (by rintro (rfl | rfl) <;> exact isWord)
  slash := iff_of_false (by rintro rfl; cases starts) (by rintro rfl; exact isWord)
  point := iff_of_false (by rintro rfl; cases starts) (by rintro rfl; exact isWord)

theorem kind_of_content {token : Token} {data : Data}
    (content : token.asLexeme.content = .ok data) : token.kind = data.kind :=
  congrArg Data.kind (Except.ok.inj content)

theorem isWord_of_content {token : Token} {letters : Text}
    (content : token.asLexeme.content = Lexeme.wordContent letters) : token.kind.IsWord := by
  rw [kind_of_content content]
  split <;> trivial

theorem exists_opening {token : Token} (isToken : token.asLexeme.IsToken) :
    ∃ first others, token.lexeme = first :: others ∧ token.kind.OpensWith first ∧
      (token.kind = .symbol .dot → others = []) := by
  obtain ⟨tail, read⟩ := isToken.read
  have form := read.form (show token.asLexeme.content = .ok token.data from rfl)
  generalize shown : token.asLexeme = lexeme at form
  have text : token.lexeme = lexeme.text := congrArg Lexeme.text shown
  have content := congrArg Lexeme.content shown
  cases form with
  | string =>
    have isString : token.kind = .string := kind_of_content content
    exact ⟨_, _, text, isString ▸ Kind.opensWith_quote, by simp [isString]⟩
  | number proper =>
    obtain ⟨first, rest, written, digit⟩ := Numeral.exists_text_eq_cons proper
    have isNumber : token.kind = .number := kind_of_content content
    exact ⟨first, rest, text.trans written, isNumber ▸ Kind.opensWith_digit digit,
      by simp [isNumber]⟩
  | word starts =>
    have isWord := isWord_of_content content
    refine ⟨_, _, text, isWord.opensWith starts, fun isPoint => ?_⟩
    rw [isPoint] at isWord
    exact isWord.elim
  | symbol mark =>
    obtain ⟨first, others, spelled, opens, single⟩ := mark.exists_opening
    have isMark : token.kind = .symbol mark := kind_of_content content
    refine ⟨first, others, text.trans spelled, isMark ▸ opens, fun isPoint => ?_⟩
    exact single (Kind.symbol.inj (isMark.symm.trans isPoint))

end Token

/-! ### Tokens side by side -/

theorem Numeral.notMem_point_iff {numeral : Numeral} (proper : numeral.Proper) :
    '.' ∉ numeral.text ↔ numeral.fraction = [] := by
  by_cases whole : numeral.fraction = []
  · refine iff_of_true (fun member => ?_) whole
    rw [text_of_fraction_nil whole] at member
    cases proper.whole '.' member
  · refine iff_of_false (fun absent => absent ?_) whole
    rw [text_of_fraction_ne_nil whole]
    exact List.mem_append_right _ List.mem_cons_self

theorem joined_cons (first : Token) (later : List Token) :
    joined (first :: later) = first.lexeme ++ joined later := List.flatMap_cons

section Joined

variable {later : List Token} (areTokens : ∀ token ∈ later, token.asLexeme.IsToken)

include areTokens

/-- Whether a run stops at tokens can be told from the kind of the first one. -/
theorem stops_joined_iff (test : Char → Bool) {goesOn : Token.Kind → Prop}
    (opens : ∀ {kind : Token.Kind} {first : Char}, kind.OpensWith first →
      (test first = true ↔ goesOn kind)) :
    Stops test (joined later) ↔ ¬ ∃ second ∈ later.head?, goesOn second.kind := by
  cases later with
  | nil => exact iff_of_true (Text.stops_nil test) (by simp)
  | cons second more =>
    obtain ⟨first, others, written, opening, -⟩ :=
      Token.exists_opening (areTokens second List.mem_cons_self)
    rw [joined_cons, written, List.cons_append, Text.stops_cons_iff, ← Bool.not_eq_true,
      opens opening]
    simp

theorem stops_digits_joined_iff :
    Stops Char.isDigit (joined later) ↔ ¬ ∃ second ∈ later.head?, second.kind = .number :=
  stops_joined_iff areTokens _ Token.Kind.OpensWith.digit

/-- Only the dot is written with a point first, and it is a point and nothing else. -/
theorem joined_eq_point_iff {rest : Text} :
    joined later = '.' :: rest ↔
      ∃ point more, later = point :: more ∧ point.kind = .symbol .dot ∧ rest = joined more := by
  cases later with
  | nil => exact iff_of_false (by simp [joined]) (by simp)
  | cons second more =>
    obtain ⟨first, others, written, opening, single⟩ :=
      Token.exists_opening (areTokens second List.mem_cons_self)
    rw [joined_cons, written, List.cons_append]
    constructor
    · intro split
      obtain ⟨isPoint, behind⟩ := List.cons_eq_cons.mp split
      have isDot := opening.point.mp isPoint
      rw [single isDot, List.nil_append] at behind
      exact ⟨second, more, rfl, isDot, behind.symm⟩
    · rintro ⟨point, others, split, isDot, rfl⟩
      obtain ⟨rfl, rfl⟩ := List.cons_eq_cons.mp split
      rw [opening.point.mpr isDot, single isDot, List.nil_append]

theorem numeral_ends_joined_iff {first : Token} (isNumber : first.kind = .number)
    {numeral : Numeral} (proper : numeral.Proper) (written : first.lexeme = numeral.text) :
    numeral.Ends (joined later) ↔ ¬ Fuses (first :: later) := by
  rw [fuses_iff_of_number isNumber, not_or, Numeral.Ends, stops_digits_joined_iff areTokens,
    written, Numeral.notMem_point_iff proper]
  refine and_congr_right fun _ => ⟨?_, ?_⟩
  -- The point is a token of its own, so the digits behind it are those of a third token.
  · rintro ends ⟨whole, point, more, rfl, isDot, places⟩
    have split := (joined_eq_point_iff areTokens).mpr ⟨point, more, rfl, isDot, rfl⟩
    have stops := ends whole (joined more) split
    rw [stops_digits_joined_iff (List.forall_mem_cons.mp areTokens).2] at stops
    exact stops places
  · intro apart whole rest split
    obtain ⟨point, more, rfl, isDot, rfl⟩ := (joined_eq_point_iff areTokens).mp split
    rw [stops_digits_joined_iff (List.forall_mem_cons.mp areTokens).2]
    exact fun places => apart ⟨whole, point, more, rfl, isDot, places⟩

/-- A token is read in front of other tokens exactly if it does not fuse with them. -/
theorem readBefore_joined_iff {first : Token} (isToken : first.asLexeme.IsToken) :
    first.asLexeme.ReadBefore (joined later) ↔ ¬ Fuses (first :: later) := by
  obtain ⟨tail, read⟩ := isToken.read
  have form := read.form (show first.asLexeme.content = .ok first.data from rfl)
  generalize shown : first.asLexeme = lexeme at form ⊢
  have text : first.lexeme = lexeme.text := congrArg Lexeme.text shown
  have content := congrArg Lexeme.content shown
  cases form with
  | string unquoted =>
    exact iff_of_true (Lexeme.readBefore_string unquoted _)
      (not_fuses_of_string (Token.kind_of_content content))
  | number proper finite =>
    rw [Lexeme.readBefore_number_iff proper finite]
    exact numeral_ends_joined_iff areTokens (Token.kind_of_content content) proper text
  | word starts inside =>
    rw [Lexeme.readBefore_word_iff starts inside,
      fuses_iff_of_word (Token.isWord_of_content content)]
    exact stops_joined_iff areTokens _ fun opening =>
      Lexeme.continuesWord_iff.trans (or_congr opening.letter opening.digit)
  | symbol mark =>
    have equals := stops_joined_iff areTokens (· == '=') fun opening =>
      beq_iff_eq.trans opening.equals
    have slash := stops_joined_iff areTokens (· == '/') fun opening =>
      beq_iff_eq.trans opening.slash
    rw [Lexeme.readBefore_symbol_iff, fuses_iff_of_symbol (Token.kind_of_content content), not_or,
      not_and, not_and, Symbol.Ends, equals, slash]

end Joined

/-! ### The lexemes of joined tokens -/

/-- The lexemes of a text are all there in the text, in order. -/
theorem Text.flatMap_lexemes_sublist (text : Text) :
    (text.lexemes.flatMap Lexeme.text).Sublist text := by
  have sublist (pieces : List Piece) :
      ((pieces.map Piece.lexeme).flatMap Lexeme.text).Sublist (pieces.flatMap Piece.text) := by
    induction pieces with
    | nil => exact List.Sublist.refl []
    | cons piece later inductionHypothesis =>
      rw [List.map_cons, List.flatMap_cons, List.flatMap_cons]
      exact (List.sublist_append_right piece.gap _).append inductionHypothesis
  have whole := sublist text.pieces
  rwa [flatMap_pieces] at whole

/-- Where a lexeme is read from its own text and what follows, and the other lexemes are as long as
what follows, there is no room for a gap in front of the lexeme. -/
theorem Text.readBefore_of_lexemes_cons (lexeme : Lexeme) {tail : Text} {later : List Lexeme}
    (read : lexemes (lexeme.text ++ tail) = lexeme :: later) (more : later ≠ [])
    (full : tail.length ≤ (later.flatMap Lexeme.text).length) :
    lexeme.ReadBefore tail ∧ tail.lexemes = later := by
  have unfinished : core (lexeme.text ++ tail) ≠ [] := by
    intro ended
    rw [lexemes_of_core_eq_nil ended] at read
    exact more (List.cons_eq_cons.mp read).2.symm
  rw [lexemes_of_core_ne_nil unfinished] at read
  obtain ⟨first, behind⟩ := List.cons_eq_cons.mp read
  have here : (piece (lexeme.text ++ tail)).lexeme = lexeme := first
  have readBehind := readBefore_behindPiece unfinished
  have split := piece_append_behindPiece (lexeme.text ++ tail)
  have short := (flatMap_lexemes_sublist (behindPiece (lexeme.text ++ tail))).length_le
  rw [behind] at short
  rw [here] at readBehind
  rw [Piece.text, here, List.append_assoc] at split
  have noGap : (piece (lexeme.text ++ tail)).gap = [] := by
    have lengths := congrArg List.length split
    simp only [List.length_append] at lengths
    exact List.length_eq_zero_iff.mp (by omega)
  rw [noGap, List.nil_append] at split
  have same := List.append_cancel_left split
  rw [same] at readBehind behind
  exact ⟨readBehind, behind⟩

/-- Joined tokens are read back if each of them is read in front of those behind it, and only
then. -/
theorem lexemes_joined_iff {tokens : List Token} :
    (joined tokens).lexemes =
        tokens.map Token.asLexeme ++ [{ text := [], content := .ok .endOfInput }] ↔
      ∀ first later, first :: later <:+ tokens → first.asLexeme.ReadBefore (joined later) := by
  induction tokens with
  | nil => exact iff_of_true (Text.lexemes_of_core_eq_nil rfl) (by simp)
  | cons first later inductionHypothesis =>
    rw [joined_cons, List.map_cons, List.cons_append]
    constructor
    · intro read front back suffix
      -- The text behind the first token is all needed for the other lexemes.
      have full : (joined later).length ≤
          ((later.map Token.asLexeme ++ [Lexeme.front []]).flatMap Lexeme.text).length := by
        rw [List.flatMap_append, List.flatMap_map]
        exact (List.sublist_append_left _ _).length_le
      obtain ⟨readFirst, readLater⟩ := Text.readBefore_of_lexemes_cons first.asLexeme read
        (List.append_ne_nil_of_right_ne_nil _ (List.cons_ne_nil _ [])) full
      rcases List.suffix_cons_iff.mp suffix with whole | behind
      · obtain ⟨rfl, rfl⟩ := List.cons_eq_cons.mp whole
        exact readFirst
      · exact inductionHypothesis.mp readLater front back behind
    · intro read
      have readLater := inductionHypothesis.mpr fun front back suffix =>
        read front back (suffix.trans (List.suffix_cons first later))
      have readFirst := Text.lexemes_cons (read first later List.suffix_rfl)
      rwa [readLater] at readFirst

/-! ### The tokens of a text -/

theorem readBefore_joined_iff_not_fuses {tokens : List Token}
    (areTokens : ∀ token ∈ tokens, token.asLexeme.IsToken) :
    (∀ first later, first :: later <:+ tokens → first.asLexeme.ReadBefore (joined later)) ↔
      ∀ rest, rest <:+ tokens → ¬ Fuses rest := by
  have reads {first : Token} {later : List Token} (suffix : first :: later <:+ tokens) :
      first.asLexeme.ReadBefore (joined later) ↔ ¬ Fuses (first :: later) := by
    obtain ⟨isToken, areLater⟩ :=
      List.forall_mem_cons.mp fun token member => areTokens token (suffix.subset member)
    exact readBefore_joined_iff areLater isToken
  constructor
  · intro read rest suffix fuses
    cases rest with
    | nil => cases fuses
    | cons first later => exact (reads suffix).mp (read first later suffix) fuses
  · intro apart first later suffix
    exact (reads suffix).mpr (apart _ suffix)

/-- Joined lexemes are read back exactly if nothing fuses. The lexemes of the tokens of a text with
nothing between them are read without a failure and as the same tokens if and only if at no point a
token fuses with those behind it. -/
theorem joined_lexemes_read_back_iff (source : Text) :
    ((tokenize (joined source.tokens)).2 = [] ∧
        (joined source.tokens).tokens.map Token.asLexeme = source.tokens.map Token.asLexeme) ↔
      ∀ rest, rest <:+ source.tokens → ¬ Fuses rest := by
  have areTokens : ∀ token ∈ source.tokens, token.asLexeme.IsToken :=
    fun token => Text.isToken_of_mem_tokens
  rw [← readBefore_joined_iff_not_fuses areTokens, ← lexemes_joined_iff]
  constructor
  · rintro ⟨clean, same⟩
    rw [Text.lexemes_of_clean clean, same]
  · intro read
    have clean := (Text.tokenize_of_isToken read (List.forall_mem_map.mpr areTokens)).1
    rw [Text.lexemes_of_clean clean] at read
    exact ⟨clean, List.append_cancel_right read⟩

/-- A point between two numbers becomes a decimal point, and a stray character that kept them apart
in the text does not help. -/
example : (tokenize (joined (Text.tokens "1@.5".toList))).2 = [] ∧
    (joined (Text.tokens "1@.5".toList)).tokens.map Token.lexeme = ["1.5".toList] := by
  decide +kernel

end LoxFront
