/-
This file proves that tokens survive being written anew. The lexemes of the tokens of a text, in
order and with a separator between any two of them, are read as the same tokens again, whatever the
text around them was and whatever could not be read there. A token is read in front of a blank as it
was read in front of the text it came from, so the separated lexemes come back one by one.
-/

import LoxFront.Proofs.Layout

namespace LoxFront

/-! ### The tokens of a text -/

/-- The tokens of a text in front of the end mark. -/
def Text.tokens (source : Text) : List Token :=
  (tokenize source).1.filter fun token => !token.isEnd

/-- A lexeme that is a token, and is read somewhere. -/
structure Lexeme.IsToken (lexeme : Lexeme) : Prop where
  read : ∃ tail, lexeme.ReadBefore tail
  content : ∃ data, lexeme.content = .ok data

/-- Every token stays what it is in front of a blank or the end. -/
theorem Lexeme.IsToken.readBefore_of_spaced {lexeme : Lexeme} (isToken : lexeme.IsToken)
    {tail : Text} (spaced : tail.Spaced) : lexeme.ReadBefore tail := by
  obtain ⟨back, read⟩ := isToken.read
  obtain ⟨data, content⟩ := isToken.content
  have closed : lexeme.content ≠ .error .unclosedString := by
    rw [content]
    intro equal
    cases equal
  have whole : lexeme.ReadBefore ([] ++ back) := read
  exact whole.cut closed spaced

namespace Text

/-- What is read of a text, the end mark apart, is read in front of the text behind it. -/
theorem readBefore_of_mem_lexemes {text : Text} {lexeme : Lexeme} (member : lexeme ∈ text.lexemes)
    (notEnd : lexeme.content ≠ .ok .endOfInput) : ∃ tail, lexeme.ReadBefore tail := by
  obtain ⟨rest, rfl⟩ := exists_of_mem_lexemes member
  exact ⟨_, readBefore_behindPiece (mt Lexeme.front_content_eq_end.mpr notEnd)⟩

theorem isToken_of_mem_tokens {source : Text} {token : Token} (member : token ∈ source.tokens) :
    token.asLexeme.IsToken := by
  obtain ⟨inSource, unmarked⟩ := List.mem_filter.mp member
  have notEnd : token.asLexeme.content ≠ .ok .endOfInput := by
    intro marked
    rw [Token.isEnd_iff.mpr (Except.ok.inj marked)] at unmarked
    cases unmarked
  exact ⟨readBefore_of_mem_lexemes (asLexeme_mem_lexemes inSource) notEnd, token.data, rfl⟩

end Text

/-- A text with nothing but tokens in front of its end is read without a failure. -/
theorem Text.tokenize_of_isToken {text : Text} {lexemes : List Lexeme}
    (read : text.lexemes = lexemes ++ [{ text := [], content := .ok .endOfInput }])
    (isToken : ∀ lexeme ∈ lexemes, lexeme.IsToken) :
    (tokenize text).2 = [] ∧ (tokenize text).1.map Token.asLexeme = text.lexemes := by
  refine tokenize_of_ok fun lexeme member => ?_
  rw [read] at member
  rcases List.mem_append.mp member with inside | last
  · exact (isToken lexeme inside).content
  · rw [List.mem_singleton.mp last]
    exact ⟨.endOfInput, rfl⟩

/-- A text that is read without a failure has nothing but tokens in front of its end. -/
theorem Text.lexemes_of_clean {text : Text} (clean : (tokenize text).2 = []) :
    text.lexemes =
      text.tokens.map Token.asLexeme ++ [{ text := [], content := .ok .endOfInput }] := by
  have fine : ∀ lexeme ∈ text.lexemes, ∃ data, lexeme.content = .ok data := by
    intro lexeme member
    obtain ⟨piece, pieceMember, rfl⟩ := List.mem_map.mp member
    cases content : piece.lexeme.content with
    | ok data => exact ⟨data, rfl⟩
    | error cause =>
      obtain ⟨error, found, -⟩ := exists_error_of_content pieceMember content
      rw [clean] at found
      cases found
  obtain ⟨before, gap, split, -, -, unmarked⟩ := text.exists_last_piece
  have lexemes : text.lexemes =
      before.map Piece.lexeme ++ [{ text := [], content := .ok .endOfInput }] := by
    rw [Text.lexemes, split, List.map_append]
    rfl
  have written := (tokenize_of_ok fine).2
  rw [lexemes] at written
  have notEnds : ∀ lexeme ∈ before.map Piece.lexeme, lexeme.content ≠ .ok .endOfInput :=
    List.forall_mem_map.mpr unmarked
  obtain ⟨tokens, mark, whole, inFront, isEnd, kept⟩ := Token.exists_mark written notEnds
  have tokensEq : text.tokens = tokens := by
    rw [Text.tokens, whole, List.filter_append, List.filter_eq_self.mpr kept]
    simp [isEnd]
  rw [lexemes, tokensEq, inFront]

/-! ### Lexemes with separators between them -/

/-- The text has the words in order, each with a separator behind it, which the last may lack. -/
inductive Spread : List Text → Text → Prop
  | nil : Spread [] []
  | last (word : Text) : Spread [word] word
  | cons {word separator text : Text} {words : List Text}
      (separates : Trivia.Separator separator) (behind : Spread words text) :
      Spread (word :: words) (word ++ (separator ++ text))

theorem lexemes_of_spread {words : List Text} {text : Text} (spread : Spread words text)
    {lexemes : List Lexeme} (written : lexemes.map Lexeme.text = words)
    (isToken : ∀ lexeme ∈ lexemes, lexeme.IsToken) :
    text.lexemes = lexemes ++ [{ text := [], content := .ok .endOfInput }] := by
  have ended : Text.lexemes [] = [{ text := [], content := .ok .endOfInput }] :=
    Text.lexemes_of_core_eq_nil rfl
  induction spread generalizing lexemes with
  | nil =>
    obtain rfl := List.map_eq_nil_iff.mp written
    exact ended
  | last word =>
    obtain ⟨lexeme, rfl, rfl⟩ := List.map_eq_singleton_iff.mp written
    have read : lexeme.ReadBefore [] :=
      (isToken lexeme List.mem_cons_self).readBefore_of_spaced Text.spaced_nil
    have again := Text.lexemes_cons read
    rwa [List.append_nil, ended] at again
  | @cons word separator text words separates behind inductionHypothesis =>
    obtain ⟨lexeme, later, rfl, rfl, writtenLater⟩ := List.map_eq_cons_iff.mp written
    obtain ⟨first, others⟩ := List.forall_mem_cons.mp isToken
    have passed : Text.lexemes (separator ++ text) = text.lexemes :=
      Text.lexemes_congr (Text.core_append_of_closed separates.closed text)
    rw [Text.lexemes_cons (first.readBefore_of_spaced (separates.spaced text)), passed,
      inductionHypothesis writtenLater others, List.cons_append]

/-- Separated lexemes are read back. The lexemes of the tokens of a text, with closed trivia in
front, a separator between any two of them, and a separator or nothing behind the last one, are read
without a failure, as the same tokens with an end mark behind them. -/
theorem separated_lexemes_read_back {source leading text : Text} (leads : Trivia.Closed leading)
    (spread : Spread (source.tokens.map Token.lexeme) text) :
    (tokenize (leading ++ text)).2 = [] ∧
      (tokenize (leading ++ text)).1.map Token.asLexeme =
        source.tokens.map Token.asLexeme ++ [{ text := [], content := .ok .endOfInput }] := by
  have written : (source.tokens.map Token.asLexeme).map Lexeme.text =
      source.tokens.map Token.lexeme := List.map_map
  have isToken : ∀ lexeme ∈ source.tokens.map Token.asLexeme, lexeme.IsToken := by
    intro lexeme member
    obtain ⟨token, tokenMember, rfl⟩ := List.mem_map.mp member
    exact Text.isToken_of_mem_tokens tokenMember
  have lexemes := lexemes_of_spread spread written isToken
  rw [← Text.lexemes_congr (Text.core_append_of_closed leads text)] at lexemes
  rw [← lexemes]
  exact Text.tokenize_of_isToken lexemes isToken

/-- The tokens of a text with a stray character come back in a text with comments, which does not
take the two slashes inside the string for one. -/
theorem separated_lexemes_read_back_behind_comments :
    Trivia.Closed "//a\n".toList ∧
      Spread ((Text.tokens "1./\"//\"@".toList).map Token.lexeme)
        "1\n.\t//c\n/ \"//\"".toList ∧
      (tokenize ("//a\n".toList ++ "1\n.\t//c\n/ \"//\"".toList)).2 = [] ∧
      (tokenize ("//a\n".toList ++ "1\n.\t//c\n/ \"//\"".toList)).1.map Token.asLexeme =
        (Text.tokens "1./\"//\"@".toList).map Token.asLexeme ++
          [{ text := [], content := .ok .endOfInput }] := by
  have leads : Trivia.Closed "//a\n".toList := @Trivia.Closed.comment ['a'] [] (by decide) .nil
  have newline : Trivia.Separator ['\n'] := ⟨_, _, rfl, rfl, .nil⟩
  have comment : Trivia.Separator ['\t', '/', '/', 'c', '\n'] :=
    ⟨_, _, rfl, rfl, @Trivia.Closed.comment ['c'] [] (by decide) .nil⟩
  have space : Trivia.Separator [' '] := ⟨_, _, rfl, rfl, .nil⟩
  have words : (Text.tokens "1./\"//\"@".toList).map Token.lexeme =
      [['1'], ['.'], ['/'], ['"', '/', '/', '"']] := by decide +kernel
  have spread : Spread ((Text.tokens "1./\"//\"@".toList).map Token.lexeme)
      "1\n.\t//c\n/ \"//\"".toList := by
    rw [words]
    exact .cons newline (.cons comment (.cons space (.last _)))
  exact ⟨leads, spread, separated_lexemes_read_back leads spread⟩

end LoxFront
