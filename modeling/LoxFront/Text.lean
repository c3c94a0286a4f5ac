/-
This file fixes what a text is in this library: a list of characters, so that everything said
about texts is said by recursion on a list. It holds the few operations on whole texts that the
other modules share: their UTF-8 bytes, the decimal writing of a count, and lines put under one
another.
-/

namespace LoxFront

/-- A text is the list of its characters. -/
abbrev Text := List Char

/-- What is read from a file or a terminal, and what is written to one. -/
abbrev Bytes := List UInt8

namespace Text

/-! ### Bytes -/

/-- The UTF-8 encoding of a text. -/
def utf8 (text : Text) : Bytes := text.flatMap String.utf8EncodeChar

/-- The number of bytes in the UTF-8 encoding of a text. -/
def utf8Size (text : Text) : Nat :=
  text.foldr (fun character size => character.utf8Size + size) 0

/-- The text that the bytes encode, if they are valid UTF-8. -/
def ofUtf8? (bytes : Bytes) : Option Text :=
  (String.fromUTF8? ⟨bytes.toArray⟩).map String.toList

theorem utf8Size_cons (first : Char) (rest : Text) :
    utf8Size (first :: rest) = first.utf8Size + utf8Size rest := rfl

theorem utf8Size_append (front back : Text) :
    utf8Size (front ++ back) = utf8Size front + utf8Size back := by
  induction front with
  | nil => exact (Nat.zero_add _).symm
  | cons first rest inductionHypothesis =>
    rw [List.cons_append, utf8Size_cons, utf8Size_cons, inductionHypothesis, Nat.add_assoc]

theorem utf8Size_reverse (text : Text) : utf8Size text.reverse = utf8Size text := by
  induction text with
  | nil => rfl
  | cons first rest inductionHypothesis =>
    rw [List.reverse_cons, utf8Size_append, inductionHypothesis, utf8Size_cons, utf8Size_cons,
      Nat.add_comm]
    rfl

theorem utf8_append (front back : Text) : utf8 (front ++ back) = utf8 front ++ utf8 back := by
  simp [utf8]

/-! ### Lines and counts -/

/-- The decimal writing of a count, without leading zeros. -/
def ofCount (count : Nat) : Text := Nat.toDigits 10 count

/-- Texts put under one another: a newline between two neighbours, none at the end. -/
def joinLines (lines : List Text) : Text := ['\n'].intercalate lines

end Text

end LoxFront
