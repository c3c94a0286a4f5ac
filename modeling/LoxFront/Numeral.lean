/-
This file defines a numeral: decimal digits, and after a point more digits if there are any. It
says how a numeral is written, which numeral stands at the front of a text, and which magnitude a
numeral denotes.
-/

import LoxFront.Text
import LoxFront.Binary64.Rounding

namespace LoxFront

/-- The digits of a number before and after the point. Without digits after the point there is no
point either. -/
structure Numeral where
  whole : Text
  fraction : Text := []
  deriving DecidableEq

namespace Numeral

/-- A numeral as it is written. -/
def text (numeral : Numeral) : Text :=
  if numeral.fraction.isEmpty then numeral.whole
  else numeral.whole ++ '.' :: numeral.fraction

/-- The longest numeral at the front of a text. A point belongs to it only if a digit follows. -/
def front (text : Text) : Numeral where
  whole := text.takeWhile Char.isDigit
  fraction :=
    match text.dropWhile Char.isDigit with
    | '.' :: rest => rest.takeWhile Char.isDigit
    | _ => []

/-- The number that the digits form when the point is left out. -/
def numerator (numeral : Numeral) : Nat :=
  Nat.ofDigitChars 10 (numeral.whole ++ numeral.fraction) 0

/-- What the point divides the digits by. -/
def denominator (numeral : Numeral) : Nat := 10 ^ numeral.fraction.length

/-- The magnitude nearest to the exact value of the numeral, unless the value is too large. -/
def magnitude? (numeral : Numeral) : Option Magnitude :=
  Magnitude.nearest? numeral.numerator numeral.denominator

end Numeral

end LoxFront
