/-
This file writes a number in decimal with the fewest digits that read back to the same number.
For each count of digits the two decimals next to the exact value are tried by reading them; the
first count at which one of them reads back is taken. There is never an exponent: the digits are
padded with zeros up to the point.
-/

import LoxFront.Numeral

namespace LoxFront

namespace Magnitude

/-! ### Decimals in a fixed unit

Every finite magnitude is a whole multiple of the smallest one, which is two to the minus `places`,
hence also of ten to the minus `places`. Decimals are counted in that unit here, so that they are
natural numbers. -/

/-- The exact value of a magnitude as a decimal. -/
def exactDecimal (magnitude : Magnitude) : Nat := magnitude.units * 5 ^ places

/-- Whether a decimal reads back to the magnitude. -/
def readsBack (magnitude : Magnitude) (decimal : Nat) : Bool :=
  nearest? decimal (10 ^ places) == some magnitude

/-- Of the two neighbours of a value on a grid, the nearer one that passes a test, and the upper one
if both do and are equally near. -/
def neighbour? (passes : Nat → Bool) (value grid : Nat) : Option Nat :=
  let lower := value / grid * grid
  let upper := lower + grid
  match passes lower, passes upper with
  | true, true => some (if 2 * value < lower + upper then lower else upper)
  | true, false => some lower
  | false, true => some upper
  | false, false => none

/-- The decimal on a grid that reads back to the magnitude and is next to its exact value. -/
def decimalOn? (magnitude : Magnitude) (grid : Nat) : Option Nat :=
  neighbour? magnitude.readsBack magnitude.exactDecimal grid

/-- The decimal with the fewest significant digits that reads back to the magnitude. Seventeen
digits are always enough. -/
def shortestDecimal (magnitude : Magnitude) : Nat :=
  let length := (Nat.toDigits 10 magnitude.exactDecimal).length
  let attempt := fun digits => magnitude.decimalOn? (10 ^ (length - digits))
  ((List.range' 1 17).findSome? attempt).getD magnitude.exactDecimal

/-! ### Writing -/

/-- The digits after the point of a decimal, without zeros at the end. -/
def fractionDigits (decimal : Nat) : Text :=
  let digits := Nat.toDigits 10 (decimal % 10 ^ places)
  let padded := List.replicate (places - digits.length) '0' ++ digits
  (padded.reverse.dropWhile fun digit => digit == '0').reverse

/-- The shortest numeral that denotes the magnitude. -/
def numeral (magnitude : Magnitude) : Numeral where
  whole := Nat.toDigits 10 (magnitude.shortestDecimal / 10 ^ places)
  fraction := fractionDigits magnitude.shortestDecimal

/-- The magnitude in decimal. -/
def text (magnitude : Magnitude) : Text := magnitude.numeral.text

end Magnitude

/-- The number in decimal, or the name of a value that is not finite. The sign of zero is
written. -/
def Binary64.text : Binary64 → Text
  | .nan => "NaN".toList
  | .infinity negative => if negative then "-inf".toList else "inf".toList
  | .finite negative magnitude =>
    if negative then '-' :: magnitude.text else magnitude.text

end LoxFront
