/-
This file rounds an exact fraction to the nearest finite magnitude. The fraction is first counted
in units of the smallest magnitude, then cut to 53 significant bits, and the cut goes to the
nearest neighbour, a tie to the even one.
-/

import LoxFront.Binary64

namespace LoxFront

/-- The natural number nearest to a fraction, the even one of two equally near. -/
def roundHalfEven (numerator denominator : Nat) : Nat :=
  let quotient := numerator / denominator
  let remainder := numerator % denominator
  if 2 * remainder < denominator then quotient
  else if denominator < 2 * remainder then quotient + 1
  else quotient + quotient % 2

namespace Magnitude

/-- How many bits of the whole part of a value, counted in units, are dropped so that at most 53
significant ones are kept. -/
def droppedBits (wholeUnits : Nat) : Nat := wholeUnits.log2 - 52

/-- The finite magnitude nearest to a fraction, the one of even rank if two are equally near.
There is none from half a step above the largest magnitude on. -/
def nearest? (numerator denominator : Nat) : Option Magnitude :=
  let scaled := numerator * 2 ^ places
  let dropped := droppedBits (scaled / denominator)
  let code := dropped * 2 ^ 52 + roundHalfEven scaled (denominator * 2 ^ dropped)
  if bound : code < 2047 * 2 ^ 52 then some { code, code_lt := bound } else none

end Magnitude

end LoxFront
