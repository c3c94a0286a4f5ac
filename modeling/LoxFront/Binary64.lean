/-
This file defines the double-precision numbers of a Lox text: sign, magnitude, the two
infinities and not-a-number. A finite magnitude is kept as its rank among all finite magnitudes,
which is also the pattern of its bits without the sign, so that two magnitudes are equal exactly
when their ranks are.
-/

namespace LoxFront

/-- A power of natural numbers is always the one of the core library, also where a theory of
algebra has brought in powers of its own. -/
@[default_instance high]
instance (priority := high) corePower : Pow Nat Nat := instPowNat

/-- A finite magnitude: the `code`-th number, counted from zero, of the finite doubles that are
not negative. -/
structure Magnitude where
  /-- How many magnitudes are smaller. -/
  code : Nat
  /-- There are finitely many finite magnitudes. -/
  code_lt : code < 2047 * 2 ^ 52
  deriving DecidableEq

/-- A double-precision number. All patterns that are not a number count as one value. -/
inductive Binary64
  | nan
  | infinity (negative : Bool)
  | finite (negative : Bool) (magnitude : Magnitude)
  deriving DecidableEq

namespace Magnitude

/-- The binary places of the smallest positive magnitude, which is two to the minus this. It is also
the number of decimal places that every magnitude can be written with. -/
def places : Nat := 1074

/-- The value of a magnitude, counted in the smallest positive one. Below rank `2⁵²` the magnitudes
stand one unit apart, and so do the next `2⁵²`; from there on the distance doubles after every `2⁵²`
of them. -/
def units (magnitude : Magnitude) : Nat :=
  if magnitude.code < 2 ^ 52 then magnitude.code
  else (2 ^ 52 + magnitude.code % 2 ^ 52) * 2 ^ (magnitude.code / 2 ^ 52 - 1)

end Magnitude

namespace Binary64

/-! ### Bit patterns -/

/-- The number with a given pattern of 64 bits: the sign is the highest bit, and the other bits
are the rank of the magnitude. Ranks past the finite ones are infinity and then not-a-number. -/
def ofPattern (pattern : Nat) : Binary64 :=
  let negative := decide (2 ^ 63 ≤ pattern)
  let code := pattern % 2 ^ 63
  if bound : code < 2047 * 2 ^ 52 then .finite negative { code, code_lt := bound }
  else if code = 2047 * 2 ^ 52 then .infinity negative
  else .nan

/-- The pattern of a number. Not-a-number has no pattern of its own. -/
def pattern? : Binary64 → Option Nat
  | .nan => none
  | .infinity negative => some ((if negative then 2 ^ 63 else 0) + 2047 * 2 ^ 52)
  | .finite negative magnitude => some ((if negative then 2 ^ 63 else 0) + magnitude.code)

/-! ### Comparison -/

/-- Numeric equality: not-a-number differs from everything, also from itself, and the two zeros
are equal. -/
def numericallyEqual : Binary64 → Binary64 → Bool
  | .infinity first, .infinity second => first == second
  | .finite firstSign first, .finite secondSign second =>
    first.code == second.code && (firstSign == secondSign || first.code == 0)
  | _, _ => false

end Binary64

end LoxFront
