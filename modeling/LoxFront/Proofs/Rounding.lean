/-
This file proves what rounding to a magnitude depends on and what it keeps. A fraction and the same
fraction in larger terms are rounded alike, since every step of the rounding looks at a quotient of
the two numbers only. And a magnitude is what its own exact value is rounded to: the whole units of
a magnitude have so many binary digits that just the zeros at their end are dropped.
-/

import LoxFront.Binary64.Shortest

namespace LoxFront

/-! ### The nearest natural number -/

theorem roundHalfEven_scale (numerator denominator : Nat) {factor : Nat} (positive : 0 < factor) :
    roundHalfEven (numerator * factor) (denominator * factor) =
      roundHalfEven numerator denominator := by
  have double : 2 * (numerator % denominator * factor) = 2 * (numerator % denominator) * factor :=
    (Nat.mul_assoc 2 _ _).symm
  unfold roundHalfEven
  rw [Nat.mul_div_mul_right _ _ positive, Nat.mul_mod_mul_right]
  simp only [double, Nat.mul_lt_mul_right positive]

theorem roundHalfEven_multiple (whole : Nat) {denominator : Nat} (positive : 0 < denominator) :
    roundHalfEven (whole * denominator) denominator = whole := by
  unfold roundHalfEven
  rw [Nat.mul_div_cancel _ positive, Nat.mul_mod_left, if_pos (by omega)]

namespace Magnitude

/-! ### The nearest magnitude -/

/-- The rank of the magnitude nearest to a fraction of units, if ranks went on for ever. -/
def nearestCode (scaled denominator : Nat) : Nat :=
  let dropped := droppedBits (scaled / denominator)
  dropped * 2 ^ 52 + roundHalfEven scaled (denominator * 2 ^ dropped)

theorem nearest?_eq (numerator denominator : Nat) :
    nearest? numerator denominator =
      if bound : nearestCode (numerator * 2 ^ places) denominator < 2047 * 2 ^ 52 then
        some { code := nearestCode (numerator * 2 ^ places) denominator, code_lt := bound }
      else none := rfl

theorem nearest?_eq_some {numerator denominator : Nat} {magnitude : Magnitude}
    (code : nearestCode (numerator * 2 ^ places) denominator = magnitude.code) :
    nearest? numerator denominator = some magnitude := by
  have bound := magnitude.code_lt
  rw [← code] at bound
  rw [nearest?_eq, dif_pos bound]
  exact congrArg some (by cases magnitude; cases code; rfl)

theorem nearestCode_scale (scaled denominator : Nat) {factor : Nat} (positive : 0 < factor) :
    nearestCode (scaled * factor) (denominator * factor) = nearestCode scaled denominator := by
  unfold nearestCode
  simp only [Nat.mul_div_mul_right _ _ positive, Nat.mul_right_comm denominator factor,
    roundHalfEven_scale _ _ positive]

theorem nearest?_scale (numerator denominator : Nat) {factor : Nat} (positive : 0 < factor) :
    nearest? (numerator * factor) (denominator * factor) = nearest? numerator denominator := by
  simp only [nearest?_eq, Nat.mul_right_comm numerator factor, nearestCode_scale _ _ positive]

/-! ### Ranks without end -/

/-- The units of a rank, if ranks went on for ever. -/
def unitsAt (rank : Nat) : Nat :=
  if rank < 2 ^ 52 then rank else (2 ^ 52 + rank % 2 ^ 52) * 2 ^ (rank / 2 ^ 52 - 1)

theorem units_eq_unitsAt (magnitude : Magnitude) : magnitude.units = unitsAt magnitude.code := rfl

/-- A rank counts the significand and the bits behind it that are dropped. The largest significand
and one more make the smallest significand with one more bit dropped. -/
theorem unitsAt_significand (dropped : Nat) {significand : Nat}
    (low : dropped = 0 ∨ 2 ^ 52 ≤ significand) (high : significand ≤ 2 ^ 53) :
    unitsAt (dropped * 2 ^ 52 + significand) = significand * 2 ^ dropped := by
  unfold unitsAt
  by_cases small : significand < 2 ^ 52
  · obtain rfl : dropped = 0 := by omega
    rw [if_pos (by omega), Nat.zero_mul, Nat.zero_add, Nat.pow_zero, Nat.mul_one]
  · rw [if_neg (by omega)]
    rcases Nat.lt_or_eq_of_le high with inside | rfl
    · have quotient : (dropped * 2 ^ 52 + significand) / 2 ^ 52 - 1 = dropped := by omega
      have remainder : 2 ^ 52 + (dropped * 2 ^ 52 + significand) % 2 ^ 52 = significand := by omega
      rw [quotient, remainder]
    · have quotient : (dropped * 2 ^ 52 + 2 ^ 53) / 2 ^ 52 - 1 = dropped + 1 := by omega
      have remainder : 2 ^ 52 + (dropped * 2 ^ 52 + 2 ^ 53) % 2 ^ 52 = 2 ^ 52 := by omega
      rw [quotient, remainder, Nat.pow_succ 2 dropped]
      omega

theorem exists_significand (rank : Nat) :
    ∃ dropped significand, rank = dropped * 2 ^ 52 + significand ∧
      (dropped = 0 ∨ 2 ^ 52 ≤ significand) ∧ significand < 2 ^ 53 := by
  by_cases small : rank < 2 ^ 52
  · exact ⟨0, rank, by omega, Or.inl rfl, by omega⟩
  · exact ⟨rank / 2 ^ 52 - 1, rank % 2 ^ 52 + 2 ^ 52, by omega, Or.inr (by omega), by omega⟩

/-! ### Magnitudes themselves -/

theorem zero_code_lt : 0 < 2047 * 2 ^ 52 := by decide

/-- The smallest magnitude. -/
def zero : Magnitude := { code := 0, code_lt := zero_code_lt }

theorem droppedBits_of_lt {wholeUnits : Nat} (small : wholeUnits < 2 ^ 53) :
    droppedBits wholeUnits = 0 := by
  unfold droppedBits
  by_cases zero : wholeUnits = 0
  · rw [zero, Nat.log2_zero]
  · have digits := (Nat.log2_lt zero).mpr small
    omega

theorem droppedBits_of_significand {significand : Nat} (low : 2 ^ 52 ≤ significand)
    (high : significand < 2 ^ 53) (dropped : Nat) :
    droppedBits (significand * 2 ^ dropped) = dropped := by
  have positive := Nat.two_pow_pos dropped
  have digits : (significand * 2 ^ dropped).log2 = 52 + dropped := by
    rw [Nat.log2_eq_iff (Nat.mul_ne_zero (by omega) (by omega)), Nat.pow_add,
      Nat.add_right_comm, Nat.pow_add]
    exact ⟨Nat.mul_le_mul_right _ low, (Nat.mul_lt_mul_right positive).mpr high⟩
  unfold droppedBits
  rw [digits, Nat.add_sub_cancel_left]

/-- No magnitude is moved by rounding. -/
theorem nearestCode_units (magnitude : Magnitude) :
    nearestCode magnitude.units 1 = magnitude.code := by
  obtain ⟨dropped, significand, code, low, high⟩ := exists_significand magnitude.code
  have kept : droppedBits (significand * 2 ^ dropped) = dropped := by
    rcases low with rfl | low
    · rw [Nat.pow_zero, Nat.mul_one, droppedBits_of_lt high]
    · exact droppedBits_of_significand low high dropped
  have whole := roundHalfEven_multiple significand (Nat.two_pow_pos dropped)
  rw [units_eq_unitsAt, code, unitsAt_significand dropped low (Nat.le_of_lt high)]
  simp only [nearestCode, Nat.div_one, Nat.one_mul, kept, whole]

theorem ten_pow_pos (count : Nat) : 0 < 10 ^ count := Nat.pow_pos (by decide)

theorem nearest?_exactDecimal (magnitude : Magnitude) :
    nearest? magnitude.exactDecimal (10 ^ places) = some magnitude := by
  have tens : magnitude.exactDecimal * 2 ^ places = magnitude.units * 10 ^ places := by
    rw [exactDecimal, Nat.mul_assoc, ← Nat.mul_pow]
  have code := nearestCode_scale magnitude.units 1 (ten_pow_pos places)
  rw [Nat.one_mul, nearestCode_units] at code
  refine nearest?_eq_some ?_
  rw [tens, code]

/-! ### The shortest decimal -/

theorem neighbour?_passes {passes : Nat → Bool} {value grid neighbour : Nat}
    (found : neighbour? passes value grid = some neighbour) : passes neighbour = true := by
  unfold neighbour? at found
  dsimp only at found
  split at found
  · next lower upper =>
    obtain rfl := Option.some.inj found
    split
    · exact lower
    · exact upper
  · next lower _ =>
    obtain rfl := Option.some.inj found
    exact lower
  · next _ upper =>
    obtain rfl := Option.some.inj found
    exact upper
  · cases found

theorem nearest?_of_readsBack {magnitude : Magnitude} {decimal : Nat}
    (reads : magnitude.readsBack decimal = true) :
    nearest? decimal (10 ^ places) = some magnitude := by
  unfold readsBack at reads
  exact beq_iff_eq.mp reads

/-- The shortest decimal is rounded to the magnitude again, whichever grid it was found on. -/
theorem nearest?_shortestDecimal (magnitude : Magnitude) :
    nearest? magnitude.shortestDecimal (10 ^ places) = some magnitude := by
  unfold shortestDecimal
  dsimp only
  generalize (Nat.toDigits 10 magnitude.exactDecimal).length = length
  cases found : (List.range' 1 17).findSome? fun digits =>
      magnitude.decimalOn? (10 ^ (length - digits)) with
  | none => rw [Option.getD_none, nearest?_exactDecimal]
  | some decimal =>
    obtain ⟨digits, -, on⟩ := List.exists_of_findSome?_eq_some found
    unfold decimalOn? at on
    rw [Option.getD_some, nearest?_of_readsBack (neighbour?_passes on)]

end Magnitude

end LoxFront
