/-
This file describes which values are rounded to a magnitude. They form an interval: how much nearer
a value is to one number than to another changes in one direction along the values, so what lies
between two values of the interval is in it. And the interval is not small against the magnitude:
from a magnitude to the next one on either side is at least a part in `2⁵³` of it, so all values
that are off by less than half of that are rounded to it.
-/

import LoxFront.Proofs.Nearest

namespace LoxFront

namespace Magnitude

/-! ### What is rounded to a magnitude -/

/-- The value is rounded to the magnitude. -/
structure RoundsTo (exact : ℚ) (magnitude : Magnitude) : Prop where
  nearest : IsNearest exact magnitude
  small : exact < overflow

variable {magnitude : Magnitude}

theorem nearest?_eq_some_iff {numerator denominator : Nat} (positive : 0 < denominator) :
    nearest? numerator denominator = some magnitude ↔
      RoundsTo (numerator / denominator) magnitude := by
  constructor
  · intro found
    have rounded : (nearest? numerator denominator).isSome := by rw [found, Option.isSome_some]
    exact ⟨isNearest_of_nearest? positive found, (nearest?_isSome_iff positive).mp rounded⟩
  · rintro ⟨nearest, small⟩
    obtain ⟨other, found⟩ := Option.isSome_iff_exists.mp ((nearest?_isSome_iff positive).mpr small)
    rw [found, (isNearest_of_nearest? positive found).unique nearest]

section Margin

variable {exact own other : ℚ}

/-- By how much one square of a distance exceeds the other. -/
theorem sq_sub_sq_eq_margin :
    (exact - other) ^ 2 - (exact - own) ^ 2 = (own - other) * (2 * exact - own - other) := by
  ring

theorem abs_sub_lt_iff_margin :
    |exact - own| < |exact - other| ↔ 0 < (own - other) * (2 * exact - own - other) := by
  rw [← sq_lt_sq, ← sq_sub_sq_eq_margin, sub_pos]

theorem abs_sub_eq_iff_margin :
    |exact - own| = |exact - other| ↔ 0 = (own - other) * (2 * exact - own - other) := by
  rw [← sq_eq_sq_iff_abs_eq_abs, ← sq_sub_sq_eq_margin, eq_sub_iff_add_eq, zero_add]

end Margin

/-- What lies between two values that are rounded to a magnitude is rounded to it too: how much
nearer one number is than another changes in one direction along the values. -/
theorem RoundsTo.of_between {low middle high : ℚ} (lower : RoundsTo low magnitude)
    (upper : RoundsTo high magnitude) (above : low ≤ middle) (below : middle ≤ high) :
    RoundsTo middle magnitude := by
  refine ⟨fun other differs => ?_, below.trans_lt upper.small⟩
  have nearLow := lower.nearest other differs
  have nearHigh := upper.nearest other differs
  rw [abs_sub_lt_iff_margin, abs_sub_eq_iff_margin] at nearLow nearHigh ⊢
  -- The margin is linear in the value, so that in the middle is at least that at one of the ends.
  have least : ∃ margin, margin ≤ (magnitude.value - other.value) *
        (2 * middle - magnitude.value - other.value) ∧
      (0 < margin ∨ 0 = margin ∧ magnitude.significand % 2 = 0) := by
    rcases le_total other.value magnitude.value with smaller | larger
    · refine ⟨_, mul_le_mul_of_nonneg_left ?_ (sub_nonneg.mpr smaller), nearLow⟩
      linarith
    · refine ⟨_, mul_le_mul_of_nonpos_left ?_ (sub_nonpos.mpr larger), nearHigh⟩
      linarith
  obtain ⟨margin, enough, positive | ⟨zero, even⟩⟩ := least
  · exact Or.inl (positive.trans_le enough)
  · rcases (zero.trans_le enough).lt_or_eq with less | equal
    · exact Or.inl less
    · exact Or.inr ⟨equal, even⟩

/-! ### Values that are close to a magnitude -/

/-- From each rank to the one before it is at least a part in `2⁵³`. -/
theorem unitsAt_le_gap {first second : Nat} (less : first < second) :
    unitsAt second ≤ 2 ^ 53 * (unitsAt second - unitsAt first) := by
  obtain ⟨rank, rfl⟩ := Nat.exists_eq_add_one_of_ne_zero (Nat.ne_zero_of_lt less)
  obtain ⟨dropped, step, bound⟩ := unitsAt_succ rank
  have before := unitsAt_strictMono.monotone (Nat.le_of_lt_succ less)
  refine bound.trans (Nat.mul_le_mul_left _ ?_)
  omega

theorem unitsAt_le_abs {rank other : Nat} (differs : other ≠ rank) :
    (unitsAt rank : ℚ) ≤ 2 ^ 53 * |(unitsAt other : ℚ) - unitsAt rank| := by
  have gap {first second : Nat} (less : first < second) :
      (unitsAt second : ℚ) ≤ 2 ^ 53 * (unitsAt second - unitsAt first) ∧
        (unitsAt first : ℚ) ≤ unitsAt second := by
    have ordered := (unitsAt_strictMono less).le
    have natural := unitsAt_le_gap less
    refine ⟨?_, Nat.cast_le.mpr ordered⟩
    rw [← Nat.cast_sub ordered]
    exact_mod_cast natural
  rcases Nat.lt_or_gt_of_ne differs with smaller | larger
  · obtain ⟨wide, ordered⟩ := gap smaller
    rwa [abs_sub_comm, abs_of_nonneg (sub_nonneg.mpr ordered)]
  · obtain ⟨wide, ordered⟩ := gap larger
    rw [abs_of_nonneg (sub_nonneg.mpr ordered)]
    exact ordered.trans wide

theorem isNearestRank_of_close {units : ℚ} {rank : Nat}
    (close : 2 ^ 54 * |units - unitsAt rank| < unitsAt rank) : IsNearestRank units rank := by
  intro other differs
  have apart := unitsAt_le_abs differs
  have triangle := abs_sub_le (unitsAt other : ℚ) units (unitsAt rank)
  rw [abs_sub_comm (unitsAt other : ℚ) units] at triangle
  left
  linarith

/-- A rank that is the nearest of all ranks and is that of a magnitude has not overflown. -/
theorem RoundsTo.of_rank {exact : ℚ}
    (nearest : IsNearestRank (exact * 2 ^ places) magnitude.code) : RoundsTo exact magnitude := by
  refine ⟨nearest.isNearest, ?_⟩
  have stepped : 2047 * 2 ^ 52 = 2045 * 2 ^ 52 + 2 ^ 53 := by decide
  have bound := magnitude.code_lt
  rwa [stepped, nearest.lt_iff, ← overflow_mul, mul_lt_mul_iff_left₀ two_pow_places_pos] at bound

end Magnitude

end LoxFront
