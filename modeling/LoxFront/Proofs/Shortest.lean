/-
This file proves that a number is written with as few significant digits as can be, and that no
other decimal of so many digits is nearer to it. Digits are added one by one until a neighbour of
the exact value on the grid of so many digits is read back. If any decimal of so many digits is
rounded to the magnitude, so is the neighbour on its side, which lies between that decimal and the
exact value. With seventeen digits the grid is fine enough for the nearer neighbour to be read back,
so the search never fails.
-/

import LoxFront.Proofs.Intervals
import LoxFront.Proofs.SignificantDigits

namespace LoxFront

namespace Magnitude

variable {magnitude : Magnitude}

/-! ### Decimals -/

/-- A decimal, counted in the unit of all of them, is rounded to the magnitude. -/
def Reads (magnitude : Magnitude) (decimal : ℚ) : Prop := RoundsTo (decimal / 10 ^ places) magnitude

theorem readsBack_iff {decimal : Nat} :
    magnitude.readsBack decimal = true ↔ magnitude.Reads decimal := by
  rw [readsBack, beq_iff_eq, nearest?_eq_some_iff (ten_pow_pos places), Reads, Nat.cast_pow,
    Nat.cast_ofNat]

theorem readsBack_exactDecimal (magnitude : Magnitude) :
    magnitude.readsBack magnitude.exactDecimal = true := by
  rw [readsBack, nearest?_exactDecimal, beq_self_eq_true]

theorem Reads.of_between {low middle high : ℚ} (lower : magnitude.Reads low)
    (upper : magnitude.Reads high) (above : low ≤ middle) (below : middle ≤ high) :
    magnitude.Reads middle := by
  have positive : (0 : ℚ) ≤ 10 ^ places := by positivity
  exact RoundsTo.of_between lower upper (div_le_div_of_nonneg_right above positive)
    (div_le_div_of_nonneg_right below positive)

theorem ten_pow_places : (10 : ℚ) ^ places = 2 ^ places * 5 ^ places := by
  rw [← mul_pow]
  norm_num

theorem exactDecimal_eq (magnitude : Magnitude) :
    (magnitude.exactDecimal : ℚ) = magnitude.value * 10 ^ places := by
  rw [exactDecimal, value, ten_pow_places, ← mul_assoc, div_mul_cancel₀ _ two_pow_places_pos.ne']
  push_cast
  rfl

/-- A decimal that is off by less than a part in `2⁵⁴` is rounded to the magnitude. -/
theorem reads_of_close {decimal : ℚ}
    (close : 2 ^ 54 * |decimal - magnitude.exactDecimal| < magnitude.exactDecimal) :
    magnitude.Reads decimal := by
  have positive : (0 : ℚ) < 5 ^ places := by positivity
  have units : decimal / 10 ^ places * 2 ^ places = decimal / 5 ^ places := by
    rw [ten_pow_places]
    field_simp
  have exact : (magnitude.exactDecimal : ℚ) = unitsAt magnitude.code * 5 ^ places := by
    rw [exactDecimal, units_eq_unitsAt]
    push_cast
    rfl
  have distance : |decimal / 5 ^ places - unitsAt magnitude.code| * 5 ^ places =
      |decimal - magnitude.exactDecimal| := by
    calc |decimal / 5 ^ places - unitsAt magnitude.code| * 5 ^ places
        = |(decimal / 5 ^ places - unitsAt magnitude.code) * 5 ^ places| := by
          rw [abs_mul, abs_of_pos positive]
      _ = |decimal - magnitude.exactDecimal| := by
          rw [sub_mul, div_mul_cancel₀ _ positive.ne', ← exact]
  refine RoundsTo.of_rank (isNearestRank_of_close ?_)
  rw [units]
  refine lt_of_mul_lt_mul_right ?_ positive.le
  rw [mul_assoc, distance, ← exact]
  exact close

/-! ### The decimal that is taken -/

section Neighbour

variable {passes : Nat → Bool} {value grid neighbour : Nat}

theorem neighbour?_isSome (passed : passes (value / grid * grid) = true ∨
    passes (value / grid * grid + grid) = true) : (neighbour? passes value grid).isSome := by
  unfold neighbour?
  dsimp only
  split
  · rfl
  · rfl
  · rfl
  · next lower upper => simp [lower, upper] at passed

/-- The neighbour that is taken is one of the two, and the other one is no nearer if it passes. -/
theorem neighbour?_eq_some (positive : 0 < grid)
    (found : neighbour? passes value grid = some neighbour) :
    (neighbour = value / grid * grid ∨ neighbour = value / grid * grid + grid) ∧
      ∀ other, other = value / grid * grid ∨ other = value / grid * grid + grid →
        passes other = true → |(neighbour : ℚ) - value| ≤ |(other : ℚ) - value| := by
  have lower : value / grid * grid ≤ value := Nat.div_mul_le_self value grid
  have upper : value < value / grid * grid + grid := Nat.lt_div_mul_add positive
  unfold neighbour? at found
  dsimp only at found
  generalize value / grid * grid = low at found lower upper ⊢
  generalize low + grid = high at found upper ⊢
  have toLow : |(low : ℚ) - value| = value - low := by
    rw [abs_sub_comm, abs_of_nonneg (sub_nonneg.mpr (Nat.cast_le.mpr lower))]
  have toHigh : |(high : ℚ) - value| = high - value :=
    abs_of_nonneg (sub_nonneg.mpr (Nat.cast_le.mpr upper.le))
  split at found
  · obtain rfl := Option.some.inj found
    by_cases nearer : 2 * value < low + high
    · rw [if_pos nearer]
      refine ⟨Or.inl rfl, ?_⟩
      rintro other (rfl | rfl) -
      · exact le_rfl
      · have below : (2 * value : ℚ) < low + other := by exact_mod_cast nearer
        rw [toLow, toHigh]
        linarith
    · rw [if_neg nearer]
      refine ⟨Or.inr rfl, ?_⟩
      rintro other (rfl | rfl) -
      · have above : (other + high : ℚ) ≤ 2 * value := by exact_mod_cast not_lt.mp nearer
        rw [toLow, toHigh]
        linarith
      · exact le_rfl
  · next failed =>
    obtain rfl := Option.some.inj found
    refine ⟨Or.inl rfl, ?_⟩
    rintro other (rfl | rfl) passed
    · exact le_rfl
    · cases failed.symm.trans passed
  · next failed _ =>
    obtain rfl := Option.some.inj found
    refine ⟨Or.inr rfl, ?_⟩
    rintro other (rfl | rfl) passed
    · cases failed.symm.trans passed
    · exact le_rfl
  · cases found

end Neighbour

/-- How many digits the exact value has, counted up to the last one that any magnitude can have. -/
def exactLength (magnitude : Magnitude) : Nat := (Nat.toDigits 10 magnitude.exactDecimal).length

theorem exactDecimal_lt (magnitude : Magnitude) :
    magnitude.exactDecimal < 10 ^ magnitude.exactLength :=
  (Nat.length_toDigits_le_iff (by decide) Nat.length_toDigits_pos).mp (Nat.le_refl _)

theorem le_exactDecimal (positive : 0 < magnitude.exactDecimal) :
    10 ^ (magnitude.exactLength - 1) ≤ magnitude.exactDecimal := by
  by_contra less
  have shorter : magnitude.exactLength - 1 ≠ 0 := by
    intro single
    rw [single] at less
    omega
  have bound := (Nat.length_toDigits_le_iff (by decide) (Nat.pos_of_ne_zero shorter)).mpr
    (Nat.lt_of_not_le less)
  have length : (Nat.toDigits 10 magnitude.exactDecimal).length = magnitude.exactLength := rfl
  omega

/-- The grid of the decimals that have so many digits at the exact value. -/
def grid (magnitude : Magnitude) (count : Nat) : Nat := 10 ^ (magnitude.exactLength - count)

theorem grid_pos (magnitude : Magnitude) (count : Nat) : 0 < magnitude.grid count := ten_pow_pos _

/-- The last decimal on the grid that is not above the exact value. -/
def lower (magnitude : Magnitude) (count : Nat) : Nat :=
  magnitude.exactDecimal / magnitude.grid count * magnitude.grid count

theorem lower_le (magnitude : Magnitude) (count : Nat) :
    magnitude.lower count ≤ magnitude.exactDecimal :=
  Nat.div_mul_le_self _ _

theorem lt_lower_add (magnitude : Magnitude) (count : Nat) :
    magnitude.exactDecimal < magnitude.lower count + magnitude.grid count :=
  Nat.lt_div_mul_add (magnitude.grid_pos count)

/-- A decimal is one of the two neighbours of the exact value on the grid. -/
def IsNeighbour (magnitude : Magnitude) (count decimal : Nat) : Prop :=
  decimal = magnitude.lower count ∨ decimal = magnitude.lower count + magnitude.grid count

/-- Unless the exact value is on the grid itself, it is positive and longer than the decimals on the
grid. -/
theorem pos_and_le_of_lower_ne {count : Nat}
    (offGrid : magnitude.lower count ≠ magnitude.exactDecimal) :
    0 < magnitude.exactDecimal ∧ count ≤ magnitude.exactLength := by
  constructor
  · refine Nat.pos_of_ne_zero fun zero => offGrid ?_
    rw [lower, zero, Nat.zero_div, Nat.zero_mul]
  · by_contra longer
    have single : magnitude.grid count = 1 := by
      rw [grid, Nat.sub_eq_zero_of_le (by omega), Nat.pow_zero]
    rw [lower, single, Nat.div_one, Nat.mul_one] at offGrid
    exact offGrid rfl

/-- If a decimal of so many digits is rounded to the magnitude, a neighbour is read back that is at
least as near. -/
theorem exists_neighbour {count : Nat} {decimal : ℚ} (positive : 0 < count)
    (suffice : DigitsSuffice count decimal) (reads : magnitude.Reads decimal) :
    ∃ neighbour : Nat, magnitude.IsNeighbour count neighbour ∧
      magnitude.readsBack neighbour = true ∧
      |(neighbour : ℚ) - magnitude.exactDecimal| ≤ |decimal - magnitude.exactDecimal| := by
  by_cases onGrid : magnitude.lower count = magnitude.exactDecimal
  · refine ⟨magnitude.exactDecimal, Or.inl onGrid.symm, magnitude.readsBack_exactDecimal, ?_⟩
    rw [sub_self, abs_zero]
    exact abs_nonneg _
  · obtain ⟨nonzero, le⟩ := pos_and_le_of_lower_ne onGrid
    have large := le_exactDecimal nonzero
    have own := readsBack_iff.mp magnitude.readsBack_exactDecimal
    rcases le_or_gt decimal magnitude.exactDecimal with below | above
    · have between : decimal ≤ magnitude.lower count := suffice.le_lower large le positive below
      have low : (magnitude.lower count : ℚ) ≤ magnitude.exactDecimal :=
        Nat.cast_le.mpr (magnitude.lower_le count)
      refine ⟨_, Or.inl rfl, readsBack_iff.mpr (reads.of_between own between low), ?_⟩
      rw [abs_of_nonpos (sub_nonpos.mpr low), abs_of_nonpos (sub_nonpos.mpr below)]
      exact neg_le_neg (sub_le_sub_right between _)
    · have between : (magnitude.lower count + magnitude.grid count : ℕ) ≤ decimal :=
        suffice.upper_le large magnitude.exactDecimal_lt le positive above
      have high : (magnitude.exactDecimal : ℚ) ≤
          (magnitude.lower count + magnitude.grid count : ℕ) :=
        Nat.cast_le.mpr (magnitude.lt_lower_add count).le
      refine ⟨_, Or.inr rfl, readsBack_iff.mpr (own.of_between reads high between), ?_⟩
      rw [abs_of_nonneg (sub_nonneg.mpr high), abs_of_nonneg (sub_nonneg.mpr above.le)]
      exact sub_le_sub_right between _

/-- Seventeen digits are enough: half of the grid is less than a part in `2⁵⁴` of the value. -/
theorem exists_neighbour_seventeen (magnitude : Magnitude) :
    ∃ neighbour : Nat, magnitude.IsNeighbour 17 neighbour ∧
      magnitude.readsBack neighbour = true := by
  by_cases onGrid : magnitude.lower 17 = magnitude.exactDecimal
  · exact ⟨magnitude.exactDecimal, Or.inl onGrid.symm, magnitude.readsBack_exactDecimal⟩
  · obtain ⟨nonzero, le⟩ := pos_and_le_of_lower_ne onGrid
    have fine : magnitude.grid 17 * 10 ^ 16 ≤ magnitude.exactDecimal := by
      have large := le_exactDecimal nonzero
      rwa [show magnitude.exactLength - 1 = magnitude.exactLength - 17 + 16 by omega,
        Nat.pow_add] at large
    have passes {neighbour : Nat}
        (near : 2 * |(neighbour : ℚ) - magnitude.exactDecimal| ≤ magnitude.grid 17) :
        magnitude.readsBack neighbour = true := by
      have fine' : (magnitude.grid 17 * 10 ^ 16 : ℚ) ≤ magnitude.exactDecimal := by
        exact_mod_cast fine
      have positive : (0 : ℚ) < magnitude.grid 17 := Nat.cast_pos.mpr (magnitude.grid_pos 17)
      -- What is left is that `2 ^ 53` is less than `10 ^ 16`.
      refine readsBack_iff.mpr (reads_of_close ?_)
      linarith
    have low := magnitude.lower_le 17
    have high := (magnitude.lt_lower_add 17).le
    rcases Nat.le_total (2 * (magnitude.exactDecimal - magnitude.lower 17)) (magnitude.grid 17)
      with nearLower | nearUpper
    · refine ⟨_, Or.inl rfl, passes ?_⟩
      rw [abs_sub_comm, ← Nat.cast_sub low, abs_of_nonneg (Nat.cast_nonneg _)]
      exact_mod_cast nearLower
    · refine ⟨_, Or.inr rfl, passes ?_⟩
      have near : 2 * (magnitude.lower 17 + magnitude.grid 17 - magnitude.exactDecimal) ≤
          magnitude.grid 17 := by omega
      rw [← Nat.cast_sub high, abs_of_nonneg (Nat.cast_nonneg _)]
      exact_mod_cast near

theorem decimalOn?_isSome {count neighbour : Nat}
    (isNeighbour : magnitude.IsNeighbour count neighbour)
    (passes : magnitude.readsBack neighbour = true) :
    (magnitude.decimalOn? (magnitude.grid count)).isSome := by
  refine neighbour?_isSome ?_
  rcases isNeighbour with rfl | rfl
  · exact Or.inl passes
  · exact Or.inr passes

/-- The decimal that is taken has the fewest digits with which a neighbour is read back. -/
theorem exists_count (magnitude : Magnitude) :
    ∃ count, 0 < count ∧ count ≤ 17 ∧
      magnitude.decimalOn? (magnitude.grid count) = some magnitude.shortestDecimal ∧
      ∀ fewer, 0 < fewer → fewer < count →
        magnitude.decimalOn? (magnitude.grid fewer) = none := by
  have unfolded : magnitude.shortestDecimal = ((List.range' 1 17).findSome? fun digits =>
      magnitude.decimalOn? (magnitude.grid digits)).getD magnitude.exactDecimal := rfl
  cases found : (List.range' 1 17).findSome? fun digits =>
      magnitude.decimalOn? (magnitude.grid digits) with
  | none =>
    have missing := List.findSome?_eq_none_iff.mp found 17 (by decide)
    obtain ⟨neighbour, isNeighbour, passes⟩ := magnitude.exists_neighbour_seventeen
    have taken := decimalOn?_isSome isNeighbour passes
    rw [missing] at taken
    cases taken
  | some decimal =>
    rw [found, Option.getD_some] at unfolded
    obtain ⟨before, count, after, split, taken, missed⟩ := List.findSome?_eq_some_iff.mp found
    have tried {digits : Nat} :
        digits ∈ before ++ count :: after ↔ 1 ≤ digits ∧ digits < 1 + 17 := by
      rw [← split, List.mem_range'_1]
    obtain ⟨positive, bound⟩ := tried.mp (List.mem_append_right before List.mem_cons_self)
    have sorted := List.pairwise_lt_range' (s := 1) (n := 17)
    rw [split] at sorted
    -- The counts are tried in order, so every smaller one was tried before.
    refine ⟨count, positive, by omega, unfolded ▸ taken, fun fewer some less => missed fewer ?_⟩
    rcases List.mem_append.mp (tried.mpr ⟨some, less.trans bound⟩) with earlier | later
    · exact earlier
    · rcases List.mem_cons.mp later with rfl | later
      · exact absurd less (Nat.lt_irrefl _)
      · have ordered := List.rel_of_pairwise_cons (List.pairwise_append.mp sorted).2.1 later
        omega

/-- The count of digits of the decimal that is taken: a neighbour that is read back, and none of the
same count is nearer. With fewer digits no neighbour is read back. -/
theorem exists_least (magnitude : Magnitude) :
    ∃ least, 0 < least ∧ least ≤ 17 ∧ least ≤ magnitude.exactLength ∧
      magnitude.IsNeighbour least magnitude.shortestDecimal ∧
      ∀ count neighbour, 0 < count → magnitude.IsNeighbour count neighbour →
        magnitude.readsBack neighbour = true →
          least ≤ count ∧ (least = count →
            |(magnitude.shortestDecimal : ℚ) - magnitude.exactDecimal| ≤
              |(neighbour : ℚ) - magnitude.exactDecimal|) := by
  obtain ⟨least, positive, enough, taken, missed⟩ := magnitude.exists_count
  have minimal {count neighbour : Nat} (some : 0 < count)
      (isNeighbour : magnitude.IsNeighbour count neighbour)
      (passes : magnitude.readsBack neighbour = true) : least ≤ count := by
    by_contra fewer
    have found := decimalOn?_isSome isNeighbour passes
    rw [missed count some (Nat.lt_of_not_le fewer)] at found
    cases found
  have onGrid : magnitude.IsNeighbour magnitude.exactLength magnitude.exactDecimal := by
    rw [IsNeighbour, lower, grid, Nat.sub_self, Nat.pow_zero, Nat.div_one, Nat.mul_one]
    exact Or.inl rfl
  obtain ⟨isNeighbour, nearest⟩ := neighbour?_eq_some (magnitude.grid_pos least) taken
  refine ⟨least, positive, enough, minimal Nat.length_toDigits_pos onGrid
    magnitude.readsBack_exactDecimal, isNeighbour, fun count neighbour some other passes => ?_⟩
  refine ⟨minimal some other passes, ?_⟩
  rintro rfl
  exact nearest neighbour other passes

/-- A neighbour on the grid of so many digits has so many digits. -/
theorem IsNeighbour.digitsSuffice {count decimal : Nat}
    (isNeighbour : magnitude.IsNeighbour count decimal) (positive : 0 < count)
    (le : count ≤ magnitude.exactLength) : DigitsSuffice count decimal := by
  have whole : 10 ^ count * magnitude.grid count = 10 ^ magnitude.exactLength := by
    rw [grid, ← Nat.pow_add, Nat.add_sub_cancel' le]
  have bound := (Nat.div_lt_iff_lt_mul (magnitude.grid_pos count)).mpr
    (magnitude.exactDecimal_lt.trans_eq whole.symm)
  have few {digits : Nat} (small : digits < 10 ^ count) :
      DigitsSuffice count (digits * magnitude.grid count : ℕ) :=
    ⟨digits, magnitude.exactLength - count, 0, small, by rw [grid]; push_cast; ring⟩
  rcases isNeighbour with rfl | rfl
  · exact few bound
  · rw [lower, ← Nat.succ_mul]
    rcases (Nat.succ_le_of_lt bound).lt_or_eq with less | equal
    · exact few less
    · rw [equal, whole]
      exact ⟨1, magnitude.exactLength, 0, Nat.one_lt_pow positive.ne' (by decide),
        by push_cast; ring⟩

theorem exactDecimal_zero : exactDecimal zero = 0 := by
  have units : units zero = 0 := rfl
  rw [exactDecimal, units, Nat.zero_mul]

/-- Without any digit just zero is written, and zero is written so. -/
theorem shortestDecimal_eq_zero {decimal : ℚ} (suffice : DigitsSuffice 0 decimal)
    (reads : magnitude.Reads decimal) : magnitude.shortestDecimal = 0 ∧ decimal = 0 := by
  obtain ⟨digits, zeros, shift, bound, equal⟩ := suffice
  obtain rfl : digits = 0 := Nat.lt_one_iff.mp bound
  rw [Nat.cast_zero, zero_mul] at equal
  obtain rfl : decimal = 0 :=
    (mul_eq_zero.mp equal).resolve_right (pow_ne_zero shift (by norm_num))
  have own := readsBack_iff.mp (readsBack_exactDecimal zero)
  rw [exactDecimal_zero, Nat.cast_zero] at own
  obtain rfl : magnitude = zero := reads.nearest.unique own.nearest
  obtain ⟨least, positive, -, -, -, minimal⟩ := exists_least zero
  have onGrid : zero.IsNeighbour least 0 := by
    rw [IsNeighbour, lower, exactDecimal_zero, Nat.zero_div, Nat.zero_mul]
    exact Or.inl rfl
  have passes := readsBack_exactDecimal zero
  rw [exactDecimal_zero] at passes
  have nearest := (minimal least 0 positive onGrid passes).2 rfl
  rw [exactDecimal_zero, Nat.cast_zero, sub_zero, sub_zero, abs_zero, abs_nonpos_iff,
    Nat.cast_eq_zero] at nearest
  exact ⟨nearest, rfl⟩

/-- The decimal that is taken is a shortest one that is rounded to the magnitude, and no other one
of its length is nearer to the exact value. -/
theorem shortestDecimal_shortest {count : Nat} {decimal : ℚ} (suffice : DigitsSuffice count decimal)
    (reads : magnitude.Reads decimal) :
    ∃ least ≤ count, DigitsSuffice least magnitude.shortestDecimal ∧
      (least = count → |(magnitude.shortestDecimal : ℚ) - magnitude.exactDecimal| ≤
        |decimal - magnitude.exactDecimal|) := by
  rcases Nat.eq_zero_or_pos count with rfl | some
  · obtain ⟨zero, rfl⟩ := shortestDecimal_eq_zero suffice reads
    rw [zero, Nat.cast_zero]
    exact ⟨0, Nat.le_refl 0, suffice, fun _ => le_rfl⟩
  · obtain ⟨least, positive, -, short, isNeighbour, minimal⟩ := magnitude.exists_least
    obtain ⟨neighbour, other, passes, nearer⟩ := exists_neighbour some suffice reads
    obtain ⟨fewer, nearest⟩ := minimal count neighbour some other passes
    exact ⟨least, fewer, isNeighbour.digitsSuffice positive short,
      fun equal => (nearest equal).trans nearer⟩

end Magnitude

namespace Numeral

variable {numeral : Numeral}

theorem magnitude?_eq_some_iff {magnitude : Magnitude} :
    numeral.magnitude? = some magnitude ↔
      magnitude.Reads (numeral.value * 10 ^ Magnitude.places) := by
  have positive : (10 : ℚ) ^ Magnitude.places ≠ 0 := pow_ne_zero _ (by norm_num)
  rw [magnitude?, Magnitude.nearest?_eq_some_iff numeral.denominator_pos, ← value_eq_div,
    Magnitude.Reads, mul_div_cancel_right₀ _ positive]

end Numeral

/-! ### The numeral of a magnitude -/

namespace Magnitude

variable {magnitude : Magnitude}

theorem value_numeral (magnitude : Magnitude) :
    magnitude.numeral.value * 10 ^ places = magnitude.shortestDecimal := by
  obtain ⟨count, numerator, denominator⟩ := magnitude.exists_scale
  have positive : (magnitude.numeral.denominator : ℚ) ≠ 0 :=
    Nat.cast_ne_zero.mpr magnitude.numeral.denominator_pos.ne'
  have scale : (magnitude.numeral.denominator * 10 ^ count : ℚ) = 10 ^ places := by
    exact_mod_cast denominator
  rw [Numeral.value_eq_div, ← scale, ← numerator, ← mul_assoc, div_mul_cancel₀ _ positive]
  push_cast
  rfl

/-- Where the point stands is not counted. -/
theorem digitsSuffice_mul_iff {count : Nat} {value : ℚ} :
    DigitsSuffice count (value * 10 ^ places) ↔ DigitsSuffice count value := by
  constructor
  · rintro ⟨digits, zeros, shift, bound, equal⟩
    exact ⟨digits, zeros, places + shift, bound, by rw [pow_add, ← mul_assoc, equal]⟩
  · rintro ⟨digits, zeros, shift, bound, equal⟩
    refine ⟨digits, zeros + places, shift, bound, ?_⟩
    rw [mul_right_comm, equal, pow_add, mul_assoc]

theorem abs_sub_exactDecimal (first : ℚ) (magnitude : Magnitude) :
    |first * 10 ^ places - magnitude.exactDecimal| = |first - magnitude.value| * 10 ^ places := by
  have positive : (0 : ℚ) < 10 ^ places := by positivity
  rw [exactDecimal_eq, ← sub_mul, abs_mul, abs_of_pos positive]

end Magnitude

/-- A number is written with as few significant digits as can be, and with the nearest ones of so
many. Seventeen are always enough. -/
theorem numeral_is_shortest (magnitude : Magnitude) :
    magnitude.numeral.significantDigits ≤ 17 ∧
    ∀ numeral : Numeral, numeral.Proper → numeral.magnitude? = some magnitude →
      magnitude.numeral.significantDigits ≤ numeral.significantDigits ∧
      (magnitude.numeral.significantDigits = numeral.significantDigits →
        |magnitude.numeral.value - magnitude.value| ≤ |numeral.value - magnitude.value|) := by
  have digits {count : Nat} : magnitude.numeral.significantDigits ≤ count ↔
      DigitsSuffice count magnitude.shortestDecimal := by
    rw [Numeral.significantDigits_le_iff magnitude.numeral_proper,
      ← Magnitude.digitsSuffice_mul_iff, magnitude.value_numeral]
  constructor
  · obtain ⟨least, positive, enough, short, isNeighbour, -⟩ := magnitude.exists_least
    exact (digits.mpr (isNeighbour.digitsSuffice positive short)).trans enough
  · intro numeral proper denotes
    have suffice := (Numeral.significantDigits_le_iff proper).mp (Nat.le_refl _)
    obtain ⟨least, fewer, written, nearest⟩ := Magnitude.shortestDecimal_shortest
      (Magnitude.digitsSuffice_mul_iff.mpr suffice) (Numeral.magnitude?_eq_some_iff.mp denotes)
    have positive : (0 : ℚ) < 10 ^ Magnitude.places := by positivity
    refine ⟨(digits.mpr written).trans fewer, fun equal => ?_⟩
    have close := nearest (Nat.le_antisymm fewer (equal ▸ digits.mpr written))
    rw [← magnitude.value_numeral, Magnitude.abs_sub_exactDecimal,
      Magnitude.abs_sub_exactDecimal] at close
    exact le_of_mul_le_mul_right close positive

/-- The largest magnitude needs all seventeen digits. -/
example : Numeral.significantDigits
    (Magnitude.numeral { code := 2047 * 2 ^ 52 - 1, code_lt := by decide }) = 17 := by
  decide +kernel

end LoxFront
