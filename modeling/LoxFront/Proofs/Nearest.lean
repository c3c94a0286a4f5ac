/-
This file proves rounding to a magnitude exact. Ranks are let go on past the largest magnitude, and
the rank that a value is rounded to is shown to be nearest among all of them: on the grid of the
bits that are kept the rounding is that of a natural number, and the ranks that are not on this grid
are below the first number that fills all of these bits. Overflow then needs no rounding of its own.
A value is rounded past the largest magnitude from the middle of the step behind it on, the middle
included, because the rank behind the step is even.
-/

import Mathlib.Algebra.Order.Field.Rat
import Mathlib.Tactic.FieldSimp
import Mathlib.Tactic.Linarith
import Mathlib.Tactic.Positivity
import Mathlib.Tactic.Ring
import LoxFront.Proofs.Rounding

namespace LoxFront

/-! ### The nearest natural number -/

/-- The rounding is off by less than a half, or by just a half and to an even number. -/
theorem roundHalfEven_close (numerator : Nat) {denominator : Nat} (positive : 0 < denominator) :
    |(numerator / denominator : ℚ) - roundHalfEven numerator denominator| < 1 / 2 ∨
      |(numerator / denominator : ℚ) - roundHalfEven numerator denominator| = 1 / 2 ∧
        roundHalfEven numerator denominator % 2 = 0 := by
  have positiveRat : (0 : ℚ) < denominator := Nat.cast_pos.mpr positive
  have whole : (denominator * (numerator / denominator : ℕ) + (numerator % denominator : ℕ) : ℚ) =
      numerator := by
    exact_mod_cast Nat.div_add_mod numerator denominator
  have split : (numerator / denominator : ℚ) =
      (numerator / denominator : ℕ) + (numerator % denominator : ℕ) / denominator := by
    rw [← whole]
    field_simp
  have nonnegative : (0 : ℚ) ≤ (numerator % denominator : ℕ) / denominator := by positivity
  have below : ((numerator % denominator : ℕ) / denominator : ℚ) < 1 := by
    rw [div_lt_one positiveRat, Nat.cast_lt]
    exact Nat.mod_lt _ positive
  unfold roundHalfEven
  dsimp only
  generalize numerator / denominator = quotient at split
  generalize numerator % denominator = remainder at split nonnegative below
  rw [split]
  rcases Nat.lt_trichotomy (2 * remainder) denominator with low | middle | high
  · have less : (remainder / denominator : ℚ) < 1 / 2 := by
      rw [div_lt_div_iff₀ positiveRat two_pos, one_mul, mul_comm]
      exact_mod_cast low
    rw [if_pos low, abs_lt]
    left
    constructor <;> linarith
  · have half : (remainder / denominator : ℚ) = 1 / 2 := by
      rw [div_eq_div_iff positiveRat.ne' two_ne_zero, one_mul, mul_comm]
      exact_mod_cast middle
    rw [if_neg (by omega), if_neg (by omega), half]
    right
    refine ⟨?_, by omega⟩
    rcases Nat.mod_two_eq_zero_or_one quotient with even | odd
    · rw [even, add_zero, add_sub_cancel_left, abs_of_pos (by norm_num)]
    · rw [odd, Nat.cast_add, Nat.cast_one, add_sub_add_left_eq_sub]
      norm_num
  · have more : (1 / 2 : ℚ) < remainder / denominator := by
      rw [div_lt_div_iff₀ two_pos positiveRat, one_mul, mul_comm (remainder : ℚ)]
      exact_mod_cast high
    rw [if_neg (by omega), if_pos high, Nat.cast_add, Nat.cast_one, abs_lt]
    left
    constructor <;> linarith

/-- Any other natural number is further away, or as far, and then the nearest one is even. -/
theorem roundHalfEven_nearest (numerator : Nat) {denominator : Nat} (positive : 0 < denominator)
    {other : Nat} (differs : other ≠ roundHalfEven numerator denominator) :
    |(numerator / denominator : ℚ) - roundHalfEven numerator denominator| <
        |(numerator / denominator : ℚ) - other| ∨
      |(numerator / denominator : ℚ) - roundHalfEven numerator denominator| =
          |(numerator / denominator : ℚ) - other| ∧
        roundHalfEven numerator denominator % 2 = 0 := by
  have close := roundHalfEven_close numerator positive
  generalize roundHalfEven numerator denominator = nearest at differs close ⊢
  generalize (numerator / denominator : ℚ) = value at close ⊢
  have apart : (1 : ℚ) ≤ |(nearest : ℚ) - other| := by
    have integers : (1 : ℤ) ≤ |(nearest : ℤ) - other| :=
      Int.one_le_abs (sub_ne_zero.mpr fun equal => differs (Int.ofNat_inj.mp equal).symm)
    exact_mod_cast integers
  have triangle : |(nearest : ℚ) - other| ≤ |value - nearest| + |value - other| := by
    have sides := abs_sub_le (nearest : ℚ) value other
    rwa [abs_sub_comm (nearest : ℚ) value] at sides
  rcases close with less | ⟨half, even⟩
  · left
    linarith
  · rcases (show |value - nearest| ≤ |value - other| by linarith).lt_or_eq with less | equal
    · exact Or.inl less
    · exact Or.inr ⟨equal, even⟩

theorem le_roundHalfEven (numerator denominator : Nat) :
    numerator / denominator ≤ roundHalfEven numerator denominator := by
  unfold roundHalfEven
  grind

theorem roundHalfEven_le (numerator denominator : Nat) :
    roundHalfEven numerator denominator ≤ numerator / denominator + 1 := by
  unfold roundHalfEven
  grind

namespace Magnitude

/-! ### Nearest ranks -/

/-- The distance from one rank to the next, and how large the next one can be for it. -/
theorem unitsAt_succ (rank : Nat) :
    ∃ dropped, unitsAt (rank + 1) = unitsAt rank + 2 ^ dropped ∧
      unitsAt (rank + 1) ≤ 2 ^ 53 * 2 ^ dropped := by
  obtain ⟨dropped, significand, rfl, low, high⟩ := exists_significand rank
  have low' : dropped = 0 ∨ 2 ^ 52 ≤ significand + 1 := by omega
  refine ⟨dropped, ?_, ?_⟩
  · rw [Nat.add_assoc, unitsAt_significand dropped low' high,
      unitsAt_significand dropped low high.le, Nat.succ_mul]
  · rw [Nat.add_assoc, unitsAt_significand dropped low' high]
    exact Nat.mul_le_mul_right _ high

theorem unitsAt_strictMono : StrictMono unitsAt := by
  refine strictMono_nat_of_lt_succ fun rank => ?_
  obtain ⟨dropped, step, -⟩ := unitsAt_succ rank
  rw [step]
  exact Nat.lt_add_of_pos_right (Nat.two_pow_pos dropped)

/-- Every rank is on the grid of the kept bits, or below all of the grid that these bits can
fill. -/
theorem unitsAt_on_grid (rank dropped : Nat) :
    (∃ multiple, unitsAt rank = multiple * 2 ^ dropped) ∨
      0 < dropped ∧ unitsAt rank < 2 ^ 52 * 2 ^ dropped := by
  obtain ⟨own, significand, rfl, low, high⟩ := exists_significand rank
  rw [unitsAt_significand own low (by omega)]
  rcases Nat.lt_or_ge own dropped with fine | coarse
  · refine Or.inr ⟨by omega, ?_⟩
    calc significand * 2 ^ own < 2 ^ 53 * 2 ^ own :=
          (Nat.mul_lt_mul_right (Nat.two_pow_pos own)).mpr high
      _ = 2 ^ 52 * 2 ^ (own + 1) := by rw [Nat.pow_succ 2 own]; omega
      _ ≤ 2 ^ 52 * 2 ^ dropped :=
          Nat.mul_le_mul_left _ (Nat.pow_le_pow_right two_pos fine)
  · obtain ⟨more, rfl⟩ := Nat.exists_eq_add_of_le coarse
    refine Or.inl ⟨significand * 2 ^ more, ?_⟩
    rw [Nat.add_comm, Nat.pow_add, Nat.mul_assoc]

/-- Any other rank is further away from a number of units, or as far, and then this one is even. -/
def IsNearestRank (units : ℚ) (rank : Nat) : Prop :=
  ∀ other, other ≠ rank → |units - unitsAt rank| < |units - unitsAt other| ∨
    |units - unitsAt rank| = |units - unitsAt other| ∧ rank % 2 = 0

/-! ### The rounded rank -/

/-- On the grid of the kept bits a rank is nearest if its significand is the nearest number. The
ranks below the grid are further away than the grid's first number. -/
theorem isNearestRank_of_nearest {exact : ℚ} {dropped kept : Nat}
    (filled : dropped = 0 ∨ (2 ^ 52 : ℚ) ≤ exact) (low : dropped = 0 ∨ 2 ^ 52 ≤ kept)
    (high : kept ≤ 2 ^ 53)
    (nearest : ∀ other : Nat, other ≠ kept → |exact - kept| < |exact - other| ∨
      |exact - kept| = |exact - other| ∧ kept % 2 = 0) :
    IsNearestRank (exact * 2 ^ dropped) (dropped * 2 ^ 52 + kept) := by
  have step : (0 : ℚ) < 2 ^ dropped := by positivity
  have distance (multiple : Nat) : |exact * 2 ^ dropped - (multiple * 2 ^ dropped : ℕ)| =
      |exact - multiple| * 2 ^ dropped := by
    rw [Nat.cast_mul, Nat.cast_pow, Nat.cast_ofNat, ← sub_mul, abs_mul, abs_of_pos step]
  have units := unitsAt_significand dropped low high
  intro other differs
  rw [units, distance]
  rcases unitsAt_on_grid other dropped with ⟨multiple, onGrid⟩ | ⟨some, below⟩
  · have apart : multiple ≠ kept := by
      rintro rfl
      exact differs (unitsAt_strictMono.injective (onGrid.trans units.symm))
    rw [onGrid, distance, mul_lt_mul_iff_left₀ step, mul_left_inj' step.ne']
    rcases nearest multiple apart with less | ⟨equal, even⟩
    · exact Or.inl less
    · exact Or.inr ⟨equal, by omega⟩
  · left
    have edge : |exact - kept| ≤ |exact - (2 ^ 52 : ℕ)| := by
      by_cases first : 2 ^ 52 = kept
      · rw [first]
      · rcases nearest (2 ^ 52) first with less | ⟨equal, -⟩
        · exact less.le
        · exact equal.le
    have off : (unitsAt other : ℚ) < (2 ^ 52 * 2 ^ dropped : ℕ) := Nat.cast_lt.mpr below
    have inside : ((2 ^ 52 * 2 ^ dropped : ℕ) : ℚ) ≤ exact * 2 ^ dropped := by
      rw [Nat.cast_mul, Nat.cast_pow, Nat.cast_pow, Nat.cast_ofNat]
      exact mul_le_mul_of_nonneg_right (filled.resolve_left (Nat.ne_of_gt some)) step.le
    calc |exact - kept| * 2 ^ dropped
        ≤ |exact - (2 ^ 52 : ℕ)| * 2 ^ dropped := mul_le_mul_of_nonneg_right edge step.le
      _ = exact * 2 ^ dropped - (2 ^ 52 * 2 ^ dropped : ℕ) := by
        rw [← distance, abs_of_nonneg (sub_nonneg.mpr inside)]
      _ < exact * 2 ^ dropped - unitsAt other := sub_lt_sub_left off _
      _ ≤ |exact * 2 ^ dropped - unitsAt other| := le_abs_self _

section Rounded

variable (scaled : Nat) {denominator : Nat} (positive : 0 < denominator)

include positive

/-- So many bits are dropped that what is kept of a value has 53 bits, or fewer if none is
dropped. -/
theorem droppedBits_bounds :
    (droppedBits (scaled / denominator) = 0 ∨
        2 ^ 52 * (denominator * 2 ^ droppedBits (scaled / denominator)) ≤ scaled) ∧
      scaled < 2 ^ 53 * (denominator * 2 ^ droppedBits (scaled / denominator)) := by
  have upper := Nat.lt_log2_self (n := scaled / denominator)
  generalize equal : droppedBits (scaled / denominator) = dropped
  unfold droppedBits at equal
  have fits : scaled / denominator < 2 ^ (dropped + 53) :=
    Nat.lt_of_lt_of_le upper (Nat.pow_le_pow_right two_pos (by omega))
  have total (bits : Nat) :
      2 ^ bits * (denominator * 2 ^ dropped) = 2 ^ (dropped + bits) * denominator := by
    rw [Nat.mul_comm denominator, ← Nat.mul_assoc, ← Nat.pow_add, Nat.add_comm]
  rw [total, total]
  refine ⟨?_, (Nat.div_lt_iff_lt_mul positive).mp fits⟩
  by_cases none : dropped = 0
  · exact Or.inl none
  · have nonzero : scaled / denominator ≠ 0 := by
      intro zero
      rw [zero, Nat.log2_zero] at equal
      omega
    have lower := Nat.log2_self_le nonzero
    have digits : (scaled / denominator).log2 = dropped + 52 := by omega
    rw [digits] at lower
    exact Or.inr ((Nat.le_div_iff_mul_le positive).mp lower)

theorem isNearestRank_nearestCode :
    IsNearestRank (scaled / denominator) (nearestCode scaled denominator) := by
  obtain ⟨filled, small⟩ := droppedBits_bounds scaled positive
  unfold nearestCode
  dsimp only
  generalize droppedBits (scaled / denominator) = dropped at filled small ⊢
  have gridPositive : 0 < denominator * 2 ^ dropped := Nat.mul_pos positive (Nat.two_pow_pos _)
  have onGrid : (scaled / denominator : ℚ) =
      scaled / (denominator * 2 ^ dropped : ℕ) * 2 ^ dropped := by
    push_cast
    field_simp
  have whole : dropped = 0 ∨ 2 ^ 52 ≤ scaled / (denominator * 2 ^ dropped) :=
    filled.imp_right (Nat.le_div_iff_mul_le gridPositive).mpr
  have wholeSmall := (Nat.div_lt_iff_lt_mul gridPositive).mpr small
  have smallest := le_roundHalfEven scaled (denominator * 2 ^ dropped)
  have largest := roundHalfEven_le scaled (denominator * 2 ^ dropped)
  rw [onGrid]
  refine isNearestRank_of_nearest ?_ (by omega) (by omega)
    fun _ differs => roundHalfEven_nearest scaled gridPositive differs
  refine filled.imp_right fun enough => ?_
  rw [le_div_iff₀ (Nat.cast_pos.mpr gridPositive)]
  exact_mod_cast enough

end Rounded

/-! ### Overflow -/

/-- Values are rounded past an odd rank from the middle of the step behind it on, the middle
included, since the rank at the end of the step is even. -/
theorem IsNearestRank.le_iff {units : ℚ} {rank limit : Nat} (nearest : IsNearestRank units rank)
    (odd : limit % 2 = 1) :
    rank ≤ limit ↔ units < (unitsAt limit + unitsAt (limit + 1)) / 2 := by
  have increases {fewer more : Nat} (less : fewer < more) : (unitsAt fewer : ℚ) < unitsAt more :=
    Nat.cast_lt.mpr (unitsAt_strictMono less)
  have step := increases limit.lt_succ_self
  constructor
  · intro within
    by_contra notBelow
    have beyond := not_lt.mp notBelow
    have far : |units - unitsAt (limit + 1)| ≤ units - unitsAt limit :=
      abs_le.mpr ⟨by linarith, by linarith⟩
    have own := le_abs_self (units - unitsAt rank)
    rcases nearest (limit + 1) (by omega) with less | ⟨equal, even⟩
    · have ranked : (unitsAt rank : ℚ) ≤ unitsAt limit :=
        Nat.cast_le.mpr (unitsAt_strictMono.monotone within)
      linarith
    · have ranked := increases (show rank < limit by omega)
      linarith
  · intro below
    by_contra notWithin
    have ranked : (unitsAt (limit + 1) : ℚ) ≤ unitsAt rank :=
      Nat.cast_le.mpr (unitsAt_strictMono.monotone (Nat.lt_of_not_le notWithin))
    have near : |units - unitsAt limit| < unitsAt (limit + 1) - units :=
      abs_lt.mpr ⟨by linarith, by linarith⟩
    have own := neg_le_abs (units - unitsAt rank)
    rcases nearest limit (by omega) with less | ⟨equal, -⟩ <;> linarith

/-- The rank behind the largest significand with so many bits dropped is the limit of a step. -/
theorem IsNearestRank.lt_iff {units : ℚ} {rank : Nat} (nearest : IsNearestRank units rank)
    (dropped : Nat) :
    rank < dropped * 2 ^ 52 + 2 ^ 53 ↔ units < (2 ^ 54 - 1) * 2 ^ dropped / 2 := by
  have behind : dropped * 2 ^ 52 + 2 ^ 53 = dropped * 2 ^ 52 + (2 ^ 53 - 1) + 1 := by omega
  have last : unitsAt (dropped * 2 ^ 52 + (2 ^ 53 - 1)) = (2 ^ 53 - 1) * 2 ^ dropped :=
    unitsAt_significand dropped (Or.inr (by decide)) (by decide)
  have first : unitsAt (dropped * 2 ^ 52 + 2 ^ 53) = 2 ^ 53 * 2 ^ dropped :=
    unitsAt_significand dropped (Or.inr (by decide)) (Nat.le_refl _)
  have middle : ((2 ^ 54 - 1) * 2 ^ dropped / 2 : ℚ) =
      (((2 ^ 53 - 1) * 2 ^ dropped : ℕ) + (2 ^ 53 * 2 ^ dropped : ℕ)) / 2 := by
    push_cast
    ring
  rw [middle, ← last, ← first, behind, ← nearest.le_iff (by omega), Nat.lt_succ_iff]

/-! ### The nearest magnitude -/

/-- The exact value of a magnitude. -/
def value (magnitude : Magnitude) : ℚ := magnitude.units / 2 ^ places

/-- The whole number that a magnitude is a power of two times: all of the rank below `2⁵²`, and from
there on the 52 lowest bits of the rank with one bit before them. -/
def significand (magnitude : Magnitude) : Nat :=
  if magnitude.code < 2 ^ 52 then magnitude.code else 2 ^ 52 + magnitude.code % 2 ^ 52

/-- The units are the significand with zeros behind its binary digits. -/
theorem units_eq_significand (magnitude : Magnitude) :
    magnitude.units = magnitude.significand * 2 ^ (magnitude.code / 2 ^ 52 - 1) := by
  unfold units significand
  split
  · next small => rw [Nat.div_eq_of_lt small, Nat.pow_zero, Nat.mul_one]
  · rfl

theorem significand_even_iff (magnitude : Magnitude) :
    magnitude.significand % 2 = 0 ↔ magnitude.code % 2 = 0 := by
  unfold significand
  split <;> omega

/-- Every other magnitude is further away from a value, or as far, and then the significand of this
one is even. -/
def IsNearest (exact : ℚ) (magnitude : Magnitude) : Prop :=
  ∀ other, other ≠ magnitude → |exact - magnitude.value| < |exact - other.value| ∨
    |exact - magnitude.value| = |exact - other.value| ∧ magnitude.significand % 2 = 0

theorem eq_of_code_eq {first second : Magnitude} (same : first.code = second.code) :
    first = second := by
  cases first
  cases second
  cases same
  rfl

theorem two_pow_places_pos : (0 : ℚ) < 2 ^ places := by positivity

theorem value_lt_value {first second : Magnitude} (less : first.code < second.code) :
    first.value < second.value := by
  rw [value, value, units_eq_unitsAt, units_eq_unitsAt]
  exact div_lt_div_of_pos_right (Nat.cast_lt.mpr (unitsAt_strictMono less)) two_pow_places_pos

/-- A value as far from one number as from another is nearer to every number between them. -/
theorem nearer_between {value low middle high : ℚ} (lower : low < middle) (upper : middle < high)
    (tie : |value - low| = |value - high|) : |value - middle| < |value - low| := by
  rcases abs_eq_abs.mp tie with same | mirrored
  · linarith
  · rw [abs_of_pos (a := value - low) (by linarith), abs_lt]
    constructor <;> linarith

/-- No two magnitudes are nearest to one value: their significands would both be even, and a
magnitude between the two would be nearer. -/
theorem IsNearest.unique {exact : ℚ} {first second : Magnitude} (nearest : IsNearest exact first)
    (nearest' : IsNearest exact second) : first = second := by
  by_contra differs
  wlog less : first.code < second.code generalizing first second
  · have other : second.code ≠ first.code := fun same => differs (eq_of_code_eq same).symm
    exact this nearest' nearest (Ne.symm differs) (by omega)
  obtain ⟨tie, even, even'⟩ : |exact - first.value| = |exact - second.value| ∧
      first.significand % 2 = 0 ∧ second.significand % 2 = 0 := by
    rcases nearest second (Ne.symm differs) with closer | ⟨tie, even⟩
    · rcases nearest' first differs with closer' | ⟨tie', -⟩ <;> linarith
    · rcases nearest' first differs with closer' | ⟨-, even'⟩
      · linarith
      · exact ⟨tie, even, even'⟩
  rw [significand_even_iff] at even even'
  have bound := second.code_lt
  let middle : Magnitude := { code := first.code + 1, code_lt := by omega }
  have lower : first.value < middle.value := value_lt_value (Nat.lt_succ_self _)
  have upper : middle.value < second.value :=
    value_lt_value (show first.code + 1 < second.code by omega)
  have closer := nearer_between lower upper tie
  rcases nearest middle (fun equal => lower.ne' (congrArg value equal)) with less | ⟨equal, -⟩
  · exact lt_asymm less closer
  · exact closer.ne' equal

/-- Counting in units does not change which magnitudes are near. -/
theorem abs_sub_value_mul (exact : ℚ) (magnitude : Magnitude) :
    |exact - magnitude.value| * 2 ^ places = |exact * 2 ^ places - unitsAt magnitude.code| := by
  calc |exact - magnitude.value| * 2 ^ places
      = |(exact - magnitude.value) * 2 ^ places| := by
        rw [abs_mul, abs_of_pos two_pow_places_pos]
    _ = |exact * 2 ^ places - unitsAt magnitude.code| := by
        rw [sub_mul, value, div_mul_cancel₀ _ two_pow_places_pos.ne', units_eq_unitsAt]

theorem IsNearestRank.isNearest {exact : ℚ} {magnitude : Magnitude}
    (nearest : IsNearestRank (exact * 2 ^ places) magnitude.code) : IsNearest exact magnitude := by
  intro other differs
  rw [← mul_lt_mul_iff_left₀ two_pow_places_pos, ← mul_left_inj' two_pow_places_pos.ne',
    abs_sub_value_mul, abs_sub_value_mul, significand_even_iff]
  exact nearest other.code fun same => differs (eq_of_code_eq same)

/-- From this value on all values are too large for a magnitude. -/
def overflow : ℚ := 2 ^ 1024 - 2 ^ 970

/-- The largest magnitudes are a step of `2⁹⁷¹` apart, and half a step behind the last one is the
overflow. -/
theorem overflow_mul : overflow * 2 ^ places = (2 ^ 54 - 1) * 2 ^ 2045 / 2 := by
  have steps : (2 : ℚ) ^ 1024 = 2 ^ 54 * 2 ^ 970 := by rw [← pow_add]
  have units : (2 : ℚ) ^ 2045 = 2 ^ 970 * 2 ^ places * 2 := by
    rw [← pow_add, ← pow_succ]
    rfl
  rw [overflow, steps, units]
  generalize (2 : ℚ) ^ 970 = step
  ring

variable {numerator denominator : Nat} (positive : 0 < denominator)

include positive

theorem isNearestRank_fraction :
    IsNearestRank ((numerator / denominator : ℚ) * 2 ^ places)
      (nearestCode (numerator * 2 ^ places) denominator) := by
  have scaled : (numerator / denominator : ℚ) * 2 ^ places =
      (numerator * 2 ^ places : ℕ) / denominator := by
    rw [Nat.cast_mul, Nat.cast_pow, Nat.cast_ofNat, div_mul_eq_mul_div]
  rw [scaled]
  exact isNearestRank_nearestCode _ positive

theorem isNearest_of_nearest? {magnitude : Magnitude}
    (found : nearest? numerator denominator = some magnitude) :
    IsNearest (numerator / denominator) magnitude := by
  rw [nearest?_eq, Option.dite_none_right_eq_some] at found
  obtain ⟨bound, found⟩ := found
  obtain rfl := Option.some.inj found
  exact IsNearestRank.isNearest (isNearestRank_fraction positive)

/-- A fraction is rounded to a magnitude exactly if it is below the overflow. -/
theorem nearest?_isSome_iff :
    (nearest? numerator denominator).isSome ↔ (numerator / denominator : ℚ) < overflow := by
  have stepped : 2047 * 2 ^ 52 = 2045 * 2 ^ 52 + 2 ^ 53 := by decide
  rw [nearest?_eq, Option.isSome_dite, stepped, (isNearestRank_fraction positive).lt_iff,
    ← overflow_mul, mul_lt_mul_iff_left₀ two_pow_places_pos]

end Magnitude

end LoxFront
