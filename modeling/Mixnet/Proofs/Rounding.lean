import Mathlib.Tactic.Ring
import Mixnet.AssignmentList

/-!
# Counts as binary32 numbers

The share of the assignments that a threshold stands for is a product of binary32 numbers, and the
number of assignments is rounded to that format first.  A threshold of one therefore stands for the
number of the format that is nearest to the number of assignments.  This file computes it: it is the
count itself, unless the count is rounded down.

## Main definitions

* `Binary32.spacing`: how far apart the numbers of the format lie around a count
* `Binary32.nearestCount`: the number of the format nearest to a count
* `Binary32.RoundsDown`: the format has a smaller number nearest to a count

## Main statements

* `Binary32.ofUnits_eq`: what rounding to the format makes of a quotient
* `Binary32.scaledCeiling_one`: one, scaled by a count, is the nearest number to the count
* `AssignmentList.thresholdCount_one`: the number of assignments that a threshold of one stands for
* `Binary32.not_roundsDown_of_le`: a count of at most `2 ^ 24` is not rounded down

## Design notes

Rounding does not depend on the unit in which a quotient is measured, so that the steps of
`2 ^ -149` and the denominators disappear at once.  What remains is the rounding of a count to a
multiple of the spacing.
-/

namespace Mixnet

/-! ## Rounding to a whole number -/

namespace Rounding

/-- Rounding does not depend on the unit that both sides are measured in. -/
theorem halfEven_mul_right (numerator denominator : Nat) {unit : Nat} (positive : 0 < unit) :
    halfEven (numerator * unit) (denominator * unit) = halfEven numerator denominator := by
  have below_iff : 2 * (numerator % denominator * unit) < denominator * unit ↔
      2 * (numerator % denominator) < denominator := by
    rw [← Nat.mul_assoc]
    exact Nat.mul_lt_mul_right positive
  have middle_iff : 2 * (numerator % denominator * unit) = denominator * unit ↔
      2 * (numerator % denominator) = denominator := by
    rw [← Nat.mul_assoc]
    exact Nat.mul_left_inj positive.ne'
  rw [halfEven, halfEven, Nat.mul_div_mul_right _ _ positive, Nat.mul_mod_mul_right]
  simp only [below_iff, middle_iff]

/-- A whole number is not rounded. -/
theorem halfEven_of_dvd {numerator denominator : Nat} (divides : denominator ∣ numerator)
    (positive : 0 < denominator) : halfEven numerator denominator = numerator / denominator := by
  rw [halfEven, Nat.mod_eq_zero_of_dvd divides]
  simp [positive]

/-- Rounding a whole number up leaves it. -/
theorem mul_roundUp (value : Nat) {unit : Nat} (positive : 0 < unit) :
    (value * unit + (unit - 1)) / unit = value := by
  rw [Nat.add_comm, Nat.add_mul_div_right _ _ positive,
    Nat.div_eq_of_lt (Nat.sub_lt positive Nat.one_pos), Nat.zero_add]

/-- Rounding goes to one of the two neighbours. -/
theorem halfEven_le (numerator denominator : Nat) :
    halfEven numerator denominator ≤ numerator / denominator + 1 := by
  rw [halfEven]
  split
  · exact Nat.le_succ _
  · exact le_rfl

/-- The significand of a rounded quotient has no more bits than there is room for, and the value of
the pair is that of the rounding. -/
theorem nearest_spec (precision numerator denominator : Nat) (positive : 0 < precision) :
    let shift := Nat.log2 (numerator / denominator) + 1 - precision
    let pair := nearest precision numerator denominator
    pair.1 < twoTo precision ∧ pair.2 ≤ shift + 1 ∧
      pair.1 * twoTo pair.2 = halfEven numerator (denominator * twoTo shift) * twoTo shift := by
  obtain ⟨less, rfl⟩ := Nat.exists_eq_add_of_lt positive
  intro shift pair
  have few : numerator / (denominator * twoTo shift) < twoTo (0 + less + 1) := by
    rw [← Nat.div_div_eq_div_mul]
    refine Nat.div_lt_of_lt_mul ?_
    refine Nat.lt_log2_self.trans_le ?_
    rw [twoTo, twoTo, Nat.pow_eq, Nat.pow_eq, ← Nat.pow_add]
    exact Nat.pow_le_pow_right (by decide) (by omega)
  have bound := (halfEven_le numerator (denominator * twoTo shift)).trans (Nat.succ_le_of_lt few)
  show pair.1 < _ ∧ pair.2 ≤ _ ∧ pair.1 * twoTo pair.2 = _
  have pair_eq : pair = if halfEven numerator (denominator * twoTo shift) = twoTo (0 + less + 1)
      then (twoTo less, shift + 1)
      else (halfEven numerator (denominator * twoTo shift), shift) := by
    simp only [pair, nearest, shift, Nat.add_sub_cancel, Nat.zero_add]
  rw [pair_eq]
  split
  case isTrue carried =>
    refine ⟨Nat.pow_lt_pow_right (by decide) (by omega), le_rfl, ?_⟩
    rw [carried]
    simp only [twoTo, Nat.pow_eq]
    ring
  case isFalse whole => exact ⟨lt_of_le_of_ne bound whole, Nat.le_succ _, rfl⟩

end Rounding

namespace Binary32

theorem twoTo_pos (exponent : Nat) : 0 < twoTo exponent := Nat.pow_pos (by decide)

theorem twoTo_add (left right : Nat) : twoTo (left + right) = twoTo left * twoTo right :=
  Nat.pow_add 2 left right

theorem unitsPerOne_pos : 0 < unitsPerOne := twoTo_pos 149

/-! ## Rounding to the format -/

/-- The steps of `2 ^ -149` that a quotient of steps is rounded to. -/
def roundedUnits (numerator denominator : Nat) : Nat :=
  let shift := Nat.log2 (numerator / denominator) + 1 - 24
  Rounding.halfEven numerator (denominator * twoTo shift) * twoTo shift

/-- **A quotient that is not too great is rounded to a finite number.** -/
theorem ofUnits_eq (negative : Bool) {numerator denominator : Nat}
    (small : Nat.log2 (numerator / denominator) < 276) :
    ∃ significand shift, ofUnits negative numerator denominator =
        finite negative significand shift ∧
      magnitude significand shift = roundedUnits numerator denominator := by
  obtain ⟨few, shift_le, value_eq⟩ :=
    Rounding.nearest_spec 24 numerator denominator (by decide)
  have fits : (Rounding.nearest 24 numerator denominator).1 < 16777216 ∧
      (Rounding.nearest 24 numerator denominator).2 < 254 := ⟨few, by omega⟩
  refine ⟨⟨_, fits.1⟩, ⟨_, fits.2⟩, ?_, value_eq⟩
  rw [ofUnits]
  simp only [fits, and_self, dite_true]

/-! ## Counts -/

/-- How far apart the numbers of the format lie around a count. -/
def spacing (count : Nat) : Nat := twoTo (Nat.log2 count - 23)

/-- The number of the format nearest to a count, ties to even. -/
def nearestCount (count : Nat) : Nat := Rounding.halfEven count (spacing count) * spacing count

/-- The number of the format nearest to a count lies below it. -/
def RoundsDown (count : Nat) : Prop :=
  0 < count % spacing count ∧ (2 * (count % spacing count) < spacing count ∨
    2 * (count % spacing count) = spacing count ∧ count / spacing count % 2 = 0)

instance : DecidablePred RoundsDown := fun _ => inferInstanceAs (Decidable (_ ∧ _))

theorem spacing_pos (count : Nat) : 0 < spacing count := twoTo_pos _

theorem spacing_le {count : Nat} (positive : 0 < count) : spacing count ≤ count :=
  (Nat.pow_le_pow_right (by decide) (Nat.sub_le _ _)).trans (Nat.log2_self_le positive.ne')

/-- What a count is rounded down to lies strictly between zero and the count. -/
theorem RoundsDown.bounds {count : Nat} (down : RoundsDown count) :
    0 < count - count % spacing count ∧ count - count % spacing count < count := by
  obtain ⟨some_rest, -⟩ := down
  have positive : 0 < count := some_rest.trans_le (Nat.mod_le _ _)
  have less := (Nat.mod_lt count (spacing_pos count)).trans_le (spacing_le positive)
  exact ⟨Nat.sub_pos_of_lt less, Nat.sub_lt positive some_rest⟩

/-- A count that is no number of the format lies between two of them, and is rounded to one. -/
theorem nearestCount_eq (count : Nat) :
    nearestCount count =
      if RoundsDown count then count - count % spacing count
      else if count % spacing count = 0 then count
      else count - count % spacing count + spacing count := by
  have positive := spacing_pos count
  have whole : count / spacing count * spacing count = count - count % spacing count := by
    have := Nat.div_add_mod' count (spacing count)
    omega
  by_cases exact : count % spacing count = 0
  · have never : ¬ RoundsDown count := fun down => down.1.ne' exact
    have divides := Nat.dvd_of_mod_eq_zero exact
    rw [if_neg never, if_pos exact, nearestCount, Rounding.halfEven_of_dvd divides positive,
      Nat.div_mul_cancel divides]
  · by_cases down : RoundsDown count
    · rw [if_pos down, nearestCount, Rounding.halfEven, if_pos down.2, whole]
    · have up := not_and.mp down (Nat.pos_of_ne_zero exact)
      rw [if_neg down, if_neg exact, nearestCount, Rounding.halfEven, if_neg up, Nat.succ_mul,
        whole]

/-- The least of a count and the number nearest to it. -/
theorem min_nearestCount (count : Nat) :
    min (nearestCount count) count =
      if RoundsDown count then count - count % spacing count else count := by
  have rest_lt := Nat.mod_lt count (spacing_pos count)
  rw [nearestCount_eq]
  split
  · exact Nat.min_eq_left (Nat.sub_le _ _)
  · split
    · exact Nat.min_self _
    · exact Nat.min_eq_right (by omega)

/-- **A count of at most `2 ^ 24` is not rounded down.** -/
theorem not_roundsDown_of_le {count : Nat} (small : count ≤ 16777216) : ¬ RoundsDown count := by
  have exact : count % spacing count = 0 := by
    rcases Nat.lt_or_ge count 16777216 with less | same
    · have narrow : Nat.log2 count - 23 = 0 := by
        by_cases zero : count = 0
        · rw [zero]
          rfl
        · have := (Nat.log2_lt (k := 24) zero).mpr less
          omega
      rw [spacing, narrow]
      exact Nat.mod_one count
    · rw [Nat.le_antisymm small same]
      decide
  rintro ⟨some_rest, -⟩
  exact some_rest.ne' exact

theorem log2_units {count : Nat} (positive : 0 < count) :
    Nat.log2 (count * unitsPerOne) = Nat.log2 count + 149 := by
  have some_units : count * unitsPerOne ≠ 0 := (Nat.mul_pos positive unitsPerOne_pos).ne'
  rw [Nat.log2_eq_iff some_units]
  constructor
  · rw [Nat.pow_add]
    exact Nat.mul_le_mul_right _ (Nat.log2_self_le positive.ne')
  · rw [Nat.add_right_comm, Nat.pow_add]
    exact Nat.mul_lt_mul_of_pos_right Nat.lt_log2_self unitsPerOne_pos

/-- The number of the format nearest to a count, in steps. -/
theorem roundedUnits_count {count : Nat} (positive : 0 < count) :
    roundedUnits (count * unitsPerOne) 1 = nearestCount count * unitsPerOne := by
  rw [roundedUnits, Nat.div_one, log2_units positive, Nat.one_mul]
  rcases Nat.lt_or_ge (Nat.log2 count) 23 with narrow | wide
  · -- The spacing of the format is less than one, so that the count is a number of the format.
    have fine : spacing count = 1 := by
      rw [spacing, Nat.sub_eq_zero_of_le narrow.le]
      rfl
    have units_eq : unitsPerOne =
        twoTo (23 - Nat.log2 count) * twoTo (Nat.log2 count + 149 + 1 - 24) := by
      rw [← twoTo_add, unitsPerOne]
      congr 1
      omega
    have divides : twoTo (Nat.log2 count + 149 + 1 - 24) ∣ count * unitsPerOne := by
      rw [units_eq]
      exact (Nat.dvd_mul_left _ _).mul_left _
    rw [nearestCount, fine, Rounding.halfEven_of_dvd divides (twoTo_pos _),
      Nat.div_mul_cancel divides, Rounding.halfEven_of_dvd (Nat.one_dvd count) Nat.one_pos,
      Nat.div_one, Nat.mul_one]
  · have shift_eq : twoTo (Nat.log2 count + 149 + 1 - 24) = spacing count * unitsPerOne := by
      rw [spacing, unitsPerOne, ← twoTo_add]
      congr 1
      omega
    rw [shift_eq, Rounding.halfEven_mul_right _ _ unitsPerOne_pos, nearestCount, Nat.mul_assoc]

theorem nearestCount_one : nearestCount 1 = 1 := by decide

/-- Rounding at most doubles the number of words. -/
theorem nearestCount_le {count : Nat} (word : count < Word.limit 32) :
    nearestCount count ≤ 2 * Word.limit 32 := by
  have spacing_le : spacing count ≤ Word.limit 32 := by
    rcases Nat.eq_zero_or_pos count with zero | positive
    · rw [zero]
      decide
    · exact (spacing_le positive).trans word.le
  have nearest_eq := nearestCount_eq count
  split at nearest_eq
  · omega
  · split at nearest_eq <;> omega

/-- The number made of a count is finite and positive, and is the nearest one. -/
theorem ofNat_eq {count : Nat} (word : count < Word.limit 32) :
    ∃ significand shift, ofNat count = finite false significand shift ∧
      magnitude significand shift = nearestCount count * unitsPerOne := by
  rcases Nat.eq_zero_or_pos count with rfl | positive
  · exact ⟨0, 0, by decide, by decide⟩
  · have small : Nat.log2 (count * unitsPerOne / 1) < 276 := by
      have := (Nat.log2_lt positive.ne').mpr word
      rw [Nat.div_one, log2_units positive]
      omega
    rw [← roundedUnits_count positive]
    exact ofUnits_eq false small

/-! ## The product with one -/

/-- A number of the format is not rounded when it is multiplied by one. -/
theorem product_one {significand : Fin 16777216} {shift : Fin 254}
    (small : magnitude significand shift < twoTo 200) :
    ∃ left right, product unitsPerOne (magnitude significand shift) = finite false left right ∧
      magnitude left right = magnitude significand shift := by
  obtain ⟨units, units_eq⟩ : ∃ units, units = magnitude significand shift := ⟨_, rfl⟩
  rw [← units_eq] at small ⊢
  have quotient_eq : unitsPerOne * units / unitsPerOne = units :=
    Nat.mul_div_cancel_left _ unitsPerOne_pos
  have narrow : Nat.log2 (unitsPerOne * units / unitsPerOne) < 276 := by
    rw [quotient_eq]
    by_cases zero : units = 0
    · rw [zero]
      decide
    · exact ((Nat.log2_lt zero).mpr small).trans (by decide)
  obtain ⟨left, right, rounded, value_eq⟩ := ofUnits_eq false narrow
  refine ⟨left, right, rounded, value_eq.trans ?_⟩
  -- The significand has at most 24 bits, so that its shift is enough.
  have divides : twoTo (Nat.log2 units + 1 - 24) ∣ units := by
    have by_shift : twoTo shift ∣ units := by
      rw [units_eq]
      exact Nat.dvd_mul_left _ _
    refine Nat.dvd_trans (Nat.pow_dvd_pow 2 ?_) by_shift
    by_cases zero : units = 0
    · rw [zero]
      exact Nat.zero_le _
    · have less : units < 2 ^ (24 + shift.val) := by
        rw [units_eq, magnitude, Nat.pow_add]
        exact Nat.mul_lt_mul_of_pos_right significand.isLt (twoTo_pos _)
      have := (Nat.log2_lt zero).mpr less
      omega
  rw [roundedUnits, quotient_eq, Nat.mul_comm unitsPerOne units, Nat.mul_comm unitsPerOne (twoTo _),
    Rounding.halfEven_mul_right _ _ unitsPerOne_pos,
    Rounding.halfEven_of_dvd divides (twoTo_pos _), Nat.div_mul_cancel divides]

theorem scaledCeiling_eq {factor : Binary32} {count : Nat} {left right : Fin 16777216}
    {left_shift right_shift : Fin 254} (factor_eq : factor = finite false left left_shift)
    (count_eq : ofNat count = finite false right right_shift) :
    scaledCeiling factor count =
      ((product (magnitude left left_shift) (magnitude right right_shift)).ceiling).getD 0 := by
  -- The count comes first: a match on a number that is still to be rounded would be evaluated.
  unfold scaledCeiling
  rw [count_eq, factor_eq]

/-- The ceiling of a whole number. -/
theorem ceiling_eq {significand : Fin 16777216} {shift : Fin 254} {value : Nat}
    (whole : magnitude significand shift = value * unitsPerOne) :
    ceiling (finite false significand shift) = some value := by
  rw [ceiling, if_neg Bool.false_ne_true, whole, Rounding.mul_roundUp value unitsPerOne_pos]

/-- **One, scaled by a count, is the number of the format nearest to the count.** -/
theorem scaledCeiling_one {count : Nat} (word : count < Word.limit 32) :
    scaledCeiling one count = nearestCount count := by
  have one_word : 1 < Word.limit 32 := by decide
  obtain ⟨single, single_shift, one_eq, one_units⟩ := ofNat_eq one_word
  obtain ⟨significand, shift, count_eq, units_eq⟩ := ofNat_eq word
  have small : magnitude significand shift < twoTo 200 := by
    rw [units_eq]
    exact (Nat.mul_le_mul_right _ (nearestCount_le word)).trans_lt (by decide)
  obtain ⟨left, right, product_eq, value_eq⟩ := product_one small
  rw [nearestCount_one, Nat.one_mul] at one_units
  rw [one, scaledCeiling_eq one_eq count_eq, one_units, product_eq,
    ceiling_eq (value_eq.trans units_eq), Option.getD_some]

end Binary32

/-! ## The threshold -/

namespace AssignmentList

open Binary32

/-- **A threshold of one stands for all assignments**, unless the number of assignments is rounded
down; then it stands for the smaller number. -/
theorem thresholdCount_one {count : Nat} (word : count < Word.limit 32) :
    thresholdCount .one count =
      if RoundsDown count then count - count % spacing count else count := by
  rw [thresholdCount, scaledCeiling_one word, min_nearestCount]

end AssignmentList

end Mixnet
