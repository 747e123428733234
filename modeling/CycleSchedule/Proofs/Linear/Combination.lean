import CycleSchedule.Linear.Simplex
import Mathlib.Algebra.BigOperators.Field
import Mathlib.Algebra.BigOperators.Intervals
import Mathlib.Algebra.Order.BigOperators.Group.Finset
import Mathlib.Algebra.Order.Ring.Rat
import Mathlib.Algebra.Field.Rat
import Mathlib.Tactic.Linarith
import Mathlib.Tactic.FieldSimp
import Mathlib.Tactic.Ring
import Mathlib.Data.List.GetD

/-! Sums of coefficients times columns, and what the operations on coefficient lists do to them. -/

namespace CycleSchedule

/-- The sum of coefficients times columns. -/
def combine (coefficients : List Rat) (columns : Nat → Rat) : Rat :=
  ∑ column ∈ Finset.range coefficients.length, coefficients.getD column 0 * columns column

/-- Only the columns that have a coefficient count. -/
theorem combine_congr {coefficients : List Rat} {x y : Nat → Rat}
    (agree : ∀ column < coefficients.length, x column = y column) :
    combine coefficients x = combine coefficients y := by
  -- Only the places of the list are added up.
  refine Finset.sum_congr rfl fun column member => ?_
  rw [agree column (Finset.mem_range.mp member)]

/-- A combination of sums is the sum of the combinations. -/
theorem combine_add (coefficients : List Rat) (x y : Nat → Rat) :
    combine coefficients (fun column => x column + y column) =
      combine coefficients x + combine coefficients y := by
  simp only [combine, mul_add, Finset.sum_add_distrib]

/-- A combination of differences is the difference of the combinations. -/
theorem combine_sub (coefficients : List Rat) (x y : Nat → Rat) :
    combine coefficients (fun column => x column - y column) =
      combine coefficients x - combine coefficients y := by
  simp only [combine, mul_sub, Finset.sum_sub_distrib]

/-- A combination of multiples is the multiple of the combination. -/
theorem combine_smul (coefficients : List Rat) (factor : Rat) (x : Nat → Rat) :
    combine coefficients (fun column => factor * x column) = factor * combine coefficients x := by
  -- The factor goes into every product.
  simp only [combine, Finset.mul_sum]
  refine Finset.sum_congr rfl fun column _ => ?_
  ring

/-- Non-negative products add up to something non-negative. -/
theorem combine_nonneg {coefficients : List Rat} {x : Nat → Rat}
    (each : ∀ column < coefficients.length, 0 ≤ coefficients.getD column 0 * x column) :
    0 ≤ combine coefficients x :=
  Finset.sum_nonneg fun column member => each column (Finset.mem_range.mp member)

/-- A combination of zeros is zero. -/
theorem combine_eq_zero {coefficients : List Rat} {x : Nat → Rat}
    (each : ∀ column < coefficients.length, coefficients.getD column 0 * x column = 0) :
    combine coefficients x = 0 :=
  Finset.sum_eq_zero fun column member => each column (Finset.mem_range.mp member)

/-- A negative combination has a negative product. -/
theorem exists_neg_of_combine_neg {coefficients : List Rat} {x : Nat → Rat}
    (negative : combine coefficients x < 0) :
    ∃ column < coefficients.length, coefficients.getD column 0 * x column < 0 := by
  -- Otherwise the products would add up to something that is not negative.
  by_contra none
  simp only [not_exists, not_and, not_lt] at none
  exact absurd (combine_nonneg none) (not_le.mpr negative)

/-- Where all products but one are zero, that one is the combination. -/
theorem combine_eq_single {coefficients : List Rat} {x : Nat → Rat} (place : Nat)
    (within : place < coefficients.length)
    (others : ∀ column < coefficients.length, column ≠ place →
      coefficients.getD column 0 * x column = 0) :
    combine coefficients x = coefficients.getD place 0 * x place :=
  -- All terms but the one at the place are zero.
  Finset.sum_eq_single_of_mem place (Finset.mem_range.mpr within) fun column member different =>
    others column (Finset.mem_range.mp member) different

/-- A difference of two lists is as long as the shorter of them. -/
@[simp] theorem length_subtractMultiple (factor : Rat) (minuend subtrahend : List Rat) :
    (subtractMultiple factor minuend subtrahend).length =
      min minuend.length subtrahend.length := by
  simp [subtractMultiple]

/-- Subtracting a multiple of a list does so in every place. -/
theorem getD_subtractMultiple {factor : Rat} {minuend subtrahend : List Rat}
    (same : minuend.length = subtrahend.length) (column : Nat) :
    (subtractMultiple factor minuend subtrahend).getD column 0 =
      minuend.getD column 0 - factor * subtrahend.getD column 0 := by
  -- A zero in the subtrahend leaves the place as it is, which is what subtracting zero does.
  by_cases within : column < minuend.length
  · have other : column < subtrahend.length := by omega
    simp only [subtractMultiple, List.getD_eq_getElem?_getD, List.getElem?_zipWith,
      List.getElem?_eq_getElem within, List.getElem?_eq_getElem other, Option.getD_some]
    split
    · rename_i zero
      rw [zero, mul_zero, sub_zero]
    · rfl
  · have beyond : ¬ column < subtrahend.length := by omega
    simp [subtractMultiple, List.getD_eq_getElem?_getD, List.getElem?_zipWith,
      List.getElem?_eq_none (not_lt.mp within), List.getElem?_eq_none (not_lt.mp beyond)]

/-- Subtracting a multiple of a list subtracts that multiple of its combination. -/
theorem combine_subtractMultiple {factor : Rat} {minuend subtrahend : List Rat}
    (same : minuend.length = subtrahend.length) (x : Nat → Rat) :
    combine (subtractMultiple factor minuend subtrahend) x =
      combine minuend x - factor * combine subtrahend x := by
  -- Both sums run through the same places.
  simp only [combine, length_subtractMultiple, ← same, min_self, Finset.mul_sum,
    ← Finset.sum_sub_distrib]
  refine Finset.sum_congr rfl fun column _ => ?_
  rw [getD_subtractMultiple same]
  ring

/-- Dividing all coefficients divides each of them. -/
theorem getD_map_div (coefficients : List Rat) (divisor : Rat) (column : Nat) :
    (coefficients.map (· / divisor)).getD column 0 = coefficients.getD column 0 / divisor := by
  -- Outside of the list both sides are zero.
  cases found : coefficients[column]? <;> simp [List.getD_eq_getElem?_getD, found]

/-- Dividing all coefficients divides the combination. -/
theorem combine_map_div (coefficients : List Rat) (divisor : Rat) (x : Nat → Rat) :
    combine (coefficients.map (· / divisor)) x = combine coefficients x / divisor := by
  simp only [combine, List.length_map, getD_map_div, Finset.sum_div]
  refine Finset.sum_congr rfl fun column _ => ?_
  ring

/-- Negating all coefficients negates the combination. -/
theorem combine_map_neg (coefficients : List Rat) (x : Nat → Rat) :
    combine (coefficients.map (-·)) x = -combine coefficients x := by
  -- The sign goes into every product.
  simp only [combine, List.length_map, ← Finset.sum_neg_distrib]
  refine Finset.sum_congr rfl fun column _ => ?_
  cases found : coefficients[column]? <;> simp [List.getD_eq_getElem?_getD, found]

/-- Coefficients that follow others belong to the columns that follow theirs. -/
theorem combine_append (first second : List Rat) (x : Nat → Rat) :
    combine (first ++ second) x =
      combine first x + combine second (fun column => x (first.length + column)) := by
  -- The sum splits where the second list starts.
  simp only [combine, List.length_append, Finset.sum_range_add]
  congr 1
  · refine Finset.sum_congr rfl fun column member => ?_
    rw [List.getD_append _ _ _ _ (Finset.mem_range.mp member)]
  · refine Finset.sum_congr rfl fun column _ => ?_
    rw [List.getD_append_right _ _ _ _ (Nat.le_add_right _ _), Nat.add_sub_cancel_left]

/-- Coefficients of zero combine to zero. -/
@[simp] theorem combine_replicate_zero (length : Nat) (x : Nat → Rat) :
    combine (List.replicate length 0) x = 0 := by
  refine combine_eq_zero fun column _ => ?_
  rw [List.getD_eq_getElem?_getD, List.getElem?_getD_replicate_default_eq, zero_mul]

/-- Coefficients of one combine to the sum of the columns. -/
theorem combine_replicate_one (length : Nat) (x : Nat → Rat) :
    combine (List.replicate length 1) x = ∑ column ∈ Finset.range length, x column := by
  -- Every coefficient in the list is one.
  simp only [combine, List.length_replicate]
  refine Finset.sum_congr rfl fun column member => ?_
  rw [List.getD_replicate _ (Finset.mem_range.mp member), one_mul]

/-- A unit list has the length it is asked for. -/
@[simp] theorem length_unitList (length place : Nat) (value : Rat) :
    (unitList length place value).length = length := by
  simp [unitList]

/-- A list of zeros but for one place holds a value there. -/
theorem getD_unitList (length place : Nat) (value : Rat) (column : Nat) :
    (unitList length place value).getD column 0 =
      if column = place ∧ column < length then value else 0 := by
  by_cases within : column < length
  · simp [unitList, List.getD_eq_getElem?_getD, within]
  · simp [unitList, List.getD_eq_getElem?_getD, within]

/-- A list of zeros but for one place combines to what that place contributes. -/
theorem combine_unitList {length place : Nat} (within : place < length) (value : Rat)
    (x : Nat → Rat) : combine (unitList length place value) x = value * x place := by
  -- All other places hold a zero.
  rw [combine_eq_single place (by simpa using within)]
  · rw [getD_unitList, if_pos ⟨rfl, within⟩]
  · intro column _ different
    rw [getD_unitList, if_neg fun same => different same.1, zero_mul]

/-- A value of zero in one place leaves nothing to combine. -/
@[simp] theorem combine_unitList_zero (length place : Nat) (x : Nat → Rat) :
    combine (unitList length place 0) x = 0 := by
  refine combine_eq_zero fun column _ => ?_
  rw [getD_unitList, ite_self, zero_mul]

end CycleSchedule
