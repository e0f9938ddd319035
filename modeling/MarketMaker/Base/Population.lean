import Mathlib.Algebra.BigOperators.Ring.List
import Mathlib.Algebra.Order.BigOperators.Group.List
import Mathlib.Algebra.Order.Field.Basic
import Mathlib.Tactic.FieldSimp
import Mathlib.Tactic.Positivity
import Mathlib.Tactic.Ring

/-!
# Mean and variance of a finite population

Over any ordered field.  The mean of nothing and the variance of one value are zero.

* `sum_sq_dev` — the squared deviations add up to the sum of squares less `n` times the squared mean.
* `variance_eq` — the mean square less the squared mean.
-/

set_option autoImplicit false

namespace Population

variable {K : Type*} [Field K]

/-- The sum over the count. -/
def mean (values : List K) : K := values.sum / values.length

/-- The mean squared deviation from the mean. -/
def variance (values : List K) : K := (values.map fun x => (x - mean values) ^ 2).sum / values.length

theorem mean_nil : mean ([] : List K) = 0 := by simp [mean]

/-- Expanding the square around any centre. -/
theorem sum_sq_dev (values : List K) (m : K) :
    (values.map fun x => (x - m) ^ 2).sum
      = (values.map fun x => x * x).sum - 2 * m * values.sum + values.length * (m * m) := by
  induction values with
  | nil => simp
  | cons x xs ih =>
    rw [List.map_cons, List.map_cons, List.sum_cons, List.sum_cons, List.sum_cons, ih, List.length_cons]
    push_cast
    ring

/-- A single value does not vary. -/
theorem variance_of_length_lt_two {values : List K} (h : values.length < 2) : variance values = 0 := by
  match values, h with
  | [], _ => simp [variance]
  | [x], _ => simp [variance, mean]

theorem variance_eq [CharZero K] (values : List K) :
    variance values = (values.map fun x => x * x).sum / values.length - mean values * mean values := by
  cases values with
  | nil => simp [variance, mean]
  | cons x xs =>
    have hlength : ((x :: xs).length : K) ≠ 0 := Nat.cast_ne_zero.mpr (Nat.succ_ne_zero _)
    unfold variance
    rw [sum_sq_dev]
    unfold mean
    field_simp
    ring

theorem variance_nonneg [LinearOrder K] [IsStrictOrderedRing K] (values : List K) : 0 ≤ variance values := by
  refine div_nonneg (List.sum_nonneg ?_) (Nat.cast_nonneg _)
  intro y hy
  obtain ⟨x, _, rfl⟩ := List.mem_map.mp hy
  positivity

end Population
