import Mathlib.Algebra.Order.Floor.Ring
import Mathlib.Tactic.Linarith

/-!
# Rounding to a grid

`floorTo unit x` is `(x / unit).floor() * unit`, the largest multiple of `unit` not above `x`, and
`ceilTo unit x` is `(x / unit).ceil() * unit`, the smallest not below it, over any Archimedean ordered
field.  Both are monotone.
-/

namespace Grid

variable {α : Type*} [Field α] [LinearOrder α] [FloorRing α]

/-- Round down to a multiple of `unit`. -/
def floorTo (unit x : α) : α := ⌊x / unit⌋ * unit

/-- Round up to a multiple of `unit`. -/
def ceilTo (unit x : α) : α := ⌈x / unit⌉ * unit

/-- A multiple of `unit`. -/
def OnGrid (unit x : α) : Prop := ∃ k : ℤ, x = k * unit

theorem floorTo_onGrid (unit x : α) : OnGrid unit (floorTo unit x) := ⟨⌊x / unit⌋, rfl⟩

theorem ceilTo_onGrid (unit x : α) : OnGrid unit (ceilTo unit x) := ⟨⌈x / unit⌉, rfl⟩

variable [IsStrictOrderedRing α]

theorem floorTo_le {unit : α} (hu : 0 < unit) (x : α) : floorTo unit x ≤ x := by
  unfold floorTo
  rw [← le_div_iff₀ hu]
  exact Int.floor_le _

/-- A positive rounded value is a positive whole number of units. -/
theorem exists_nat_mul_of_floorTo_pos {unit x : α} (hu : 0 < unit) (h : 0 < floorTo unit x) :
    ∃ k : ℕ, 0 < k ∧ floorTo unit x = k * unit := by
  unfold floorTo at *
  have hpos : (0 : α) < ⌊x / unit⌋ := by
    by_contra hn
    have := mul_nonpos_of_nonpos_of_nonneg (not_lt.mp hn) hu.le
    linarith
  have hz : 0 < ⌊x / unit⌋ := by exact_mod_cast hpos
  refine ⟨⌊x / unit⌋.toNat, by omega, ?_⟩
  have : ((⌊x / unit⌋.toNat : ℤ) : α) = (⌊x / unit⌋ : α) := by
    rw [Int.toNat_of_nonneg hz.le]
  rw [← this]
  push_cast
  rfl

theorem le_ceilTo {unit : α} (hu : 0 < unit) (x : α) : x ≤ ceilTo unit x := by
  unfold ceilTo
  rw [← div_le_iff₀ hu]
  exact Int.le_ceil _

theorem floorTo_mono {unit x y : α} (hu : 0 < unit) (h : x ≤ y) : floorTo unit x ≤ floorTo unit y := by
  have hdiv : x / unit ≤ y / unit := div_le_div_of_nonneg_right h hu.le
  have hfloor : (⌊x / unit⌋ : α) ≤ ⌊y / unit⌋ := by exact_mod_cast Int.floor_mono hdiv
  exact mul_le_mul_of_nonneg_right hfloor hu.le

/-- Rounding down changes nothing on the grid. -/
theorem floorTo_of_onGrid {unit x : α} (hu : 0 < unit) (h : OnGrid unit x) : floorTo unit x = x := by
  obtain ⟨k, rfl⟩ := h
  unfold floorTo
  rw [mul_div_cancel_right₀ _ hu.ne', Int.floor_intCast]

theorem ceilTo_mono {unit x y : α} (hu : 0 < unit) (h : x ≤ y) : ceilTo unit x ≤ ceilTo unit y := by
  have hdiv : x / unit ≤ y / unit := div_le_div_of_nonneg_right h hu.le
  have hceil : (⌈x / unit⌉ : α) ≤ ⌈y / unit⌉ := by exact_mod_cast Int.ceil_mono hdiv
  exact mul_le_mul_of_nonneg_right hceil hu.le

end Grid
