import Mathlib.Algebra.Order.Field.Rat
import Mathlib.Algebra.BigOperators.Group.List.Basic
import Mathlib.Data.Int.Log
import Mathlib.Tactic.Linarith
import Mathlib.Tactic.NormNum
import MarketMaker.Base.Decimal

/-!
# Binary64 arithmetic

A finite value is a rational.  The result of every operation is rounded to the nearest number of 53
bits, a tie to the even last bit, with gradual underflow; one of magnitude `2 ^ 1024 - 2 ^ 970` or
more is infinite.  No comparison with a NaN holds.  Zero has no sign; to divide by it is to divide by
`+0.0`.

* `nearest_mono`, `nearest_neg`, `nearest_zpow` — rounding keeps the order, the sign and the powers of two.
* `nearest_lt_overflow_iff` — rounding does not carry a number over the end of the range.
* `foldl_add_eq_bounded` — a running sum of non-negative values is finite as long as its rounded sums
  (`runningSum`) stay in the range; `runningSum_lt`, `sum_lt_of_runningSum_lt` compare them with the
  exact sum.
* `ratio_within_iff` — `(x - y) / (x + y)` of two such sums is between `-1` and `1` unless one of them
  has overflowed.
-/

set_option autoImplicit false

inductive Binary64 where
  | nan
  | negInf
  | finite (x : ℚ)
  | posInf
  deriving DecidableEq

namespace Binary64

/-! ## Rounding -/

/-- The exponent of the last of 53 bits of a number of that size; the smallest numbers share one. -/
def lastBit (x : ℚ) : ℤ := max (Int.log 2 |x| - 52) (-1074)

/-- The unit in the last place. -/
def unit (x : ℚ) : ℚ := 2 ^ lastBit x

/-- The nearest number of 53 bits, a tie to the even one; the exponent has no upper end. -/
def nearest (x : ℚ) : ℚ := (if x < 0 then -1 else 1) * (Decimal.roundEven (|x| / unit x) * unit x)

theorem unit_pos (x : ℚ) : 0 < unit x := zpow_pos (by norm_num) _

theorem unit_neg (x : ℚ) : unit (-x) = unit x := by rw [unit, unit, lastBit, lastBit, abs_neg]

theorem nearest_of_nonneg {x : ℚ} (hx : 0 ≤ x) :
    nearest x = Decimal.roundEven (x / unit x) * unit x := by
  rw [nearest, if_neg (not_lt.mpr hx), one_mul, abs_of_nonneg hx]

theorem nearest_nonneg {x : ℚ} (hx : 0 ≤ x) : 0 ≤ nearest x := by
  rw [nearest_of_nonneg hx]
  exact mul_nonneg (Nat.cast_nonneg _) (unit_pos x).le

theorem nearest_zero : nearest 0 = 0 := by
  have hround := Decimal.roundEven_natCast 0
  rw [nearest_of_nonneg le_rfl, zero_div]
  rw [Nat.cast_zero] at hround
  rw [hround, Nat.cast_zero, zero_mul]

/-- **Rounding keeps the sign.** -/
theorem nearest_neg (x : ℚ) : nearest (-x) = -nearest x := by
  rcases lt_trichotomy x 0 with hx | rfl | hx
  · rw [nearest, nearest, unit_neg, abs_neg, if_pos hx, if_neg (by linarith)]
    ring
  · rw [neg_zero, nearest_zero, neg_zero]
  · rw [nearest, nearest, unit_neg, abs_neg, if_pos (by linarith), if_neg (by linarith)]
    ring

/-- A multiple of the unit is passed neither from below nor from above. -/
theorem nearest_le_of_multiple {x : ℚ} (hx : 0 ≤ x) (n : ℕ) (h : x ≤ n * unit x) : nearest x ≤ n * unit x := by
  have hunits : x / unit x ≤ n := (div_le_iff₀ (unit_pos x)).mpr h
  have hround := Decimal.roundEven_mono hunits
  rw [Decimal.roundEven_natCast] at hround
  rw [nearest_of_nonneg hx]
  exact mul_le_mul_of_nonneg_right (by exact_mod_cast hround) (unit_pos x).le

theorem le_nearest_of_multiple {x : ℚ} (n : ℕ) (h : n * unit x ≤ x) : n * unit x ≤ nearest x := by
  have hx : 0 ≤ x := (mul_nonneg (Nat.cast_nonneg _) (unit_pos x).le).trans h
  have hunits : (n : ℚ) ≤ x / unit x := (le_div_iff₀ (unit_pos x)).mpr h
  have hround := Decimal.roundEven_mono hunits
  rw [Decimal.roundEven_natCast] at hround
  rw [nearest_of_nonneg hx]
  exact mul_le_mul_of_nonneg_right (by exact_mod_cast hround) (unit_pos x).le

/-- A power of two is a multiple of every smaller unit. -/
theorem zpow_eq_multiple {x : ℚ} {k : ℤ} (h : lastBit x ≤ k) :
    (2 : ℚ) ^ k = (2 ^ (k - lastBit x).toNat : ℕ) * unit x := by
  rw [unit, Nat.cast_pow, Nat.cast_ofNat, ← zpow_natCast, Int.toNat_of_nonneg (by omega),
    ← zpow_add₀ (by norm_num)]
  congr 1
  omega

theorem log_bounds {x : ℚ} (hx : 0 < x) : (2 : ℚ) ^ Int.log 2 x ≤ x ∧ x < 2 ^ (Int.log 2 x + 1) := by
  have hlow := Int.zpow_log_le_self (b := 2) (by decide) hx
  have hhigh := Int.lt_zpow_succ_log_self (b := 2) (by decide) x
  exact ⟨by simpa using hlow, by simpa using hhigh⟩

theorem lastBit_le {x : ℚ} (hx : 0 < x) {k : ℤ} (hk : -1074 ≤ k) (h : Int.log 2 x ≤ k) : lastBit x ≤ k := by
  rw [lastBit, abs_of_pos hx]
  omega

/-- Rounding stays on its side of a power of two. -/
theorem nearest_le_zpow {x : ℚ} (hx : 0 ≤ x) {k : ℤ} (hk : -1074 ≤ k) (h : x ≤ 2 ^ k) : nearest x ≤ 2 ^ k := by
  rcases hx.eq_or_lt with rfl | hpos
  · rw [nearest_zero]
    positivity
  · have hlog : Int.log 2 x ≤ k := by
      have := Int.log_mono_right (b := 2) hpos (h.trans_eq (by norm_num : (2 : ℚ) ^ k = ((2 : ℕ) : ℚ) ^ k))
      rwa [Int.log_zpow (by decide)] at this
    rw [zpow_eq_multiple (lastBit_le hpos hk hlog)] at h ⊢
    exact nearest_le_of_multiple hx _ h

theorem zpow_le_nearest {x : ℚ} {k : ℤ} (hk : -1074 ≤ k) (h : 2 ^ k ≤ x) : 2 ^ k ≤ nearest x := by
  have hpos : 0 < x := lt_of_lt_of_le (zpow_pos (by norm_num) k) h
  have hlog : k ≤ Int.log 2 x := by
    have := Int.log_mono_right (b := 2) (zpow_pos (by norm_num) k : (0 : ℚ) < ((2 : ℕ) : ℚ) ^ k)
      ((by norm_num : ((2 : ℕ) : ℚ) ^ k = (2 : ℚ) ^ k).trans_le h)
    rwa [Int.log_zpow (by decide)] at this
  have hpower : (2 : ℚ) ^ k ≤ 2 ^ Int.log 2 x := zpow_le_zpow_right₀ (by norm_num) hlog
  have hbelow := (log_bounds hpos).1
  refine hpower.trans ?_
  rw [zpow_eq_multiple (lastBit_le hpos (hk.trans hlog) le_rfl)] at hbelow ⊢
  exact le_nearest_of_multiple _ hbelow

theorem nearest_zpow {k : ℤ} (hk : -1074 ≤ k) : nearest (2 ^ k) = 2 ^ k :=
  le_antisymm (nearest_le_zpow (zpow_pos (by norm_num) k).le hk le_rfl) (zpow_le_nearest hk le_rfl)

theorem nearest_one : nearest 1 = 1 := by
  have := nearest_zpow (k := 0) (by decide)
  rwa [zpow_zero] at this

theorem nearest_mono_of_nonneg {x y : ℚ} (hx : 0 ≤ x) (h : x ≤ y) : nearest x ≤ nearest y := by
  have hy : 0 ≤ y := hx.trans h
  by_cases hbit : lastBit x = lastBit y
  · -- of one size: rounded to multiples of one unit
    have hunit : unit x = unit y := by rw [unit, unit, hbit]
    have hround := Decimal.roundEven_mono (div_le_div_of_nonneg_right h (unit_pos y).le)
    rw [nearest_of_nonneg hx, nearest_of_nonneg hy, hunit]
    exact mul_le_mul_of_nonneg_right (by exact_mod_cast hround) (unit_pos y).le
  · -- a power of two is between them
    rcases hx.eq_or_lt with rfl | hpos
    · rw [nearest_zero]
      exact nearest_nonneg hy
    · have hlog : Int.log 2 x ≤ Int.log 2 y := Int.log_mono_right hpos h
      have hsizes : Int.log 2 x < Int.log 2 y ∧ -1074 ≤ Int.log 2 y := by
        unfold lastBit at hbit
        rw [abs_of_pos hpos, abs_of_pos (hpos.trans_le h)] at hbit
        omega
      have hbelow : x ≤ 2 ^ Int.log 2 y :=
        (log_bounds hpos).2.le.trans (zpow_le_zpow_right₀ (by norm_num) (by omega))
      exact (nearest_le_zpow hx hsizes.2 hbelow).trans
        (zpow_le_nearest hsizes.2 (log_bounds (hpos.trans_le h)).1)

/-- **Rounding keeps the order.** -/
theorem nearest_mono {x y : ℚ} (h : x ≤ y) : nearest x ≤ nearest y := by
  rcases le_total 0 x with hx | hx
  · exact nearest_mono_of_nonneg hx h
  · rcases le_total 0 y with hy | hy
    · have hneg : 0 ≤ nearest (-x) := nearest_nonneg (by linarith)
      rw [nearest_neg] at hneg
      exact (by linarith : nearest x ≤ 0).trans (nearest_nonneg hy)
    · have hneg := nearest_mono_of_nonneg (by linarith : 0 ≤ -y) (neg_le_neg h)
      rw [nearest_neg, nearest_neg] at hneg
      linarith

/-- **Half a unit at most.** -/
theorem abs_nearest_sub_le {x : ℚ} (hx : 0 ≤ x) : |nearest x - x| ≤ unit x / 2 := by
  have hunit := unit_pos x
  have hround := Decimal.abs_roundEven_sub_le (div_nonneg hx hunit.le)
  have heq : nearest x - x = (Decimal.roundEven (x / unit x) - x / unit x) * unit x := by
    rw [nearest_of_nonneg hx, sub_mul, div_mul_cancel₀ _ hunit.ne']
  rw [heq, abs_mul, abs_of_pos hunit]
  linarith [mul_le_mul_of_nonneg_right hround hunit.le]

/-! ## The end of the range -/

/-- From here on a rational rounds to infinity. -/
def overflow : ℚ := 2 ^ 1024 - 2 ^ 970

/-- Half the last unit of the range. -/
def slack : ℚ := 2 ^ 970

theorem slack_pos : 0 < slack := by
  unfold slack
  positivity

theorem overflow_eq : overflow = (2 ^ 54 - 1) * slack := by
  rw [overflow, slack, sub_mul, ← pow_add, one_mul]

theorem overflow_lt : overflow < 2 ^ 54 * slack := by
  rw [overflow_eq]
  exact mul_lt_mul_of_pos_right (by norm_num) slack_pos

theorem lt_overflow : 2 ^ 53 * slack < overflow := by
  rw [overflow_eq]
  exact mul_lt_mul_of_pos_right (by norm_num) slack_pos

theorem zpow_slack (n : ℕ) : (2 : ℚ) ^ ((970 + n : ℕ) : ℤ) = 2 ^ n * slack := by
  rw [zpow_natCast, pow_add, slack, mul_comm]

theorem log_lt_of_lt {x : ℚ} (hx : 0 < x) (n : ℕ) (h : x < 2 ^ n * slack) : Int.log 2 x < (970 + n : ℕ) := by
  rw [← zpow_slack] at h
  exact (Int.lt_zpow_iff_log_lt (by decide) hx).mp (by simpa using h)

theorem le_log_of_le {x : ℚ} (hx : 0 < x) (n : ℕ) (h : 2 ^ n * slack ≤ x) : (970 + n : ℕ) ≤ Int.log 2 x := by
  rw [← zpow_slack] at h
  exact (Int.zpow_le_iff_le_log (by decide) hx).mp (by simpa using h)

theorem unit_le {x : ℚ} (hx : 0 ≤ x) (h : x < 2 ^ 54 * slack) : unit x ≤ 2 * slack := by
  have hunit := zpow_slack 1
  rw [pow_one] at hunit
  rw [unit, ← hunit]
  refine zpow_le_zpow_right₀ (by norm_num) ?_
  rcases hx.eq_or_lt with rfl | hpos
  · simp [lastBit]
  · have hlog := log_lt_of_lt hpos 54 h
    rw [lastBit, abs_of_pos hpos]
    omega

/-- The last unit of the range. -/
theorem unit_eq {x : ℚ} (hlow : 2 ^ 53 * slack ≤ x) (hhigh : x < 2 ^ 54 * slack) : unit x = 2 * slack := by
  have hpos : 0 < x := lt_of_lt_of_le (mul_pos (by norm_num) slack_pos) hlow
  have hlogLow := le_log_of_le hpos 53 hlow
  have hlogHigh := log_lt_of_lt hpos 54 hhigh
  have hunit := zpow_slack 1
  rw [pow_one] at hunit
  rw [unit, ← hunit, lastBit, abs_of_pos hpos]
  congr 1
  omega

/-- Below the end of the range rounding errs by no more than the slack. -/
theorem abs_nearest_sub_le_slack {x : ℚ} (hx : 0 ≤ x) (h : x < 2 ^ 54 * slack) : |nearest x - x| ≤ slack := by
  have herror := abs_nearest_sub_le hx
  have hunit := unit_le hx h
  linarith

theorem nearest_overflow : nearest overflow = 2 ^ 54 * slack := by
  have hlow := lt_overflow.le
  have hunits : overflow / (2 * slack) = (2 ^ 54 - 1) / 2 := by
    rw [overflow_eq, mul_comm 2 slack, ← div_div, mul_div_cancel_right₀ _ slack_pos.ne']
  -- a tie, which goes to the even neighbour
  have htie : Decimal.roundEven ((2 ^ 54 - 1) / 2) = 2 ^ 53 := by decide +kernel
  rw [nearest_of_nonneg (le_trans (mul_nonneg (by norm_num) slack_pos.le) hlow), unit_eq hlow overflow_lt,
    hunits, htie]
  push_cast
  ring

/-- The largest number of the range has `2 ^ 53 - 1` units. -/
theorem nearest_le_max {x : ℚ} (hlow : 2 ^ 53 * slack ≤ x) (h : x < overflow) :
    nearest x ≤ (2 ^ 53 - 1) * (2 * slack) := by
  have hslack := slack_pos
  have hx : 0 ≤ x := (mul_nonneg (by norm_num) hslack.le).trans hlow
  have hunit := unit_eq hlow (h.trans overflow_lt)
  have hround := (abs_le.mp (Decimal.abs_roundEven_sub_le (div_nonneg hx (unit_pos x).le))).2
  have hunits : x / unit x < 2 ^ 53 - 1 / 2 := by
    rw [hunit, div_lt_iff₀ (by linarith)]
    rw [overflow_eq] at h
    linarith
  have hlt : Decimal.roundEven (x / unit x) < 2 ^ 53 := by
    have : (Decimal.roundEven (x / unit x) : ℚ) < (2 ^ 53 : ℕ) := by
      push_cast
      linarith
    exact_mod_cast this
  have hle : (Decimal.roundEven (x / unit x) : ℚ) ≤ 2 ^ 53 - 1 := by
    have hnext : (Decimal.roundEven (x / unit x) : ℚ) + 1 ≤ 2 ^ 53 := by exact_mod_cast Nat.succ_le_of_lt hlt
    linarith
  rw [nearest_of_nonneg hx]
  rw [hunit] at hle ⊢
  exact mul_le_mul_of_nonneg_right hle (by linarith)

/-- **Rounding does not carry a number over the end of the range.** -/
theorem nearest_lt_overflow_iff {x : ℚ} (hx : 0 ≤ x) : nearest x < overflow ↔ x < overflow := by
  constructor
  · intro h
    by_contra hge
    have hround := nearest_mono (not_lt.mp hge)
    rw [nearest_overflow] at hround
    linarith [overflow_lt]
  · intro h
    rcases lt_or_ge x (2 ^ 53 * slack) with hsmall | hlarge
    · have hround : nearest x ≤ 2 ^ 53 * slack := by
        have := nearest_le_zpow hx (k := ((970 + 53 : ℕ) : ℤ)) (by decide) (by rw [zpow_slack]; exact hsmall.le)
        rwa [zpow_slack] at this
      exact hround.trans_lt lt_overflow
    · calc nearest x ≤ (2 ^ 53 - 1) * (2 * slack) := nearest_le_max hlarge h
        _ < (2 ^ 54 - 1) * slack := by linarith [slack_pos]
        _ = overflow := overflow_eq.symm

/-! ## Operations -/

/-- The value of an exact result. -/
def ofRat (x : ℚ) : Binary64 :=
  if overflow ≤ x then posInf else if x ≤ -overflow then negInf else finite (nearest x)

/-- The infinity of the sign of `x`. -/
def infinity (x : ℚ) : Binary64 := if 0 < x then posInf else if x < 0 then negInf else nan

/-- `<`. -/
def lt : Binary64 → Binary64 → Bool
  | finite x, finite y => decide (x < y)
  | negInf, finite _ | negInf, posInf | finite _, posInf => true
  | _, _ => false

/-- `<=`. -/
def le : Binary64 → Binary64 → Bool
  | nan, _ | _, nan => false
  | finite x, finite y => decide (x ≤ y)
  | negInf, _ | _, posInf => true
  | _, _ => false

def neg : Binary64 → Binary64
  | nan => nan
  | negInf => posInf
  | finite x => finite (-x)
  | posInf => negInf

def add : Binary64 → Binary64 → Binary64
  | finite x, finite y => ofRat (x + y)
  | nan, _ | _, nan | posInf, negInf | negInf, posInf => nan
  | posInf, _ | _, posInf => posInf
  | negInf, _ | _, negInf => negInf

def sub (a b : Binary64) : Binary64 := a.add b.neg

def mul : Binary64 → Binary64 → Binary64
  | finite x, finite y => ofRat (x * y)
  | nan, _ | _, nan => nan
  | posInf, posInf | negInf, negInf => posInf
  | posInf, negInf | negInf, posInf => negInf
  | posInf, finite x | finite x, posInf => infinity x
  | negInf, finite x | finite x, negInf => infinity (-x)

def div : Binary64 → Binary64 → Binary64
  | finite x, finite y => if y = 0 then infinity x else ofRat (x / y)
  | finite _, posInf | finite _, negInf => finite 0
  | posInf, finite y => if 0 ≤ y then posInf else negInf
  | negInf, finite y => if 0 ≤ y then negInf else posInf
  | _, _ => nan

theorem overflow_pos : 0 < overflow := by
  rw [overflow_eq]
  exact mul_pos (by norm_num) slack_pos

theorem one_lt_overflow : 1 < overflow := by
  have hone : (1 : ℚ) ≤ slack := one_le_pow₀ (by norm_num)
  rw [overflow_eq]
  linarith

theorem ofRat_of_lt {x : ℚ} (hlow : -overflow < x) (hhigh : x < overflow) : ofRat x = finite (nearest x) := by
  rw [ofRat, if_neg hhigh.not_ge, if_neg hlow.not_ge]

/-- A rounded value that is infinite from `overflow` on. -/
def bounded (x : ℚ) : Binary64 := if x < overflow then finite x else posInf

theorem ofRat_nonneg {x : ℚ} (hx : 0 ≤ x) : ofRat x = bounded (nearest x) := by
  unfold bounded
  by_cases h : x < overflow
  · rw [if_pos ((nearest_lt_overflow_iff hx).mpr h), ofRat_of_lt (by linarith [overflow_pos]) h]
  · rw [if_neg (mt (nearest_lt_overflow_iff hx).mp h), ofRat, if_pos (not_lt.mp h)]

/-! ## Running sums -/

/-- Add up in order, rounding every value and every sum. -/
def runningSum (s : ℚ) (xs : List ℚ) : ℚ := xs.foldl (fun s x => nearest (s + nearest x)) s

theorem runningSum_nonneg {xs : List ℚ} (hxs : ∀ x ∈ xs, 0 ≤ x) {s : ℚ} (hs : 0 ≤ s) : 0 ≤ runningSum s xs := by
  induction xs generalizing s with
  | nil => exact hs
  | cons x xs ih =>
    have hx : 0 ≤ nearest x := nearest_nonneg (hxs x List.mem_cons_self)
    exact ih (fun y hy => hxs y (List.mem_cons_of_mem x hy)) (nearest_nonneg (add_nonneg hs hx))

/-- A running sum that has left the range does not come back. -/
theorem overflow_le_runningSum {xs : List ℚ} (hxs : ∀ x ∈ xs, 0 ≤ x) {s : ℚ} (hs : overflow ≤ s) :
    overflow ≤ runningSum s xs := by
  induction xs generalizing s with
  | nil => exact hs
  | cons x xs ih =>
    have hx : 0 ≤ nearest x := nearest_nonneg (hxs x List.mem_cons_self)
    have hsum : 0 ≤ s + nearest x := add_nonneg (overflow_pos.le.trans hs) hx
    refine ih (fun y hy => hxs y (List.mem_cons_of_mem x hy)) (not_lt.mp fun h => ?_)
    linarith [(nearest_lt_overflow_iff hsum).mp h]

theorem bounded_add {x y : ℚ} (hx : 0 ≤ x) (hy : 0 ≤ y) :
    (bounded x).add (bounded y) = bounded (nearest (x + y)) := by
  have hsum := nearest_lt_overflow_iff (add_nonneg hx hy)
  unfold bounded
  by_cases hxo : x < overflow
  · by_cases hyo : y < overflow
    · rw [if_pos hxo, if_pos hyo]
      exact ofRat_nonneg (add_nonneg hx hy)
    · have hover : ¬ nearest (x + y) < overflow := fun h => hyo (by linarith [hsum.mp h])
      rw [if_pos hxo, if_neg hyo, if_neg hover]
      rfl
  · have hover : ¬ nearest (x + y) < overflow := fun h => hxo (by linarith [hsum.mp h])
    rw [if_neg hxo, if_neg hover]
    split <;> rfl

/-- **A running sum of non-negative values does not come back from an overflow.** -/
theorem foldl_add_eq_bounded {xs : List ℚ} (hxs : ∀ x ∈ xs, 0 ≤ x) {s : ℚ} (hs : 0 ≤ s) :
    (xs.map ofRat).foldl add (bounded s) = bounded (runningSum s xs) := by
  induction xs generalizing s with
  | nil => rfl
  | cons x xs ih =>
    have hx : 0 ≤ x := hxs x List.mem_cons_self
    rw [List.map_cons, List.foldl_cons, ofRat_nonneg hx, bounded_add hs (nearest_nonneg hx),
      ih (fun y hy => hxs y (List.mem_cons_of_mem x hy)) (nearest_nonneg (add_nonneg hs (nearest_nonneg hx)))]
    rfl

/-- Below the end of the range one addition errs by twice the slack. -/
theorem abs_add_sub_le {s x : ℚ} (hs : 0 ≤ s) (hx : 0 ≤ x) (hxo : x < overflow)
    (ho : s + nearest x < overflow) : |nearest (s + nearest x) - (s + x)| ≤ 2 * slack := by
  have hvalue := abs_nearest_sub_le_slack hx (hxo.trans overflow_lt)
  have hsum := abs_nearest_sub_le_slack (add_nonneg hs (nearest_nonneg hx)) (ho.trans overflow_lt)
  rw [abs_le] at hvalue hsum ⊢
  constructor
  · linarith [hvalue.1, hsum.1]
  · linarith [hvalue.2, hsum.2]

/-- **A running sum in the range is near its exact sum.** -/
theorem abs_runningSum_sub_le {xs : List ℚ} (hxs : ∀ x ∈ xs, 0 ≤ x) {s : ℚ} (hs : 0 ≤ s)
    (h : runningSum s xs < overflow) : |runningSum s xs - (s + xs.sum)| ≤ 2 * xs.length * slack := by
  induction xs generalizing s with
  | nil => simp [runningSum]
  | cons x xs ih =>
    have hx : 0 ≤ x := hxs x List.mem_cons_self
    have hxs' : ∀ y ∈ xs, 0 ≤ y := fun y hy => hxs y (List.mem_cons_of_mem x hy)
    have hsum : 0 ≤ s + nearest x := add_nonneg hs (nearest_nonneg hx)
    have hrest := ih hxs' (nearest_nonneg hsum) h
    have hfirst : nearest (s + nearest x) < overflow := by
      by_contra hover
      exact absurd h (overflow_le_runningSum hxs' (not_lt.mp hover)).not_gt
    have ho : s + nearest x < overflow := (nearest_lt_overflow_iff hsum).mp hfirst
    have hxo : x < overflow := (nearest_lt_overflow_iff hx).mp (by linarith)
    have hone := abs_add_sub_le hs hx hxo ho
    rw [List.sum_cons, List.length_cons, Nat.cast_succ]
    show |runningSum (nearest (s + nearest x)) xs - (s + (x + xs.sum))| ≤ _
    rw [abs_le] at hrest hone ⊢
    constructor
    · linarith [hrest.1, hone.1]
    · linarith [hrest.2, hone.2]

/-- **An exact sum well below the end of the range stays in it.** -/
theorem runningSum_lt {xs : List ℚ} (hxs : ∀ x ∈ xs, 0 ≤ x) {s : ℚ} (hs : 0 ≤ s)
    (h : s + xs.sum + 2 * xs.length * slack < overflow) : runningSum s xs < overflow := by
  have hslack := slack_pos
  induction xs generalizing s with
  | nil =>
    rw [List.sum_nil, add_zero, List.length_nil, Nat.cast_zero, mul_zero, zero_mul, add_zero] at h
    exact h
  | cons x xs ih =>
    have hx : 0 ≤ x := hxs x List.mem_cons_self
    have hxs' : ∀ y ∈ xs, 0 ≤ y := fun y hy => hxs y (List.mem_cons_of_mem x hy)
    have hrest : 0 ≤ xs.sum := List.sum_nonneg hxs'
    have hlength : 0 ≤ (xs.length : ℚ) * slack := mul_nonneg (Nat.cast_nonneg _) hslack.le
    rw [List.sum_cons, List.length_cons, Nat.cast_succ] at h
    have hxo : x < overflow := by linarith
    have hvalue := (abs_le.mp (abs_nearest_sub_le_slack hx (hxo.trans overflow_lt))).2
    have ho : s + nearest x < overflow := by linarith
    have hone := (abs_le.mp (abs_add_sub_le hs hx hxo ho)).2
    exact ih hxs' (nearest_nonneg (add_nonneg hs (nearest_nonneg hx))) (by linarith)

/-! ## Ratios -/

/-- Between `-1` and `1`. -/
def within (x : Binary64) : Bool := le (finite (-1)) x && le x (finite 1)

theorem within_finite {x : ℚ} : within (finite x) = true ↔ -1 ≤ x ∧ x ≤ 1 := by
  simp [within, le]

/-- `(x - y) / (x + y)` if the sum is positive, else `0.0`. -/
def ratio (x y : Binary64) : Binary64 :=
  if lt (finite 0) (x.add y) then (x.sub y).div (x.add y) else finite 0

/-- Rounding keeps a quotient between `-1` and `1`. -/
theorem ofRat_within {x : ℚ} (hlow : -1 ≤ x) (hhigh : x ≤ 1) : within (ofRat x) = true := by
  have hone := one_lt_overflow
  rw [ofRat_of_lt (by linarith) (by linarith), within_finite]
  have hlower := nearest_mono hlow
  have hupper := nearest_mono hhigh
  rw [nearest_neg, nearest_one] at hlower
  rw [nearest_one] at hupper
  exact ⟨hlower, hupper⟩

theorem ratio_within_of_lt {x y : ℚ} (hx : 0 ≤ x) (hy : 0 ≤ y) (hxo : x < overflow) (hyo : y < overflow) :
    within (ratio (finite x) (finite y)) = true := by
  have hsub : (finite x).sub (finite y) = finite (nearest (x - y)) := by
    rw [sub_eq_add_neg]
    exact ofRat_of_lt (by linarith) (by linarith)
  have hadd : (finite x).add (finite y) = bounded (nearest (x + y)) := ofRat_nonneg (add_nonneg hx hy)
  unfold ratio
  rw [hsub, hadd]
  unfold bounded
  split
  · split
    · rename_i hpos
      have hpos : 0 < nearest (x + y) := of_decide_eq_true hpos
      -- the difference is no larger than the sum, also when both are rounded
      have hlow : -nearest (x + y) ≤ nearest (x - y) := by
        rw [← nearest_neg]
        exact nearest_mono (by linarith)
      have hhigh : nearest (x - y) ≤ nearest (x + y) := nearest_mono (by linarith)
      rw [div, if_neg hpos.ne']
      refine ofRat_within ?_ ?_
      · rw [le_div_iff₀ hpos]
        linarith
      · rw [div_le_iff₀ hpos]
        linarith
    · decide
  · show within (finite 0) = true
    decide

/-- **The ratio of two non-negative sums is between `-1` and `1` exactly if neither has overflowed.** -/
theorem ratio_within_iff {x y : ℚ} (hx : 0 ≤ x) (hy : 0 ≤ y) :
    within (ratio (bounded x) (bounded y)) = true ↔ x < overflow ∧ y < overflow := by
  unfold bounded
  by_cases hxo : x < overflow
  · by_cases hyo : y < overflow
    · rw [if_pos hxo, if_pos hyo]
      exact ⟨fun _ => ⟨hxo, hyo⟩, fun _ => ratio_within_of_lt hx hy hxo hyo⟩
    · have hnan : ratio (finite x) posInf = nan := rfl
      rw [if_pos hxo, if_neg hyo, hnan]
      exact ⟨fun h => absurd h (by decide), fun h => absurd h.2 hyo⟩
  · have hnan : ratio posInf (if y < overflow then finite y else posInf) = nan := by
      split <;> rfl
    rw [if_neg hxo, hnan]
    exact ⟨fun h => absurd h (by decide), fun h => absurd h.1 hxo⟩

end Binary64
