import Mathlib.Analysis.Real.Sqrt
import MarketMaker.Base.CircularBuffer
import MarketMaker.Base.Population
import MarketMaker.Strategy.Rolling

/-!
# Rolling statistics are those of the window

`RollingStats` against the plain statistics of the last `capacity` values.  The sums are adjusted by
the value that comes in and the one that goes out, and rebuilt from the buffer once per wrap; in exact
arithmetic it makes no difference which.

* `Follows` — the state after a list of values since the last `clear`.
* `Follows.push` — one more value, as long as the write position has not wrapped.
* `calls_track` — every sequence of pushes and clears; `windowed_statistics` — its statistics.
-/

set_option autoImplicit false

namespace MarketMaker

open Word64 CircularBuffer

variable {K : Type*}

/-! ## The two ways to the sums -/

namespace RollingStats

section

variable [Field K]

/-- The sums taken again from the window. -/
def rebuiltSums (window : RollingWindow K) : K × K :=
  window.iter.foldl (fun acc v => (acc.1 + v, acc.2 + v * v)) (0, 0)

/-- The sums with the new value added and the old one taken away. -/
def adjustedSums (s : RollingStats K) (value : K) (old : Option K) : K × K :=
  let sums := (s.sum + value, s.sumSq + value * value)
  match old with
  | some old => (sums.1 - old, sums.2 - old * old)
  | none => sums

theorem foldl_sums (values : List K) (a b : K) :
    values.foldl (fun acc v => (acc.1 + v, acc.2 + v * v)) (a, b)
      = (a + values.sum, b + (values.map fun v => v * v).sum) := by
  induction values generalizing a b with
  | nil => simp
  | cons v vs ih =>
    rw [List.foldl_cons, ih, List.map_cons, List.sum_cons, List.sum_cons, add_assoc, add_assoc]

theorem rebuiltSums_eq (window : RollingWindow K) :
    rebuiltSums window = (window.iter.sum, (window.iter.map fun v => v * v).sum) := by
  unfold rebuiltSums
  rw [foldl_sums, zero_add, zero_add]

theorem adjustedSums_eq (s : RollingStats K) (value : K) (old : Option K) :
    s.adjustedSums value old
      = (s.sum + value - old.getD 0, s.sumSq + value * value - (old.map fun v => v * v).getD 0) := by
  cases old <;> simp [adjustedSums]

theorem updateSums_eq [LinearOrder K] (s : RollingStats K) (window : RollingWindow K) (value : K)
    (old : Option K) :
    s.updateSums window value old =
      if window.isFull ∧ window.writePos % window.capacity = 0 then rebuiltSums window
      else s.adjustedSums value old := rfl

end

end RollingStats

/-! ## The state after a list of values -/

/-- The buffer holds the values pushed since the last `clear`. -/
structure RollingWindow.Follows (w : RollingWindow K) (values : List K) : Prop where
  writePos : w.writePos = values.length
  count : w.count = min values.length w.capacity
  holds : Holds w.capacity w.buffer values

/-- The last values, oldest first. -/
theorem RollingWindow.Follows.iter {w : RollingWindow K} {values : List K} (h : w.Follows values) :
    w.iter = values.rtake w.capacity := by
  unfold RollingWindow.iter
  rw [h.count, h.writePos]
  refine h.holds.read ?_
  split
  · rw [Nat.mod_mod]
    exact Nat.mod_eq_sub_mod (by omega)
  · rw [show values.length - w.capacity = 0 by omega]

theorem RollingWindow.Follows.length_eq {w : RollingWindow K} {values : List K} (h : w.Follows values) :
    (values.rtake w.capacity).length = w.count := by
  rw [length_rtake, h.count]

/-- `push` returns the value that goes out, whatever the new value. -/
theorem RollingWindow.Follows.evicted {w : RollingWindow K} {values : List K} (h : w.Follows values)
    (value : K) : (w.push value).2 = CircularBuffer.evicted w.capacity values := by
  have hpush : (w.push value).2 =
      if w.capacity ≤ w.count then some (w.buffer (w.writePos % w.capacity)) else none := rfl
  rw [hpush, h.count, h.writePos]
  unfold CircularBuffer.evicted
  by_cases hfull : w.capacity ≤ values.length
  · rw [if_pos (by omega), if_pos hfull, h.holds.next w.capacity_pos hfull]
  · rw [if_neg (by omega), if_neg hfull]

theorem RollingWindow.Follows.push {w : RollingWindow K} {values : List K} (h : w.Follows values)
    (hlength : values.length + 1 < size) (value : K) : (w.push value).1.Follows (values ++ [value]) where
  writePos := by
    have hpush : (w.push value).1.writePos = wrappingAdd w.writePos 1 := rfl
    rw [hpush, h.writePos, wrappingAdd_of_lt hlength, List.length_append, List.length_singleton]
  count := by
    have hpush : (w.push value).1.count = if w.count < w.capacity then w.count + 1 else w.count := rfl
    have hcapacity : (w.push value).1.capacity = w.capacity := rfl
    rw [hpush, hcapacity, h.count, List.length_append, List.length_singleton]
    split <;> omega
  holds := by
    have hpush : (w.push value).1.buffer = Function.update w.buffer (w.writePos % w.capacity) value := rfl
    rw [hpush, h.writePos]
    exact h.holds.write value

namespace RollingStats

section

variable [Field K]

/-- The statistics follow the values; `sqrt` stands for `f64::sqrt`. -/
structure Follows (sqrt : K → K) (s : RollingStats K) (values : List K) : Prop where
  window : s.window.Follows values
  sum : s.sum = (values.rtake s.window.capacity).sum
  sumSq : s.sumSq = ((values.rtake s.window.capacity).map fun v => v * v).sum
  cachedMean : s.cachedMean = Population.mean (values.rtake s.window.capacity)
  cachedStd : s.cachedStd =
    if s.window.count < 2 then 0 else sqrt (Population.variance (values.rtake s.window.capacity))

variable {sqrt : K → K} {s : RollingStats K} {values : List K}

/-- **The rebuild and the adjustment agree**, after every push. -/
theorem Follows.sums_agree (h : Follows sqrt s values) (hlength : values.length + 1 < size) (value : K) :
    s.adjustedSums value (s.window.push value).2 = rebuiltSums (s.window.push value).1 := by
  have hpushed := h.window.push hlength value
  have hcapacity : (s.window.push value).1.capacity = s.window.capacity := rfl
  have hsum := sum_rtake_concat s.window.capacity_pos (fun v : K => v) values value
  have hsumSq := sum_rtake_concat s.window.capacity_pos (fun v : K => v * v) values value
  simp only [List.map_id', Option.map_id'] at hsum
  rw [adjustedSums_eq, rebuiltSums_eq, hpushed.iter, hcapacity, h.window.evicted, h.sum, h.sumSq, hsum, hsumSq]

/-- `clear` forgets all values. -/
theorem follows_clear (s : RollingStats K) : Follows sqrt s.clear [] where
  window := ⟨rfl, (Nat.zero_min _).symm, holds_nil⟩
  sum := by
    rw [List.rtake_nil]
    rfl
  sumSq := by
    rw [List.rtake_nil]
    rfl
  cachedMean := by
    rw [List.rtake_nil, Population.mean_nil]
    rfl
  cachedStd := rfl

theorem follows_new (capacity : Nat) (h : 0 < capacity) : Follows sqrt (new capacity h) [] :=
  follows_clear (new capacity h)

/-- `mean` is computed from the sum. -/
theorem Follows.mean (h : Follows sqrt s values) :
    s.mean = Population.mean (values.rtake s.window.capacity) := by
  have hlength := h.window.length_eq
  unfold RollingStats.mean Population.mean
  dsimp only
  split
  · rename_i hzero
    rw [hlength, hzero, Nat.cast_zero, div_zero]
  · rw [h.sum, hlength]

variable [LinearOrder K]

/-- Either way, the sums are those of the new window. -/
theorem Follows.updateSums_eq_rebuilt (h : Follows sqrt s values) (hlength : values.length + 1 < size)
    (value : K) :
    s.updateSums (s.window.push value).1 value (s.window.push value).2
      = rebuiltSums (s.window.push value).1 := by
  rw [updateSums_eq]
  split
  · rfl
  · exact h.sums_agree hlength value

theorem refreshCache_window (s : RollingStats K) : (s.refreshCache sqrt).window = s.window := by
  unfold refreshCache
  dsimp only
  split
  · rfl
  · split <;> rfl

theorem push_capacity (s : RollingStats K) (value : K) :
    (s.push sqrt (some value)).window.capacity = s.window.capacity := by
  have hwindow : (s.push sqrt (some value)).window = (s.window.push value).1 := refreshCache_window _
  rw [hwindow]
  rfl

variable [IsStrictOrderedRing K]

/-- The clamped difference that the code computes is the variance. -/
theorem clamped_eq_variance (window : List K) :
    max ((window.map fun v => v * v).sum / window.length
      - window.sum / window.length * (window.sum / window.length)) 0 = Population.variance window := by
  have heq := Population.variance_eq window
  unfold Population.mean at heq
  rw [← heq]
  exact max_eq_left (Population.variance_nonneg window)

/-- The cache is right once the sums are. -/
theorem follows_refreshCache (hwindow : s.window.Follows values) (hne : values ≠ [])
    (hsum : s.sum = (values.rtake s.window.capacity).sum)
    (hsumSq : s.sumSq = ((values.rtake s.window.capacity).map fun v => v * v).sum) :
    Follows sqrt (s.refreshCache sqrt) values := by
  have hcount : s.window.count ≠ 0 := by
    have hpos := s.window.capacity_pos
    have hlength := List.length_pos_iff.mpr hne
    have hmin := hwindow.count
    omega
  have hlength := hwindow.length_eq
  unfold refreshCache
  dsimp only
  split
  · rename_i htwo
    refine ⟨hwindow, hsum, hsumSq, ?_, ?_⟩
    · dsimp only
      rw [hsum, ← hlength]
      rfl
    · dsimp only
      rw [if_neg (Nat.not_lt.mpr htwo), hsum, hsumSq, ← hlength, clamped_eq_variance]
  · rename_i htwo
    have hone : s.window.count = 1 := by omega
    rw [if_pos hone]
    refine ⟨hwindow, hsum, hsumSq, ?_, ?_⟩
    · dsimp only
      rw [hone] at hlength
      rw [Population.mean, hlength, hsum, Nat.cast_one, div_one]
    · dsimp only
      rw [if_pos (by omega)]

/-- **One more value.** -/
theorem Follows.push (h : Follows sqrt s values) (hlength : values.length + 1 < size) (value : K) :
    Follows sqrt (s.push sqrt (some value)) (values ++ [value]) := by
  have hpushed := h.window.push hlength value
  have hsums := h.updateSums_eq_rebuilt hlength value
  rw [rebuiltSums_eq, hpushed.iter] at hsums
  refine follows_refreshCache hpushed (by simp) ?_ ?_
  · exact congrArg Prod.fst hsums
  · exact congrArg Prod.snd hsums

/-- `variance` is computed from both sums. -/
theorem Follows.variance (h : Follows sqrt s values) :
    s.variance = Population.variance (values.rtake s.window.capacity) := by
  have hlength := h.window.length_eq
  unfold RollingStats.variance
  dsimp only
  split
  · rename_i htwo
    exact (Population.variance_of_length_lt_two (hlength ▸ htwo)).symm
  · rw [h.sum, h.sumSq, ← hlength, clamped_eq_variance]

/-! ## Pushes and clears -/

/-- A call of the owner; a pushed value that is not finite is `none`. -/
inductive Call (K : Type*) where
  | push (value : Option K)
  | clear

/-- What a call does. -/
def call (sqrt : K → K) (s : RollingStats K) : Call K → RollingStats K
  | .push value => s.push sqrt value
  | .clear => s.clear

/-- What it does to the values pushed since the last `clear`. -/
def Call.keep (values : List K) : Call K → List K
  | .push (some value) => values ++ [value]
  | .push none => values
  | .clear => []

/-- The finite values pushed since the last `clear`. -/
def sinceClear (calls : List (Call K)) : List K := calls.foldl Call.keep []

/-- After `2 ^ 64` pushes the write position wraps, and only a `clear` brings the statistics back. -/
structure Tracks (sqrt : K → K) (capacity : Nat) (s : RollingStats K) (values : List K) : Prop where
  capacity_eq : s.window.capacity = capacity
  follows : values.length < size → Follows sqrt s values

theorem Tracks.call {capacity : Nat} (h : Tracks sqrt capacity s values) (c : Call K) :
    Tracks sqrt capacity (s.call sqrt c) (c.keep values) := by
  cases c with
  | clear => exact ⟨h.capacity_eq, fun _ => follows_clear s⟩
  | push value =>
    cases value with
    | none => exact h
    | some value =>
      have hfollows : (values ++ [value]).length < size →
          Follows sqrt (s.push sqrt (some value)) (values ++ [value]) := by
        intro hlength
        rw [List.length_append, List.length_singleton] at hlength
        exact (h.follows (Nat.lt_of_succ_lt hlength)).push hlength value
      refine ⟨?_, hfollows⟩
      rw [← h.capacity_eq]
      exact push_capacity s value

/-- **Every sequence of calls.** -/
theorem calls_track {capacity : Nat} (calls : List (Call K)) (h : Tracks sqrt capacity s values) :
    Tracks sqrt capacity (calls.foldl (RollingStats.call sqrt) s) (calls.foldl Call.keep values) := by
  induction calls generalizing s values with
  | nil => exact h
  | cons c cs ih => exact ih (h.call c)

end

/-- The statistics of the last `capacity` of the values, as exact real numbers. -/
structure WindowedStatistics (s : RollingStats ℝ) (capacity : Nat) (values : List ℝ) : Prop where
  iter : s.window.iter = values.rtake capacity
  evicted : ∀ value, (s.window.push value).2 =
    if capacity ≤ values.length then (values.rtake capacity).head? else none
  sum : s.sum = (values.rtake capacity).sum
  sumSq : s.sumSq = ((values.rtake capacity).map fun v => v * v).sum
  mean : s.mean = Population.mean (values.rtake capacity)
  variance : s.variance = Population.variance (values.rtake capacity)
  cachedMean : s.cachedMean = Population.mean (values.rtake capacity)
  cachedStd_sq : s.cachedStd ^ 2 = Population.variance (values.rtake capacity)
  few : (values.rtake capacity).length < 2 → s.variance = 0 ∧ s.cachedStd = 0
  paths_agree : values.length + 1 < size →
    ∀ value, s.adjustedSums value (s.window.push value).2 = rebuiltSums (s.window.push value).1

/-- **The rolling statistics are those of the window**, after every sequence of pushes and clears with
fewer than `2 ^ 64` values since the last `clear`. -/
theorem windowed_statistics {capacity : Nat} (hcapacity : 0 < capacity) (calls : List (Call ℝ))
    (hlength : (sinceClear calls).length < size) :
    WindowedStatistics (calls.foldl (call Real.sqrt) (new capacity hcapacity)) capacity (sinceClear calls) := by
  have htracks : Tracks Real.sqrt capacity (calls.foldl (call Real.sqrt) (new capacity hcapacity))
      (sinceClear calls) := calls_track calls ⟨rfl, fun _ => follows_new capacity hcapacity⟩
  have hfollows := htracks.follows hlength
  have hcap := htracks.capacity_eq
  generalize calls.foldl (call Real.sqrt) (new capacity hcapacity) = s at hfollows hcap
  subst hcap
  have hcount := hfollows.window.length_eq
  refine ⟨hfollows.window.iter, hfollows.window.evicted, hfollows.sum, hfollows.sumSq, hfollows.mean,
    hfollows.variance, hfollows.cachedMean, ?_, ?_, fun hnext => hfollows.sums_agree hnext⟩
  · rw [hfollows.cachedStd]
    split
    · rename_i hfew
      rw [Population.variance_of_length_lt_two (hcount ▸ hfew)]
      exact zero_pow two_ne_zero
    · exact Real.sq_sqrt (Population.variance_nonneg _)
  · intro hfew
    refine ⟨hfollows.variance.trans (Population.variance_of_length_lt_two hfew), ?_⟩
    rw [hfollows.cachedStd, if_pos (hcount ▸ hfew)]

/-- Five values through a window of three: `[3, 4, 5]` is left. -/
theorem windowed_statistics_wrap :
    ∃ s : RollingStats ℝ, s = ([1, 2, 3, 4, 5].map fun v => Call.push (some v)).foldl (call Real.sqrt)
        (new 3 (by decide)) ∧
      s.window.iter = [3, 4, 5] ∧ s.mean = 4 ∧ s.variance = 2 / 3 := by
  have h := windowed_statistics (show 0 < 3 by decide)
    ([1, 2, 3, 4, 5].map fun v => Call.push (some v)) (by decide)
  have hvalues : (sinceClear ([1, 2, 3, 4, 5].map fun v : ℝ => Call.push (some v))).rtake 3 = [3, 4, 5] := rfl
  refine ⟨_, rfl, h.iter, ?_, ?_⟩
  · rw [h.mean, hvalues]
    norm_num [Population.mean]
  · rw [h.variance, hvalues]
    norm_num [Population.variance, Population.mean]

end RollingStats

end MarketMaker
