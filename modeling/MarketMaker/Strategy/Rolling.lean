import Mathlib.Algebra.Order.Field.Basic
import MarketMaker.Base.Word64

/-!
# Rolling statistics

`RollingWindow` and `RollingStats` of `strategy/rolling.rs`, over any ordered field in the place
of `f64`; `sqrt` stands for `f64::sqrt`, and a pushed value that is not finite is `none`.
-/

set_option autoImplicit false

namespace MarketMaker

open Word64

variable {K : Type*}

/-- `RollingWindow`; `new` asserts a positive capacity. -/
structure RollingWindow (K : Type*) where
  buffer : Nat → K
  capacity : Nat
  writePos : Nat
  count : Nat
  capacity_pos : 0 < capacity

namespace RollingWindow

/-- `RollingWindow::new`. -/
def new [Zero K] (capacity : Nat) (h : 0 < capacity) : RollingWindow K := ⟨fun _ => 0, capacity, 0, 0, h⟩

/-- `RollingWindow::push`: the window and the value that was overwritten. -/
def push (w : RollingWindow K) (value : K) : RollingWindow K × Option K :=
  let idx := w.writePos % w.capacity
  ({ w with
     buffer := Function.update w.buffer idx value
     writePos := wrappingAdd w.writePos 1
     count := if w.count < w.capacity then w.count + 1 else w.count },
   if w.capacity ≤ w.count then some (w.buffer idx) else none)

/-- `RollingWindow::iter`, from oldest to newest. -/
def iter (w : RollingWindow K) : List K :=
  let start := if w.capacity ≤ w.count then w.writePos % w.capacity else 0
  (List.range w.count).map fun i => w.buffer ((start + i) % w.capacity)

/-- `RollingWindow::is_full`. -/
def isFull (w : RollingWindow K) : Bool := decide (w.capacity ≤ w.count)

/-- `RollingWindow::clear`. -/
def clear (w : RollingWindow K) : RollingWindow K := { w with writePos := 0, count := 0 }

end RollingWindow

structure RollingStats (K : Type*) where
  window : RollingWindow K
  sum : K
  sumSq : K
  cachedStd : K
  cachedMean : K

namespace RollingStats

section

variable [Field K] [LinearOrder K]

/-- `RollingStats::new`. -/
def new (capacity : Nat) (h : 0 < capacity) : RollingStats K := ⟨.new capacity h, 0, 0, 0, 0⟩

/-- The sums after a value went in: rebuilt from the window once per wrap, and otherwise
    adjusted by the new value and the one it replaced. -/
def updateSums (s : RollingStats K) (window : RollingWindow K) (value : K) (old : Option K) : K × K :=
  if window.isFull ∧ window.writePos % window.capacity = 0 then
    window.iter.foldl (fun acc v => (acc.1 + v, acc.2 + v * v)) (0, 0)
  else
    let sums := (s.sum + value, s.sumSq + value * value)
    match old with
    | some old => (sums.1 - old, sums.2 - old * old)
    | none => sums

/-- The cached statistics for the current sums. -/
def refreshCache (sqrt : K → K) (s : RollingStats K) : RollingStats K :=
  let n := s.window.count
  if 2 ≤ n then
    let mean := s.sum / n
    { s with cachedMean := mean, cachedStd := sqrt (max (s.sumSq / n - mean * mean) 0) }
  else if n = 1 then { s with cachedMean := s.sum, cachedStd := 0 }
  else s

/-- `RollingStats::push`. -/
def push (sqrt : K → K) (s : RollingStats K) (value : Option K) : RollingStats K :=
  match value with
  | none => s
  | some value =>
    let (window, old) := s.window.push value
    let sums := s.updateSums window value old
    refreshCache sqrt { s with window := window, sum := sums.1, sumSq := sums.2 }

/-- `RollingStats::mean`. -/
def mean (s : RollingStats K) : K :=
  let n := s.window.count
  if n = 0 then 0 else s.sum / n

/-- `RollingStats::variance`. -/
def variance (s : RollingStats K) : K :=
  let n := s.window.count
  if n < 2 then 0
  else
    let mean := s.sum / n
    max (s.sumSq / n - mean * mean) 0

/-- `RollingStats::std`. -/
def std (sqrt : K → K) (s : RollingStats K) : K := sqrt s.variance

/-- `RollingStats::zscore`. -/
def zscore (s : RollingStats K) (value : K) : K :=
  if s.cachedStd < 1 / 10000000000 then 0 else (value - s.cachedMean) / s.cachedStd

/-- `RollingStats::clear`. -/
def clear (s : RollingStats K) : RollingStats K := ⟨s.window.clear, 0, 0, 0, 0⟩

end

end RollingStats

end MarketMaker
