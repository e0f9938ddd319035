import Mathlib.Algebra.Order.Ring.Int
import Mathlib.Data.List.Infix
import Mathlib.Tactic.Linarith
import Mathlib.Tactic.Ring

/-!
# Sample and hold

Observations that arrive at arbitrary times, and what they show on a fixed grid: at a grid time the
first observation stamped exactly at it, and otherwise the last one stamped before it.

* `mem_grid` — the grid has exactly the grid times up to the last observation.
* `valueAt_append_of_lt`, `valueAt_append_self` — what one more observation changes.
* `Samples.push`, `Samples.append` — the samples taken so far grow by one, or outlive one more
  observation.
* `Samples.times_eq_grid` — what was sampled is the grid up to the last observation.
* `Redundant.valueAt_eq` — observations that repeat the one held, off the grid, change nothing.
* `prefix_of_shows` — times and observations determine the samples.
-/

set_option autoImplicit false

namespace SampleHold

variable {V : Type*}

structure Stamped (V : Type*) where
  time : Int
  value : V
  deriving DecidableEq

/-- The last observation stamped before a time. -/
def before (os : List (Stamped V)) (t : Int) : Option (Stamped V) :=
  (os.filter fun o => decide (o.time < t)).getLast?

/-- What the observations show at a time. -/
def valueAt (os : List (Stamped V)) (t : Int) : Option V :=
  ((os.find? fun o => decide (o.time = t)).or (before os t)).map (·.value)

/-- The observations arrive in the order of their times. -/
def Ordered (os : List (Stamped V)) : Prop := os.Pairwise fun o p => o.time ≤ p.time

/-- `n` grid times from the first on. -/
def gridTimes (first step : Int) (n : Nat) : List Int :=
  (List.range n).map fun k : Nat => first + k * step

/-- The grid times from the first observation up to the last. -/
def grid (step : Int) (os : List (Stamped V)) : List Int :=
  match os.head?, os.getLast? with
  | some first, some last => gridTimes first.time step (((last.time - first.time) / step).toNat + 1)
  | _, _ => []

/-- The grid has every grid time that is not after the last observation. -/
theorem mem_grid {step : Int} (hstep : 0 < step) {os : List (Stamped V)} {f l : Stamped V}
    (hfirst : os.head? = some f) (hlast : os.getLast? = some l) (hle : f.time ≤ l.time) {t : Int} :
    t ∈ grid step os ↔ ∃ k : Nat, t = f.time + k * step ∧ t ≤ l.time := by
  have hcount : ∀ k : Nat, k < ((l.time - f.time) / step).toNat + 1 ↔ f.time + k * step ≤ l.time := by
    intro k
    have hdiv : (k : Int) ≤ (l.time - f.time) / step ↔ k * step ≤ l.time - f.time :=
      Int.le_ediv_iff_mul_le hstep
    have hpos : 0 ≤ (l.time - f.time) / step := Int.ediv_nonneg (by omega) hstep.le
    omega
  unfold grid
  rw [hfirst, hlast]
  simp only [gridTimes, List.mem_map, List.mem_range, hcount]
  constructor
  · rintro ⟨k, hk, rfl⟩
    exact ⟨k, rfl, hk⟩
  · rintro ⟨k, rfl, hk⟩
    exact ⟨k, hk, rfl⟩

/-! ### What observations show -/

/-- A later observation is not looked at. -/
theorem valueAt_append_of_lt (os : List (Stamped V)) {o : Stamped V} {t : Int} (h : t < o.time) :
    valueAt (os ++ [o]) t = valueAt os t := by
  have hnot : ¬ o.time < t := by omega
  have hne : ¬ o.time = t := by omega
  simp [valueAt, before, List.find?_append, List.filter_append, hnot, hne]

/-- Nor is a second observation at the same time. -/
theorem valueAt_append_of_mem {os : List (Stamped V)} {o o' : Stamped V} (ho : o ∈ os) :
    valueAt (os ++ [o']) o.time = valueAt os o.time := by
  have hfound : (os.find? fun p => decide (p.time = o.time)).isSome = true :=
    List.find?_isSome.mpr ⟨o, ho, by simp⟩
  obtain ⟨p, hp⟩ := Option.isSome_iff_exists.mp hfound
  simp [valueAt, List.find?_append, hp]

theorem find?_none_of_lt {os : List (Stamped V)} {t : Int} (h : ∀ o ∈ os, o.time < t) :
    (os.find? fun o => decide (o.time = t)) = none := by
  refine List.find?_eq_none.mpr fun o ho => ?_
  have := h o ho
  simp only [decide_eq_true_eq]
  omega

theorem before_of_lt {os : List (Stamped V)} {t : Int} (h : ∀ o ∈ os, o.time < t) :
    before os t = os.getLast? := by
  unfold before
  rw [List.filter_eq_self.mpr fun o ho => by simpa using h o ho]

/-- After every observation the last one is held. -/
theorem valueAt_of_lt {os : List (Stamped V)} {t : Int} (h : ∀ o ∈ os, o.time < t) :
    valueAt os t = os.getLast?.map (·.value) := by
  rw [valueAt, find?_none_of_lt h, before_of_lt h, Option.none_or]

/-- An observation is shown at its own time if nothing was stamped so late before. -/
theorem valueAt_append_self {os : List (Stamped V)} {o : Stamped V} (h : ∀ p ∈ os, p.time < o.time) :
    valueAt (os ++ [o]) o.time = some o.value := by
  simp [valueAt, List.find?_append, find?_none_of_lt h]

/-! ### Samples -/

/-- Samples on the grid from `first`, each with the value shown at its time, and the next grid time. -/
structure Samples (first step : Int) (os : List (Stamped V)) (next : Int) (xs : List (Stamped V)) :
    Prop where
  next_eq : next = first + xs.length * step
  times : xs.map (·.time) = gridTimes first step xs.length
  shown : ∀ x ∈ xs, valueAt os x.time = some x.value

namespace Samples

variable {first step next : Int} {os xs : List (Stamped V)}

theorem nil (os : List (Stamped V)) : Samples first step os first [] :=
  ⟨by simp, rfl, fun x hx => absurd hx List.not_mem_nil⟩

/-- A sample at the next grid time. -/
theorem push (h : Samples first step os next xs) {v : V} (hv : valueAt os next = some v) :
    Samples first step os (next + step) (xs ++ [⟨next, v⟩]) := by
  refine ⟨?_, ?_, fun x hx => ?_⟩
  · rw [h.next_eq, List.length_append, List.length_singleton]
    push_cast
    ring
  · rw [List.map_append, h.times, List.length_append, List.length_singleton]
    simp [gridTimes, List.range_succ, h.next_eq]
  · rcases List.mem_append.mp hx with hx | hx
    · exact h.shown x hx
    · rw [List.mem_singleton] at hx
      rw [hx]
      exact hv

/-- What was sampled before an observation arrived, or was shown by an earlier one stamped at the
    same time, is not changed by it. -/
theorem append (h : Samples first step os next xs) {o : Stamped V}
    (hearlier : ∀ x ∈ xs, x.time < o.time ∨ ∃ p ∈ os, p.time = x.time) :
    Samples first step (os ++ [o]) next xs := by
  refine ⟨h.next_eq, h.times, fun x hx => ?_⟩
  rcases hearlier x hx with hlt | ⟨p, hp, hpx⟩
  · rw [valueAt_append_of_lt os hlt]
    exact h.shown x hx
  · rw [← hpx, valueAt_append_of_mem hp, hpx]
    exact h.shown x hx

/-- Every sample was taken at least a step before the next one is due. -/
theorem time_le (h : Samples first step os next xs) (hstep : 0 < step) {x : Stamped V} (hx : x ∈ xs) :
    x.time ≤ next - step := by
  have hmem : x.time ∈ gridTimes first step xs.length := by
    rw [← h.times]
    exact List.mem_map_of_mem hx
  obtain ⟨k, hk, hkx⟩ := List.mem_map.mp hmem
  have hk : (k : Int) + 1 ≤ xs.length := by exact_mod_cast List.mem_range.mp hk
  have hmul : ((k : Int) + 1) * step ≤ xs.length * step := Int.mul_le_mul_of_nonneg_right hk hstep.le
  rw [h.next_eq, ← hkx]
  linarith

/-- Once the next grid time is past the last observation, by no more than a step, the grid up to it
    has been sampled. -/
theorem times_eq_grid (h : Samples first step os next xs) (hstep : 0 < step) {f l : Stamped V}
    (hfirst : os.head? = some f) (hf : f.time = first) (hlast : os.getLast? = some l)
    (hle : first ≤ l.time) (hnext : l.time < next) (hclose : next ≤ l.time + step) :
    xs.map (·.time) = grid step os := by
  have hcount : ((l.time - first) / step).toNat + 1 = xs.length := by
    have hlow : ((xs.length : Int) - 1) * step ≤ l.time - first := by
      rw [h.next_eq] at hclose
      linarith
    have hhigh : l.time - first < ((xs.length : Int) - 1 + 1) * step := by
      rw [h.next_eq] at hnext
      linarith
    have hdiv : (l.time - first) / step = (xs.length : Int) - 1 :=
      le_antisymm (Int.lt_add_one_iff.mp ((Int.ediv_lt_iff_lt_mul hstep).mpr hhigh))
        ((Int.le_ediv_iff_mul_le hstep).mpr hlow)
    have hpos : 0 ≤ (l.time - first) / step := Int.ediv_nonneg (by omega) hstep.le
    omega
  unfold grid
  rw [hfirst, hlast]
  simp only
  rw [hf, hcount]
  exact h.times

end Samples

/-! ### Redundant observations -/

/-- The second list is the first with observations inserted, each repeating the value of the one
    before it, at a time that is not looked at. -/
inductive Redundant (unseen : Int → Prop) (os : List (Stamped V)) : List (Stamped V) → Prop
  | refl : Redundant unseen os os
  | insert {pre post : List (Stamped V)} {held r : Stamped V} :
      Redundant unseen os (pre ++ held :: post) → r.value = held.value → unseen r.time →
      Redundant unseen os (pre ++ held :: r :: post)

theorem find?_insert {p : Stamped V → Bool} {r : Stamped V} (hr : p r = false) (held : Stamped V)
    (pre post : List (Stamped V)) :
    (pre ++ held :: r :: post).find? p = (pre ++ held :: post).find? p := by
  simp [List.find?_append, List.find?_cons, hr]

/-- One redundant observation changes what is shown nowhere else. -/
theorem valueAt_insert {pre post : List (Stamped V)} {held r : Stamped V} {t : Int}
    (hle : held.time ≤ r.time) (hvalue : r.value = held.value) (hne : r.time ≠ t) :
    valueAt (pre ++ held :: r :: post) t = valueAt (pre ++ held :: post) t := by
  unfold valueAt
  rw [find?_insert (by simpa using hne)]
  cases (pre ++ held :: post).find? fun o => decide (o.time = t) with
  | some o => rfl
  | none =>
    simp only [Option.none_or, before, List.filter_append, List.filter_cons, decide_eq_true_eq]
    by_cases hr : r.time < t
    · -- Then the held one is before `t` too, and the two are last only if nothing else is.
      have hheld : held.time < t := by omega
      rw [if_pos hheld, if_pos hr, if_pos hheld]
      cases post.filter fun o => decide (o.time < t) with
      | nil => simp [List.getLast?_append, hvalue]
      | cons o os => simp [List.getLast?_append]
    · rw [if_neg hr]

theorem Redundant.valueAt_eq {unseen : Int → Prop} {os os' : List (Stamped V)}
    (h : Redundant unseen os os') (hordered : Ordered os') {t : Int} (ht : ¬ unseen t) :
    valueAt os' t = valueAt os t := by
  induction h with
  | refl => rfl
  | @insert pre post held r _ hvalue hunseen ih =>
    have htail : (held :: r :: post).Pairwise fun o p => o.time ≤ p.time :=
      (List.pairwise_append.mp hordered).2.1
    have hle : held.time ≤ r.time := (List.pairwise_cons.mp htail).1 r (by simp)
    have hsub : (pre ++ held :: post).Sublist (pre ++ held :: r :: post) :=
      (List.Sublist.refl pre).append ((List.sublist_cons_self r post).cons_cons held)
    have hne : r.time ≠ t := by
      rintro rfl
      exact ht hunseen
    rw [valueAt_insert hle hvalue hne]
    exact ih (hordered.sublist hsub)

theorem Redundant.head?_eq {unseen : Int → Prop} {os os' : List (Stamped V)}
    (h : Redundant unseen os os') : os'.head? = os.head? := by
  induction h with
  | refl => rfl
  | @insert pre post held r _ _ _ ih =>
    rw [← ih]
    cases pre <;> rfl

/-- The last time only grows. -/
theorem Redundant.last_le {unseen : Int → Prop} {os os' : List (Stamped V)}
    (h : Redundant unseen os os') (hordered : Ordered os') {l l' : Stamped V}
    (hl : os.getLast? = some l) (hl' : os'.getLast? = some l') :
    l.time ≤ l'.time := by
  have hmem : ∀ o ∈ os, o ∈ os' := by
    clear hordered hl hl'
    induction h with
    | refl => exact fun o ho => ho
    | insert _ _ _ ih =>
      intro o ho
      have := ih o ho
      simp only [List.mem_append, List.mem_cons] at this ⊢
      tauto
  have hl := hmem l (List.mem_of_getLast? hl)
  obtain ⟨init, hinit⟩ := List.getLast?_eq_some_iff.mp hl'
  rw [hinit] at hl hordered
  rcases List.mem_append.mp hl with hl | hl
  · exact (List.pairwise_append.mp hordered).2.2 l hl l' (by simp)
  · rw [List.mem_singleton] at hl
    rw [hl]

/-! ### The samples are determined -/

/-- Two lists of samples of the same observations, the times of one beginning those of the other. -/
theorem prefix_of_shows {os os' : List (Stamped V)} {xs ys : List (Stamped V)}
    (htimes : xs.map (·.time) <+: ys.map (·.time)) (hxs : ∀ x ∈ xs, valueAt os x.time = some x.value)
    (hys : ∀ y ∈ ys, valueAt os' y.time = some y.value)
    (hsame : ∀ x ∈ xs, valueAt os' x.time = valueAt os x.time) : xs <+: ys := by
  induction xs generalizing ys with
  | nil => exact List.nil_prefix
  | cons x xs ih =>
    cases ys with
    | nil => simp at htimes
    | cons y ys =>
      simp only [List.map_cons, List.cons_prefix_cons] at htimes
      obtain ⟨htime, htimes⟩ := htimes
      have hvalue : x.value = y.value := by
        have hx := hxs x (by simp)
        have hy := hys y (by simp)
        rw [← htime, hsame x (by simp), hx] at hy
        exact Option.some.inj hy
      have hxy : x = y := by
        cases x
        cases y
        simp_all
      rw [hxy]
      exact List.cons_prefix_cons.mpr ⟨rfl, ih htimes (fun x hx => hxs x (List.mem_cons_of_mem _ hx))
        (fun y hy => hys y (List.mem_cons_of_mem _ hy)) fun x hx => hsame x (List.mem_cons_of_mem _ hx)⟩

theorem gridTimes_prefix (first step : Int) {m n : Nat} (h : m ≤ n) :
    gridTimes first step m <+: gridTimes first step n := by
  obtain ⟨k, rfl⟩ := Nat.exists_eq_add_of_le h
  unfold gridTimes
  rw [List.range_add, List.map_append]
  exact List.prefix_append _ _

/-- A later last observation only lengthens the grid. -/
theorem grid_prefix {step : Int} (hstep : 0 < step) {os os' : List (Stamped V)} {l l' : Stamped V}
    (hhead : os'.head? = os.head?) (hl : os.getLast? = some l) (hl' : os'.getLast? = some l')
    (hle : l.time ≤ l'.time) : grid step os <+: grid step os' := by
  unfold grid
  rw [hhead, hl, hl']
  cases os.head? with
  | none => exact List.prefix_refl _
  | some f =>
    have hdiv : (l.time - f.time) / step ≤ (l'.time - f.time) / step :=
      Int.ediv_le_ediv hstep (by omega)
    exact gridTimes_prefix f.time step (by omega)

/-- Redundant observations only lengthen the grid. -/
theorem Redundant.grid_prefix {unseen : Int → Prop} {step : Int} (hstep : 0 < step)
    {os os' : List (Stamped V)} (h : Redundant unseen os os') (hordered : Ordered os') :
    grid step os <+: grid step os' := by
  cases hl : os.getLast? with
  | none =>
    rw [List.getLast?_eq_none_iff] at hl
    rw [hl]
    exact List.nil_prefix
  | some l =>
    cases hl' : os'.getLast? with
    | none =>
      rw [List.getLast?_eq_none_iff] at hl'
      have hnil : os = [] := List.head?_eq_none_iff.mp (by rw [← h.head?_eq, hl', List.head?_nil])
      rw [hnil, List.getLast?_nil] at hl
      cases hl
    | some l' => exact SampleHold.grid_prefix hstep h.head?_eq hl hl' (h.last_le hordered hl hl')

end SampleHold
