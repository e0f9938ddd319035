import Mathlib.Logic.Function.Basic
import Mathlib.Data.List.Basic

/-!
# Snapshots and deltas

A table is written entry by entry, each write with an id; a delta lists, for a range of ids, the
value each entry written in it has at the end.

* `Covers.applyAll_eq` — a delta brings any state that is at least as far as its first id up to its
  last one.
* `Covers.widen` — it may also be taken to start earlier, where nothing was written.
-/

set_option autoImplicit false

namespace DeltaFeed

variable {κ ν : Type*} [DecidableEq κ]

/-- An entry and its new value, `none` to remove it. -/
abbrev Write (κ ν : Type*) := κ × Option ν

/-- The table after a list of writes. -/
def applyAll (table : κ → Option ν) (ws : List (Write κ ν)) : κ → Option ν :=
  ws.foldl (fun table w => Function.update table w.1 w.2) table

/-- The table after the writes up to an id; the first id is 1. -/
def stateAt (writes : Nat → List (Write κ ν)) : Nat → κ → Option ν
  | 0 => fun _ => none
  | n + 1 => applyAll (stateAt writes n) (writes (n + 1))

/-- The list has the value after `last` of every entry written from `first` to `last`. -/
structure Covers (writes : Nat → List (Write κ ν)) (first last : Nat) (ds : List (Write κ ν)) : Prop where
  values : ∀ d ∈ ds, d.2 = stateAt writes last d.1
  written : ∀ n, first ≤ n → n ≤ last → ∀ w ∈ writes n, ∃ d ∈ ds, d.1 = w.1

theorem applyAll_of_not_mem {table : κ → Option ν} {ws : List (Write κ ν)} {k : κ}
    (h : ∀ w ∈ ws, w.1 ≠ k) : applyAll table ws k = table k := by
  induction ws generalizing table with
  | nil => rfl
  | cons w ws ih =>
    have htail : applyAll (Function.update table w.1 w.2) ws k = Function.update table w.1 w.2 k :=
      ih fun w' hw' => h w' (List.mem_cons_of_mem _ hw')
    calc applyAll table (w :: ws) k = Function.update table w.1 w.2 k := htail
      _ = table k := Function.update_of_ne (h w List.mem_cons_self).symm _ _

/-- An entry that is only ever set to one value has it in the end. -/
theorem applyAll_of_mem {table : κ → Option ν} {ws : List (Write κ ν)} {k : κ} {v : Option ν}
    (hvalues : ∀ w ∈ ws, w.1 = k → w.2 = v) (hmem : ∃ w ∈ ws, w.1 = k) : applyAll table ws k = v := by
  induction ws generalizing table with
  | nil => simp at hmem
  | cons w ws ih =>
    have hvalues' : ∀ w ∈ ws, w.1 = k → w.2 = v := fun w hw => hvalues w (List.mem_cons_of_mem _ hw)
    by_cases htail : ∃ w ∈ ws, w.1 = k
    · exact ih hvalues' htail
    · have hnot : ∀ w ∈ ws, w.1 ≠ k := fun w hw hk => htail ⟨w, hw, hk⟩
      obtain ⟨w', hw', hk⟩ := hmem
      rcases List.mem_cons.mp hw' with rfl | hw'
      · calc applyAll table (w' :: ws) k = Function.update table w'.1 w'.2 k := applyAll_of_not_mem hnot
          _ = w'.2 := by rw [← hk, Function.update_self]
          _ = v := hvalues w' List.mem_cons_self hk
      · exact absurd hk (hnot w' hw')

/-- An entry that is not written from one id to another keeps its value. -/
theorem stateAt_of_not_written {writes : Nat → List (Write κ ν)} {k : κ} {m n : Nat} (hle : m ≤ n)
    (h : ∀ i, m < i → i ≤ n → ∀ w ∈ writes i, w.1 ≠ k) : stateAt writes n k = stateAt writes m k := by
  induction n with
  | zero =>
    obtain rfl : m = 0 := by omega
    rfl
  | succ n ih =>
    rcases Nat.lt_or_ge m (n + 1) with hlt | hge
    · calc stateAt writes (n + 1) k = stateAt writes n k :=
            applyAll_of_not_mem (h (n + 1) hlt (Nat.le_refl _))
        _ = stateAt writes m k := ih (by omega) fun i hi hin => h i hi (by omega)
    · obtain rfl : m = n + 1 := by omega
      rfl

/-- **A delta catches up.** -/
theorem Covers.applyAll_eq {writes : Nat → List (Write κ ν)} {first last m : Nat} {ds : List (Write κ ν)}
    (h : Covers writes first last ds) (hfirst : first ≤ m + 1) (hlast : m ≤ last) :
    applyAll (stateAt writes m) ds = stateAt writes last := by
  funext k
  by_cases hmem : ∃ d ∈ ds, d.1 = k
  · refine applyAll_of_mem (fun d hd hk => ?_) hmem
    rw [h.values d hd, hk]
  · have hnot : ∀ d ∈ ds, d.1 ≠ k := fun d hd hk => hmem ⟨d, hd, hk⟩
    rw [applyAll_of_not_mem hnot, stateAt_of_not_written hlast]
    intro i hi hle w hw hk
    obtain ⟨d, hd, hdk⟩ := h.written i (by omega) hle w hw
    exact hnot d hd (hdk.trans hk)

/-- A delta also covers a longer range, if nothing is written in the part added. -/
theorem Covers.widen {writes : Nat → List (Write κ ν)} {first first' last : Nat} {ds : List (Write κ ν)}
    (h : Covers writes first last ds) (hempty : ∀ n, first' ≤ n → n < first → writes n = []) :
    Covers writes first' last ds := by
  refine ⟨h.values, fun n hn hle w hw => ?_⟩
  rcases Nat.lt_or_ge n first with hlt | hge
  · rw [hempty n hn hlt] at hw
    exact absurd hw List.not_mem_nil
  · exact h.written n hge hle w hw

end DeltaFeed
