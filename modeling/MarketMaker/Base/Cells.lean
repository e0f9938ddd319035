import Mathlib.Tactic.Common

/-!
# Records stored cell by cell

One writer publishes record after record, storing the cells of a record one after the other and
always in the same order.  Whoever reads loads one cell at a time.

* `Writer.shown` — the number of the record a cell shows.
* `Writer.shown_anti` — a cell that is stored later never shows a newer record.
* `Writer.shown_store` — a store changes the cell stored, and no cell goes back.
* `Writer.load_load` — of two loads in the opposite order of the stores, the second one shows no
  older record.
-/

set_option autoImplicit false

namespace Cells

/-- `complete` records are published and `stored` cells of the next one are written. -/
structure Writer where
  complete : Nat
  stored : Nat
  deriving DecidableEq

namespace Writer

/-- The number of the record that cell `i` shows. -/
def shown (w : Writer) (i : Nat) : Nat := if i < w.stored then w.complete + 1 else w.complete

/-- The next cell of `width` is stored; the last one completes the record. -/
def store (width : Nat) (w : Writer) : Writer :=
  if w.stored + 1 = width then ⟨w.complete + 1, 0⟩ else ⟨w.complete, w.stored + 1⟩

variable {w w' : Writer} {width i j : Nat}

theorem shown_of_lt (h : i < w.stored) : w.shown i = w.complete + 1 := if_pos h

theorem shown_of_le (h : w.stored ≤ i) : w.shown i = w.complete := if_neg (Nat.not_lt.mpr h)

theorem complete_le_shown (w : Writer) (i : Nat) : w.complete ≤ w.shown i := by
  unfold shown
  split
  · exact Nat.le_succ w.complete
  · exact Nat.le_refl w.complete

theorem shown_le (w : Writer) (i : Nat) : w.shown i ≤ w.complete + 1 := by
  unfold shown
  split
  · exact Nat.le_refl _
  · exact Nat.le_succ w.complete

/-- A cell that is stored later never shows a newer record. -/
theorem shown_anti (h : i ≤ j) : w.shown j ≤ w.shown i := by
  by_cases hi : i < w.stored
  · rw [shown_of_lt hi]
    exact w.shown_le j
  · have hj : w.stored ≤ j := Nat.le_trans (Nat.not_lt.mp hi) h
    rw [shown_of_le hj]
    exact w.complete_le_shown i

/-- A store changes what the cell stored shows, and nothing else. -/
theorem shown_store (hi : i < width) :
    (w.store width).shown i = if i = w.stored then w.complete + 1 else w.shown i := by
  unfold store
  split
  · rename_i hlast
    -- The record is complete: every other cell has been written before.
    rw [shown_of_le (Nat.zero_le i)]
    split
    · rfl
    · rename_i hne
      rw [shown_of_lt (by omega)]
  · unfold shown
    dsimp only
    split
    · split
      · rfl
      · rw [if_pos (by omega)]
    · rw [if_neg (by omega), if_neg (by omega)]

/-- No cell goes back. -/
theorem shown_le_store (hi : i < width) : w.shown i ≤ (w.store width).shown i := by
  rw [shown_store hi]
  split
  · exact w.shown_le i
  · exact Nat.le_refl _

/-- From one moment to a later one no cell goes back. -/
def Later (width : Nat) (w w' : Writer) : Prop := ∀ i < width, w.shown i ≤ w'.shown i

theorem Later.refl (width : Nat) (w : Writer) : Later width w w := fun _ _ => Nat.le_refl _

theorem Later.trans {w'' : Writer} (h : Later width w w') (h' : Later width w' w'') :
    Later width w w'' := fun i hi => Nat.le_trans (h i hi) (h' i hi)

theorem later_store (width : Nat) (w : Writer) : Later width w (w.store width) :=
  fun _ hi => shown_le_store hi

/-- Of two loads in the opposite order of the stores, the second shows no older record. -/
theorem load_load (h : Later width w w') (hj : j < width) (hij : i ≤ j) : w.shown j ≤ w'.shown i :=
  Nat.le_trans (h j hj) (shown_anti hij)

end Writer

end Cells
