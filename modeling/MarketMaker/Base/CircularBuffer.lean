import Mathlib.Algebra.BigOperators.Group.List.Basic
import Mathlib.Data.List.DropRight
import Mathlib.Data.Nat.ModEq
import Mathlib.Tactic.Abel

/-!
# Circular buffers

The cells of a buffer of fixed capacity, written one after the other and again from the start.  The
value number `i` goes to the cell `i % capacity`, so the buffer always holds the last `capacity` values.

* `Holds.write` — writing the next value.
* `Holds.read` — reading from the oldest cell on gives the last values, oldest first.
* `Holds.next` — the cell that is written next holds the value that goes out.
* `sum_rtake_concat` — what a sum over the last values gains and loses by one more value.
-/

set_option autoImplicit false

namespace CircularBuffer

variable {α : Type*}

/-! ## The last values of a list -/

theorem length_rtake (values : List α) (n : Nat) : (values.rtake n).length = min values.length n := by
  unfold List.rtake
  rw [List.length_drop]
  omega

theorem rtake_of_length_le {values : List α} {n : Nat} (h : values.length ≤ n) : values.rtake n = values := by
  unfold List.rtake
  rw [Nat.sub_eq_zero_of_le h, List.drop_zero]

theorem getElem?_rtake (values : List α) (n k : Nat) :
    (values.rtake n)[k]? = values[values.length - n + k]? := List.getElem?_drop

/-- While there is room, nothing goes out. -/
theorem rtake_concat_of_lt {values : List α} {n : Nat} (h : values.length < n) (v : α) :
    (values ++ [v]).rtake n = values.rtake n ++ [v] := by
  rw [rtake_of_length_le (Nat.le_of_lt h)]
  apply rtake_of_length_le
  rw [List.length_append, List.length_singleton]
  exact h

/-- After that, the oldest goes out. -/
theorem rtake_concat_of_le {values : List α} {n : Nat} (hn : 0 < n) (h : n ≤ values.length) (v : α) :
    (values ++ [v]).rtake n = (values.rtake n).tail ++ [v] := by
  unfold List.rtake
  rw [List.tail_drop, List.length_append, List.length_singleton, List.drop_append_of_le_length (by omega)]
  congr 2
  omega

/-- The value that goes out for the next one. -/
def evicted (n : Nat) (values : List α) : Option α :=
  if n ≤ values.length then (values.rtake n).head? else none

theorem sum_rtake_concat {M : Type*} [AddCommGroup M] {n : Nat} (hn : 0 < n) (f : α → M) (values : List α)
    (v : α) :
    (((values ++ [v]).rtake n).map f).sum
      = ((values.rtake n).map f).sum + f v - ((evicted n values).map f).getD 0 := by
  unfold evicted
  split
  · rename_i hfull
    rw [rtake_concat_of_le hn hfull]
    cases hwindow : values.rtake n with
    | nil =>
      have hlength := congrArg List.length hwindow
      rw [length_rtake, List.length_nil] at hlength
      omega
    | cons oldest rest =>
      simp only [List.tail_cons, List.map_append, List.map_cons, List.map_nil, List.sum_append, List.sum_cons,
        List.sum_nil, List.head?_cons, Option.map_some, Option.getD_some]
      abel
  · rename_i hroom
    rw [rtake_concat_of_lt (Nat.lt_of_not_le hroom)]
    simp

/-! ## The cells -/

/-- Positions less than a round apart have different cells. -/
theorem mod_ne {c i n : Nat} (hi : i < n) (hn : n < i + c) : i % c ≠ n % c := by
  intro heq
  have hdvd : c ∣ n - i := (Nat.modEq_iff_dvd' (Nat.le_of_lt hi)).mp heq
  have hle := Nat.le_of_dvd (by omega) hdvd
  omega

/-- Each of the last `capacity` values is in its cell. -/
def Holds (capacity : Nat) (cell : Nat → α) (values : List α) : Prop :=
  ∀ i v, values[i]? = some v → values.length ≤ i + capacity → cell (i % capacity) = v

variable {capacity : Nat} {cell : Nat → α} {values : List α}

theorem holds_nil : Holds capacity cell [] := by
  intro i v hv
  cases hv

theorem Holds.write (h : Holds capacity cell values) (v : α) :
    Holds capacity (Function.update cell (values.length % capacity) v) (values ++ [v]) := by
  intro i x hx hlast
  rw [List.length_append, List.length_singleton] at hlast
  rcases Nat.lt_trichotomy i values.length with hlt | rfl | hgt
  · rw [List.getElem?_append_left hlt] at hx
    rw [Function.update_of_ne (mod_ne hlt (by omega))]
    exact h i x hx (by omega)
  · rw [List.getElem?_concat_length] at hx
    rw [Function.update_self]
    exact Option.some.inj hx
  · rw [List.getElem?_eq_none (by simp; omega)] at hx
    cases hx

/-- The cell of the next value holds the oldest. -/
theorem Holds.next (h : Holds capacity cell values) (hpos : 0 < capacity) (hfull : capacity ≤ values.length) :
    (values.rtake capacity).head? = some (cell (values.length % capacity)) := by
  have hlt : values.length - capacity < values.length := by omega
  have hmod : values.length % capacity = (values.length - capacity) % capacity := Nat.mod_eq_sub_mod hfull
  rw [List.head?_eq_getElem?, getElem?_rtake, Nat.add_zero, hmod,
    h _ _ (List.getElem?_eq_getElem hlt) (by omega)]
  exact List.getElem?_eq_getElem hlt

/-- The cells from the oldest value on, one round at most. -/
theorem Holds.read (h : Holds capacity cell values) {start : Nat}
    (hstart : start % capacity = (values.length - capacity) % capacity) :
    (List.range (min values.length capacity)).map (fun k => cell ((start + k) % capacity))
      = values.rtake capacity := by
  apply List.ext_getElem?
  intro k
  rw [List.getElem?_map, getElem?_rtake]
  rcases Nat.lt_or_ge k (min values.length capacity) with hlt | hge
  · have hvalue : values.length - capacity + k < values.length := by omega
    rw [List.getElem?_range hlt, Option.map_some, List.getElem?_eq_getElem hvalue, Nat.add_mod, hstart,
      ← Nat.add_mod]
    exact congrArg some (h _ _ (List.getElem?_eq_getElem hvalue) (by omega))
  · rw [List.getElem?_eq_none (by simpa using hge), Option.map_none]
    exact (List.getElem?_eq_none (by omega)).symm

end CircularBuffer
