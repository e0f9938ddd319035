import Mathlib.Data.BitVec

/-!
# Flag words

A word of independent flags under the three operations an atomic bit field offers: `fetch_or`
(`set`), `fetch_and` with a complement (`clear`) and a masked load (`test`).  Two masks are
*separate* when they share no bit; the lemmas say that each operation touches its own mask
only, for words of any width.
-/

namespace Flags

variable {w : Nat}

/-- `fetch_or(mask)`. -/
def set (flags mask : BitVec w) : BitVec w := flags ||| mask

/-- `fetch_and(!mask)`. -/
def clear (flags mask : BitVec w) : BitVec w := flags &&& ~~~mask

/-- `load() & mask != 0`. -/
def test (flags mask : BitVec w) : Bool := flags &&& mask != 0#w

/-- Masks without a common bit. -/
def Separate (a b : BitVec w) : Prop := a &&& b = 0#w

theorem Separate.symm {a b : BitVec w} (h : Separate a b) : Separate b a := by
  unfold Separate at *
  rw [BitVec.and_comm]; exact h

theorem Separate.getElem {a b : BitVec w} (h : Separate a b) (i : Nat) (hi : i < w) :
    (a[i] && b[i]) = false := by
  have := congrArg (fun x : BitVec w => x[i]) h
  simpa using this

theorem test_iff (flags mask : BitVec w) : test flags mask = true ↔ flags &&& mask ≠ 0#w := by
  simp [test]

@[simp] theorem test_zero (mask : BitVec w) : test 0#w mask = false := by
  simp [test]

/-- Setting a nonempty mask makes its test true. -/
theorem test_set_self (flags : BitVec w) {mask : BitVec w} (hm : mask ≠ 0#w) :
    test (set flags mask) mask = true := by
  have hand : (flags ||| mask) &&& mask = mask := by
    ext i hi
    simp only [BitVec.getElem_and, BitVec.getElem_or]
    cases flags[i] <;> cases mask[i] <;> rfl
  rw [test_iff, set, hand]
  exact hm

/-- Setting one mask leaves the tests of separate masks as they were. -/
theorem test_set_of_separate (flags : BitVec w) {a b : BitVec w} (h : Separate a b) :
    test (set flags a) b = test flags b := by
  have hand : (flags ||| a) &&& b = flags &&& b := by
    ext i hi
    have := h.getElem i hi
    simp only [BitVec.getElem_and, BitVec.getElem_or]
    revert this
    cases flags[i] <;> cases a[i] <;> cases b[i] <;> simp
  unfold test set
  rw [hand]

/-- A test that was true stays true when more bits are set. -/
theorem test_set_of_test (flags : BitVec w) {a b : BitVec w} (h : test flags b = true) :
    test (set flags a) b = true := by
  rw [test_iff] at h ⊢
  intro h0
  apply h
  ext i hi
  have := congrArg (fun x : BitVec w => x[i]) h0
  simp only [set, BitVec.getElem_and, BitVec.getElem_or, BitVec.getElem_zero] at this ⊢
  revert this
  cases flags[i] <;> cases a[i] <;> cases b[i] <;> simp

@[simp] theorem test_clear_self (flags mask : BitVec w) : test (clear flags mask) mask = false := by
  have hand : flags &&& ~~~mask &&& mask = 0#w := by
    ext i hi
    simp only [BitVec.getElem_and, BitVec.getElem_not, BitVec.getElem_zero]
    cases flags[i] <;> cases mask[i] <;> rfl
  unfold test clear
  rw [hand]; simp

/-- Clearing one mask leaves the tests of separate masks as they were. -/
theorem test_clear_of_separate (flags : BitVec w) {a b : BitVec w} (h : Separate a b) :
    test (clear flags a) b = test flags b := by
  have hand : flags &&& ~~~a &&& b = flags &&& b := by
    ext i hi
    have := h.getElem i hi
    simp only [BitVec.getElem_and, BitVec.getElem_not]
    revert this
    cases flags[i] <;> cases a[i] <;> cases b[i] <;> simp
  unfold test clear
  rw [hand]

/-- A word in which some mask tests true is not zero. -/
theorem ne_zero_of_test {flags mask : BitVec w} (h : test flags mask = true) : flags ≠ 0#w := by
  rintro rfl
  simp at h

end Flags
