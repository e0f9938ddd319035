import Mathlib.Tactic.Ring

/-!
# Unsigned 64-bit counters

A `u64` is a natural number below `2 ^ 64`.  `wrappingAdd` is what `AtomicU64::fetch_add` and
`u64::wrapping_add` compute, `saturatingAdd` and `saturatingMul` their saturating namesakes, and
`asI64` the `as i64` cast.
-/

namespace Word64

/-- The number of `u64` values. -/
def size : Nat := 18446744073709551616

/-- `u64::MAX`. -/
def maxValue : Nat := 18446744073709551615

theorem size_eq : size = 2 ^ 64 := by decide

def wrappingAdd (a b : Nat) : Nat := (a + b) % size

def saturatingAdd (a b : Nat) : Nat := min (a + b) maxValue

def saturatingMul (a b : Nat) : Nat := min (a * b) maxValue

/-- `+=` on a `u32` in a release build. -/
def wrappingAdd32 (a b : Nat) : Nat := (a + b) % 4294967296

/-- `as i64`: the two's complement reading of the same 64 bits. -/
def asI64 (a : Nat) : Int :=
  if a % size < 9223372036854775808 then (a % size : Nat) else (a % size : Nat) - (size : Int)

/-- An `i64` operation in a release build: the exact result brought back into range. -/
def wrapI64 (a : Int) : Int := Int.bmod a 18446744073709551616

theorem wrapI64_of_mem {a : Int} (hlow : -9223372036854775808 ≤ a) (hhigh : a < 9223372036854775808) :
    wrapI64 a = a := by
  unfold wrapI64 Int.bmod
  dsimp only
  split <;> omega

theorem asI64_of_lt {a : Nat} (h : a < 9223372036854775808) : asI64 a = a := by
  unfold asI64 size
  omega

theorem asI64_le (a : Nat) : asI64 a ≤ a := by
  unfold asI64 size
  omega

theorem wrappingAdd_of_lt {a b : Nat} (h : a + b < size) : wrappingAdd a b = a + b :=
  Nat.mod_eq_of_lt h

theorem wrappingAdd_le (a b : Nat) : wrappingAdd a b ≤ a + b := Nat.mod_le _ _

theorem saturatingAdd_of_le {a b : Nat} (h : a + b ≤ maxValue) : saturatingAdd a b = a + b :=
  Nat.min_eq_left h

end Word64
