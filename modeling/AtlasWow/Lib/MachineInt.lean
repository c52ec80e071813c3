/-
Integers as 32 bits keep them, signed and unsigned, over `Int` and `Nat`, so
that what does not wrap is plain arithmetic (`int32_small`, `uint32_small`).
-/
import Mathlib.Algebra.Group.Int.Defs
import Mathlib.Algebra.Group.Nat.Defs
import Mathlib.Tactic.Common

/-- A number as `int32` keeps it. -/
@[irreducible] def int32 (x : Int) : Int := x.bmod (2 ^ 32)

/-- A number as `uint32` keeps it. -/
def uint32 (x : Int) : Nat := (x % 2 ^ 32).toNat

theorem int32_eq (x : Int) : int32 x =
    if x % 4294967296 < 2147483648 then x % 4294967296 else x % 4294967296 - 4294967296 := by
  unfold int32
  rfl

theorem int32_small {x : Int} (h₀ : 0 ≤ x) (h : x < 2 ^ 31) : int32 x = x := by
  rw [int32_eq]
  split <;> omega

theorem uint32_eq (x : Int) : uint32 x = (x % 4294967296).toNat := rfl

theorem uint32_small {x : Nat} (h : x < 2 ^ 32) : uint32 x = x := by
  rw [uint32_eq]
  omega

theorem uint32_lt (x : Int) : uint32 x < 2 ^ 32 := by
  rw [uint32_eq]
  omega

/-- A number that 32 bits hold, with its sign. -/
theorem int32_of_range {x : Int} (h₀ : -2 ^ 31 ≤ x) (h : x < 2 ^ 31) : int32 x = x := by
  rw [int32_eq]
  split <;> omega

/-- A wrap before a subtraction is one after it. -/
theorem int32_sub_int32 (x y : Int) : int32 (x - int32 y) = int32 (x - y) := by
  rw [int32_eq (x - int32 y), int32_eq (x - y), int32_eq y]
  split_ifs <;> omega
