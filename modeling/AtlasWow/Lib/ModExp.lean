/-
Modular exponentiation by repeated squaring, so that powers with large
exponents can be computed; `modExp_eq` is its specification.
-/
import Mathlib.Data.Nat.ModEq
import Mathlib.Tactic.Ring

/-- `acc * b ^ e % m`, for an exponent of at most `n` bits. -/
def modExpLoop (m : Nat) : Nat → Nat → Nat → Nat → Nat
  | 0, _, _, acc => acc % m
  | n + 1, b, e, acc => modExpLoop m n (b * b % m) (e / 2) (if e % 2 = 1 then acc * b % m else acc)

@[irreducible] def modExp (b e m : Nat) : Nat := modExpLoop m (Nat.log2 e + 1) b e 1

theorem modExpLoop_eq (m : Nat) : ∀ {n b e acc : Nat}, e < 2 ^ n → modExpLoop m n b e acc = acc * b ^ e % m
  | 0, b, e, acc, h => by
    have : e = 0 := by simpa using h
    simp [modExpLoop, this]
  | n + 1, b, e, acc, h => by
    have hhalf : e / 2 < 2 ^ n := by rw [Nat.pow_succ] at h; omega
    have hsquare : (b * b % m) ^ (e / 2) ≡ b ^ (2 * (e / 2)) [MOD m] := by
      rw [Nat.pow_mul, Nat.pow_two]
      exact (Nat.mod_modEq _ _).pow _
    rw [modExpLoop, modExpLoop_eq m hhalf]
    change _ ≡ _ [MOD m]
    split
    next hodd =>
      have he : e = 2 * (e / 2) + 1 := by omega
      calc acc * b % m * (b * b % m) ^ (e / 2) ≡ acc * b * b ^ (2 * (e / 2)) [MOD m] :=
            (Nat.mod_modEq _ _).mul hsquare
        _ = acc * b ^ (2 * (e / 2) + 1) := by ring
        _ = acc * b ^ e := by rw [← he]
    next heven =>
    have he : e = 2 * (e / 2) := by omega
    calc acc * (b * b % m) ^ (e / 2) ≡ acc * b ^ (2 * (e / 2)) [MOD m] := hsquare.mul_left _
      _ = acc * b ^ e := by rw [← he]

theorem modExp_eq (b e m : Nat) : modExp b e m = b ^ e % m := by
  rw [modExp, modExpLoop_eq m Nat.lt_log2_self, Nat.one_mul]
