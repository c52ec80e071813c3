/-
Numbers as bytes, the least significant first: `leBytes w n` are the `w` low
bytes of `n`, `leNat` is the number some bytes stand for. They are inverse to
each other on numbers that fit (`leNat_leBytes`, `leBytes_leNat`).
-/
import Mathlib.Algebra.Group.Nat.Defs
import Mathlib.Data.List.Basic

def leBytes : Nat → Nat → List UInt8
  | 0, _ => []
  | w + 1, n => .ofNat n :: leBytes w (n / 256)

def leNat : List UInt8 → Nat
  | [] => 0
  | b :: bs => b.toNat + 256 * leNat bs

@[simp] theorem length_leBytes : ∀ w n, (leBytes w n).length = w
  | 0, _ => rfl
  | w + 1, n => congrArg (· + 1) (length_leBytes w (n / 256))

theorem leNat_lt : ∀ bs : List UInt8, leNat bs < 256 ^ bs.length
  | [] => by decide
  | b :: bs => by
    have := leNat_lt bs
    have := UInt8.toNat_lt b
    rw [leNat, List.length_cons, Nat.pow_succ]
    omega

/-- What fits is read back. -/
theorem leNat_leBytes : ∀ {w n : Nat}, n < 256 ^ w → leNat (leBytes w n) = n
  | 0, n, h => by
    rw [Nat.pow_zero] at h
    simp only [leBytes, leNat]
    omega
  | w + 1, n, h => by
    have hdiv : n / 256 < 256 ^ w := by
      rw [Nat.pow_succ] at h
      omega
    rw [leBytes, leNat, leNat_leBytes hdiv, UInt8.toNat_ofNat']
    omega

theorem leBytes_leNat : ∀ bs : List UInt8, leBytes bs.length (leNat bs) = bs
  | [] => rfl
  | b :: bs => by
    have hb := UInt8.toNat_lt b
    have hdiv : (b.toNat + 256 * leNat bs) / 256 = leNat bs := by omega
    have hlow : UInt8.ofNat (b.toNat + 256 * leNat bs) = b := by
      apply UInt8.toNat_inj.1
      rw [UInt8.toNat_ofNat']
      omega
    rw [List.length_cons, leBytes, leNat, hdiv, leBytes_leNat bs, hlow]
