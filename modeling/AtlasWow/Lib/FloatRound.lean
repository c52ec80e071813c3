/-
Whole numbers rounded to a number of significant bits, to the nearest and
ties to the even one, as a conversion to a binary floating point number does
that does not overflow. `roundInt_mono`: a larger number is not rounded to a
smaller one; `roundInt_exact`: small numbers are left alone.
-/
import Mathlib.Algebra.Group.Nat.Defs
import Mathlib.Data.Nat.Log
import Mathlib.Tactic.Common

/-- The unit in the last of `p` places. -/
def roundUnit (p n : Nat) : Nat := 2 ^ (n.log2 + 1 - p)

/-- The quotient, rounded to the nearest and ties to even. -/
def divNearest (n u : Nat) : Nat := if 2 * (n % u) < u ∨ 2 * (n % u) = u ∧ n / u % 2 = 0 then n / u else n / u + 1

/-- A number rounded to `p` significant bits. -/
def roundBits (p n : Nat) : Nat := divNearest n (roundUnit p n) * roundUnit p n

/-- An integer rounded to `p` significant bits. -/
def roundInt (p : Nat) (x : Int) : Int := if 0 ≤ x then roundBits p x.toNat else -(roundBits p (-x).toNat : Nat)

section

variable {p n m u : Nat}

theorem le_divNearest (n u : Nat) : n / u ≤ divNearest n u := by
  unfold divNearest
  split <;> omega

theorem divNearest_le (n u : Nat) : divNearest n u ≤ n / u + 1 := by
  unfold divNearest
  split <;> omega

/-- With one unit a larger number is not rounded to a smaller one. -/
theorem divNearest_mono (u : Nat) (h : n ≤ m) : divNearest n u ≤ divNearest m u := by
  have hdiv : n / u ≤ m / u := Nat.div_le_div_right h
  rcases Nat.lt_or_eq_of_le hdiv with hlt | heq
  · exact (divNearest_le n u).trans (hlt.trans_le (le_divNearest m u))
  have hn := Nat.div_add_mod n u
  have hm := Nat.div_add_mod m u
  rw [heq] at hn
  have hmod : n % u ≤ m % u := by omega
  unfold divNearest
  rw [heq]
  split
  · split <;> omega
  · rw [if_neg (by omega)]

theorem roundUnit_pos (p n : Nat) : 0 < roundUnit p n := Nat.two_pow_pos _

theorem roundBits_zero (p : Nat) : roundBits p 0 = 0 := by
  unfold roundBits divNearest
  rw [Nat.zero_mod, Nat.zero_div, if_pos, Nat.zero_mul]
  exact .inl (roundUnit_pos p 0)

/-- Rounding does not take a number below its highest bit. -/
theorem le_roundBits (hp : 0 < p) (hn : n ≠ 0) : 2 ^ n.log2 ≤ roundBits p n := by
  have hsplit : 2 ^ n.log2 = 2 ^ (n.log2 - (n.log2 + 1 - p)) * roundUnit p n := by
    unfold roundUnit
    rw [← Nat.pow_add, Nat.sub_add_cancel (by omega)]
  have hquot : 2 ^ (n.log2 - (n.log2 + 1 - p)) ≤ n / roundUnit p n := by
    rw [Nat.le_div_iff_mul_le (roundUnit_pos p n), ← hsplit]
    exact Nat.log2_self_le hn
  rw [hsplit]
  exact Nat.mul_le_mul_right _ (hquot.trans (le_divNearest ..))

/-- Nor above the next. -/
theorem roundBits_le (p n : Nat) (hp : 0 < p) : roundBits p n ≤ 2 ^ (n.log2 + 1) := by
  have hsplit : 2 ^ (n.log2 + 1) = 2 ^ (n.log2 + 1 - (n.log2 + 1 - p)) * roundUnit p n := by
    unfold roundUnit
    rw [← Nat.pow_add, Nat.sub_add_cancel (by omega)]
  have hquot : n / roundUnit p n < 2 ^ (n.log2 + 1 - (n.log2 + 1 - p)) := by
    rw [Nat.div_lt_iff_lt_mul (roundUnit_pos p n), ← hsplit]
    exact Nat.lt_log2_self
  rw [hsplit]
  exact Nat.mul_le_mul_right _ ((divNearest_le ..).trans hquot)

/-- A number of `p` bits is left alone. -/
theorem roundBits_exact (hp : 0 < p) (h : n < 2 ^ p) : roundBits p n = n := by
  have hunit : roundUnit p n = 1 := by
    unfold roundUnit
    have hlog : n.log2 + 1 ≤ p := by
      rcases Nat.eq_zero_or_pos n with rfl | hpos
      · rw [Nat.log2_zero]
        exact hp
      · exact (Nat.log2_lt (by omega)).2 h
    rw [Nat.sub_eq_zero_of_le hlog, Nat.pow_zero]
  unfold roundBits divNearest
  rw [hunit, Nat.mod_one, Nat.div_one, if_pos (.inl (by decide)), Nat.mul_one]

theorem roundBits_mono (hp : 0 < p) (h : n ≤ m) : roundBits p n ≤ roundBits p m := by
  rcases Nat.eq_zero_or_pos n with rfl | hn
  · rw [roundBits_zero]
    exact Nat.zero_le _
  have hm : m ≠ 0 := by omega
  have hlog : n.log2 ≤ m.log2 := (Nat.le_log2 hm).2 ((Nat.log2_self_le (by omega)).trans h)
  rcases Nat.lt_or_eq_of_le hlog with hlt | heq
  · -- the highest bit of the larger number is between them
    calc roundBits p n ≤ 2 ^ (n.log2 + 1) := roundBits_le p n hp
      _ ≤ 2 ^ m.log2 := Nat.pow_le_pow_right (by decide) hlt
      _ ≤ roundBits p m := le_roundBits hp hm
  have hunit : roundUnit p n = roundUnit p m := by
    unfold roundUnit
    rw [heq]
  unfold roundBits
  rw [hunit]
  exact Nat.mul_le_mul_right _ (divNearest_mono _ h)

theorem roundBits_pos (hp : 0 < p) (hn : n ≠ 0) : 0 < roundBits p n := (Nat.two_pow_pos _).trans_le (le_roundBits hp hn)

/-- Rounding keeps the sign. -/
theorem roundInt_nonneg_iff (hp : 0 < p) {x : Int} : 0 ≤ roundInt p x ↔ 0 ≤ x := by
  unfold roundInt
  split
  next h => exact iff_of_true (Int.natCast_nonneg _) h
  next h =>
  have hpos := @roundBits_pos p (-x).toNat hp (by omega)
  exact iff_of_false (by omega) h

theorem roundInt_mono (hp : 0 < p) {x y : Int} (h : x ≤ y) : roundInt p x ≤ roundInt p y := by
  unfold roundInt
  split
  next hx =>
    rw [if_pos (hx.trans h)]
    exact Int.ofNat_le.2 (roundBits_mono hp (by omega))
  next hx =>
  split
  next => omega
  next =>
  have hmono := @roundBits_mono p (-y).toNat (-x).toNat hp (by omega)
  omega

theorem roundInt_exact (hp : 0 < p) {x : Int} (h : x.natAbs < 2 ^ p) : roundInt p x = x := by
  unfold roundInt
  split
  next hx => rw [roundBits_exact hp (by omega), Int.toNat_of_nonneg hx]
  next hx =>
  rw [roundBits_exact hp (by omega)]
  omega

end
