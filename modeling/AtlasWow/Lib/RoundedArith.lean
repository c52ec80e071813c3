/-
Arithmetic on the values of a number format: each operation is the exact
result, rounded by a monotone rounding that leaves the values of the format
alone. Binary floating point without overflow and NaN is such a format, and
so are the rationals themselves (`FloatFormat.exact`).
-/
import Mathlib.Tactic.Linarith

/-- A rounding of the rationals to the values of a format. -/
structure FloatFormat where
  rnd : ℚ → ℚ
  mono : Monotone rnd
  idem : ∀ q, rnd (rnd q) = rnd q
  zero : rnd 0 = 0
  one : rnd 1 = 1

/-- The rationals, not rounded. -/
def FloatFormat.exact : FloatFormat := ⟨id, monotone_id, fun _ => rfl, rfl, rfl⟩

/-- A value of the format. -/
def Fl (fmt : FloatFormat) : Type := {q : ℚ // fmt.rnd q = q}

namespace Fl

variable {fmt : FloatFormat}

instance : LinearOrder (Fl fmt) := inferInstanceAs (LinearOrder {q : ℚ // fmt.rnd q = q})

instance : Zero (Fl fmt) := ⟨⟨0, fmt.zero⟩⟩
instance : One (Fl fmt) := ⟨⟨1, fmt.one⟩⟩

/-- The value nearest to a rational, as the rounding has it. -/
def ofRat (q : ℚ) : Fl fmt := ⟨fmt.rnd q, fmt.idem q⟩

instance : Add (Fl fmt) := ⟨fun x y => ofRat (x.1 + y.1)⟩
instance : Sub (Fl fmt) := ⟨fun x y => ofRat (x.1 - y.1)⟩
instance : Mul (Fl fmt) := ⟨fun x y => ofRat (x.1 * y.1)⟩
instance : Div (Fl fmt) := ⟨fun x y => ofRat (x.1 / y.1)⟩

def ofInt (n : Int) : Fl fmt := ofRat n

@[ext] theorem ext {x y : Fl fmt} (h : x.1 = y.1) : x = y := Subtype.ext h

theorem le_def {x y : Fl fmt} : x ≤ y ↔ x.1 ≤ y.1 := Iff.rfl

@[simp] theorem val_zero : (0 : Fl fmt).1 = 0 := rfl
@[simp] theorem val_one : (1 : Fl fmt).1 = 1 := rfl
@[simp] theorem ofRat_val (x : Fl fmt) : ofRat x.1 = x := ext x.2

theorem ofRat_mono {p q : ℚ} (h : p ≤ q) : (ofRat p : Fl fmt) ≤ ofRat q := fmt.mono h

theorem ofRat_nonneg {q : ℚ} (h : 0 ≤ q) : (0 : Fl fmt) ≤ ofRat q := by
  have := (@ofRat_mono fmt) h
  have h0 : (ofRat 0 : Fl fmt) = 0 := ofRat_val 0
  rwa [h0] at this

protected theorem add_le_add {w x y z : Fl fmt} (h : w ≤ x) (h' : y ≤ z) : w + y ≤ x + z :=
  ofRat_mono (add_le_add h h')

protected theorem le_add_of_nonneg {x a : Fl fmt} (h : 0 ≤ a) : x ≤ x + a := by
  have : (ofRat x.1 : Fl fmt) ≤ ofRat (x.1 + a.1) := ofRat_mono (by have : (0 : ℚ) ≤ a.1 := h; linarith)
  rwa [ofRat_val] at this

protected theorem add_le_of_nonpos {x a : Fl fmt} (h : a ≤ 0) : x + a ≤ x := by
  have : (ofRat (x.1 + a.1) : Fl fmt) ≤ ofRat x.1 := ofRat_mono (by have : a.1 ≤ (0 : ℚ) := h; linarith)
  rwa [ofRat_val] at this

@[simp] protected theorem add_zero (x : Fl fmt) : x + 0 = x := by
  have : x + 0 = ofRat (x.1 + 0) := rfl
  rw [this, add_zero, ofRat_val]

@[simp] protected theorem zero_add (x : Fl fmt) : 0 + x = x := by
  have : 0 + x = ofRat (0 + x.1) := rfl
  rw [this, zero_add, ofRat_val]

@[simp] protected theorem mul_one (x : Fl fmt) : x * 1 = x := by
  have : x * 1 = ofRat (x.1 * 1) := rfl
  rw [this, mul_one, ofRat_val]

protected theorem le_mul_of_one_le {x f : Fl fmt} (hx : 0 ≤ x) (hf : 1 ≤ f) : x ≤ x * f := by
  have hx' : (0 : ℚ) ≤ x.1 := hx
  have hf' : (1 : ℚ) ≤ f.1 := hf
  have : (ofRat x.1 : Fl fmt) ≤ ofRat (x.1 * f.1) := ofRat_mono (by nlinarith)
  rwa [ofRat_val] at this

protected theorem mul_le_of_le_one {x f : Fl fmt} (hx : 0 ≤ x) (hf : f ≤ 1) : x * f ≤ x := by
  have hx' : (0 : ℚ) ≤ x.1 := hx
  have hf' : f.1 ≤ (1 : ℚ) := hf
  have : (ofRat (x.1 * f.1) : Fl fmt) ≤ ofRat x.1 := ofRat_mono (by nlinarith)
  rwa [ofRat_val] at this

protected theorem mul_nonneg {x y : Fl fmt} (hx : 0 ≤ x) (hy : 0 ≤ y) : 0 ≤ x * y :=
  ofRat_nonneg (mul_nonneg hx hy)

end Fl
