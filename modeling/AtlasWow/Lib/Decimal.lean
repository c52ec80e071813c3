/-
Numbers in decimal strings, as `ostream` writes them and `atoi` and `strtoul`
read them, and the cutting of a string at a separator. What is written is read
back (`atoi_decimal`, `strtoul_decimal`); pieces that do not contain the
separator are what a string of them is cut into (`tokenize_joined`).
-/
import Mathlib.Algebra.Group.Int.Defs
import Mathlib.Algebra.Group.Nat.Defs
import Mathlib.Data.List.TakeWhile
import Mathlib.Tactic.Common

/-- A number as `ostream` writes it. -/
def decimal (z : Int) : List Char :=
  if z < 0 then '-' :: Nat.toDigits 10 z.natAbs else Nat.toDigits 10 z.natAbs

/-- The digits a string begins with. -/
def digitsValue (s : List Char) : Nat := Nat.ofDigitChars 10 (s.takeWhile Char.isDigit) 0

/-- Blanks, a sign and digits; what follows is not read. -/
def atoi (s : List Char) : Int :=
  match s.dropWhile Char.isWhitespace with
  | '-' :: ds => -(digitsValue ds : Int)
  | '+' :: ds => digitsValue ds
  | ds => digitsValue ds

/-- `strtoul` to the base 10: the largest value stands for what is too large. -/
def strtoul (s : List Char) : Nat :=
  if (atoi s).natAbs < 2 ^ 64 then (atoi s % 2 ^ 64).toNat else 2 ^ 64 - 1

theorem decimal_nat (n : Nat) : decimal n = Nat.toDigits 10 n := by
  rw [decimal, if_neg (by omega)]
  rfl

theorem digitsValue_toDigits (n : Nat) : digitsValue (Nat.toDigits 10 n) = n := by
  have hdigits : (Nat.toDigits 10 n).takeWhile Char.isDigit = Nat.toDigits 10 n :=
    List.takeWhile_eq_self_iff.2 fun c hc => Nat.isDigit_of_mem_toDigits (by decide) (by decide) hc
  rw [digitsValue, hdigits, Nat.ofDigitChars_toDigits (by decide) (by decide)]

/-- A digit is neither a blank nor a sign. -/
theorem Char.isDigit_ne {c : Char} (h : c.isDigit = true) : c ≠ ' ' ∧ c ≠ '-' ∧ c ≠ '+' ∧ c.isWhitespace = false := by
  refine ⟨?_, ?_, ?_, ?_⟩
  · rintro rfl; exact absurd h (by decide)
  · rintro rfl; exact absurd h (by decide)
  · rintro rfl; exact absurd h (by decide)
  · rw [Bool.eq_false_iff]
    intro hw
    simp only [Char.isWhitespace, Bool.or_eq_true, decide_eq_true_eq] at hw
    rcases hw with ((rfl | rfl) | rfl) | rfl <;> exact absurd h (by decide)

theorem toDigits_cons (n : Nat) : ∃ c cs, Nat.toDigits 10 n = c :: cs ∧ c.isDigit = true := by
  cases hd : Nat.toDigits 10 n with
  | nil => exact absurd hd Nat.toDigits_ne_nil
  | cons c cs =>
    exact ⟨c, cs, rfl, Nat.isDigit_of_mem_toDigits (n := n) (b := 10) (by decide) (by decide) (by rw [hd]; simp)⟩

theorem atoi_decimal (z : Int) : atoi (decimal z) = z := by
  obtain ⟨c, cs, hcs, hc⟩ := toDigits_cons z.natAbs
  have hvalue := digitsValue_toDigits z.natAbs
  by_cases h : z < 0
  · have hblank : ('-' :: Nat.toDigits 10 z.natAbs).dropWhile Char.isWhitespace = '-' :: Nat.toDigits 10 z.natAbs :=
      List.dropWhile_cons_of_neg (by decide)
    rw [atoi, decimal, if_pos h, hblank]
    show -(digitsValue (Nat.toDigits 10 z.natAbs) : Int) = z
    omega
  obtain ⟨-, hminus, hplus, hblank⟩ := Char.isDigit_ne hc
  rw [hcs] at hvalue
  rw [atoi, decimal, if_neg h, hcs, List.dropWhile_cons_of_neg (by simp [hblank])]
  split
  next heq => exact absurd (List.cons.inj heq).1 hminus
  next heq => exact absurd (List.cons.inj heq).1 hplus
  next => omega

theorem strtoul_decimal {n : Nat} (h : n < 2 ^ 64) : strtoul (decimal n) = n := by
  rw [strtoul, atoi_decimal, if_pos (by simpa using h)]
  omega

theorem notMem_decimal_nat {c : Char} (h : c.isDigit = false) (n : Nat) : c ∉ decimal n := fun hmem => by
  rw [decimal_nat] at hmem
  rw [Nat.isDigit_of_mem_toDigits (by decide) (by decide) hmem] at h
  cases h

theorem space_notMem_decimal (z : Int) : ' ' ∉ decimal z := by
  have hdigits : ' ' ∉ Nat.toDigits 10 z.natAbs := fun hmem =>
    absurd rfl (Char.isDigit_ne (Nat.isDigit_of_mem_toDigits (by decide) (by decide) hmem)).1
  unfold decimal
  split
  · simpa using hdigits
  · exact hdigits

/-- The pieces of a string between separators; after the last separator only if there is more. -/
def tokenize (sep : Char) : List Char → List Char → List (List Char)
  | piece, [] => if piece = [] then [] else [piece]
  | piece, c :: cs => if c = sep then piece :: tokenize sep [] cs else tokenize sep (piece ++ [c]) cs

theorem tokenize_piece {sep : Char} {s : List Char} (h : sep ∉ s) (piece rest : List Char) :
    tokenize sep piece (s ++ sep :: rest) = (piece ++ s) :: tokenize sep [] rest := by
  induction s generalizing piece with
  | nil => simp [tokenize]
  | cons c s ih =>
    obtain ⟨hc, hs⟩ := not_or.1 (mt List.mem_cons.2 h)
    rw [List.cons_append, tokenize, if_neg (Ne.symm hc), ih hs, List.append_assoc]
    rfl

theorem tokenize_joined {sep : Char} {l : List (List Char)} (h : ∀ s ∈ l, sep ∉ s) :
    tokenize sep [] (l.flatMap fun s => s ++ [sep]) = l := by
  induction l with
  | nil => rfl
  | cons s l ih =>
    obtain ⟨hs, hl⟩ := List.forall_mem_cons.1 h
    rw [List.flatMap_cons, List.append_assoc, List.singleton_append, tokenize_piece hs, ih hl, List.nil_append]
