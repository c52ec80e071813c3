/-
Turns that go around a list: after somebody come those behind him, then those
from the start of the list up to himself. Where everybody takes his turn, as
many turns as there are members give each exactly one (`turns_perm`).
-/
import Mathlib.Data.List.Perm.Basic
import Mathlib.Data.List.Nodup

namespace RoundRobin

variable {α : Type} [DecidableEq α]

/-- Who is asked after `a`, in this order; the whole list if `a` is not in it. -/
def order (l : List α) (a : α) : List α := l.drop (l.idxOf a + 1) ++ l.take (l.idxOf a + 1)

/-- The next one who takes his turn. -/
def next (p : α → Bool) (l : List α) (a : α) : Option α := (order l a).find? p

/-- The next `n` turns. -/
def turns (p : α → Bool) (l : List α) : Nat → α → List α
  | 0, _ => []
  | n + 1, a =>
    match next p l a with
    | some b => b :: turns p l n b
    | none => []

variable {p : α → Bool} {l : List α} {a b : α}

theorem order_perm (l : List α) (a : α) : (order l a).Perm l := by
  have happend : (l.drop (l.idxOf a + 1) ++ l.take (l.idxOf a + 1)).Perm (l.take (l.idxOf a + 1) ++ l.drop (l.idxOf a + 1)) :=
    List.perm_append_comm
  rwa [List.take_append_drop] at happend

theorem order_of_notMem (h : a ∉ l) : order l a = l := by
  rw [order, List.idxOf_eq_length h, List.drop_eq_nil_of_le (Nat.le_succ _), List.take_of_length_le (Nat.le_succ _),
    List.nil_append]

/-- Whoever has his turn is asked last. -/
theorem order_append (s t : List α) (h : a ∉ s) : order (s ++ a :: t) a = t ++ s ++ [a] := by
  have hidx : (s ++ a :: t).idxOf a = s.length := by rw [List.idxOf_append_of_notMem h, List.idxOf_cons_self, Nat.add_zero]
  rw [order, hidx, List.append_cons, List.drop_left' (by simp), List.take_left' (by simp), List.append_assoc]

/-- After the first of an order comes the rest of it, then he. -/
theorem order_head (hnodup : l.Nodup) {t : List α} (h : order l a = b :: t) : order l b = t ++ [b] := by
  obtain ⟨i, hi⟩ : ∃ i, i = l.idxOf a + 1 := ⟨_, rfl⟩
  have hl := List.take_append_drop i l
  rw [order, ← hi] at h
  cases hdrop : l.drop i with
  | nil =>
    rw [hdrop, List.append_nil] at hl
    rw [hdrop, List.nil_append, hl] at h
    rw [h]
    simpa using order_append [] t (a := b) List.not_mem_nil
  | cons c r =>
    rw [hdrop, List.cons_append] at h
    obtain ⟨rfl, rfl⟩ := List.cons.inj h
    rw [hdrop] at hl
    have hnot : c ∉ l.take i := by
      rw [← hl, List.nodup_append] at hnodup
      exact fun hmem => hnodup.2.2 c hmem c List.mem_cons_self rfl
    have horder := order_append (l.take i) r hnot
    rwa [hl] at horder

theorem next_eq_none : next p l a = none ↔ ∀ b ∈ l, p b = false := by
  rw [next, List.find?_eq_none]
  refine forall_congr' fun b => ?_
  rw [(order_perm l a).mem_iff, Bool.not_eq_true]

/-- The next one is in the list and takes his turn, and those who are asked before him do not. -/
theorem next_eq_some : next p l a = some b ↔ p b = true ∧ ∃ s t, order l a = s ++ b :: t ∧ ∀ c ∈ s, p c = false := by
  rw [next, List.find?_eq_some_iff_append]
  simp

theorem next_mem (h : next p l a = some b) : b ∈ l ∧ p b = true :=
  ⟨(order_perm l a).mem_iff.1 (List.mem_of_find?_eq_some h), List.find?_some h⟩

/-- Where nobody but `a` takes turns, it stays his. -/
theorem next_only (ha : a ∈ l) (hp : p a = true) (hothers : ∀ b ∈ l, p b = true → b = a) : next p l a = some a := by
  cases h : next p l a with
  | none => exact absurd hp (by rw [next_eq_none.1 h a ha]; exact Bool.false_ne_true)
  | some b => rw [hothers b (next_mem h).1 (next_mem h).2]

theorem turns_eq_take (hnodup : l.Nodup) (hall : ∀ b ∈ l, p b = true) {n : Nat} (hn : n ≤ l.length) (a : α) :
    turns p l n a = (order l a).take n := by
  induction n generalizing a with
  | zero => rfl
  | succ n ih =>
    have hlength := (order_perm l a).length_eq
    cases horder : order l a with
    | nil =>
      rw [horder, List.length_nil] at hlength
      omega
    | cons b t =>
      have hb : p b = true := hall b ((order_perm l a).mem_iff.1 (horder ▸ List.mem_cons_self))
      have hnext : next p l a = some b := by rw [next, horder, List.find?_cons_of_pos hb]
      rw [horder, List.length_cons] at hlength
      rw [turns, hnext, List.take_succ_cons]
      simp only
      rw [ih (by omega), order_head hnodup horder, List.take_append_of_le_length (by omega)]

/-- Where everybody takes his turn, so many turns as there are members give each of them one. -/
theorem turns_perm (hnodup : l.Nodup) (hall : ∀ b ∈ l, p b = true) (a : α) : (turns p l l.length a).Perm l := by
  rw [turns_eq_take hnodup hall (Nat.le_refl _), List.take_of_length_le (Nat.le_of_eq (order_perm l a).length_eq)]
  exact order_perm l a

end RoundRobin
