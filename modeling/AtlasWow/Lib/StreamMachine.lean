/-
Machines that eat a stream one symbol at a time and may stop eating. What a
machine does with a stream does not depend on how the stream is cut
(`run_append`), and a run with stops in it, each followed by `settle`, is the
run that settles at once (`runAll_of_run`).
-/
import Mathlib.Data.List.Basic

structure StreamMachine (σ β : Type) where
  eat : σ → β → σ
  stopped : σ → Bool

namespace StreamMachine

variable {σ β : Type} (m : StreamMachine σ β)

/-- Eat until the machine stops: the state then, and what is left. -/
def run : σ → List β → σ × List β
  | s, [] => (s, [])
  | s, x :: xs => if m.stopped s then (s, x :: xs) else run (m.eat s x) xs

/-- Eat everything, and `settle` after each symbol. A machine that stays stopped eats nothing more. -/
def runAll (settle : σ → σ) (s : σ) (xs : List β) : σ :=
  xs.foldl (fun s x => if m.stopped s then s else settle (m.eat s x)) s

variable {m} {s : σ}

theorem run_stopped (h : m.stopped s = true) (xs : List β) : m.run s xs = (s, xs) := by
  cases xs <;> simp [run, h]

theorem run_cons (h : m.stopped s = false) (x : β) (xs : List β) : m.run s (x :: xs) = m.run (m.eat s x) xs := by
  simp [run, h]

/-- A run over two pieces is a run over the first, then over what is left and the second. -/
theorem run_append : ∀ (xs ys : List β) (s : σ), m.run s (xs ++ ys) = m.run (m.run s xs).1 ((m.run s xs).2 ++ ys)
  | [], ys, s => by simp [run]
  | x :: xs, ys, s => by
    cases h : m.stopped s with
    | true => rw [run_stopped h, run_stopped h, run_stopped h]
    | false => rw [List.cons_append, run_cons h, run_cons h, run_append xs ys]

/-- A machine leaves something only if it has stopped. -/
theorem run_rest : ∀ (xs : List β) (s : σ), (m.run s xs).2 = [] ∨ m.stopped (m.run s xs).1 = true
  | [], _ => .inl rfl
  | x :: xs, s => by
    cases h : m.stopped s with
    | true => rw [run_stopped h]; exact .inr h
    | false => rw [run_cons h]; exact run_rest xs _

theorem runAll_append (settle : σ → σ) (s : σ) (xs ys : List β) :
    m.runAll settle s (xs ++ ys) = m.runAll settle (m.runAll settle s xs) ys := List.foldl_append ..

theorem runAll_stopped {settle : σ → σ} (h : m.stopped s = true) : ∀ xs, m.runAll settle s xs = s
  | [] => rfl
  | x :: xs => by
    rw [runAll, List.foldl_cons, if_pos h]
    exact runAll_stopped h xs

theorem runAll_cons {settle : σ → σ} (h : m.stopped s = false) (x : β) (xs : List β) :
    m.runAll settle s (x :: xs) = m.runAll settle (settle (m.eat s x)) xs := by
  simp [runAll, h]

/-- What a run has eaten, eaten in one go, leads to the settled end of the run. -/
theorem runAll_of_run {settle : σ → σ} (hs : ∀ s, m.stopped s = false → settle s = s) :
    ∀ (xs : List β) (s : σ), ∃ eaten, xs = eaten ++ (m.run s xs).2 ∧
      m.runAll settle (settle s) eaten = settle (m.run s xs).1
  | [], _ => ⟨[], rfl, rfl⟩
  | x :: xs, s => by
    cases h : m.stopped s with
    | true => exact ⟨[], by rw [run_stopped h]; rfl, by rw [run_stopped h]; rfl⟩
    | false =>
      obtain ⟨eaten, he, hr⟩ := runAll_of_run hs xs (m.eat s x)
      rw [run_cons h]
      exact ⟨x :: eaten, by rw [List.cons_append, ← he], by rw [hs s h, runAll_cons h, hr]⟩

end StreamMachine
