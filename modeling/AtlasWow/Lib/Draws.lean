/-
Runs over a list whose steps take their random numbers from a tree: each step
has a part of the tree to itself, so that what one step draws says nothing
about another. An outcome is a tree.
-/
import Mathlib.Tactic.ByContra

namespace Draws

variable {D σ α : Type}

/-- The random numbers of a run, by the place that asks for them. -/
abbrev Tree (D : Type) := List Nat → D

def part (t : Tree D) (i : Nat) : Tree D := fun place => t (i :: place)

/-- The steps are taken in turn, each with the part of its place from the end. -/
def run (step : α → Tree D → σ → Option σ) (t : Tree D) : List α → σ → Option σ
  | [], s => some s
  | a :: l, s => (step a (part t l.length) s).bind (run step t l)

/-- One tree for the first parts, another for the others. -/
def graft (n : Nat) (low high : Tree D) : Tree D
  | [] => low []
  | i :: place => if i < n then low (i :: place) else high place

theorem part_graft_of_lt {n i : Nat} (h : i < n) (low high : Tree D) : part (graft n low high) i = part low i := by
  funext place
  exact if_pos h

theorem part_graft_self (n : Nat) (low high : Tree D) : part (graft n low high) n = high := by
  funext place
  exact if_neg (Nat.lt_irrefl n)

variable {step : α → Tree D → σ → Option σ} {P Q : σ → Prop} {l : List α} {s s' : σ} {t t' : Tree D}

/-- A run asks in the parts of its steps only. -/
theorem run_congr (h : ∀ i, i < l.length → part t i = part t' i) : run step t l s = run step t' l s := by
  induction l generalizing s with
  | nil => rfl
  | cons a l ih =>
    rw [run, run, h l.length (Nat.lt_succ_self _)]
    congr 1
    funext s
    exact ih fun i hi => h i (Nat.lt_succ_of_lt hi)

theorem run_isSome (h : ∀ a ∈ l, ∀ t s, (step a t s).isSome) : (run step t l s).isSome := by
  induction l generalizing s with
  | nil => rfl
  | cons a l ih =>
    obtain ⟨s₁, hs₁⟩ := Option.isSome_iff_exists.1 (h a List.mem_cons_self (part t l.length) s)
    rw [run, hs₁]
    exact ih fun b hb => h b (List.mem_cons_of_mem _ hb)

/-- What every step keeps a run keeps. -/
theorem run_keeps (h : ∀ a ∈ l, ∀ t s s', Q s → step a t s = some s' → Q s') (hs : Q s) (hrun : run step t l s = some s') :
    Q s' := by
  induction l generalizing s with
  | nil =>
    cases hrun
    exact hs
  | cons a l ih =>
    obtain ⟨s₁, hone, hrest⟩ := Option.bind_eq_some_iff.1 hrun
    exact ih (fun b hb => h b (List.mem_cons_of_mem _ hb)) (h a List.mem_cons_self _ _ _ hs hone) hrest

/-- What a run loses one of its steps loses. -/
theorem run_loses (hs : Q s) (hrun : run step t l s = some s') (hs' : ¬Q s') :
    ∃ a ∈ l, ∃ t s s', Q s ∧ step a t s = some s' ∧ ¬Q s' := by
  by_contra hnone
  refine hs' (run_keeps (fun a ha t s s' hs hstep => ?_) hs hrun)
  by_contra hlost
  exact hnone ⟨a, ha, t, s, s', hs, hstep, hlost⟩

/-- If one step has an outcome for which `Q` holds, and the others keep it, the run has one; `P` is what the step may
rely on. -/
theorem exists_run (hsome : ∀ a ∈ l, ∀ t s, (step a t s).isSome) (hP : ∀ a ∈ l, ∀ t s s', P s → step a t s = some s' → P s')
    (hQ : ∀ a ∈ l, ∀ t s s', Q s → step a t s = some s' → Q s') {a : α} (ha : a ∈ l)
    (hone : ∀ s, P s → ∃ t s', step a t s = some s' ∧ Q s') (hs : P s) : ∃ t s', run step t l s = some s' ∧ Q s' := by
  induction l generalizing s with
  | nil => cases ha
  | cons b l ih =>
    have hsome' : ∀ a ∈ l, ∀ t s, (step a t s).isSome := fun a ha => hsome a (List.mem_cons_of_mem _ ha)
    have hQ' : ∀ a ∈ l, ∀ t s s', Q s → step a t s = some s' → Q s' := fun a ha => hQ a (List.mem_cons_of_mem _ ha)
    rcases List.mem_cons.1 ha with rfl | ha
    · -- any outcome of the rest will do
      obtain ⟨t, s₁, hstep, hs₁⟩ := hone s hs
      obtain ⟨s', hrest⟩ := Option.isSome_iff_exists.1 (run_isSome hsome' (t := graft l.length t t) (s := s₁))
      refine ⟨graft l.length t t, s', ?_, run_keeps hQ' hs₁ hrest⟩
      rw [run, part_graft_self, hstep]
      exact hrest
    -- any outcome of the first step will do
    obtain ⟨low⟩ : Nonempty (Tree D) := (hone s hs).elim fun t _ => ⟨t⟩
    obtain ⟨s₁, hstep⟩ := Option.isSome_iff_exists.1 (hsome b List.mem_cons_self low s)
    obtain ⟨t, s', hrest, hs'⟩ := ih hsome' (fun a ha => hP a (List.mem_cons_of_mem _ ha)) hQ' ha
      (hP b List.mem_cons_self _ _ _ hs hstep)
    refine ⟨graft l.length t low, s', ?_, hs'⟩
    rw [run, part_graft_self, hstep]
    exact (run_congr fun i hi => part_graft_of_lt hi t low).trans hrest

end Draws
