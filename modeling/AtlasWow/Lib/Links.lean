/-
Links from an element to at most one other, as a tree of parents keeps them:
what is reached by following them, cycles, and what cutting links does.

On a cycle everything that is reached leads back (`OnCycle.back`), so cutting one
link of it ends it, and cutting links that are on no cycle keeps it
(`OnCycle.of_agrees`). `Broken` is what cutting one link of each cycle comes to.
-/
import Mathlib.Logic.ExistsUnique
import Mathlib.Logic.Relation
import Mathlib.Tactic.ByContra

namespace Links

variable {α : Type} {next next' : α → Option α} {a b c : α}

/-- `b` comes right after `a`. -/
def Step (next : α → Option α) (a b : α) : Prop := next a = some b

/-- `b` is `a`, or comes after it. -/
def Reach (next : α → Option α) : α → α → Prop := Relation.ReflTransGen (Step next)

/-- Following the links from `a` leads back to `a`. -/
def OnCycle (next : α → Option α) (a : α) : Prop := Relation.TransGen (Step next) a a

/-- Some links of `next` were cut, and none changed otherwise. -/
def Cut (next' next : α → Option α) : Prop := ∀ a, next' a = next a ∨ next' a = none

theorem rightUnique : Relator.RightUnique (Step next) := fun _ _ _ hb hc => Option.some.inj (hb.symm.trans hc)

theorem OnCycle.linked (h : OnCycle next a) : ∃ b, next a = some b ∧ Reach next b a :=
  Relation.TransGen.head'_iff.1 h

/-- On a cycle everything that is reached leads back. -/
theorem OnCycle.back (h : OnCycle next a) (hb : Reach next a b) : Reach next b a := by
  induction hb with
  | refl => exact .refl
  | tail _ hstep ih =>
    rcases Relation.ReflTransGen.cases_head ih with rfl | ⟨c, hc, hrest⟩
    · obtain ⟨c, hc, hrest⟩ := h.linked
      rwa [rightUnique (a := _) hstep hc]
    · rwa [rightUnique (a := _) hstep hc]

theorem OnCycle.reached (h : OnCycle next a) (hb : Reach next a b) : OnCycle next b :=
  (Relation.TransGen.trans_right (h.back hb) h).trans_left hb

/-- An element that leads to one that is not linked is on no cycle. -/
theorem not_onCycle (hb : Reach next a b) (hnone : next b = none) : ¬OnCycle next a := fun h => by
  obtain ⟨c, hc, _⟩ := (h.reached hb).linked
  exact absurd (hc.symm.trans hnone) (Option.some_ne_none c)

/-! ## Cutting links -/

theorem Cut.step (h : Cut next' next) (hb : Step next' a b) : Step next a b :=
  (h a).elim (fun he => he.symm.trans hb) fun hnone => absurd (hb.symm.trans hnone) (Option.some_ne_none b)

theorem Cut.onCycle (h : Cut next' next) (ha : OnCycle next' a) : OnCycle next a := Relation.TransGen.mono (fun _ _ => h.step) _ _ ha

/-- What is left of the links has a cycle only where none of its links was cut. -/
theorem Cut.reach_kept (h : Cut next' next) (ha : OnCycle next' a) (hb : Reach next a b) : Reach next' a b := by
  induction hb with
  | refl => exact .refl
  | tail _ hstep ih =>
    obtain ⟨c, hc, _⟩ := (ha.reached ih).linked
    rw [rightUnique hstep (h.step hc)]
    exact ih.tail hc

theorem Cut.kept (h : Cut next' next) (ha : OnCycle next' a) (hb : Reach next a b) : next' b = next b := by
  obtain ⟨c, hc, _⟩ := (ha.reached (h.reach_kept ha hb)).linked
  exact hc.trans (h.step hc).symm

/-- A cycle stays if none of its links is cut. -/
theorem OnCycle.of_agrees (h : OnCycle next a) (hagrees : ∀ b, Reach next a b → next' b = next b) : OnCycle next' a := by
  have hreach : ∀ b, Reach next a b → Reach next' a b := by
    intro b hb
    induction hb with
    | refl => exact .refl
    | tail hb hstep ih => exact ih.tail ((hagrees _ hb).trans hstep)
  obtain ⟨b, hb, hstep⟩ := Relation.TransGen.tail'_iff.1 h
  exact Relation.TransGen.tail' (hreach b hb) ((hagrees b hb).trans hstep)

/-- The links with that of `p` cut. -/
def cutAt [DecidableEq α] (p : α) (next : α → Option α) : α → Option α := fun a => if a = p then none else next a

/-- Cutting a link of a cycle leaves no cycle that leads there. -/
theorem not_onCycle_cutAt [DecidableEq α] {p : α} (h : OnCycle next p) (hp : Reach next a p) : ¬OnCycle (cutAt p next) a := fun ha => by
  have hcut : Cut (cutAt p next) next := fun b => by
    rw [cutAt]
    split
    · exact .inr rfl
    · exact .inl rfl
  obtain ⟨c, hc, _⟩ := h.linked
  have hkept := hcut.kept ha hp
  rw [cutAt, if_pos rfl, hc] at hkept
  exact Option.some_ne_none c hkept.symm

/-- Links of cycles were cut, not more than one of each. -/
structure Breaks (next next' : α → Option α) : Prop where
  cut : ∀ a, next' a = next a ∨ next' a = none ∧ OnCycle next a
  one : ∀ {a b c}, OnCycle next a → Reach next a b → Reach next a c → next' b = none → next' c = none → b = c

theorem Breaks.isCut (h : Breaks next next') : Cut next' next := fun a => (h.cut a).imp_right And.left

theorem Breaks.refl (next : α → Option α) : Breaks next next where
  cut _ := .inl rfl
  one ha hb _ hnone _ := absurd (ha.reached hb) (not_onCycle .refl hnone)

/-- One more link is cut, of a cycle that was left. -/
theorem Breaks.cutAt [DecidableEq α] {p : α} (h : Breaks next next') (hp : OnCycle next' p) : Breaks next (cutAt p next') := by
  refine ⟨fun a => ?_, fun {a b c} ha hb hc hnone hnone' => ?_⟩
  · rw [Links.cutAt]
    split
    next he => exact .inr ⟨rfl, he ▸ h.isCut.onCycle hp⟩
    next => exact h.cut a
  · -- of the cycle of `p` no other link was cut
    have hother : ∀ {d e}, Reach next a d → Reach next a e → d = p → Links.cutAt p next' e = none → d = e := by
      intro d e hd he hdp hnone
      rw [Links.cutAt] at hnone
      split at hnone
      next hep => exact hdp.trans hep.symm
      next =>
      have hpe : Reach next p e := hdp ▸ (ha.back hd).trans he
      rw [h.isCut.kept hp hpe] at hnone
      exact absurd (ha.reached he) (not_onCycle .refl hnone)
    by_cases hbp : b = p
    · exact hother hb hc hbp hnone'
    by_cases hcp : c = p
    · exact (hother hc hb hcp hnone).symm
    rw [Links.cutAt, if_neg hbp] at hnone
    rw [Links.cutAt, if_neg hcp] at hnone'
    exact h.one ha hb hc hnone hnone'

/-- If no cycle is left, of each one link was cut. -/
theorem Breaks.existsUnique (h : Breaks next next') (hnone : ∀ a, ¬OnCycle next' a) (ha : OnCycle next a) :
    ∃! b, Reach next a b ∧ next' b = none := by
  obtain ⟨b, hb, hcut⟩ : ∃ b, Reach next a b ∧ next' b = none := by
    by_contra hcon
    push Not at hcon
    exact hnone a (ha.of_agrees fun b hb => (h.cut b).resolve_right fun hn => hcon b hb hn.1)
  exact ⟨b, ⟨hb, hcut⟩, fun c hc => h.one ha hc.1 hb hc.2 hcut⟩

end Links
