/-
Walks along a relation without cycles, as a recursion takes them: each call goes
on to a related element, and no element comes twice, so the depth is bounded by
the elements there are, and every element has a rank above those it is related
to.
-/
import Mathlib.Data.Finset.Card

namespace Walks

variable {α : Type} {r : α → α → Prop} {a b : α}

def Acyclic (r : α → α → Prop) : Prop := ∀ a, ¬Relation.TransGen r a a

/-- `seen` was entered on the way to `a`, each element from one before it. -/
structure Walk (r : α → α → Prop) (a : α) (seen : List α) : Prop where
  nodup : seen.Nodup
  entered : ∀ b ∈ seen, ∃ c, r c b
  before : ∀ b ∈ seen, Relation.ReflTransGen r b a

theorem Walk.nil (a : α) : Walk r a [] := ⟨.nil, fun _ h => (nomatch h), fun _ h => (nomatch h)⟩

/-- Without cycles every step comes to a new element. -/
theorem Walk.cons (hr : Acyclic r) {seen : List α} (h : Walk r a seen) (hb : r a b) : Walk r b (b :: seen) := by
  refine ⟨List.nodup_cons.2 ⟨fun hmem => hr a (.head' hb (h.before b hmem)), h.nodup⟩, ?_, ?_⟩
  · rw [List.forall_mem_cons]
    exact ⟨⟨a, hb⟩, h.entered⟩
  · rw [List.forall_mem_cons]
    exact ⟨.refl, fun c hc => (h.before c hc).tail hb⟩

/-- A walk enters no more elements than there are to enter. -/
theorem Walk.length_le {seen elements : List α} (h : Walk r a seen) (helements : ∀ b c, r c b → b ∈ elements) :
    seen.length ≤ elements.length :=
  (h.nodup.subperm fun b hb => (h.entered b hb).elim fun c hc => helements b c hc).length_le

/-! ## Ranks -/

open Classical in
/-- Without cycles an element is ranked by those it leads to. -/
theorem Acyclic.exists_rank (hr : Acyclic r) (elements : List α) (helements : ∀ a b, r a b → b ∈ elements) :
    ∃ rank : α → Nat, ∀ a b, r a b → rank b < rank a := by
  refine ⟨fun a => (elements.toFinset.filter (Relation.TransGen r a)).card, fun a b hab => ?_⟩
  refine Finset.card_lt_card ((Finset.ssubset_iff_of_subset fun c hc => ?_).2 ⟨b, ?_, fun hb => ?_⟩)
  · obtain ⟨hmem, hc⟩ := Finset.mem_filter.1 hc
    exact Finset.mem_filter.2 ⟨hmem, .head hab hc⟩
  · exact Finset.mem_filter.2 ⟨List.mem_toFinset.2 (helements a b hab), .single hab⟩
  · exact hr b (Finset.mem_filter.1 hb).2

/-- Of finitely many elements, those that are without cycles are well founded. -/
theorem wellFounded_iff_acyclic (elements : List α) (helements : ∀ a b, r a b → b ∈ elements) :
    WellFounded (fun b a => r a b) ↔ Acyclic r := by
  constructor
  · intro hwf a ha
    exact hwf.transGen.asymmetric a a (Relation.transGen_swap.2 ha) (Relation.transGen_swap.2 ha)
  · intro hr
    obtain ⟨rank, hrank⟩ := hr.exists_rank elements helements
    exact Subrelation.wf (fun {b a} h => hrank a b h) (measure rank).wf

end Walks
