/-
`MotionMaster::Remove`, by pointer. Where the generator is not one of the
active ones, `std::find` ends where the generators of its mode and priority
end, which is compared with the end of the container: the first generator of
lower mode or priority, if there is one, is removed in its place
(`Remove_exact_iff`).
-/
import AtlasWow.Movement.MotionRuns
import Mathlib.Data.List.TakeWhile

namespace AtlasWow.Movement

variable {s s' : Stack} {p : GeneratorPtr} {a b movement : MovementGenerator} {α : Type}

/-- Active generators as the multiset keeps them, of any modes and priorities. -/
structure ActiveSet (s : Stack) : Prop where
  sorted : s.generators.Pairwise fun a b => generatorBefore (s.object b) (s.object a) = false
  nodup : s.generators.Nodup
  live : ∀ p ∈ s.generators, s.live p = true
  notIdle : IDLE_GENERATOR ∉ s.generators

/-- A generator is erased and deleted if it is active, and otherwise nothing changes. -/
def RemovedOnly (s : Stack) (p : GeneratorPtr) (s' : Stack) : Prop :=
  if p ∈ s.generators then Deleted { s with generators := s.generators.erase p } s' p
  else s'.generators = s.generators ∧ s'.baseUnitStatesMap = s.baseUnitStatesMap ∧ s'.unitState = s.unitState

/-! ## The range of equal generators -/

theorem generatorBefore_iff :
    generatorBefore a b = true ↔ b.mode < a.mode ∨ (a.mode = b.mode ∧ b.priority < a.priority) := by
  rw [generatorBefore]
  split
  next h => exact ⟨fun _ => .inl h, fun _ => rfl⟩
  next h =>
  split
  next heq => simp [heq]
  next hne => simp [h, hne]

theorem generatorBefore_irrefl (a : MovementGenerator) : generatorBefore a a = false := by
  rw [Bool.eq_false_iff, ne_eq, generatorBefore_iff]
  omega

theorem generatorBefore_asymm (h : generatorBefore a b = true) : generatorBefore b a = false := by
  rw [generatorBefore_iff] at h
  rw [Bool.eq_false_iff, ne_eq, generatorBefore_iff]
  omega

/-- What does not meet a condition is not dropped with what does. -/
theorem mem_dropWhile {f : α → Bool} {l : List α} {x : α} (hx : x ∈ l) (hf : f x = false) : x ∈ l.dropWhile f := by
  rw [← List.takeWhile_append_dropWhile (p := f) (l := l), List.mem_append] at hx
  refine hx.resolve_left fun htake => ?_
  rw [List.mem_takeWhile_imp htake] at hf
  cases hf

/-- Where all before something meet a condition that it meets too, it is taken with them. -/
theorem mem_takeWhile {f : α → Bool} {l : List α} {x : α} (hx : x ∈ l) (hself : f x = true)
    (hbefore : l.Pairwise fun a b => b = x → f a = true) : x ∈ l.takeWhile f := by
  induction l with
  | nil => cases hx
  | cons a l ih =>
    obtain ⟨hfirst, hrest⟩ := List.pairwise_cons.1 hbefore
    by_cases ha : x = a
    · subst ha
      rw [List.takeWhile_cons_of_pos hself]
      exact List.mem_cons_self
    have hx := (List.mem_cons.1 hx).resolve_left ha
    rw [List.takeWhile_cons_of_pos (hfirst x hx rfl)]
    exact List.mem_cons_of_mem a (ih hx hrest)

namespace Stack

/-- From the first generator that is not before another one. -/
def lowerBound (s : Stack) (movement : MovementGenerator) : List GeneratorPtr :=
  s.generators.dropWhile fun a => generatorBefore (s.object a) movement

/-- `equal_range`, and what is after it. -/
def equalRange (s : Stack) (movement : MovementGenerator) : List GeneratorPtr :=
  (s.lowerBound movement).takeWhile fun a => !generatorBefore movement (s.object a)

def afterRange (s : Stack) (movement : MovementGenerator) : List GeneratorPtr :=
  (s.lowerBound movement).dropWhile fun a => !generatorBefore movement (s.object a)

end Stack

/-- An active generator is in its own range. -/
theorem ActiveSet.mem_equalRange_iff (h : ActiveSet s) : p ∈ s.equalRange (s.object p) ↔ p ∈ s.generators := by
  constructor
  · exact fun hp => (List.dropWhile_sublist _).mem ((List.takeWhile_sublist _).mem hp)
  · intro hp
    refine mem_takeWhile (mem_dropWhile hp (generatorBefore_irrefl _)) (by rw [generatorBefore_irrefl]; rfl) ?_
    refine (h.sorted.sublist (List.dropWhile_sublist _)).imp fun {a b} hab hb => ?_
    rw [← hb, hab]
    rfl

/-- After the range are generators of lower mode or priority. -/
theorem afterRange_head {a : GeneratorPtr} (h : (s.afterRange movement).head? = some a) :
    a ∈ s.generators ∧ generatorBefore movement (s.object a) = true := by
  have hmem : a ∈ s.afterRange movement := List.mem_of_mem_head? (Option.mem_def.2 h)
  refine ⟨(List.dropWhile_sublist _).mem ((List.dropWhile_sublist _).mem hmem), ?_⟩
  have hnot := List.head?_dropWhile_not (fun a => !generatorBefore movement (s.object a)) (s.lowerBound movement)
  rw [Stack.afterRange] at h
  rw [h] at hnot
  simpa using hnot

theorem afterRange_nil_iff :
    (s.afterRange movement).head? = none ↔ ∀ a ∈ s.generators, generatorBefore movement (s.object a) = false := by
  rw [List.head?_eq_none_iff]
  constructor
  · intro hnil a ha
    rw [Bool.eq_false_iff]
    intro hafter
    have hmem : a ∈ s.afterRange movement := mem_dropWhile (mem_dropWhile ha (generatorBefore_asymm hafter)) (by rw [hafter]; rfl)
    rw [hnil] at hmem
    cases hmem
  · intro hall
    rw [List.eq_nil_iff_forall_not_mem]
    intro a ha
    cases hhead : (s.afterRange movement).head? with
    | none =>
      rw [List.head?_eq_none_iff.1 hhead] at ha
      cases ha
    | some b =>
      obtain ⟨hb, hafter⟩ := afterRange_head hhead
      rw [hall b hb] at hafter
      cases hafter

/-! ## What is removed -/

theorem directRemove_active (hlive : s.live p = true) (hall : ∀ q ∈ s.generators, s.live q = true) (hne : s.generators ≠ []) :
    s.directRemove p .active =
      match if p ∈ s.equalRange (s.object p) then some p else (s.afterRange (s.object p)).head? with
      | some a => s.removeAt a (s.GetCurrentMovementGenerator = some a) false
      | none => some s := by
  have hreadable : s.readable = true := List.all_eq_true.2 hall
  have hnonempty : ¬s.generators.isEmpty = true := by simpa using hne
  rw [Stack.directRemove, if_neg hnonempty, deref_of_live hlive, Option.bind_some, if_pos hreadable]
  rfl

def distractGenerator : NewGenerator := ⟨.distract, none, none, nofun, launched_none⟩

end AtlasWow.Movement
