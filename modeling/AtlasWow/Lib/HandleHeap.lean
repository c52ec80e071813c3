/-
Mutable priority queues, by their contract. The keys live outside the heap,
in the elements the comparison reads; after an element's key has changed the
client says in which direction, with `increase` or `decrease`, and the heap
moves the element. A call in the wrong direction is outside the contract.

`HandleHeap` is any heap that meets the contract; `HandleHeap.sortedList` is
one: a list, greatest element first.
-/
import Mathlib.Data.List.Nodup
import Mathlib.Data.List.Perm.Basic
import Mathlib.Order.Lattice

/-- A comparison that is a strict weak order. -/
structure StrictWeak {α : Type} (lt : α → α → Bool) : Prop where
  asymm : ∀ a b, lt a b = true → lt b a = false
  cotrans : ∀ a b c, lt a c = true → lt a b = true ∨ lt b c = true

/-- From `lt` to `lt'`, among the elements of `l`, at most `a` moved, and not down. -/
structure Raised {α : Type} (lt lt' : α → α → Bool) (a : α) (l : List α) : Prop where
  others : ∀ b ∈ l, ∀ c ∈ l, b ≠ a → c ≠ a → lt' b c = lt b c
  below : ∀ b ∈ l, b ≠ a → lt b a = true → lt' b a = true
  above : ∀ b ∈ l, b ≠ a → lt' a b = true → lt a b = true

/-- From `lt` to `lt'`, among the elements of `l`, at most `a` moved, and not up. -/
structure Lowered {α : Type} (lt lt' : α → α → Bool) (a : α) (l : List α) : Prop where
  others : ∀ b ∈ l, ∀ c ∈ l, b ≠ a → c ≠ a → lt' b c = lt b c
  below : ∀ b ∈ l, b ≠ a → lt' b a = true → lt b a = true
  above : ∀ b ∈ l, b ≠ a → lt a b = true → lt' a b = true

section Keys

variable {α κ : Type} [LinearOrder κ] {lt lt' : α → α → Bool} {key key' : α → κ}

/-- Comparing by keys is a strict weak order. -/
theorem StrictWeak.of_key (h : ∀ a b, lt a b = true ↔ key a < key b) : StrictWeak lt where
  asymm := by
    intro a b hab
    rw [← Bool.not_eq_true, h, not_lt]
    exact le_of_lt ((h a b).1 hab)
  cotrans := by
    intro a b c hac
    rw [h] at hac
    rw [h, h]
    rcases lt_or_ge (key a) (key b) with hab | hba
    · exact .inl hab
    · exact .inr (lt_of_le_of_lt hba hac)

theorem others_of_key {a : α} (h : ∀ a b, lt a b = true ↔ key a < key b) (h' : ∀ a b, lt' a b = true ↔ key' a < key' b)
    (he : ∀ b, b ≠ a → key' b = key b) {b c : α} (hb : b ≠ a) (hc : c ≠ a) : lt' b c = lt b c := by
  rw [Bool.eq_iff_iff, h, h', he b hb, he c hc]

/-- The key of `a` alone changed, and not down. -/
theorem Raised.of_key {a : α} {l : List α} (h : ∀ a b, lt a b = true ↔ key a < key b)
    (h' : ∀ a b, lt' a b = true ↔ key' a < key' b) (he : ∀ b, b ≠ a → key' b = key b) (hle : key a ≤ key' a) :
    Raised lt lt' a l where
  others := fun _ _ _ _ hb hc => others_of_key h h' he hb hc
  below := by
    intro b _ hb hba
    rw [h] at hba
    rw [h', he b hb]
    exact lt_of_lt_of_le hba hle
  above := by
    intro b _ hb hab
    rw [h', he b hb] at hab
    rw [h]
    exact lt_of_le_of_lt hle hab

/-- The key of `a` alone changed, and not up. -/
theorem Lowered.of_key {a : α} {l : List α} (h : ∀ a b, lt a b = true ↔ key a < key b)
    (h' : ∀ a b, lt' a b = true ↔ key' a < key' b) (he : ∀ b, b ≠ a → key' b = key b) (hle : key' a ≤ key a) :
    Lowered lt lt' a l :=
  have hr := Raised.of_key (l := l) h' h (fun b hb => (he b hb).symm) hle
  { below := hr.below, above := hr.above, others := fun b hb c hc hb' hc' => (hr.others b hb c hc hb' hc').symm }

end Keys

/-- A heap of distinct elements whose keys the client changes in place. -/
structure HandleHeap (α : Type) [DecidableEq α] where
  Carrier : Type
  /-- The elements, in the order an iteration meets them. -/
  elems : Carrier → List α
  empty : Carrier
  push : (α → α → Bool) → Carrier → α → Carrier
  erase : (α → α → Bool) → Carrier → α → Carrier
  increase : (α → α → Bool) → Carrier → α → Carrier
  decrease : (α → α → Bool) → Carrier → α → Carrier
  top : Carrier → Option α
  /-- The elements, in the order an ordered iteration meets them. -/
  ordered : (α → α → Bool) → Carrier → List α
  HeapOrder : (α → α → Bool) → Carrier → Prop
  elems_empty : elems empty = []
  elems_push : ∀ lt h a, (elems (push lt h a)).Perm (a :: elems h)
  elems_erase : ∀ lt h a, (elems (erase lt h a)).Perm ((elems h).erase a)
  elems_increase : ∀ lt h a, (elems (increase lt h a)).Perm (elems h)
  elems_decrease : ∀ lt h a, (elems (decrease lt h a)).Perm (elems h)
  ordered_perm : ∀ lt h, (ordered lt h).Perm (elems h)
  top_mem : ∀ h a, top h = some a → a ∈ elems h
  top_eq_none : ∀ h, top h = none → elems h = []
  heapOrder_congr : ∀ lt lt' h, (∀ a ∈ elems h, ∀ b ∈ elems h, lt' a b = lt a b) →
    HeapOrder lt h → HeapOrder lt' h
  heapOrder_empty : ∀ lt, HeapOrder lt empty
  heapOrder_push : ∀ lt h a, StrictWeak lt → a ∉ elems h → HeapOrder lt h → HeapOrder lt (push lt h a)
  heapOrder_erase : ∀ lt h a, StrictWeak lt → HeapOrder lt h → HeapOrder lt (erase lt h a)
  heapOrder_increase : ∀ lt lt' h a, StrictWeak lt' → (elems h).Nodup → a ∈ elems h →
    Raised lt lt' a (elems h) → HeapOrder lt h → HeapOrder lt' (increase lt' h a)
  heapOrder_decrease : ∀ lt lt' h a, StrictWeak lt' → (elems h).Nodup → a ∈ elems h →
    Lowered lt lt' a (elems h) → HeapOrder lt h → HeapOrder lt' (decrease lt' h a)
  top_max : ∀ lt h a, StrictWeak lt → HeapOrder lt h → top h = some a → ∀ b ∈ elems h, lt a b = false
  ordered_sorted : ∀ lt h, StrictWeak lt → HeapOrder lt h →
    (ordered lt h).Pairwise fun a b => lt a b = false

namespace HandleHeap

variable {α : Type}

/-- Insert before the first element that is not above `a`. -/
def insertSorted (lt : α → α → Bool) (a : α) : List α → List α
  | [] => [a]
  | b :: l => if lt a b then b :: insertSorted lt a l else a :: b :: l

theorem insertSorted_perm (lt : α → α → Bool) (a : α) : ∀ l, (insertSorted lt a l).Perm (a :: l)
  | [] => .refl _
  | b :: l => by
    simp only [insertSorted]
    split
    · exact ((insertSorted_perm lt a l).cons b).trans (.swap a b l)
    · exact .refl _

theorem insertSorted_pairwise {lt : α → α → Bool} (hw : StrictWeak lt) {a : α} :
    ∀ {l : List α}, l.Pairwise (fun a b => lt a b = false) →
      (insertSorted lt a l).Pairwise fun a b => lt a b = false
  | [], _ => List.pairwise_singleton _ _
  | b :: l, h => by
    obtain ⟨hb, hl⟩ := List.pairwise_cons.1 h
    simp only [insertSorted]
    split
    next hab =>
      refine List.pairwise_cons.2 ⟨fun c hc => ?_, insertSorted_pairwise hw hl⟩
      rcases List.mem_cons.1 ((insertSorted_perm lt a l).mem_iff.1 hc) with rfl | hc
      · exact hw.asymm _ _ hab
      · exact hb c hc
    next hab =>
    refine List.pairwise_cons.2 ⟨fun c hc => ?_, h⟩
    rcases List.mem_cons.1 hc with rfl | hc
    · simpa using hab
    by_contra hac
    rcases hw.cotrans a b c (by simpa using hac) with h' | h'
    · exact hab h'
    · simp [hb c hc] at h'

/-- What stands before `a`, and what stands after it. -/
def splitAt [DecidableEq α] (a : α) (l : List α) : List α × List α :=
  (l.takeWhile (· ≠ a), (l.dropWhile (· ≠ a)).tail)

theorem splitAt_eq [DecidableEq α] {a : α} {l : List α} (h : a ∈ l) : l = (splitAt a l).1 ++ a :: (splitAt a l).2 := by
  induction l with
  | nil => cases h
  | cons b l ih =>
    by_cases hb : b = a
    · subst hb; simp [splitAt]
    have : a ∈ l := by simpa [Ne.symm hb] using h
    have ih := ih this
    simp only [splitAt] at ih ⊢
    simp only [ne_eq, hb, not_false_eq_true, decide_true, List.takeWhile_cons_of_pos,
      List.dropWhile_cons_of_pos, List.cons_append]
    exact congrArg (b :: ·) ih

section Moves

variable {lt lt' : α → α → Bool} {a : α} {pre post : List α}

theorem pairwise_of_agree {l : List α} (hl : ∀ b ∈ l, ∀ c ∈ l, lt' b c = lt b c)
    (h : l.Pairwise fun a b => lt a b = false) : l.Pairwise fun a b => lt' a b = false :=
  h.imp_of_mem fun hb hc hbc => (hl _ hb _ hc).trans hbc

theorem ne_of_split (hn : (pre ++ a :: post).Nodup) : (∀ b ∈ pre, b ≠ a) ∧ ∀ b ∈ post, b ≠ a := by
  obtain ⟨-, hap, hd⟩ := List.nodup_append.1 hn
  exact ⟨fun b hb => hd b hb a (by simp),
    fun b hb he => (List.nodup_cons.1 hap).1 (he ▸ hb)⟩

/-- The elements around `a` keep their order. -/
theorem around_split (hn : (pre ++ a :: post).Nodup)
    (ho : ∀ b ∈ pre ++ a :: post, ∀ c ∈ pre ++ a :: post, b ≠ a → c ≠ a → lt' b c = lt b c)
    (h : (pre ++ a :: post).Pairwise fun a b => lt a b = false) :
    (∀ b ∈ pre, ∀ c ∈ post, lt' b c = false) ∧ pre.Pairwise (fun a b => lt' a b = false) ∧
      post.Pairwise fun a b => lt' a b = false := by
  obtain ⟨hpre, hpost⟩ := ne_of_split hn
  obtain ⟨h₁, h₂, h₁₂⟩ := List.pairwise_append.1 h
  have ne : ∀ d ∈ pre ++ post, d ≠ a := by
    intro d hd
    rcases List.mem_append.1 hd with hd | hd
    · exact hpre d hd
    · exact hpost d hd
  have mem : ∀ d ∈ pre ++ post, d ∈ pre ++ a :: post := by simp; tauto
  have same : ∀ b ∈ pre ++ post, ∀ c ∈ pre ++ post, lt' b c = lt b c := fun b hb c hc =>
    ho b (mem b hb) c (mem c hc) (ne b hb) (ne c hc)
  refine ⟨fun b hb c hc => ?_, ?_, ?_⟩
  · rw [same b (by simp [hb]) c (by simp [hc])]
    exact h₁₂ b hb c (by simp [hc])
  · exact pairwise_of_agree (fun b hb c hc => same b (by simp [hb]) c (by simp [hc])) h₁
  · exact pairwise_of_agree (fun b hb c hc => same b (by simp [hb]) c (by simp [hc])) (List.pairwise_cons.1 h₂).2

theorem raise_pairwise (hw : StrictWeak lt') (hn : (pre ++ a :: post).Nodup)
    (hr : Raised lt lt' a (pre ++ a :: post)) (h : (pre ++ a :: post).Pairwise fun a b => lt a b = false) :
    (insertSorted lt' a pre ++ post).Pairwise fun a b => lt' a b = false := by
  obtain ⟨hacross, h₁, h₂⟩ := around_split hn hr.others h
  refine List.pairwise_append.2 ⟨insertSorted_pairwise hw h₁, h₂, fun b hb c hc => ?_⟩
  rcases List.mem_cons.1 ((insertSorted_perm lt' a pre).mem_iff.1 hb) with rfl | hb
  · by_contra hbc
    have := hr.above c (by simp [hc]) ((ne_of_split hn).2 c hc) (by simpa using hbc)
    simp [(List.pairwise_cons.1 (List.pairwise_append.1 h).2.1).1 c hc] at this
  · exact hacross b hb c hc

theorem lower_pairwise (hw : StrictWeak lt') (hn : (pre ++ a :: post).Nodup)
    (hr : Lowered lt lt' a (pre ++ a :: post)) (h : (pre ++ a :: post).Pairwise fun a b => lt a b = false) :
    (pre ++ insertSorted lt' a post).Pairwise fun a b => lt' a b = false := by
  obtain ⟨hacross, h₁, h₂⟩ := around_split hn hr.others h
  refine List.pairwise_append.2 ⟨h₁, insertSorted_pairwise hw h₂, fun b hb c hc => ?_⟩
  rcases List.mem_cons.1 ((insertSorted_perm lt' a post).mem_iff.1 hc) with rfl | hc
  · by_contra hbc
    have := hr.below b (by simp [hb]) ((ne_of_split hn).1 b hb) (by simpa using hbc)
    simp [(List.pairwise_append.1 h).2.2 b hb c (by simp)] at this
  · exact hacross b hb c hc

end Moves

/-- A list, greatest element first: `increase` moves an element towards the
front only, `decrease` towards the back only. -/
def sortedList (α : Type) [DecidableEq α] : HandleHeap α where
  Carrier := List α
  elems := id
  empty := []
  push := fun lt l a => insertSorted lt a l
  erase := fun _ l a => l.erase a
  increase := fun lt l a =>
    if a ∈ l then insertSorted lt a (splitAt a l).1 ++ (splitAt a l).2 else l
  decrease := fun lt l a =>
    if a ∈ l then (splitAt a l).1 ++ insertSorted lt a (splitAt a l).2 else l
  top := List.head?
  ordered := fun _ l => l
  HeapOrder := fun lt l => l.Pairwise fun a b => lt a b = false
  elems_empty := rfl
  elems_push := fun lt l a => insertSorted_perm lt a l
  elems_erase := fun _ _ _ => .refl _
  elems_increase := by
    intro lt l a
    by_cases h : a ∈ l
    · simp only [h, if_true, id]
      calc (insertSorted lt a (splitAt a l).1 ++ (splitAt a l).2).Perm
            (a :: (splitAt a l).1 ++ (splitAt a l).2) := (insertSorted_perm lt a _).append_right _
        _ |>.Perm ((splitAt a l).1 ++ a :: (splitAt a l).2) := List.perm_middle.symm
        _ |>.Perm l := .of_eq (splitAt_eq h).symm
    · simp [h]
  elems_decrease := by
    intro lt l a
    by_cases h : a ∈ l
    · simp only [h, if_true, id]
      calc ((splitAt a l).1 ++ insertSorted lt a (splitAt a l).2).Perm
            ((splitAt a l).1 ++ a :: (splitAt a l).2) := (insertSorted_perm lt a _).append_left _
        _ |>.Perm l := .of_eq (splitAt_eq h).symm
    · simp [h]
  ordered_perm := fun _ _ => .refl _
  top_mem := fun _ _ h => List.mem_of_mem_head? h
  top_eq_none := fun _ h => List.head?_eq_none_iff.1 h
  heapOrder_congr := fun _ _ _ hl h => pairwise_of_agree hl h
  heapOrder_empty := fun _ => List.Pairwise.nil
  heapOrder_push := fun _ _ _ hw _ h => insertSorted_pairwise hw h
  heapOrder_erase := fun _ _ _ _ h => h.sublist List.erase_sublist
  heapOrder_increase := by
    intro lt lt' l a hw hn ha hr h
    simp only [id] at hn ha hr
    rw [splitAt_eq ha] at hn hr h
    simp only [ha, if_true]
    exact raise_pairwise hw hn hr h
  heapOrder_decrease := by
    intro lt lt' l a hw hn ha hr h
    simp only [id] at hn ha hr
    rw [splitAt_eq ha] at hn hr h
    simp only [ha, if_true]
    exact lower_pairwise hw hn hr h
  top_max := by
    intro lt l a hw h htop b hb
    cases l with
    | nil => cases hb
    | cons c l =>
      cases htop
      rcases List.mem_cons.1 hb with rfl | hb
      · cases hbb : lt b b with
        | false => rfl
        | true => exact hbb.symm.trans (hw.asymm _ _ hbb)
      · exact (List.pairwise_cons.1 h).1 b hb
  ordered_sorted := fun _ _ _ h => h

end HandleHeap
