/-
`Trinity::Containers` (`Containers.h`): `RandomResize` keeps a random part of a
container, in one pass over it that moves each element it keeps to the front.

The part that is kept is `sample`, which says nothing of positions
(`resizeLoop_spec`). The counters are `uint32`, so that a container with `2 ^ 32`
elements or more is only partly looked at.
-/
import Mathlib.Algebra.Group.Nat.Defs
import Mathlib.Data.List.Basic

namespace AtlasWow.Containers

/-- `urand(min, max)`: what a generator comes up with, as one of the numbers from `min` to `max`. -/
def urand (min max r : Nat) : Nat := min + r % (max - min + 1)

/-- `RandomResize` asks the generator once for each element; here by how many are left after it. -/
abbrev Outcomes := Nat → Nat

variable {α : Type} (moved : α → α)

/-- `*keepIt = std::move(*curIt)`; `moved` is what is left of an element that was moved. -/
def moveElement (container : List α) (keepIt curIt : Nat) : List α :=
  match container[curIt]? with
  | some x => (container.set curIt (moved x)).set keepIt x
  | none => container

/-- The loop of `RandomResize`, by `elementsToProcess`: the container after it, and `keepIt`. -/
def resizeLoop (random : Outcomes) : Nat → Nat → Nat → Nat → List α → List α × Nat
  | 0, _, keepIt, _, container => (container, keepIt)
  | elementsToProcess + 1, elementsToKeep, keepIt, curIt, container =>
    if urand 1 (elementsToProcess + 1) (random elementsToProcess) ≤ elementsToKeep then
      resizeLoop random elementsToProcess (elementsToKeep - 1) (keepIt + 1) (curIt + 1)
        (if keepIt ≠ curIt then moveElement moved container keepIt curIt else container)
    else resizeLoop random elementsToProcess elementsToKeep keepIt (curIt + 1) container

def randomResize (random : Outcomes) (container : List α) (requestedSize : Nat) : List α :=
  if container.length ≤ requestedSize then container
  else
    let (container, keepIt) := resizeLoop moved random (container.length % 2 ^ 32) (requestedSize % 2 ^ 32) 0 0 container
    container.take keepIt

/-- `RandomResize` with a predicate; a size of zero keeps all that meet it. -/
def randomResizeIf (random : Outcomes) (container : List α) (predicate : α → Bool) (requestedSize : Nat) : List α :=
  let containerCopy := container.filter predicate
  if requestedSize ≠ 0 then randomResize moved random containerCopy requestedSize else containerCopy

/-- `SelectRandomContainerElement`; the container has elements. -/
def selectRandomContainerElement (r : Nat) (container : List α) : Option α := container[urand 0 (container.length - 1) r]?

/-! ## What is kept -/

/-- The elements that are kept, of those that are looked at. -/
def sample (random : Outcomes) : Nat → List α → List α
  | _, [] => []
  | keep, x :: xs =>
    if urand 1 (xs.length + 1) (random xs.length) ≤ keep then x :: sample random (keep - 1) xs else sample random keep xs

variable {moved} {random : Outcomes} {l container : List α} {requestedSize : Nat}

theorem urand_range {min max : Nat} (h : min ≤ max) (r : Nat) : min ≤ urand min max r ∧ urand min max r ≤ max := by
  have hlt : r % (max - min + 1) < max - min + 1 := Nat.mod_lt _ (Nat.succ_pos _)
  rw [urand]
  omega

theorem select_mem (h : l ≠ []) (r : Nat) : ∃ x ∈ l, selectRandomContainerElement r l = some x := by
  have hpos : 0 < l.length := List.length_pos_of_ne_nil h
  have hrange := (urand_range (Nat.zero_le (l.length - 1)) r).2
  have hlt : urand 0 (l.length - 1) r < l.length := by omega
  exact ⟨_, List.getElem_mem hlt, List.getElem?_eq_getElem hlt⟩

/-- Every element may be selected. -/
theorem exists_select {x : α} (h : x ∈ l) : ∃ r, selectRandomContainerElement r l = some x := by
  obtain ⟨i, hlt, rfl⟩ := List.getElem_of_mem h
  have hurand : urand 0 (l.length - 1) i = i := by
    rw [urand, Nat.sub_zero, Nat.mod_eq_of_lt (by omega), Nat.zero_add]
  exact ⟨i, by rw [selectRandomContainerElement, hurand, List.getElem?_eq_getElem hlt]⟩

theorem sample_sublist (keep : Nat) (l : List α) : (sample random keep l).Sublist l := by
  induction l generalizing keep with
  | nil => exact .slnil
  | cons x xs ih =>
    rw [sample]
    split
    · exact (ih _).cons_cons x
    · exact (ih _).cons x

/-- As many as asked for are kept, or all: the last ones are, if they are needed. -/
theorem length_sample (keep : Nat) (l : List α) : (sample random keep l).length = min keep l.length := by
  induction l generalizing keep with
  | nil => rw [sample, List.length_nil, Nat.min_zero]
  | cons x xs ih =>
    obtain ⟨hpos, hle⟩ := urand_range (Nat.le_add_left 1 xs.length) (random xs.length)
    rw [sample]
    split
    next hkeep =>
      rw [List.length_cons, List.length_cons, ih]
      omega
    next hskip =>
    rw [List.length_cons, ih]
    omega

/-- The kept elements stay in front while others are looked at. -/
theorem moveElement_append (moved : α → α) (kept gone rest : List α) (x : α) :
    ∃ gone', (if kept.length ≠ kept.length + gone.length then
        moveElement moved (kept ++ gone ++ x :: rest) kept.length (kept.length + gone.length)
      else kept ++ gone ++ x :: rest) = kept ++ [x] ++ gone' ++ rest ∧ gone'.length = gone.length := by
  cases gone with
  | nil => exact ⟨[], by simp, rfl⟩
  | cons y gone =>
    refine ⟨gone ++ [moved x], ?_, by simp⟩
    have hcur : (kept ++ (y :: gone) ++ x :: rest)[kept.length + (y :: gone).length]? = some x := by
      rw [← List.length_append, List.getElem?_append_right (Nat.le_refl _), Nat.sub_self]
      rfl
    rw [if_pos (by simp), moveElement, hcur]
    simp only
    rw [← List.length_append, List.set_append_right _ _ (Nat.le_refl _), Nat.sub_self, List.set_cons_zero, List.append_assoc,
      List.set_append_right _ _ (Nat.le_refl _), Nat.sub_self, List.cons_append, List.set_cons_zero]
    simp

/-- What the loop has in front of `keepIt` at the end is what it had there, and the sample of what it looks at. -/
theorem resizeLoop_spec (moved : α → α) (random : Outcomes) : ∀ (n keep : Nat) (kept gone rest : List α), n ≤ rest.length →
    ∃ container, resizeLoop moved random n keep kept.length (kept.length + gone.length) (kept ++ gone ++ rest) =
        (container, (kept ++ sample random keep (rest.take n)).length) ∧
      container.take (kept ++ sample random keep (rest.take n)).length = kept ++ sample random keep (rest.take n) := by
  intro n
  induction n with
  | zero =>
    intro keep kept gone rest _
    refine ⟨kept ++ gone ++ rest, ?_, ?_⟩ <;> simp [resizeLoop, sample]
  | succ n ih =>
    intro keep kept gone rest hle
    obtain ⟨x, rest, rfl⟩ := List.exists_cons_of_ne_nil (List.ne_nil_of_length_pos (Nat.lt_of_lt_of_le (Nat.succ_pos n) hle))
    have hle' : n ≤ rest.length := Nat.le_of_succ_le_succ hle
    have hlen : (rest.take n).length = n := List.length_take_of_le hle'
    rw [resizeLoop, List.take_succ_cons, sample, hlen]
    split
    next =>
      obtain ⟨gone', hmove, hgone⟩ := moveElement_append moved kept gone rest x
      obtain ⟨container, hloop, htake⟩ := ih (keep - 1) (kept ++ [x]) gone' rest hle'
      have hcur : kept.length + gone.length + 1 = (kept ++ [x]).length + gone'.length := by
        rw [hgone, List.length_append, List.length_singleton]
        omega
      have hkeep : kept.length + 1 = (kept ++ [x]).length := by rw [List.length_append, List.length_singleton]
      have happend : kept ++ x :: sample random (keep - 1) (rest.take n) =
          kept ++ [x] ++ sample random (keep - 1) (rest.take n) := by simp
      rw [hmove, hcur, hkeep, happend]
      exact ⟨container, hloop, htake⟩
    next =>
    obtain ⟨container, hloop, htake⟩ := ih keep kept (gone ++ [x]) rest hle'
    have hcur : kept.length + gone.length + 1 = kept.length + (gone ++ [x]).length := by
      rw [List.length_append, List.length_singleton]
      omega
    have happend : kept ++ gone ++ x :: rest = kept ++ (gone ++ [x]) ++ rest := by simp
    rw [hcur, happend]
    exact ⟨container, hloop, htake⟩

/-- A container that is too large is cut down to a sample of the elements that the counter reaches. -/
theorem randomResize_eq (h : requestedSize < container.length) : randomResize moved random container requestedSize =
      sample random (requestedSize % 2 ^ 32) (container.take (container.length % 2 ^ 32)) := by
  obtain ⟨container', hloop, htake⟩ := resizeLoop_spec moved random (container.length % 2 ^ 32)
    (requestedSize % 2 ^ 32) [] [] container (Nat.mod_le _ _)
  rw [randomResize, if_neg (Nat.not_le_of_lt h)]
  simp only [List.nil_append, List.length_nil, Nat.add_zero] at hloop htake
  rw [hloop]
  exact htake

theorem randomResize_sublist (container : List α) (requestedSize : Nat) :
    (randomResize moved random container requestedSize).Sublist container := by
  by_cases h : requestedSize < container.length
  · rw [randomResize_eq h]
    exact (sample_sublist _ _).trans (List.take_sublist _ _)
  · rw [randomResize, if_pos (Nat.le_of_not_lt h)]

theorem length_randomResize (moved : α → α) (random : Outcomes) (h : requestedSize < container.length) :
    (randomResize moved random container requestedSize).length =
      min (requestedSize % 2 ^ 32) (container.length % 2 ^ 32) := by
  rw [randomResize_eq h, length_sample, List.length_take, Nat.min_eq_left (Nat.mod_le container.length _)]

/-- As many elements as asked for are left, or all, in their order, exactly if the counter reaches enough of them. -/
theorem randomResize_exact_iff (moved : α → α) (random : Outcomes) (container : List α) (requestedSize : Nat) :
    ((randomResize moved random container requestedSize).Sublist container ∧
        (randomResize moved random container requestedSize).length = min container.length requestedSize) ↔
      (container.length ≤ requestedSize ∨ requestedSize < 2 ^ 32 ∧ requestedSize ≤ container.length % 2 ^ 32) := by
  rw [and_iff_right (randomResize_sublist container requestedSize)]
  by_cases h : requestedSize < container.length
  · rw [length_randomResize moved random h]
    omega
  · rw [randomResize, if_pos (Nat.le_of_not_lt h)]
    exact iff_of_true (Nat.min_eq_left (Nat.le_of_not_lt h)).symm (.inl (Nat.le_of_not_lt h))

/-- Of `2 ^ 32` elements none is looked at, and none is left. -/
theorem randomResize_empties : randomResize id (fun _ => 0) (List.replicate (2 ^ 32) 0) 1 = [] := by
  have hlt : 1 < (List.replicate (2 ^ 32) 0).length := by
    rw [List.length_replicate]
    decide
  have hlen := length_randomResize id (fun _ => 0) hlt
  rw [List.length_replicate] at hlen
  exact List.length_eq_zero_iff.1 hlen

end AtlasWow.Containers
