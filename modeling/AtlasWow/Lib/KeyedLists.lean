/-
Tables by key that take whole lists of entries: tables of lists, where an entry
goes to the end of its key's list (a multimap, a shop's stock), and tables of
values, where an entry overwrites. Each operation is described by what the list
of entries has for the key (`valuesOf`).
-/
import Mathlib.Data.List.Flatten
import Mathlib.Data.List.Perm.Subperm

section KeyedLists

variable {κ α : Type} [DecidableEq κ] {t : κ → List α} {l : List (κ × α)} {k : κ}

/-- The values that a list of entries has for a key, in their order. -/
def valuesOf (k : κ) (l : List (κ × α)) : List α := (l.filter (·.1 = k)).map (·.2)

@[simp] theorem valuesOf_nil (k : κ) : valuesOf k ([] : List (κ × α)) = [] := rfl

theorem valuesOf_cons (k : κ) (e : κ × α) (l : List (κ × α)) :
    valuesOf k (e :: l) = if e.1 = k then e.2 :: valuesOf k l else valuesOf k l := by
  by_cases h : e.1 = k
  · simp [valuesOf, h]
  · simp [valuesOf, h]

theorem mem_valuesOf {a : α} : a ∈ valuesOf k l ↔ (k, a) ∈ l := by
  unfold valuesOf
  constructor
  · intro h
    obtain ⟨⟨k', b⟩, he, rfl⟩ := List.mem_map.1 h
    obtain ⟨he, hk⟩ := List.mem_filter.1 he
    have hk : k' = k := of_decide_eq_true hk
    exact hk ▸ he
  · intro h
    exact List.mem_map.2 ⟨(k, a), List.mem_filter.2 ⟨h, decide_eq_true rfl⟩, rfl⟩

theorem valuesOf_filter (k : κ) (p : α → Bool) (l : List (κ × α)) :
    valuesOf k (l.filter fun e => p e.2) = (valuesOf k l).filter p := by
  rw [valuesOf, valuesOf, List.filter_map, List.filter_filter, List.filter_filter]
  exact congrArg _ (List.filter_congr fun e _ => Bool.and_comm _ _)

theorem valuesOf_map {β : Type} (k : κ) (f : α → β) (l : List (κ × α)) :
    valuesOf k (l.map fun e => (e.1, f e.2)) = (valuesOf k l).map f := by
  rw [valuesOf, valuesOf, List.filter_map, List.map_map, List.map_map]
  rfl

/-- Every entry goes to the end of its key's list. -/
def appendAll (t : κ → List α) (l : List (κ × α)) : κ → List α :=
  l.foldl (fun t e => Function.update t e.1 (t e.1 ++ [e.2])) t

theorem appendAll_apply (l : List (κ × α)) : ∀ (t : κ → List α) (k : κ), appendAll t l k = t k ++ valuesOf k l := by
  induction l with
  | nil => exact fun t k => (List.append_nil _).symm
  | cons e l ih =>
    intro t k
    rw [valuesOf_cons]
    refine (ih _ k).trans ?_
    beta_reduce
    by_cases h : e.1 = k
    · subst h
      rw [Function.update_self, if_pos rfl, List.append_assoc]
      rfl
    · rw [Function.update_of_ne (Ne.symm h), if_neg h]

/-- Of every entry the first copy is erased from its key's list. -/
def eraseAll [DecidableEq α] (t : κ → List α) (l : List (κ × α)) : κ → List α :=
  l.foldl (fun t e => Function.update t e.1 ((t e.1).erase e.2)) t

theorem eraseAll_apply [DecidableEq α] (l : List (κ × α)) : ∀ (t : κ → List α) (k : κ),
    eraseAll t l k = (t k).diff (valuesOf k l) := by
  induction l with
  | nil => exact fun t k => (List.diff_nil _).symm
  | cons e l ih =>
    intro t k
    rw [valuesOf_cons]
    refine (ih _ k).trans ?_
    beta_reduce
    by_cases h : e.1 = k
    · subst h
      rw [Function.update_self, if_pos rfl, List.diff_cons]
    · rw [Function.update_of_ne (Ne.symm h), if_neg h]

/-- For every entry, all values of its key that it names are removed. -/
def removeAll {β : Type} [DecidableEq β] (name : α → β) (t : κ → List α) (l : List (κ × β)) : κ → List α :=
  l.foldl (fun t e => Function.update t e.1 ((t e.1).filter fun a => name a ≠ e.2)) t

theorem removeAll_apply {β : Type} [DecidableEq β] (name : α → β) (l : List (κ × β)) : ∀ (t : κ → List α) (k : κ),
    removeAll name t l k = (t k).filter fun a => name a ∉ valuesOf k l := by
  induction l with
  | nil =>
    intro t k
    exact (List.filter_eq_self.2 fun a _ => by simp).symm
  | cons e l ih =>
    intro t k
    rw [valuesOf_cons]
    refine (ih _ k).trans ?_
    beta_reduce
    by_cases h : e.1 = k
    · subst h
      rw [Function.update_self, if_pos rfl, List.filter_filter]
      refine List.filter_congr fun a _ => ?_
      rw [← Bool.decide_and, decide_eq_decide, List.mem_cons, not_or, and_comm]
    · rw [Function.update_of_ne (Ne.symm h), if_neg h]

end KeyedLists

section Overwriting

variable {κ α : Type} [DecidableEq κ]

/-- Every entry overwrites the value of its key, where there is one. -/
def overwriteAll (t : κ → Option α) (l : List (κ × α)) : κ → Option α :=
  l.foldl (fun t e => if (t e.1).isSome then Function.update t e.1 (some e.2) else t) t

theorem overwriteAll_cons (t : κ → Option α) (e : κ × α) (l : List (κ × α)) :
    overwriteAll t (e :: l) = overwriteAll (if (t e.1).isSome then Function.update t e.1 (some e.2) else t) l := rfl

theorem overwriteAll_apply (l : List (κ × α)) : ∀ (t : κ → Option α) (k : κ),
    overwriteAll t l k = (t k).map fun a => (valuesOf k l).getLast?.getD a := by
  induction l with
  | nil => exact fun t k => Option.map_id'.symm ▸ rfl
  | cons e l ih =>
    intro t k
    rw [valuesOf_cons]
    refine (ih _ k).trans ?_
    beta_reduce
    by_cases h : e.1 = k
    · subst h
      rw [if_pos rfl]
      cases ht : t e.1 with
      | none =>
        rw [if_neg (by simp), ht]
        rfl
      | some a =>
        rw [if_pos (by simp), Function.update_self, Option.map_some, Option.map_some, List.getLast?_cons,
          Option.getD_some]
    rw [if_neg h]
    split
    · rw [Function.update_of_ne (Ne.symm h)]
    · rfl

theorem isSome_overwriteAll (t : κ → Option α) (l : List (κ × α)) (k : κ) :
    (overwriteAll t l k).isSome = (t k).isSome := by
  rw [overwriteAll_apply, Option.isSome_map]

end Overwriting

section Lists

variable {α : Type}

theorem length_le_length_diff [DecidableEq α] (l' : List α) : ∀ l : List α, l.length ≤ (l.diff l').length + l'.length := by
  induction l' with
  | nil => exact fun l => (List.diff_nil l).symm ▸ Nat.le_add_right _ _
  | cons a l' ih =>
    intro l
    rw [List.diff_cons, List.length_cons]
    have h := ih (l.erase a)
    have herase := List.length_erase_add_one (a := a) (l := l)
    by_cases ha : a ∈ l
    · have := herase ha
      omega
    · rw [List.erase_of_not_mem ha] at h ⊢
      omega

/-- What is all found in the first part is erased from it alone. -/
theorem append_diff [DecidableEq α] {l' : List α} : ∀ {l₁ : List α} (l₂ : List α), l'.Subperm l₁ →
    (l₁ ++ l₂).diff l' = l₁.diff l' ++ l₂ := by
  induction l' with
  | nil =>
    intro l₁ l₂ _
    rw [List.diff_nil, List.diff_nil]
  | cons a l' ih =>
    intro l₁ l₂ h
    have ha : a ∈ l₁ := List.Subperm.subset h List.mem_cons_self
    have hrest : l'.Subperm (l₁.erase a) := by
      have := List.Subperm.erase a h
      rwa [List.erase_cons_head] at this
    rw [List.diff_cons, List.diff_cons, List.erase_append_left l₂ ha, ih l₂ hrest]

/-- A piece of a list is erased, but for what is to be kept: the rest is left as it was exactly if nothing of the piece is
to be kept and the piece can be erased from what stands up to its end. -/
theorem diff_filter_eq_iff [DecidableEq α] (p : α → Bool) (l₁ l₂ l₃ : List α) :
    (l₁ ++ (l₂ ++ l₃)).diff (l₂.filter p) = l₁ ++ l₃ ↔ (∀ a ∈ l₂, p a = true) ∧ (l₁ ++ l₂).diff l₂ = l₁ := by
  have hsub : l₂.Subperm (l₁ ++ l₂) := (List.sublist_append_right l₁ l₂).subperm
  rw [← List.append_assoc]
  constructor
  · intro h
    have hlen := length_le_length_diff (l₂.filter p) (l₁ ++ l₂ ++ l₃)
    rw [h] at hlen
    simp only [List.length_append] at hlen
    have hall : (l₂.filter p).length = l₂.length := Nat.le_antisymm (List.length_filter_le p l₂) (by omega)
    have heq : l₂.filter p = l₂ := List.filter_sublist.eq_of_length hall
    rw [heq, append_diff l₃ hsub] at h
    exact ⟨List.filter_eq_self.1 heq, List.append_cancel_right h⟩
  · rintro ⟨hall, h⟩
    rw [List.filter_eq_self.2 hall, append_diff l₃ hsub, h]

/-- A piece of a list is filtered out: the rest is left as it was exactly if all of it passes. -/
theorem filter_eq_iff (p : α → Bool) (l₁ : List α) {l₂ : List α} (l₃ : List α) (h : ∀ a ∈ l₂, p a = false) :
    (l₁ ++ (l₂ ++ l₃)).filter p = l₁ ++ l₃ ↔ ∀ a ∈ l₁ ++ l₃, p a = true := by
  have hnil : l₂.filter p = [] := List.filter_eq_nil_iff.2 fun a ha => by
    rw [h a ha]
    exact Bool.false_ne_true
  rw [List.filter_append, List.filter_append, hnil, List.nil_append, ← List.filter_append, List.filter_eq_self]

theorem getLast?_append_getD (l₁ l₂ : List α) (d : α) :
    (l₁ ++ l₂).getLast?.getD d = l₂.getLast?.getD (l₁.getLast?.getD d) := by
  rw [List.getLast?_append]
  cases l₂.getLast? with
  | none => rfl
  | some a => rfl

/-- The last element, when two pieces of a list change places. -/
theorem getLast?_swap (l₁ l₂ l₃ : List α) (d : α) : ((l₁ ++ l₃) ++ l₂).getLast?.getD d = (l₁ ++ l₂ ++ l₃).getLast?.getD d ↔
    ∀ a ∈ l₂.getLast?, ∀ b ∈ l₃.getLast?, a = b := by
  simp only [List.getLast?_append]
  cases l₂.getLast? with
  | none => simp
  | some a =>
    cases l₃.getLast? with
    | none => simp
    | some b => simp

end Lists
