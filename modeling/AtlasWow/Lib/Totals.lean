/-
The total of a weight over the entries of a map: one entry more or less is its
weight more or less (`total_insert`, `total_erase`). Lists come last, with an
element replaced.
-/
import AtlasWow.Lib.OrderedMap
import Mathlib.Algebra.BigOperators.Group.List.Basic
import Mathlib.Algebra.GroupWithZero.Nat

namespace OMap

variable {κ υ : Type} [LinearOrder κ] {M : Type} [AddCommMonoid M]

/-- The weights of all entries together. -/
def total (m : OMap κ υ) (f : κ → υ → M) : M := (m.entries.map fun e => f e.1 e.2).sum

@[simp] theorem total_empty (f : κ → υ → M) : (empty : OMap κ υ).total f = 0 := rfl

theorem nodup_entries (m : OMap κ υ) : m.entries.Nodup := m.sorted.imp fun hlt heq => ne_of_lt hlt (congrArg _ heq)

/-- The entries of a map with one more put in. -/
theorem perm_insert (m : OMap κ υ) (k : κ) (v : υ) : (m.insert k v).entries.Perm ((k, v) :: (m.erase k).entries) := by
  have hnotMem : (k, v) ∉ (m.erase k).entries := fun hmem => by
    have := mem_entries.1 hmem
    rw [find?_erase_self] at this
    cases this
  refine (List.perm_ext_iff_of_nodup (nodup_entries _) (List.nodup_cons.2 ⟨hnotMem, nodup_entries _⟩)).2 fun e => ?_
  obtain ⟨k', v'⟩ := e
  rw [List.mem_cons, mem_entries, mem_entries, find?_insert, find?_erase]
  by_cases hk : k' = k
  · simp [hk, eq_comm]
  · simp [hk]

variable {m : OMap κ υ} {k : κ} {v : υ}

/-- What a map weighs: an entry, and the others. -/
theorem total_erase (h : m.find? k = some v) (f : κ → υ → M) : m.total f = f k v + (m.erase k).total f := by
  have hperm := perm_insert m k v
  rw [insert_find? h] at hperm
  have hsum := (hperm.map fun e => f e.1 e.2).sum_eq
  rwa [List.map_cons, List.sum_cons] at hsum

theorem total_insert (m : OMap κ υ) (k : κ) (v : υ) (f : κ → υ → M) :
    (m.insert k v).total f = f k v + (m.erase k).total f := by
  have hsum := ((perm_insert m k v).map fun e => f e.1 e.2).sum_eq
  rwa [List.map_cons, List.sum_cons] at hsum

theorem erase_of_none (h : m.find? k = none) : m.erase k = m := by
  refine ext fun k' => ?_
  rw [find?_erase]
  split
  next hk => rw [hk, h]
  next => rfl

/-- A new entry. -/
theorem total_insert_new (h : m.find? k = none) (v : υ) (f : κ → υ → M) :
    (m.insert k v).total f = f k v + m.total f := by rw [total_insert, erase_of_none h]

/-- An entry in the place of another. -/
theorem total_replace (h : m.find? k = some v) (v' : υ) (f : κ → υ → M) :
    (m.insert k v').total f + f k v = m.total f + f k v' := by
  rw [total_insert, total_erase h, add_right_comm, add_comm (f k v')]
  exact add_right_comm ..

@[simp] theorem total_mapValues {υ' : Type} (m : OMap κ υ) (g : κ → υ → υ') (f : κ → υ' → M) :
    (m.mapValues g).total f = m.total fun k v => f k (g k v) := by
  simp only [total, mapValues, List.map_map]
  rfl

theorem find?_erase_ne {i : κ} (h : (m.erase k).find? i = some v) : i ≠ k := by
  intro heq
  rw [heq, find?_erase_self] at h
  cases h

theorem total_congr {f g : κ → υ → M} (h : ∀ k v, m.find? k = some v → f k v = g k v) : m.total f = m.total g :=
  congrArg List.sum (List.map_congr_left fun e he => h e.1 e.2 (mem_entries.1 he))

/-- A map that weighs something has an entry that does. -/
theorem exists_of_total_ne_zero {f : κ → υ → M} (h : m.total f ≠ 0) : ∃ k v, m.find? k = some v ∧ f k v ≠ 0 := by
  by_contra hnone
  push Not at hnone
  refine h ((total_congr hnone).trans ?_)
  exact List.sum_eq_zero fun x hx => by
    obtain ⟨e, -, rfl⟩ := List.mem_map.1 hx
    rfl


/-- Beside the entries stands a number for each key, and one of them changes. -/
theorem total_update (h : m.find? k = some v) (g : κ → υ → Nat) (c : κ → Nat) (x : Nat) :
    (m.total fun i a => g i a + Function.update c k x i) + c k = (m.total fun i a => g i a + c i) + x := by
  have hold := total_erase h fun i a => g i a + c i
  have hnew := total_erase h fun i a => g i a + Function.update c k x i
  have hrest : ((m.erase k).total fun i a => g i a + Function.update c k x i) = (m.erase k).total fun i a => g i a + c i :=
    total_congr fun i a hi => by rw [Function.update_of_ne (find?_erase_ne hi)]
  rw [hold, hnew, hrest, Function.update_self]
  omega

end OMap

namespace List

variable {α β : Type}

/-- An element replaced by one with the same image. -/
theorem filterMap_set {f : α → Option β} : ∀ {l : List α} {i : Nat} {a a' : α}, l[i]? = some a → f a' = f a →
    (l.set i a').filterMap f = l.filterMap f
  | [], _, _, _, h, _ => by cases h
  | b :: l, 0, a, a', h, hf => by
    cases h
    rw [set_cons_zero, filterMap_cons, filterMap_cons, hf]
  | b :: l, i + 1, a, a', h, hf => by
    rw [set_cons_succ, filterMap_cons, filterMap_cons, filterMap_set (l := l) (i := i) h hf]

theorem sum_map_set {f : α → Nat} : ∀ {l : List α} {i : Nat} {a : α} (a' : α), l[i]? = some a →
    ((l.set i a').map f).sum + f a = (l.map f).sum + f a'
  | [], _, _, _, h => by cases h
  | b :: l, 0, a, a', h => by
    cases h
    simp only [set_cons_zero, map_cons, sum_cons]
    omega
  | b :: l, i + 1, a, a', h => by
    have ih := sum_map_set (l := l) (i := i) (f := f) a' h
    simp only [set_cons_succ, map_cons, sum_cons]
    omega

end List
