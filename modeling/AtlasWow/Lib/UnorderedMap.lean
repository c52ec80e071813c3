/-
Finite maps as hash tables keep them: one entry for each key, in an order
the table chooses. Where an insertion puts its entry, and whether it moves
the others, is a `Placement`, so what is proved here holds for every hash
function and every rehash; erasing keeps the order of the other entries.

A map is used through `find?`: `find?_insert`, `find?_erase` and
`mem_entries` are all a client needs.
-/
import Mathlib.Data.List.Nodup
import Mathlib.Data.List.Perm.Basic

/-- A finite map: entries with distinct keys, in iteration order. -/
structure UMap (κ υ : Type) where
  entries : List (κ × υ)
  nodup : (entries.map Prod.fst).Nodup

/-- Where an insertion puts the new entry: some order of all of them. -/
structure Placement (κ υ : Type) where
  place : List (κ × υ) → κ × υ → List (κ × υ)
  perm : ∀ l p, (place l p).Perm (p :: l)

/-- New entries go to the front, the others stay. -/
def Placement.front (κ υ : Type) : Placement κ υ := ⟨fun l p => p :: l, fun _ _ => .refl _⟩

namespace UMap

variable {κ υ : Type} [DecidableEq κ]

def empty : UMap κ υ := ⟨[], List.nodup_nil⟩

def isEmpty (m : UMap κ υ) : Bool := m.entries.isEmpty

def size (m : UMap κ υ) : Nat := m.entries.length

def find? (m : UMap κ υ) (k : κ) : Option υ := m.entries.lookup k

/-- Remove the entry of `k`, if there is one. -/
def erase (m : UMap κ υ) (k : κ) : UMap κ υ where
  entries := m.entries.filter (·.1 ≠ k)
  nodup := m.nodup.sublist (List.filter_sublist.map _)

/-- `m[k] = v`: overwrite in place, or insert where the table puts it. -/
def insert (pl : Placement κ υ) (m : UMap κ υ) (k : κ) (v : υ) : UMap κ υ :=
  if h : k ∈ m.entries.map Prod.fst then
    { entries := m.entries.map fun p => if p.1 = k then (k, v) else p
      nodup := by
        have : (m.entries.map fun p => if p.1 = k then (k, v) else p).map Prod.fst =
            m.entries.map Prod.fst := by
          rw [List.map_map]
          apply List.map_congr_left
          intro p _
          simp only [Function.comp]
          split <;> simp_all
        rw [this]; exact m.nodup }
  else
    { entries := pl.place m.entries (k, v)
      nodup := by
        rw [((pl.perm m.entries (k, v)).map Prod.fst).nodup_iff]
        exact List.nodup_cons.2 ⟨h, m.nodup⟩ }

/-- Change every value, each in its place. -/
def mapValues (m : UMap κ υ) (f : κ → υ → υ) : UMap κ υ where
  entries := m.entries.map fun e => (e.1, f e.1 e.2)
  nodup := by
    rw [List.map_map]
    exact m.nodup

/-! ## Lookup -/

variable {k : κ} {v : υ} {m : UMap κ υ}

theorem lookup_eq_some {l : List (κ × υ)} (h : (l.map Prod.fst).Nodup) : l.lookup k = some v ↔ (k, v) ∈ l := by
  induction l with
  | nil => simp
  | cons p l ih =>
    obtain ⟨k', v'⟩ := p
    simp only [List.map_cons, List.nodup_cons] at h
    by_cases hk : k = k'
    · subst hk
      simp only [List.lookup_cons, beq_self_eq_true, List.mem_cons, Prod.mk.injEq, true_and]
      constructor
      · intro hv; exact .inl (by simpa using hv.symm)
      · rintro (rfl | hm)
        · rfl
        · exact absurd (List.mem_map_of_mem hm) h.1
    have hb : (k == k') = false := by simpa using hk
    simp only [List.lookup_cons, hb, List.mem_cons, Prod.mk.injEq, hk, false_and, false_or]
    exact ih h.2

theorem mem_entries : (k, v) ∈ m.entries ↔ m.find? k = some v :=
  (lookup_eq_some m.nodup).symm

theorem find?_eq_none : m.find? k = none ↔ ∀ v, (k, v) ∉ m.entries := by
  rw [Option.eq_none_iff_forall_ne_some]
  exact forall_congr' fun v => not_congr mem_entries.symm

theorem mem_keys : k ∈ m.entries.map Prod.fst ↔ ∃ v, m.find? k = some v := by
  simp [← mem_entries]

@[simp] theorem find?_empty (k : κ) : (empty : UMap κ υ).find? k = none := rfl

@[simp] theorem isEmpty_iff : m.isEmpty = true ↔ ∀ k, m.find? k = none := by
  rw [isEmpty, List.isEmpty_iff]
  constructor
  · intro h k; simp [find?, h]
  · intro h
    rw [List.eq_nil_iff_forall_not_mem]
    rintro ⟨k, v⟩ hp
    have := mem_entries.1 hp
    simp [h k] at this

/-! ## Erasing and inserting -/

theorem find?_erase (m : UMap κ υ) (k k' : κ) :
    (m.erase k).find? k' = if k' = k then none else m.find? k' := by
  by_cases hk : k' = k
  · subst hk
    rw [if_pos rfl, find?_eq_none]
    simp [erase]
  rw [if_neg hk]
  apply Option.ext
  intro v
  rw [← mem_entries, ← mem_entries]
  simp [erase, hk]

@[simp] theorem find?_erase_self (m : UMap κ υ) (k : κ) : (m.erase k).find? k = none := by
  simp [find?_erase]

theorem find?_insert (pl : Placement κ υ) (m : UMap κ υ) (k k' : κ) (v : υ) :
    (m.insert pl k v).find? k' = if k' = k then some v else m.find? k' := by
  apply Option.ext
  intro w
  rw [← mem_entries]
  unfold insert
  split
  next h =>
    simp only [List.mem_map]
    by_cases hk : k' = k
    · subst hk
      simp only [if_true, Option.some.injEq]
      constructor
      · rintro ⟨p, hp, hpw⟩
        split at hpw
        · simpa using hpw
        · next hne => exact absurd (congrArg Prod.fst hpw) hne
      · rintro rfl
        obtain ⟨p, hp, hpk⟩ := List.mem_map.1 h
        exact ⟨p, hp, by rw [if_pos hpk]⟩
    rw [if_neg hk, ← mem_entries]
    constructor
    · rintro ⟨p, hp, hpw⟩
      split at hpw
      · exact absurd (congrArg Prod.fst hpw).symm hk
      · exact hpw ▸ hp
    · intro hp
      exact ⟨(k', w), hp, by rw [if_neg hk]⟩
  next h =>
  simp only [(pl.perm m.entries (k, v)).mem_iff, List.mem_cons, Prod.mk.injEq]
  by_cases hk : k' = k
  · subst hk
    have : (k', w) ∉ m.entries := fun hm => h (List.mem_map_of_mem hm)
    simp only [this, or_false, true_and, if_true, Option.some.injEq]
    exact eq_comm
  · simp only [hk, false_and, false_or, if_false]
    exact mem_entries

@[simp] theorem find?_insert_self (pl : Placement κ υ) (m : UMap κ υ) (k : κ) (v : υ) :
    (m.insert pl k v).find? k = some v := by simp [find?_insert]

@[simp] theorem find?_insert_of_ne {pl : Placement κ υ} {k' : κ} (h : k' ≠ k) :
    (m.insert pl k v).find? k' = m.find? k' := by simp [find?_insert, h]

theorem find?_mapValues (m : UMap κ υ) (f : κ → υ → υ) (k : κ) :
    (m.mapValues f).find? k = (m.find? k).map (f k) := by
  apply Option.ext
  intro v
  rw [← mem_entries, Option.map_eq_some_iff]
  simp only [mapValues, List.mem_map, Prod.exists, Prod.mk.injEq, mem_entries]
  constructor
  · intro h
    obtain ⟨k', w, hw, rfl, rfl⟩ := h
    exact ⟨w, hw, rfl⟩
  · intro h
    obtain ⟨w, hw, rfl⟩ := h
    exact ⟨k, w, hw, rfl, rfl⟩

/-- Erasing a present key takes exactly one entry away. -/
theorem size_erase (h : m.find? k = some v) : (m.erase k).size + 1 = m.size := by
  have hkv := mem_entries.2 h
  have hp : m.entries.Perm ((k, v) :: (m.erase k).entries) := by
    rw [List.perm_ext_iff_of_nodup m.nodup.of_map]
    · rintro ⟨k', v'⟩
      simp only [List.mem_cons, Prod.mk.injEq, mem_entries, find?_erase]
      by_cases hk : k' = k
      · subst hk; simp [h, eq_comm]
      · simp [hk]
    · refine List.nodup_cons.2 ⟨?_, (m.erase k).nodup.of_map⟩
      simp [mem_entries]
  have := hp.length_eq
  simp only [List.length_cons] at this
  exact this.symm

end UMap
