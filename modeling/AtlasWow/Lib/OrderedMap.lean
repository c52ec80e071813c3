/-
Finite maps that are iterated in the order of their keys, as search trees keep
them: entries sorted by key, one for each. Two such maps with the same lookups
are equal (`OMap.ext`), so an update that is undone leaves the very same map.

A map is used through `find?`: `find?_insert`, `find?_erase`, `find?_filter`
and `mem_entries` are all a client needs; `keys` is the order of iteration.
-/
import Mathlib.Data.Finset.Card
import Mathlib.Data.List.Lex
import Mathlib.Data.List.Sort

/-- A finite map: entries sorted by their keys. -/
structure OMap (κ υ : Type) [LinearOrder κ] where
  entries : List (κ × υ)
  sorted : entries.Pairwise fun p q => p.1 < q.1

namespace OMap

variable {κ υ : Type} [LinearOrder κ]

def empty : OMap κ υ := ⟨[], .nil⟩

def isEmpty (m : OMap κ υ) : Bool := m.entries.isEmpty
def size (m : OMap κ υ) : Nat := m.entries.length
def keys (m : OMap κ υ) : List κ := m.entries.map Prod.fst
def find? (m : OMap κ υ) (k : κ) : Option υ := m.entries.lookup k

/-- Put an entry in its place, over the old one if there is one. -/
def insertEntry (k : κ) (v : υ) : List (κ × υ) → List (κ × υ)
  | [] => [(k, v)]
  | p :: l => if k < p.1 then (k, v) :: p :: l else if k = p.1 then (k, v) :: l else p :: insertEntry k v l

theorem mem_insertEntry {k : κ} {v : υ} {q : κ × υ} :
    ∀ {l : List (κ × υ)}, q ∈ insertEntry k v l → q = (k, v) ∨ q ∈ l
  | [], h => by simpa [insertEntry] using h
  | p :: l, h => by
    simp only [insertEntry] at h
    split at h
    · simpa using h
    split at h
    · rcases List.mem_cons.1 h with h | h
      · exact .inl h
      · exact .inr (List.mem_cons_of_mem _ h)
    rcases List.mem_cons.1 h with h | h
    · exact .inr (h ▸ List.mem_cons_self)
    · exact (mem_insertEntry h).imp_right (List.mem_cons_of_mem _)

theorem sorted_insertEntry (k : κ) (v : υ) : ∀ {l : List (κ × υ)}, (l.Pairwise fun p q => p.1 < q.1) →
    (insertEntry k v l).Pairwise fun p q => p.1 < q.1
  | [], _ => List.pairwise_singleton _ _
  | p :: l, h => by
    obtain ⟨hp, hl⟩ := List.pairwise_cons.1 h
    simp only [insertEntry]
    split
    next hlt =>
      refine List.pairwise_cons.2 ⟨fun q hq => ?_, h⟩
      rcases List.mem_cons.1 hq with rfl | hq
      · exact hlt
      · exact lt_trans hlt (hp q hq)
    split
    next heq => exact List.pairwise_cons.2 ⟨fun q hq => heq ▸ hp q hq, hl⟩
    next hne hlt =>
    refine List.pairwise_cons.2 ⟨fun q hq => ?_, sorted_insertEntry k v hl⟩
    rcases mem_insertEntry hq with rfl | hq
    · exact lt_of_le_of_ne (le_of_not_gt ‹_›) (Ne.symm hlt)
    · exact hp q hq

/-- `m[k] = v`. -/
def insert (m : OMap κ υ) (k : κ) (v : υ) : OMap κ υ := ⟨insertEntry k v m.entries, sorted_insertEntry k v m.sorted⟩

/-- Keep the entries with certain keys. -/
def filter (m : OMap κ υ) (p : κ → Bool) : OMap κ υ :=
  ⟨m.entries.filter fun e => p e.1, m.sorted.sublist List.filter_sublist⟩

/-- Remove the entry of `k`, if there is one. -/
def erase (m : OMap κ υ) (k : κ) : OMap κ υ := m.filter (· ≠ k)

/-- Change every value. -/
def mapValues {υ' : Type} (m : OMap κ υ) (f : κ → υ → υ') : OMap κ υ' where
  entries := m.entries.map fun e => (e.1, f e.1 e.2)
  sorted := List.pairwise_map.2 m.sorted

/-- Change every value or drop its entry. -/
def filterMap {υ' : Type} (m : OMap κ υ) (f : κ → υ → Option υ') : OMap κ υ' where
  entries := m.entries.filterMap fun e => (f e.1 e.2).map (e.1, ·)
  sorted := m.sorted.filterMap _ fun p q hpq p' hp' q' hq' => by
    obtain ⟨_, -, rfl⟩ := Option.map_eq_some_iff.1 hp'
    obtain ⟨_, -, rfl⟩ := Option.map_eq_some_iff.1 hq'
    exact hpq

/-! ## Lookup -/

theorem lookup_eq_some {k : κ} {v : υ} : ∀ {l : List (κ × υ)}, (l.Pairwise fun p q => p.1 < q.1) →
    (l.lookup k = some v ↔ (k, v) ∈ l)
  | [], _ => by simp
  | p :: l, h => by
    obtain ⟨hp, hl⟩ := List.pairwise_cons.1 h
    obtain ⟨k', v'⟩ := p
    by_cases hk : k = k'
    · subst hk
      simp only [List.lookup_cons, beq_self_eq_true, Option.some.injEq, List.mem_cons, Prod.mk.injEq, true_and]
      refine ⟨fun hv => .inl hv.symm, fun hv => ?_⟩
      rcases hv with hv | hv
      · exact hv.symm
      · exact absurd (hp _ hv) (lt_irrefl _)
    have hb : (k == k') = false := by simpa using hk
    simp only [List.lookup_cons, hb, List.mem_cons, Prod.mk.injEq, hk, false_and, false_or]
    exact lookup_eq_some hl

variable {m : OMap κ υ} {k k' : κ} {v : υ} {υ' : Type} {l : List (κ × υ)}

theorem mem_entries : (k, v) ∈ m.entries ↔ m.find? k = some v :=
  (lookup_eq_some m.sorted).symm

theorem mem_keys : k ∈ m.keys ↔ ∃ v, m.find? k = some v := by
  simp only [keys, List.mem_map, Prod.exists, exists_and_right, exists_eq_right]
  exact exists_congr fun v => mem_entries

theorem find?_eq_none : m.find? k = none ↔ k ∉ m.keys := by
  rw [mem_keys, not_exists, Option.eq_none_iff_forall_ne_some]

theorem nodup_keys (m : OMap κ υ) : m.keys.Nodup :=
  List.pairwise_map.2 (m.sorted.imp fun h => ne_of_lt h)

@[simp] theorem find?_empty (k : κ) : (empty : OMap κ υ).find? k = none := rfl

/-- Maps with the same lookups are equal. -/
theorem ext {m' : OMap κ υ} (h : ∀ k, m.find? k = m'.find? k) : m = m' := by
  have hmem : ∀ e : κ × υ, e ∈ m.entries ↔ e ∈ m'.entries := fun e => by
    rw [show e = (e.1, e.2) from rfl, mem_entries, mem_entries, h]
  have nodup : ∀ m : OMap κ υ, m.entries.Nodup := fun m => m.sorted.imp fun hlt heq => ne_of_lt hlt (congrArg _ heq)
  have hperm : m.entries.Perm m'.entries := (List.perm_ext_iff_of_nodup (nodup m) (nodup m')).2 hmem
  obtain ⟨l, hl⟩ := m
  obtain ⟨l', hl'⟩ := m'
  have : l = l' := hperm.eq_of_pairwise (fun p q _ _ h₁ h₂ => absurd (lt_trans h₁ h₂) (lt_irrefl _)) hl hl'
  subst this
  rfl

theorem lookup_insertEntry (k k' : κ) (v : υ) : ∀ l : List (κ × υ),
    (insertEntry k v l).lookup k' = if k' = k then some v else l.lookup k'
  | [] => by
    by_cases hk : k' = k
    · simp [insertEntry, hk]
    · have hb : (k' == k) = false := by simpa using hk
      simp [insertEntry, hk, List.lookup_cons, hb]
  | (a, w) :: l => by
    have ih := lookup_insertEntry k k' v l
    simp only [insertEntry]
    by_cases hk : k' = k
    · subst hk
      split
      · simp
      split
      · simp
      next hne =>
      have hb : (k' == a) = false := by simpa using hne
      simp only [List.lookup_cons, hb, ih, if_true]
    have hb : (k' == k) = false := by simpa using hk
    split
    · simp only [List.lookup_cons, hb]
    split
    next heq =>
      have hb' : (k' == a) = false := by rw [← show k = a from heq]; exact hb
      simp only [List.lookup_cons, hb, hb']
    · simp only [List.lookup_cons, ih, if_neg hk]

theorem find?_insert (m : OMap κ υ) (k k' : κ) (v : υ) :
    (m.insert k v).find? k' = if k' = k then some v else m.find? k' := lookup_insertEntry k k' v m.entries

@[simp] theorem find?_insert_self (m : OMap κ υ) (k : κ) (v : υ) : (m.insert k v).find? k = some v := by
  rw [find?_insert, if_pos rfl]

theorem find?_insert_of_ne (h : k' ≠ k) : (m.insert k v).find? k' = m.find? k' := by
  rw [find?_insert, if_neg h]

theorem find?_filter (m : OMap κ υ) (p : κ → Bool) (k : κ) :
    (m.filter p).find? k = if p k then m.find? k else none := by
  apply Option.ext
  intro v
  rw [← mem_entries, filter, List.mem_filter, mem_entries]
  by_cases hp : p k = true <;> simp [hp]

theorem find?_erase (m : OMap κ υ) (k k' : κ) : (m.erase k).find? k' = if k' = k then none else m.find? k' := by
  rw [erase, find?_filter]
  by_cases hk : k' = k <;> simp [hk]

@[simp] theorem find?_erase_self (m : OMap κ υ) (k : κ) : (m.erase k).find? k = none := by rw [find?_erase, if_pos rfl]

theorem find?_erase_of_ne (h : k' ≠ k) : (m.erase k).find? k' = m.find? k' := by
  rw [find?_erase, if_neg h]

@[simp] theorem erase_insert (m : OMap κ υ) (k : κ) (v : υ) : (m.insert k v).erase k = m.erase k := by
  refine ext fun k' => ?_
  rw [find?_erase, find?_erase, find?_insert]
  split <;> rfl

theorem find?_mapValues (m : OMap κ υ) (f : κ → υ → υ') (k : κ) : (m.mapValues f).find? k = (m.find? k).map (f k) := by
  apply Option.ext
  intro v
  rw [← mem_entries, Option.map_eq_some_iff, mapValues, List.mem_map]
  constructor
  · intro h
    obtain ⟨⟨k', w⟩, hmem, heq⟩ := h
    cases heq
    exact ⟨w, mem_entries.1 hmem, rfl⟩
  · intro h
    obtain ⟨w, hw, rfl⟩ := h
    exact ⟨(k, w), mem_entries.2 hw, rfl⟩

theorem mapValues_insert (m : OMap κ υ) (f : κ → υ → υ') (k : κ) (v : υ) :
    (m.insert k v).mapValues f = (m.mapValues f).insert k (f k v) := by
  refine ext fun k' => ?_
  rw [find?_mapValues, find?_insert, find?_insert, find?_mapValues]
  split
  next hk => rw [Option.map_some, hk]
  next => rfl

theorem find?_filterMap (m : OMap κ υ) (f : κ → υ → Option υ') (k : κ) :
    (m.filterMap f).find? k = (m.find? k).bind (f k) := by
  apply Option.ext
  intro v
  rw [← mem_entries, Option.bind_eq_some_iff, filterMap, List.mem_filterMap]
  constructor
  · intro h
    obtain ⟨⟨k', w⟩, hmem, heq⟩ := h
    obtain ⟨v', hv, heq⟩ := Option.map_eq_some_iff.1 heq
    cases heq
    exact ⟨w, mem_entries.1 hmem, hv⟩
  · intro h
    obtain ⟨w, hw, hv⟩ := h
    exact ⟨(k, w), mem_entries.2 hw, Option.map_eq_some_iff.2 ⟨v, hv, rfl⟩⟩

theorem length_keys (m : OMap κ υ) : m.keys.length = m.size := List.length_map _

theorem size_eq_one : m.size = 1 ↔ ∃! k, k ∈ m.keys := by
  rw [← length_keys, List.length_eq_one_iff]
  constructor
  · rintro ⟨k, hk⟩
    rw [hk]
    exact ⟨k, List.mem_singleton_self k, fun k' hk' => List.mem_singleton.1 hk'⟩
  · rintro ⟨k, hk, hall⟩
    refine ⟨k, List.perm_singleton.1 ((List.perm_ext_iff_of_nodup m.nodup_keys (List.nodup_singleton k)).2 fun k' => ?_)⟩
    rw [List.mem_singleton]
    exact ⟨hall k', fun he => he ▸ hk⟩

theorem isEmpty_iff : m.isEmpty = true ↔ m.keys = [] := by
  simp [isEmpty, keys, List.isEmpty_iff]

/-- Overwriting an entry twice is overwriting it once. -/
theorem insert_insert (m : OMap κ υ) (k : κ) (v v' : υ) : (m.insert k v).insert k v' = m.insert k v' := by
  refine ext fun k' => ?_
  simp only [find?_insert]
  split <;> rfl

theorem insert_find? (h : m.find? k = some v) : m.insert k v = m := by
  refine ext fun k' => ?_
  rw [find?_insert]
  split
  next hk => rw [hk, h]
  next => rfl

theorem sorted_keys (m : OMap κ υ) : m.keys.Pairwise (· < ·) := List.pairwise_map.2 m.sorted

/-- The order of iteration is that of the keys, whatever the values are. -/
theorem keys_eq {m' : OMap κ υ'} (h : ∀ k, k ∈ m.keys ↔ k ∈ m'.keys) : m.keys = m'.keys :=
  ((List.perm_ext_iff_of_nodup m.nodup_keys m'.nodup_keys).2 h).eq_of_pairwise
    (fun _ _ _ _ h₁ h₂ => absurd (lt_trans h₁ h₂) (lt_irrefl _)) m.sorted_keys m'.sorted_keys

theorem mem_keys_insert : k' ∈ (m.insert k v).keys ↔ k' = k ∨ k' ∈ m.keys := by
  simp only [mem_keys, find?_insert]
  by_cases hk : k' = k <;> simp [hk]

theorem keys_insert (h : k ∈ m.keys) (v : υ) : (m.insert k v).keys = m.keys :=
  keys_eq fun _ => mem_keys_insert.trans (or_iff_right_of_imp fun he => he ▸ h)

theorem mem_keys_filter {p : κ → Bool} : k ∈ (m.filter p).keys ↔ p k = true ∧ k ∈ m.keys := by
  simp only [mem_keys, find?_filter]
  by_cases hp : p k = true <;> simp [hp]

theorem mem_keys_erase : k' ∈ (m.erase k).keys ↔ k' ≠ k ∧ k' ∈ m.keys := by
  rw [erase, mem_keys_filter, decide_eq_true_iff]

theorem size_insert_of_notMem (h : k ∉ m.keys) (v : υ) : (m.insert k v).size = m.size + 1 := by
  have hperm : (m.insert k v).keys.Perm (k :: m.keys) :=
    (List.perm_ext_iff_of_nodup (m.insert k v).nodup_keys (List.nodup_cons.2 ⟨h, m.nodup_keys⟩)).2 fun k' =>
      mem_keys_insert.trans List.mem_cons.symm
  rw [← length_keys, hperm.length_eq, List.length_cons, length_keys]

theorem size_insert (h : k ∈ m.keys) (v : υ) : (m.insert k v).size = m.size := by
  rw [← length_keys, ← length_keys, keys_insert h]

theorem size_erase (h : k ∈ m.keys) : (m.erase k).size + 1 = m.size := by
  have hperm : m.keys.Perm (k :: (m.erase k).keys) := by
    refine (List.perm_ext_iff_of_nodup m.nodup_keys (List.nodup_cons.2 ⟨fun hk => (mem_keys_erase.1 hk).1 rfl,
      (m.erase k).nodup_keys⟩)).2 fun k' => ?_
    rw [List.mem_cons, mem_keys_erase]
    by_cases hk : k' = k <;> simp [hk, h]
  rw [← length_keys m, hperm.length_eq, List.length_cons, length_keys]

@[simp] theorem keys_mapValues (m : OMap κ υ) (f : κ → υ → υ') : (m.mapValues f).keys = m.keys := by
  simp only [keys, mapValues, List.map_map]
  rfl

/-! ## Inserting a list of entries -/

def insertAll (m : OMap κ υ) (l : List (κ × υ)) : OMap κ υ := l.foldl (fun m e => m.insert e.1 e.2) m

theorem lookup_eq_none (h : k ∉ l.map Prod.fst) : l.lookup k = none := by
  rw [List.lookup_eq_none_iff]
  intro p hp
  have hne : k ≠ p.1 := fun he => h (he ▸ List.mem_map.2 ⟨p, hp, rfl⟩)
  simpa using hne

theorem find?_insertAll (h : (l.map Prod.fst).Nodup) (m : OMap κ υ) (k : κ) :
    (m.insertAll l).find? k = (l.lookup k).or (m.find? k) := by
  induction l generalizing m with
  | nil => rfl
  | cons e l ih =>
    obtain ⟨k', v⟩ := e
    simp only [List.map_cons, List.nodup_cons] at h
    rw [insertAll, List.foldl_cons, ← insertAll, ih h.2, find?_insert, List.lookup_cons]
    by_cases hk : k = k'
    · subst hk
      simp [lookup_eq_none h.1]
    · have hb : (k == k') = false := by simpa using hk
      simp [hk, hb]

/-- The entries of a map make the map. -/
theorem insertAll_entries (m : OMap κ υ) : empty.insertAll m.entries = m := ext fun k => by
  rw [find?_insertAll m.nodup_keys, find?_empty, Option.or_none, find?]

theorem mem_keys_insertAll : k ∈ (m.insertAll l).keys ↔ k ∈ l.map Prod.fst ∨ k ∈ m.keys := by
  induction l generalizing m with
  | nil => simp [insertAll]
  | cons e l ih =>
    rw [insertAll, List.foldl_cons, ← insertAll, ih, mem_keys_insert, List.map_cons, List.mem_cons]
    tauto

/-- Counting the values of a map is counting the keys it has them for. -/
theorem countP_entries {keys : Finset κ} {f : κ → υ}
    (h : ∀ k, m.find? k = if k ∈ keys then some (f k) else none) (p : υ → Bool) :
    (m.entries.countP fun e => p e.2) = (keys.filter fun k => p (f k)).card := by
  have hkeys : ((m.entries.filter fun e => p e.2).map Prod.fst).toFinset = keys.filter fun k => p (f k) := by
    ext k
    simp only [List.mem_toFinset, List.mem_map, List.mem_filter, Finset.mem_filter, Prod.exists, mem_entries, h]
    constructor
    · rintro ⟨k', v, ⟨hv, hp⟩, rfl⟩
      split at hv
      next hk => exact ⟨hk, Option.some.inj hv ▸ hp⟩
      next => exact nomatch hv
    · rintro ⟨hk, hp⟩
      exact ⟨k, f k, ⟨if_pos hk, hp⟩, rfl⟩
  rw [← hkeys, List.toFinset_card_of_nodup, List.length_map, List.countP_eq_length_filter]
  exact m.nodup_keys.sublist (List.filter_sublist.map _)

end OMap
