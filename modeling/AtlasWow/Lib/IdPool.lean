/-
An allocator of ids: a highest id handed out and a queue of returned ones, in
counters below a limit that wrap around.

`Holds pool used`: the ids of a multiset are those in use. Taking an id and
returning one in use keep that (`Holds.take`, `Holds.release`); an id that is
neither in use nor queued may be adopted (`Holds.adopt`), or an id in use
forgotten.
-/
import Mathlib.Data.Multiset.UnionInter

structure IdPool where
  free : List Nat := []
  max : Nat := 0
  deriving DecidableEq, Repr

namespace IdPool

variable {limit : Nat} {pool : IdPool} {used used' : Multiset Nat} {id : Nat}

/-- The first queued id, or one more than the highest. -/
def take (limit : Nat) (pool : IdPool) : Nat × IdPool :=
  match pool.free with
  | [] => ((pool.max + 1) % limit, { pool with max := (pool.max + 1) % limit })
  | id :: free => (id, { pool with free := free })

/-- The highest id lowers the counter, the others are queued. -/
def release (limit : Nat) (pool : IdPool) (id : Nat) : IdPool :=
  if id = pool.max then { pool with max := (pool.max + (limit - 1)) % limit }
  else { pool with free := pool.free ++ [id] }

/-- The ids in use and the queued ones are distinct, and none is zero or above the counter, which has not wrapped. -/
structure Holds (limit : Nat) (pool : IdPool) (used : Multiset Nat) : Prop where
  nodup : (used + ↑pool.free).Nodup
  range : ∀ id ∈ used + ↑pool.free, 1 ≤ id ∧ id ≤ pool.max
  room : pool.max + 1 < limit

theorem Holds.take (h : Holds limit pool used) (hroom : pool.max + 2 < limit) :
    Holds limit (pool.take limit).2 ((pool.take limit).1 ::ₘ used) ∧ (pool.take limit).2.max ≤ pool.max + 1 := by
  unfold IdPool.take
  split
  next hfree =>
    have hmod : (pool.max + 1) % limit = pool.max + 1 := Nat.mod_eq_of_lt (by omega)
    have hnodup := h.nodup
    have hrange := h.range
    rw [hfree] at hnodup hrange
    rw [hmod]
    refine ⟨⟨?_, ?_, hroom⟩, le_refl _⟩
    · rw [Multiset.cons_add, Multiset.nodup_cons]
      simp only [hfree]
      refine ⟨fun hmem => ?_, hnodup⟩
      have hle : pool.max + 1 ≤ pool.max := (hrange _ hmem).2
      omega
    · intro id hid
      simp only [hfree] at hid
      rw [Multiset.cons_add, Multiset.mem_cons] at hid
      show 1 ≤ id ∧ id ≤ pool.max + 1
      rcases hid with rfl | hid
      · omega
      · have := hrange id hid
        omega
  next id free hfree =>
  have hsame : id ::ₘ used + (free : Multiset Nat) = used + ↑pool.free := by
    rw [hfree, ← Multiset.cons_coe, Multiset.add_cons, Multiset.cons_add]
  refine ⟨⟨?_, ?_, h.room⟩, Nat.le_succ _⟩
  · rw [hsame]; exact h.nodup
  · rw [hsame]; exact h.range

theorem Holds.release (h : Holds limit pool (id ::ₘ used)) : Holds limit (pool.release limit id) used := by
  have hnodup := h.nodup
  have hrange := h.range
  rw [Multiset.cons_add] at hnodup hrange
  rw [Multiset.nodup_cons] at hnodup
  have hid := hrange id (Multiset.mem_cons_self _ _)
  have hroom := h.room
  unfold IdPool.release
  split
  next hmax =>
    have hmod : (pool.max + (limit - 1)) % limit = pool.max - 1 := by
      rw [show pool.max + (limit - 1) = pool.max - 1 + limit by omega, Nat.add_mod_right]
      exact Nat.mod_eq_of_lt (by omega)
    refine ⟨hnodup.2, fun id' hid' => ?_, ?_⟩
    · have hne : id' ≠ id := fun he => hnodup.1 (he ▸ hid')
      have := hrange id' (Multiset.mem_cons_of_mem hid')
      show 1 ≤ id' ∧ id' ≤ (pool.max + (limit - 1)) % limit
      omega
    · show (pool.max + (limit - 1)) % limit + 1 < limit
      omega
  next =>
  have hsame : used + ((pool.free ++ [id] : List Nat) : Multiset Nat) = id ::ₘ (used + ↑pool.free) := by
    rw [← Multiset.coe_add, ← Multiset.add_assoc, Multiset.coe_singleton, Multiset.add_comm, Multiset.singleton_add]
  refine ⟨?_, ?_, hroom⟩
  · rw [hsame, Multiset.nodup_cons]; exact hnodup
  · rw [hsame]; exact hrange

/-- An object that is dropped without returning its id. -/
theorem Holds.forget (h : Holds limit pool (id ::ₘ used)) : Holds limit pool used where
  nodup := by
    have hnodup := h.nodup
    rw [Multiset.cons_add, Multiset.nodup_cons] at hnodup
    exact hnodup.2
  range := fun id' hid' => h.range id' (by rw [Multiset.cons_add]; exact Multiset.mem_cons_of_mem hid')
  room := h.room

/-- An id that nobody has. -/
theorem Holds.adopt (h : Holds limit pool used) (hused : id ∉ used) (hfree : id ∉ pool.free) (hpos : 1 ≤ id)
    (hmax : id ≤ pool.max) : Holds limit pool (id ::ₘ used) where
  nodup := by
    rw [Multiset.cons_add, Multiset.nodup_cons, Multiset.mem_add, not_or]
    exact ⟨⟨hused, hfree⟩, h.nodup⟩
  range := by
    intro id' hid'
    rw [Multiset.cons_add, Multiset.mem_cons] at hid'
    rcases hid' with rfl | hid'
    · exact ⟨hpos, hmax⟩
    · exact h.range id' hid'
  room := h.room

theorem Holds.max_release (h : Holds limit pool (id ::ₘ used)) : (pool.release limit id).max ≤ pool.max := by
  have hid := h.range id (by rw [Multiset.cons_add]; exact Multiset.mem_cons_self _ _)
  have hroom := h.room
  unfold IdPool.release
  split
  next =>
    show (pool.max + (limit - 1)) % limit ≤ pool.max
    rw [show pool.max + (limit - 1) = pool.max - 1 + limit by omega, Nat.add_mod_right, Nat.mod_eq_of_lt (by omega)]
    omega
  next => exact le_refl _

/-- All ids up to the highest, of which those that are not used are queued. -/
theorem Holds.ofUsed (hnodup : used.Nodup) (hpos : ∀ id ∈ used, 1 ≤ id) {max : Nat} (hmax : ∀ id ∈ used, id ≤ max)
    (hroom : max + 1 < limit) :
    Holds limit ⟨(List.range' 1 (max - 1)).filter (· ∉ used), max⟩ used where
  nodup := by
    rw [Multiset.nodup_add]
    refine ⟨hnodup, ?_, ?_⟩
    · rw [Multiset.coe_nodup]
      exact List.Nodup.filter _ List.nodup_range'
    · rw [Multiset.disjoint_left]
      intro id hid hmem
      rw [Multiset.mem_coe, List.mem_filter] at hmem
      exact of_decide_eq_true hmem.2 hid
  range := by
    intro id hid
    rw [Multiset.mem_add] at hid
    rcases hid with hid | hid
    · exact ⟨hpos id hid, hmax id hid⟩
    rw [Multiset.mem_coe, List.mem_filter, List.mem_range'_1] at hid
    show 1 ≤ id ∧ id ≤ max
    omega
  room := hroom

end IdPool
