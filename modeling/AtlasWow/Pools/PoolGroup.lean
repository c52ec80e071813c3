/-
`PoolGroup` (`PoolMgr.h`, `PoolMgr.cpp`): the objects of one kind in a pool, and
which of them a row of a table adds or takes away.
-/
import Mathlib.Algebra.Order.Field.Rat

namespace AtlasWow.Pools

structure PoolObject where
  guid : Nat
  chance : Rat
deriving DecidableEq

structure PoolGroup where
  poolId : Nat
  explicitlyChanced : List PoolObject
  equalChanced : List PoolObject

namespace PoolGroup

def empty (poolId : Nat) : PoolGroup := ⟨poolId, [], []⟩

def isEmpty (g : PoolGroup) : Bool := g.explicitlyChanced.isEmpty && g.equalChanced.isEmpty

def addEntry (g : PoolGroup) (poolitem : PoolObject) (maxentries : UInt32) : PoolGroup :=
  if poolitem.chance ≠ 0 && maxentries = 1 then { g with explicitlyChanced := g.explicitlyChanced ++ [poolitem] }
  else { g with equalChanced := g.equalChanced ++ [poolitem] }

/-- From each list the first object goes that is the child pool. -/
def removeOneRelation (g : PoolGroup) (childPoolId : Nat) : PoolGroup :=
  { g with
    explicitlyChanced := g.explicitlyChanced.eraseP (·.guid = childPoolId)
    equalChanced := g.equalChanced.eraseP (·.guid = childPoolId) }

/-- The objects, in the order in which they are despawned. -/
def objects (g : PoolGroup) : List PoolObject := g.equalChanced ++ g.explicitlyChanced

/-- The objects of a group, by id. -/
def guids (g : PoolGroup) : List Nat := g.objects.map (·.guid)

variable {g : PoolGroup}

theorem guids_addEntry (g : PoolGroup) (poolitem : PoolObject) (maxentries : UInt32) :
    (g.addEntry poolitem maxentries).guids.Perm (poolitem.guid :: g.guids) := by
  rw [addEntry]
  split
  · rw [guids, guids, objects, objects, ← List.map_cons (f := PoolObject.guid)]
    refine List.Perm.map _ ?_
    rw [← List.append_assoc]
    exact List.perm_append_comm
  rw [guids, guids, objects, objects, ← List.map_cons (f := PoolObject.guid)]
  refine List.Perm.map _ ?_
  rw [List.append_assoc]
  exact List.perm_middle

theorem map_eraseP_guid (childPoolId : Nat) {l : List PoolObject} (h : (l.map (·.guid)).Nodup) :
    (l.eraseP (·.guid = childPoolId)).map (·.guid) = (l.map (·.guid)).filter (· ≠ childPoolId) := by
  induction l with
  | nil => rfl
  | cons object l ih =>
    rw [List.map_cons, List.nodup_cons] at h
    rw [List.map_cons]
    by_cases he : object.guid = childPoolId
    · rw [List.eraseP_cons_of_pos (by simpa using he), List.filter_cons_of_neg (by simpa using he), eq_comm, List.filter_eq_self]
      intro guid hguid
      rw [decide_eq_true_iff]
      exact fun hc => h.1 (he.trans hc.symm ▸ hguid)
    · rw [List.eraseP_cons_of_neg (by simpa using he), List.filter_cons_of_pos (by simpa using he), List.map_cons, ih h.2]

theorem guids_removeOneRelation (h : g.guids.Nodup) (childPoolId : Nat) :
    (g.removeOneRelation childPoolId).guids = g.guids.filter (· ≠ childPoolId) := by
  rw [guids, objects, List.map_append, List.nodup_append] at h
  rw [guids, guids, objects, objects, List.map_append, List.map_append, List.filter_append, removeOneRelation,
    map_eraseP_guid _ h.1, map_eraseP_guid _ h.2.1]

end PoolGroup

end AtlasWow.Pools
