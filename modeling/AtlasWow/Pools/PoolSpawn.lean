/-
Spawning and despawning pools (`PoolGroup::SpawnObject`, `DespawnObject`,
`PoolMgr::SpawnPool`, `DespawnPool`): a pool in a pool is spawned and despawned
with all it has, so both call themselves for the pools below.

They end for every pool once the check of `PoolMgr::LoadFromDB` is over
(`spawnPool_isSome`, `despawnPool_isSome`): each call is one link further down,
and there are only so many links.
-/
import AtlasWow.Lib.Walks
import AtlasWow.Pools.PoolLoad
import AtlasWow.Pools.QuestPools

namespace AtlasWow.Pools

open Containers

/-- What a `PoolGroup` is of, quests apart. -/
inductive ObjectType where
  | creature
  | gameObject
  | pool

structure ActivePoolData where
  spawnedCreatures : OMap Nat Unit
  spawnedGameobjects : OMap Nat Unit
  quests : ActiveQuests

/-- What a run of `SpawnPool` asks for: random numbers, saved quests, and who starts a quest. -/
structure Surroundings where
  randChance : ObjectType → Nat → Rat
  resized : ObjectType → Nat → Outcomes
  recycled : Nat → Outcomes
  chosen : Nat → Outcomes
  savedQuests : Nat → List Nat
  starters : QuestStarters

namespace ActivePoolData

def getActiveObjectCount (poolId : Nat) (s : ActivePoolData) : Nat := (s.quests.spawnedPools.find? poolId).getD 0

def isActiveObject (s : ActivePoolData) : ObjectType → Nat → Bool
  | .creature, guid => guid ∈ s.spawnedCreatures.keys
  | .gameObject, guid => guid ∈ s.spawnedGameobjects.keys
  | .pool, subPoolId => subPoolId ∈ s.quests.spawnedPools.keys

/-- `++mSpawnedPools[pool_id]` -/
def countUp (poolId : Nat) (s : ActivePoolData) : ActivePoolData :=
  { s with quests.spawnedPools := s.quests.spawnedPools.insert poolId ((s.getActiveObjectCount poolId + 1) % 2 ^ 32) }

def countDown (poolId : Nat) (s : ActivePoolData) : ActivePoolData :=
  { s with quests.spawnedPools := s.quests.spawnedPools.insert poolId (s.getActiveObjectCount poolId - 1) }

def activateObject (type : ObjectType) (guid poolId : Nat) (s : ActivePoolData) : ActivePoolData :=
  match type with
  | .creature => { s with spawnedCreatures := s.spawnedCreatures.insert guid () }.countUp poolId
  | .gameObject => { s with spawnedGameobjects := s.spawnedGameobjects.insert guid () }.countUp poolId
  | .pool => { s with quests.spawnedPools := s.quests.spawnedPools.insert guid 0 }.countUp poolId

def removeObject (type : ObjectType) (guid poolId : Nat) (s : ActivePoolData) : ActivePoolData :=
  match type with
  | .creature => { s with spawnedCreatures := s.spawnedCreatures.erase guid }.countDown poolId
  | .gameObject => { s with spawnedGameobjects := s.spawnedGameobjects.erase guid }.countDown poolId
  | .pool => { s with quests.spawnedPools := s.quests.spawnedPools.erase guid }.countDown poolId

end ActivePoolData

namespace PoolGroup

/-- `Spawn1Object` and `Despawn1Object`: `none` if they do not end. -/
abbrev Action := Nat → ActivePoolData → Option ActivePoolData

/-- Without a guid, all objects go. -/
def despawnObject (despawn1Object : Action) (type : ObjectType) (group : PoolGroup) (guid : Nat) (s : ActivePoolData) :
    Option ActivePoolData :=
  group.objects.foldlM (fun s object =>
    if s.isActiveObject type object.guid && (guid = 0 || object.guid = guid) then
      (despawn1Object object.guid s).map (·.removeObject type object.guid group.poolId)
    else some s) s

/-- The first object whose chance uses up the roll, of those that may be spawned. -/
def rollExplicit (free : PoolObject → Bool) : Rat → List PoolObject → Option PoolObject
  | _, [] => none
  | roll, object :: objects =>
    let roll := roll - object.chance
    if roll < 0 && free object then some object else rollExplicit free roll objects

/-- The objects that are to be spawned. -/
def rolledObjects (group : PoolGroup) (free : PoolObject → Bool) (roll : Rat) (resized : Outcomes) (count : Nat) : List PoolObject :=
  match rollExplicit free roll group.explicitlyChanced with
  | some object => [object]
  | none => randomResize id resized (group.equalChanced.filter free) count

/-- The rolled objects are spawned; the one that triggered this is there already. -/
def spawnRolled (spawn1Object : Action) (type : ObjectType) (poolId : Nat) :
    List PoolObject → Nat → ActivePoolData → Option (Nat × ActivePoolData)
  | [], triggerFrom, s => some (triggerFrom, s)
  | object :: objects, triggerFrom, s =>
    if object.guid = triggerFrom then spawnRolled spawn1Object type poolId objects 0 s
    else
      match spawn1Object object.guid (s.activateObject type object.guid poolId) with
      | none => none
      | some s => spawnRolled spawn1Object type poolId objects triggerFrom s

/-- How many objects are to be spawned. -/
def spawnCount (group : PoolGroup) (limit : UInt32) (triggerFrom : Nat) (s : ActivePoolData) : Int :=
  let count := (limit - UInt32.ofNat (s.getActiveObjectCount group.poolId)).toInt32.toInt
  if triggerFrom ≠ 0 then count + 1 else count

def spawnObject (spawn1Object despawn1Object : Action) (e : Surroundings) (type : ObjectType) (group : PoolGroup) (limit : UInt32)
    (triggerFrom : Nat) (s : ActivePoolData) : Option ActivePoolData :=
  let count := group.spawnCount limit triggerFrom s
  let spawned :=
    if 0 < count then
      let free object := object.guid = triggerFrom || !s.isActiveObject type object.guid
      let rolled := group.rolledObjects free (e.randChance type group.poolId) (e.resized type group.poolId) count.toNat
      spawnRolled spawn1Object type group.poolId rolled triggerFrom s
    else some (triggerFrom, s)
  match spawned with
  | none => none
  | some (triggerFrom, s) =>
    -- one spawn one despawn no count increase
    if triggerFrom ≠ 0 then group.despawnObject despawn1Object type triggerFrom s else some s

end PoolGroup

namespace PoolMgr

/-- The groups of one type. -/
def groups (mgr : PoolMgr) : ObjectType → UMap Nat PoolGroup
  | .creature => mgr.poolCreatureGroups
  | .gameObject => mgr.poolGameobjectGroups
  | .pool => mgr.poolPoolGroups

/-- What is done to the group of a pool, if it has one that is not empty. -/
def withGroup {α : Type} (groups : UMap Nat PoolGroup) (poolId : Nat) (act : PoolGroup → α → Option α) (s : α) : Option α :=
  match groups.find? poolId with
  | none => some s
  | some group => if group.isEmpty then some s else act group s

/-- `DespawnPool`; `none` if the fuel runs out. -/
def despawnPool (mgr : PoolMgr) (starters : QuestStarters) : Nat → Nat → ActivePoolData → Option ActivePoolData
  | 0, _, _ => none
  | fuel + 1, poolId, s => do
    let s ← withGroup mgr.poolCreatureGroups poolId (·.despawnObject (fun _ => some) .creature 0) s
    let s ← withGroup mgr.poolGameobjectGroups poolId (·.despawnObject (fun _ => some) .gameObject 0) s
    let s ← withGroup mgr.poolPoolGroups poolId (·.despawnObject (mgr.despawnPool starters fuel) .pool 0) s
    withGroup mgr.poolQuestGroups poolId (fun group s => some { s with quests := s.quests.despawnObject starters group 0 }) s

/-- The limit of a pool. -/
def maxLimit (mgr : PoolMgr) (poolId : Nat) : UInt32 := (mgr.poolTemplate.find? poolId).getD 0

/-- `SpawnPool`; `none` if the fuel runs out. -/
def spawnPool (mgr : PoolMgr) (e : Surroundings) : Nat → Nat → ActivePoolData → Option ActivePoolData
  | 0, _, _ => none
  | fuel + 1, poolId, s => do
    let limit := mgr.maxLimit poolId
    let s ← withGroup mgr.poolPoolGroups poolId
      (·.spawnObject (mgr.spawnPool e fuel) (mgr.despawnPool e.starters fuel) e .pool limit 0) s
    let s ← withGroup mgr.poolGameobjectGroups poolId (·.spawnObject (fun _ => some) (fun _ => some) e .gameObject limit 0) s
    let s ← withGroup mgr.poolCreatureGroups poolId (·.spawnObject (fun _ => some) (fun _ => some) e .creature limit 0) s
    withGroup mgr.poolQuestGroups poolId (fun group s =>
      some { s with quests := (s.quests.spawnObject e.starters (e.recycled poolId) (e.chosen poolId) group limit (e.savedQuests poolId) 0).2 }) s

end PoolMgr

/-! ## They end -/

theorem bind_isSome {α β : Type} {x : Option α} {f : α → Option β} (hx : x.isSome) (hf : ∀ a, (f a).isSome) : (x >>= f).isSome := by
  obtain ⟨a, rfl⟩ := Option.isSome_iff_exists.1 hx
  exact hf a

namespace PoolGroup

variable {spawn1Object despawn1Object : Action} {group : PoolGroup} {free : PoolObject → Bool}
  {objects : List PoolObject} {object : PoolObject}

theorem despawnObject_isSome (h : ∀ guid ∈ group.guids, ∀ s, (despawn1Object guid s).isSome) (type : ObjectType) (guid : Nat)
    (s : ActivePoolData) : (group.despawnObject despawn1Object type guid s).isSome := by
  rw [despawnObject]
  rw [guids] at h
  generalize group.objects = objects at h ⊢
  induction objects generalizing s with
  | nil => rfl
  | cons object objects ih =>
    rw [List.map_cons, List.forall_mem_cons] at h
    rw [List.foldlM_cons]
    split
    next =>
      obtain ⟨s', hs'⟩ := Option.isSome_iff_exists.1 (h.1 s)
      rw [hs']
      exact ih _ h.2
    next => exact ih s h.2

theorem rollExplicit_mem : ∀ {roll : Rat}, rollExplicit free roll objects = some object → object ∈ objects := by
  induction objects with
  | nil => exact fun h => (nomatch h)
  | cons object' objects ih =>
    intro roll h
    rw [rollExplicit] at h
    split at h
    next => exact Option.some.inj h ▸ List.mem_cons_self
    next => exact List.mem_cons_of_mem _ (ih h)

theorem mem_rolledObjects {roll : Rat} {resized : Outcomes} {count : Nat}
    (h : object ∈ group.rolledObjects free roll resized count) : object.guid ∈ group.guids := by
  rw [guids, objects]
  refine List.mem_map_of_mem (List.mem_append.2 ?_)
  rw [rolledObjects] at h
  split at h
  next hroll => exact .inr (List.mem_singleton.1 h ▸ rollExplicit_mem hroll)
  next => exact .inl (List.mem_of_mem_filter ((randomResize_sublist _ _).subset h))

theorem spawnRolled_isSome (h : ∀ object ∈ objects, ∀ s, (spawn1Object object.guid s).isSome)
    (type : ObjectType) (poolId : Nat) (triggerFrom : Nat) (s : ActivePoolData) :
    (spawnRolled spawn1Object type poolId objects triggerFrom s).isSome := by
  induction objects generalizing triggerFrom s with
  | nil => rfl
  | cons object objects ih =>
    rw [List.forall_mem_cons] at h
    rw [spawnRolled]
    split
    next => exact ih h.2 _ _
    next =>
    obtain ⟨s', hs'⟩ := Option.isSome_iff_exists.1 (h.1 (s.activateObject type object.guid poolId))
    rw [hs']
    exact ih h.2 _ _

theorem spawnObject_isSome (hspawn : ∀ guid ∈ group.guids, ∀ s, (spawn1Object guid s).isSome)
    (hdespawn : ∀ guid ∈ group.guids, ∀ s, (despawn1Object guid s).isSome) (e : Surroundings) (type : ObjectType) (limit : UInt32)
    (triggerFrom : Nat) (s : ActivePoolData) :
    (group.spawnObject spawn1Object despawn1Object e type limit triggerFrom s).isSome := by
  rw [spawnObject]
  generalize hspawned : (if 0 < group.spawnCount limit triggerFrom s then _ else _ : Option (Nat × ActivePoolData)) = spawned
  have hsome : spawned.isSome := by
    rw [← hspawned]
    split
    next => exact spawnRolled_isSome (fun object hobject => hspawn _ (mem_rolledObjects hobject)) _ _ _ _
    next => rfl
  obtain ⟨⟨triggerFrom', s'⟩, rfl⟩ := Option.isSome_iff_exists.1 hsome
  simp only
  split
  next => exact despawnObject_isSome hdespawn _ _ _
  next => rfl

end PoolGroup

namespace PoolMgr

variable {mgr : PoolMgr} {poolId : Nat}

theorem withGroup_isSome {α : Type} {groups : UMap Nat PoolGroup} {act : PoolGroup → α → Option α} {s : α}
    (h : ∀ group, groups.find? poolId = some group → (act group s).isSome) : (withGroup groups poolId act s).isSome := by
  rw [withGroup]
  split
  next => rfl
  next group hfind =>
  split
  next => rfl
  next => exact h group hfind

/-- What is in the group of a pool has the pool as its mother. -/
theorem Linked.mother_of_group (h : Linked mgr) {guid : Nat} {group : PoolGroup}
    (hfind : mgr.poolPoolGroups.find? poolId = some group) (hguid : guid ∈ group.guids) : mgr.mother guid = some poolId := by
  refine (h.groups _ _).1 ?_
  rwa [children, hfind]

/-- `c` is a child of `m`. -/
def Below (mgr : PoolMgr) (m c : Nat) : Prop := mgr.mother c = some m

theorem acyclic_below (hnone : ∀ p, ¬Links.OnCycle mgr.mother p) : Walks.Acyclic (Below mgr) := fun p hp =>
  hnone p (Relation.transGen_swap.1 hp)

/-- The pools on the way down are linked, so there are not more of them than links. -/
theorem length_below {below : List Nat} (h : Walks.Walk (Below mgr) poolId below) :
    below.length ≤ mgr.poolSearchMap.size := by
  rw [← OMap.length_keys]
  exact h.length_le fun c m hm => OMap.mem_keys.2 ⟨m, hm⟩

theorem despawnPool_isSome (h : Linked mgr) (hnone : ∀ p, ¬Links.OnCycle mgr.mother p) (starters : QuestStarters) :
    ∀ {fuel poolId : Nat} {below : List Nat} (s : ActivePoolData), Walks.Walk (Below mgr) poolId below →
      mgr.poolSearchMap.size < fuel + below.length → (mgr.despawnPool starters fuel poolId s).isSome := by
  intro fuel
  induction fuel with
  | zero =>
    intro poolId below s hwalk hfuel
    have hle := length_below hwalk
    omega
  | succ fuel ih =>
    intro poolId below s hwalk hfuel
    rw [despawnPool]
    refine bind_isSome (withGroup_isSome fun group _ => group.despawnObject_isSome (fun _ _ _ => rfl) _ _ _) fun s => ?_
    refine bind_isSome (withGroup_isSome fun group _ => group.despawnObject_isSome (fun _ _ _ => rfl) _ _ _) fun s => ?_
    refine bind_isSome (withGroup_isSome fun group hfind => ?_) fun s => withGroup_isSome fun group _ => rfl
    refine group.despawnObject_isSome (fun guid hguid s => ih s (hwalk.cons (acyclic_below hnone) (h.mother_of_group hfind hguid)) ?_) _ _ _
    rw [List.length_cons]
    omega

theorem spawnPool_isSome (h : Linked mgr) (hnone : ∀ p, ¬Links.OnCycle mgr.mother p) (e : Surroundings) :
    ∀ {fuel poolId : Nat} {below : List Nat} (s : ActivePoolData), Walks.Walk (Below mgr) poolId below →
      mgr.poolSearchMap.size < fuel + below.length → (mgr.spawnPool e fuel poolId s).isSome := by
  intro fuel
  induction fuel with
  | zero =>
    intro poolId below s hwalk hfuel
    have hle := length_below hwalk
    omega
  | succ fuel ih =>
    intro poolId below s hwalk hfuel
    rw [spawnPool]
    refine bind_isSome (withGroup_isSome fun group hfind => ?_) fun s => ?_
    · have hbelow : ∀ guid ∈ group.guids, Walks.Walk (Below mgr) guid (guid :: below) ∧
          mgr.poolSearchMap.size < fuel + (guid :: below).length := fun guid hguid => by
        refine ⟨hwalk.cons (acyclic_below hnone) (h.mother_of_group hfind hguid), ?_⟩
        rw [List.length_cons]
        omega
      exact group.spawnObject_isSome (fun guid hguid s => ih s (hbelow guid hguid).1 (hbelow guid hguid).2)
        (fun guid hguid s => despawnPool_isSome h hnone _ s (hbelow guid hguid).1 (hbelow guid hguid).2) _ _ _ _ _
    refine bind_isSome (withGroup_isSome fun group _ => ?_) fun s => ?_
    · exact group.spawnObject_isSome (fun _ _ _ => rfl) (fun _ _ _ => rfl) _ _ _ _ _
    refine bind_isSome (withGroup_isSome fun group _ => ?_) fun s => withGroup_isSome fun group _ => rfl
    exact group.spawnObject_isSome (fun _ _ _ => rfl) (fun _ _ _ => rfl) _ _ _ _ _

/-- Loading the pools in pools: the check ends, leaves no cycle, having removed one link of each cycle and no other, and keeps the
groups as the search map has them; so spawning and despawning any pool ends. -/
theorem loadPools_check (pl : Placement Nat PoolGroup) {mgr : PoolMgr} (hgroups : mgr.poolPoolGroups = .empty)
    (hsearch : mgr.poolSearchMap = .empty) {rows : List PoolRow} (hrows : (rows.map (·.poolId)).Nodup) {fuel : Nat}
    (hfuel : rows.length < fuel) :
    (∀ c m, (mgr.loadPools pl rows).mother c = some m ↔
        ∃ row ∈ rows, mgr.Accepts row ∧ row.poolId = c ∧ row.motherPool = m) ∧
      ∃ checked, (mgr.loadPools pl rows).check pl fuel = some checked ∧
        (∀ p, ¬Links.OnCycle checked.mother p) ∧
        (∀ p, Links.OnCycle (mgr.loadPools pl rows).mother p →
          ∃! c, Links.Reach (mgr.loadPools pl rows).mother p c ∧ checked.mother c = none) ∧
        (∀ c, checked.mother c = (mgr.loadPools pl rows).mother c ∨
          checked.mother c = none ∧ Links.OnCycle (mgr.loadPools pl rows).mother c) ∧
        (∀ m c, c ∈ checked.children m ↔ checked.mother c = some m) ∧
        ∀ e poolId s, (checked.spawnPool e fuel poolId s).isSome ∧ (checked.despawnPool e.starters fuel poolId s).isSome := by
  have hnew : ∀ c, mgr.mother c = none := fun c => by
    rw [mother, hsearch]
    rfl
  have hlinked : Linked mgr := by
    refine ⟨fun m => ?_, fun m c => ?_, fun c hc => ?_⟩
    · rw [children, hgroups]
      exact .nil
    · rw [children, hgroups, hnew]
      simp [PoolGroup.empty, PoolGroup.guids, PoolGroup.objects]
    · rw [hnew] at hc
      exact absurd hc Bool.false_ne_true
  obtain ⟨hloaded, _, hsize, hmother⟩ := hlinked.loadPools pl hrows fun row _ => hnew row.poolId
  have hbound : (mgr.loadPools pl rows).poolSearchMap.size < fuel := by
    rw [hsearch] at hsize
    exact (hsize.trans (Nat.zero_add _).le).trans_lt hfuel
  obtain ⟨checked, hcheck, hchecked, hle, hbreaks, hnone⟩ := check_spec pl hloaded hbound
  refine ⟨fun c m => ?_, checked, hcheck, hnone, fun p hp => hbreaks.existsUnique hnone hp, hbreaks.cut, hchecked.groups, ?_⟩
  · rw [hmother, hnew, or_iff_right (Option.some_ne_none m).symm]
  · intro e poolId s
    have hfuel' : checked.poolSearchMap.size < fuel + ([] : List Nat).length := hle.trans_lt hbound
    exact ⟨spawnPool_isSome hchecked hnone e s (.nil poolId) hfuel',
      despawnPool_isSome hchecked hnone e.starters s (.nil poolId) hfuel'⟩

/-- Two pools that are the mother of each other, and one below them. -/
def circularRows : List PoolRow := [⟨1, 2, 0⟩, ⟨2, 1, 0⟩, ⟨3, 1, 0⟩]

/-- Three pools without limits, before the pools in pools are loaded. -/
def threePools : PoolMgr :=
  ⟨⟨[(1, 0), (2, 0), (3, 0)], by decide⟩, .empty, .empty, .empty, .empty, .empty⟩

theorem loadPools_check_circular : ∃ checked, (threePools.loadPools (.front _ _) circularRows).check (.front _ _) 4 = some checked ∧
    ∀ p, ¬Links.OnCycle checked.mother p := by
  have hrows : (circularRows.map (·.poolId)).Nodup := by decide
  have hgroups : threePools.poolPoolGroups = .empty := rfl
  have hsearch : threePools.poolSearchMap = .empty := rfl
  have hfuel : circularRows.length < 4 := by decide
  obtain ⟨_, checked, hcheck, hnone, _⟩ := loadPools_check (.front _ _) hgroups hsearch hrows hfuel
  exact ⟨checked, hcheck, hnone⟩

end PoolMgr

end AtlasWow.Pools
