/-
Pools of quests (`PoolGroup<Quest>` in `PoolMgr.cpp`): of each pool so many
daily or weekly quests are active at a time, and when the pool changes others
are taken, as far as there are any.

What is recycled when there are too few others is chosen among all the active
quests, not only the pool's own (`recycle`). A pool changes as it should for
every random choice exactly if it never recycles a foreign quest, and has a
limit (`spawnObject_changed_iff`).
-/
import AtlasWow.Lib.OrderedMap
import AtlasWow.Lib.OrderedMultimap
import AtlasWow.Pools.PoolGroup
import AtlasWow.Utilities.Containers

namespace AtlasWow.Pools

open Containers

/-- `mQuestCreatureRelation` and `mQuestGORelation`: who starts a pooled quest. -/
structure QuestStarters where
  creatures : OMultimap Nat Nat
  gameObjects : OMultimap Nat Nat

/-- The quests of `ActivePoolData`, and the relation maps of `ObjectMgr`. -/
structure ActiveQuests where
  activeQuests : OMap Nat Unit
  spawnedPools : OMap Nat Nat
  creatureQuests : OMultimap Nat Nat
  gameObjectQuests : OMultimap Nat Nat

/-- A group as the table `pool_quest` fills it. -/
def questGroup (poolId : Nat) (maxLimit : UInt32) (quests : List Nat) : PoolGroup :=
  quests.foldl (fun g questId => g.addEntry ⟨questId, 0⟩ maxLimit) (.empty poolId)

namespace ActiveQuests

def isActiveObject (s : ActiveQuests) (questId : Nat) : Bool := questId ∈ s.activeQuests.keys

def activateObject (questId poolId : Nat) (s : ActiveQuests) : ActiveQuests :=
  { s with
    activeQuests := s.activeQuests.insert questId ()
    spawnedPools := s.spawnedPools.insert poolId (((s.spawnedPools.find? poolId).getD 0 + 1) % 2 ^ 32) }

def removeObject (questId poolId : Nat) (s : ActiveQuests) : ActiveQuests :=
  { s with
    activeQuests := s.activeQuests.erase questId
    spawnedPools := s.spawnedPools.insert poolId ((s.spawnedPools.find? poolId).getD 0 - 1) }

variable (starters : QuestStarters)

/-- `Spawn1Object`. -/
def spawn1Object (questId : Nat) (s : ActiveQuests) : ActiveQuests :=
  { s with
    creatureQuests := (starters.creatures.valuesAt questId).foldl (fun m npc => m.insert npc questId) s.creatureQuests
    gameObjectQuests := (starters.gameObjects.valuesAt questId).foldl (fun m npc => m.insert npc questId) s.gameObjectQuests }

/-- `Despawn1Object`: one relation for each that starts the quest. -/
def despawn1Object (questId : Nat) (s : ActiveQuests) : ActiveQuests :=
  let remove (m : OMultimap Nat Nat) (npc : Nat) := m.eraseFirst fun k v => k = npc && v = questId
  { s with
    creatureQuests := (starters.creatures.valuesAt questId).foldl remove s.creatureQuests
    gameObjectQuests := (starters.gameObjects.valuesAt questId).foldl remove s.gameObjectQuests }

/-- A quest is activated for a pool, and can be started. -/
def startQuest (poolId questId : Nat) (s : ActiveQuests) : ActiveQuests :=
  (s.activateObject questId poolId).spawn1Object starters questId

/-- `DespawnObject`; without a guid, all objects go. -/
def despawnObject (group : PoolGroup) (guid : Nat) (s : ActiveQuests) : ActiveQuests :=
  group.objects.foldl (fun s object =>
    if s.isActiveObject object.guid && (guid = 0 || object.guid = guid) then
      (s.despawn1Object starters object.guid).removeObject object.guid group.poolId
    else s) s

/-- The saved quests that are activated, and the state with them; the limit may wrap around. -/
def spawnSaved (poolId : Nat) : UInt32 → List Nat → ActiveQuests → List Nat × ActiveQuests
  | _, [], s => ([], s)
  | limit, questId :: rows, s =>
    let s := s.startQuest starters poolId questId
    if limit - 1 = 0 then ([questId], s)
    else
      let (activated, s) := spawnSaved poolId (limit - 1) rows s
      (questId :: activated, s)

/-- Quests of the group that are not active. -/
def newQuests (group : PoolGroup) (s : ActiveQuests) : OMap Nat Unit :=
  group.equalChanced.foldl (fun new object => if s.isActiveObject object.guid then new else new.insert object.guid ()) .empty

/-- Active quests are recycled, of any pool; by how many are left. -/
def recycle (random : Outcomes) (limit : UInt32) : Nat → OMap Nat Unit → OMap Nat Unit → OMap Nat Unit
  | 0, newQuests, _ => newQuests
  | n + 1, newQuests, currentQuests =>
    match selectRandomContainerElement (random n) currentQuests.keys with
    | none => newQuests
    | some questId =>
      let newQuests := newQuests.insert questId ()
      let currentQuests := currentQuests.erase questId
      if newQuests.size < limit.toNat && !currentQuests.isEmpty then recycle random limit n newQuests currentQuests
      else newQuests

/-- Random quests are activated, by how many there are: which, and the state with them. -/
def activateRandom (random : Outcomes) (poolId : Nat) : Nat → UInt32 → OMap Nat Unit → ActiveQuests → List Nat × ActiveQuests
  | 0, _, _, s => ([], s)
  | n + 1, limit, newQuests, s =>
    match selectRandomContainerElement (random n) newQuests.keys with
    | none => ([], s)
    | some questId =>
      let s := s.startQuest starters poolId questId
      let newQuests := newQuests.erase questId
      if limit - 1 = 0 || newQuests.isEmpty then ([questId], s)
      else
        let (activated, s) := activateRandom random poolId n (limit - 1) newQuests s
        (questId :: activated, s)

/-- `SpawnObject`, with the rows of `pool_quest_save` for the pool: the quests it activates, and the state after it. -/
def spawnObject (recycled chosen : Outcomes) (group : PoolGroup) (limit : UInt32) (saved : List Nat) (triggerFrom : Nat)
    (s : ActiveQuests) : List Nat × ActiveQuests :=
  if triggerFrom = 0 && !saved.isEmpty then s.spawnSaved starters group.poolId limit saved
  else
    let currentQuests := s.activeQuests
    let newQuests := s.newQuests group
    -- clear the pool
    let s := s.despawnObject starters group 0
    let newQuests :=
      if newQuests.size < limit.toNat && !currentQuests.isEmpty then
        recycle recycled limit currentQuests.size newQuests currentQuests
      else newQuests
    if newQuests.isEmpty then ([], s)
    else s.activateRandom starters chosen group.poolId newQuests.size limit newQuests

/-! ## What each part of the change does -/

theorem questGroup_eq (poolId : Nat) (maxLimit : UInt32) (quests : List Nat) :
    questGroup poolId maxLimit quests = ⟨poolId, [], quests.map (⟨·, 0⟩)⟩ := by
  suffices h : ∀ l, quests.foldl (fun g questId => g.addEntry ⟨questId, 0⟩ maxLimit) (⟨poolId, [], l⟩ : PoolGroup) =
      ⟨poolId, [], l ++ quests.map (⟨·, 0⟩)⟩ from h []
  induction quests with
  | nil => intro l; simp
  | cons questId quests ih =>
    intro l
    rw [List.foldl_cons, PoolGroup.addEntry, if_neg (by simp), ih]
    simp

@[simp] theorem guids_questGroup (poolId : Nat) (maxLimit : UInt32) (quests : List Nat) :
    (questGroup poolId maxLimit quests).guids = quests := by
  rw [questGroup_eq, PoolGroup.guids, PoolGroup.objects, List.append_nil, List.map_map]
  exact List.map_id quests

/-- How many quests a loop can take that counts the limit down before it compares it with zero. -/
def rounds (limit : UInt32) : Nat := (limit - 1).toNat + 1

theorem rounds_one {limit : UInt32} (h : limit - 1 = 0) : rounds limit = 1 := by
  rw [rounds, h]
  rfl

theorem rounds_eq {limit : UInt32} (h : limit ≠ 0) : rounds limit = limit.toNat := by
  have hpos : 1 ≤ limit.toNat := Nat.one_le_iff_ne_zero.2 fun h0 => h (UInt32.toNat_inj.1 h0)
  have hle : (1 : UInt32) ≤ limit := UInt32.le_iff_toNat_le.2 hpos
  rw [rounds, UInt32.toNat_sub_of_le _ _ hle]
  exact Nat.sub_add_cancel hpos

theorem rounds_succ {limit : UInt32} (h : limit - 1 ≠ 0) : rounds limit = rounds (limit - 1) + 1 := by
  rw [rounds_eq h, rounds]

variable {starters : QuestStarters} {group : PoolGroup} {s : ActiveQuests} {q : Nat}

@[simp] theorem activeQuests_spawn1Object (questId : Nat) (s : ActiveQuests) :
    (s.spawn1Object starters questId).activeQuests = s.activeQuests := rfl

@[simp] theorem activeQuests_despawn1Object (questId : Nat) (s : ActiveQuests) :
    (s.despawn1Object starters questId).activeQuests = s.activeQuests := rfl

theorem active_startQuest {poolId questId : Nat} :
    q ∈ (s.startQuest starters poolId questId).activeQuests.keys ↔ q = questId ∨ q ∈ s.activeQuests.keys :=
  OMap.mem_keys_insert

/-- All active quests of the group go, and no other. -/
theorem active_despawnObject (starters : QuestStarters) (group : PoolGroup) (s : ActiveQuests) (q : Nat) :
    q ∈ (s.despawnObject starters group 0).activeQuests.keys ↔ q ∈ s.activeQuests.keys ∧ q ∉ group.guids := by
  rw [despawnObject, PoolGroup.guids]
  generalize group.objects = objects
  induction objects generalizing s with
  | nil => simp
  | cons object objects ih =>
    rw [List.foldl_cons, ih, List.map_cons, List.mem_cons, not_or, ← and_assoc]
    refine and_congr_left fun _ => ?_
    simp only [isActiveObject, decide_true, Bool.true_or, Bool.and_true]
    split
    next hactive => rw [removeObject, activeQuests_despawn1Object, OMap.mem_keys_erase, and_comm]
    next hidle =>
    rw [decide_eq_true_iff] at hidle
    exact ⟨fun hq => ⟨hq, fun he => hidle (he ▸ hq)⟩, And.left⟩

theorem mem_newQuests : q ∈ (s.newQuests group).keys ↔ q ∈ group.equalChanced.map (·.guid) ∧ q ∉ s.activeQuests.keys := by
  suffices h : ∀ (objects : List PoolObject) (new : OMap Nat Unit),
      q ∈ (objects.foldl (fun new object =>
        if s.isActiveObject object.guid then new else new.insert object.guid ()) new).keys ↔
        (q ∈ objects.map (·.guid) ∧ q ∉ s.activeQuests.keys) ∨ q ∈ new.keys by
    refine (h _ _).trans (or_iff_left ?_)
    exact List.not_mem_nil
  intro objects
  induction objects with
  | nil => simp
  | cons object objects ih =>
    intro new
    rw [List.foldl_cons, ih, List.map_cons, List.mem_cons, isActiveObject]
    split
    next hactive =>
      rw [decide_eq_true_iff] at hactive
      refine or_congr_left (and_congr_left fun hq => ?_)
      rw [or_iff_right]
      exact fun he => hq (he ▸ hactive)
    next hidle =>
    rw [decide_eq_true_iff] at hidle
    rw [OMap.mem_keys_insert]
    by_cases he : q = object.guid
    · simp [he, hidle]
    · simp [he]

theorem spawnSaved_fst (starters : QuestStarters) (poolId : Nat) (limit : UInt32) (rows : List Nat) (s : ActiveQuests) :
    (s.spawnSaved starters poolId limit rows).1 = rows.take (rounds limit) := by
  induction rows generalizing limit s with
  | nil => rw [spawnSaved, List.take_nil]
  | cons questId rows ih =>
    rw [spawnSaved]
    split
    next hlast => rw [rounds_one hlast, List.take_succ_cons, List.take_zero]
    next hmore => rw [rounds_succ hmore, List.take_succ_cons, ← ih]

theorem active_spawnSaved (poolId : Nat) (limit : UInt32) (rows : List Nat) (s : ActiveQuests) :
    q ∈ (s.spawnSaved starters poolId limit rows).2.activeQuests.keys ↔
      q ∈ (s.spawnSaved starters poolId limit rows).1 ∨ q ∈ s.activeQuests.keys := by
  induction rows generalizing limit s with
  | nil => simp [spawnSaved]
  | cons questId rows ih =>
    rw [spawnSaved]
    split
    next => rw [active_startQuest, List.mem_singleton]
    next => rw [ih, active_startQuest, List.mem_cons, or_left_comm, or_assoc]

/-- New quests stay, whatever is recycled. -/
theorem recycle_new (random : Outcomes) (limit : UInt32) : ∀ (n : Nat) {newQuests : OMap Nat Unit} (currentQuests : OMap Nat Unit),
    q ∈ newQuests.keys → q ∈ (recycle random limit n newQuests currentQuests).keys := by
  intro n
  induction n with
  | zero => exact fun _ h => h
  | succ n ih =>
    intro newQuests currentQuests hq
    rw [recycle]
    split
    next => exact hq
    next questId _ =>
    have hq' : q ∈ (newQuests.insert questId ()).keys := OMap.mem_keys_insert.2 (.inr hq)
    simp only
    split
    · exact ih _ hq'
    · exact hq'

/-- What comes out of recycling: beside the new quests as many of the current ones as there is room for. -/
structure Recycled (limit : UInt32) (newQuests currentQuests quests : OMap Nat Unit) : Prop where
  known : ∀ q ∈ quests.keys, q ∈ newQuests.keys ∨ q ∈ currentQuests.keys
  size : quests.size = min limit.toNat (newQuests.size + currentQuests.size)

theorem recycle_spec (random : Outcomes) {limit : UInt32} : ∀ {n : Nat} (newQuests currentQuests : OMap Nat Unit),
    currentQuests.size = n → n ≠ 0 → newQuests.size < limit.toNat → (∀ q ∈ currentQuests.keys, q ∉ newQuests.keys) →
    Recycled limit newQuests currentQuests (recycle random limit n newQuests currentQuests) := by
  intro n
  induction n with
  | zero => exact fun _ _ _ h => absurd rfl h
  | succ n ih =>
    intro newQuests currentQuests hsize _ hroom hapart
    have hne : currentQuests.keys ≠ [] := by
      rw [← List.length_pos_iff, OMap.length_keys, hsize]
      exact Nat.succ_pos n
    obtain ⟨questId, hmem, hselect⟩ := select_mem hne (random n)
    have hnew := OMap.size_insert_of_notMem (hapart questId hmem) ()
    have herase := OMap.size_erase hmem
    rw [recycle, hselect]
    simp only [Bool.and_eq_true, decide_eq_true_iff, Bool.not_eq_true']
    split
    next hmore =>
      have hn : n ≠ 0 := by
        rintro rfl
        have hnil : (currentQuests.erase questId).isEmpty = true := by
          rw [OMap.isEmpty_iff, ← List.length_eq_zero_iff, OMap.length_keys]
          omega
        exact Bool.false_ne_true (hmore.2.symm.trans hnil)
      have hrest := ih _ _ (Nat.succ_injective (herase.trans hsize)) hn hmore.1 fun q hq hq' => by
        obtain ⟨hother, hq⟩ := OMap.mem_keys_erase.1 hq
        exact (OMap.mem_keys_insert.1 hq').elim hother (hapart q hq)
      refine ⟨fun q hq => ?_, ?_⟩
      · rcases hrest.known q hq with h | h
        · rcases OMap.mem_keys_insert.1 h with h | h
          · exact .inr (h ▸ hmem)
          · exact .inl h
        · exact .inr (OMap.mem_keys_erase.1 h).2
      · rw [hrest.size]
        omega
    next hlast =>
    refine ⟨fun q hq => ?_, ?_⟩
    · rcases OMap.mem_keys_insert.1 hq with h | h
      · exact .inr (h ▸ hmem)
      · exact .inl h
    · have hend : newQuests.size + 1 = limit.toNat ∨ n = 0 := by
        by_contra hcon
        refine hlast ⟨by omega, ?_⟩
        rw [Bool.eq_false_iff, Ne, OMap.isEmpty_iff, ← List.length_eq_zero_iff, OMap.length_keys]
        omega
      omega

/-- Any current quest may be the first one that is recycled. -/
theorem exists_recycle (limit : UInt32) (newQuests : OMap Nat Unit) {currentQuests : OMap Nat Unit}
    (hq : q ∈ currentQuests.keys) :
    ∃ random, q ∈ (recycle random limit currentQuests.size newQuests currentQuests).keys := by
  obtain ⟨r, hselect⟩ := exists_select hq
  refine ⟨fun _ => r, ?_⟩
  rw [← OMap.size_erase hq, recycle, hselect]
  have hq' : q ∈ (newQuests.insert q ()).keys := OMap.mem_keys_insert.2 (.inl rfl)
  simp only
  split
  · exact recycle_new _ _ _ _ hq'
  · exact hq'

/-- What is activated of the new quests: as many as the limit lets the loop take. -/
structure Activated (limit : UInt32) (newQuests : OMap Nat Unit) (s : ActiveQuests) (r : List Nat × ActiveQuests) : Prop where
  nodup : r.1.Nodup
  known : ∀ q ∈ r.1, q ∈ newQuests.keys
  length : r.1.length = min (rounds limit) newQuests.size
  active : ∀ q, q ∈ r.2.activeQuests.keys ↔ q ∈ r.1 ∨ q ∈ s.activeQuests.keys

theorem activateRandom_spec (random : Outcomes) (poolId : Nat) : ∀ {n : Nat} (limit : UInt32) {newQuests : OMap Nat Unit}
    (s : ActiveQuests), newQuests.size = n →
    Activated limit newQuests s (s.activateRandom starters random poolId n limit newQuests) := by
  intro n
  induction n with
  | zero =>
    intro limit newQuests s hsize
    refine ⟨.nil, fun q hq => (nomatch hq), ?_, fun q => ?_⟩
    · rw [hsize]
      rfl
    · simp [activateRandom]
  | succ n ih =>
    intro limit newQuests s hsize
    have hne : newQuests.keys ≠ [] := by
      rw [← List.length_pos_iff, OMap.length_keys, hsize]
      exact Nat.succ_pos n
    obtain ⟨questId, hmem, hselect⟩ := select_mem hne (random n)
    have herase := OMap.size_erase hmem
    rw [activateRandom, hselect]
    simp only [Bool.or_eq_true, decide_eq_true_iff]
    split
    next hlast =>
      refine ⟨List.nodup_singleton _, fun q hq => List.mem_singleton.1 hq ▸ hmem, ?_, fun q => ?_⟩
      · rcases hlast with h | h
        · rw [rounds_one h, List.length_singleton]
          omega
        · rw [OMap.isEmpty_iff, ← List.length_eq_zero_iff, OMap.length_keys] at h
          rw [rounds, List.length_singleton]
          omega
      · rw [active_startQuest, List.mem_singleton]
    next hmore =>
    have hrest := ih (limit - 1) (s.startQuest starters poolId questId)
      (Nat.succ_injective (herase.trans hsize))
    refine ⟨List.nodup_cons.2 ⟨fun h => (OMap.mem_keys_erase.1 (hrest.known _ h)).1 rfl, hrest.nodup⟩, ?_, ?_, fun q => ?_⟩
    · rw [List.forall_mem_cons]
      exact ⟨hmem, fun q hq => (OMap.mem_keys_erase.1 (hrest.known q hq)).2⟩
    · rw [List.length_cons, hrest.length, rounds_succ fun h => hmore (.inl h)]
      omega
    · rw [hrest.active, active_startQuest, List.mem_cons, or_left_comm, or_assoc]

/-! ## The whole change -/

/-- A pool was changed as its limit says: so many of its own quests were activated, all others of it are not active, and those
of other pools are as they were. -/
structure Changed (group : PoolGroup) (limit : UInt32) (s : ActiveQuests) (r : List Nat × ActiveQuests) : Prop where
  nodup : r.1.Nodup
  members : ∀ q ∈ r.1, q ∈ group.guids
  exact : r.1.length = min limit.toNat group.guids.length
  active : ∀ q, q ∈ r.2.activeQuests.keys ↔ q ∈ r.1 ∨ q ∈ s.activeQuests.keys ∧ q ∉ group.guids

/-- The quests of a pool that are not active. -/
def idle (quests : List Nat) (s : ActiveQuests) : List Nat := quests.filter fun q => q ∉ s.activeQuests.keys

/-- The quests that are chosen from. -/
def available (recycled : Outcomes) (group : PoolGroup) (limit : UInt32) (s : ActiveQuests) : OMap Nat Unit :=
  if (s.newQuests group).size < limit.toNat && !s.activeQuests.isEmpty then
    recycle recycled limit s.activeQuests.size (s.newQuests group) s.activeQuests
  else s.newQuests group

variable {limit : UInt32} {saved : List Nat} {triggerFrom poolId : Nat} {quests : List Nat} {recycled chosen : Outcomes}

theorem spawnObject_saved (h : triggerFrom = 0 ∧ saved ≠ []) :
    s.spawnObject starters recycled chosen group limit saved triggerFrom = s.spawnSaved starters group.poolId limit saved := by
  rw [spawnObject, if_pos]
  simpa using h

theorem spawnObject_activated (starters : QuestStarters) (group : PoolGroup) (limit : UInt32) (s : ActiveQuests)
    (recycled chosen : Outcomes) (h : ¬(triggerFrom = 0 ∧ saved ≠ [])) :
    Activated limit (available recycled group limit s) (s.despawnObject starters group 0)
      (s.spawnObject starters recycled chosen group limit saved triggerFrom) := by
  rw [spawnObject, if_neg (by simpa using h)]
  simp only
  change Activated _ _ _ (if (available recycled group limit s).isEmpty then _ else
    activateRandom starters chosen group.poolId (available recycled group limit s).size limit (available recycled group limit s) _)
  split
  next hnone =>
    rw [OMap.isEmpty_iff, ← List.length_eq_zero_iff, OMap.length_keys] at hnone
    refine ⟨.nil, fun q hq => (nomatch hq), ?_, fun q => ?_⟩
    · rw [hnone, Nat.min_zero]
      rfl
    · simp
  next => exact activateRandom_spec _ _ _ _ rfl

/-- What was activated is a change of the pool if it is of the pool, and enough. -/
theorem Activated.changed_iff {available : OMap Nat Unit} {r : List Nat × ActiveQuests}
    (h : Activated limit available (s.despawnObject starters group 0) r) :
    Changed group limit s r ↔ (∀ q ∈ r.1, q ∈ group.guids) ∧
      min (rounds limit) available.size = min limit.toNat group.guids.length := by
  constructor
  · exact fun hc => ⟨hc.members, h.length.symm.trans hc.exact⟩
  · rintro ⟨hmembers, hlength⟩
    exact ⟨h.nodup, hmembers, h.length.trans hlength, fun q => (h.active q).trans (or_congr_right (active_despawnObject ..))⟩

theorem mem_new (q : Nat) :
    q ∈ (s.newQuests (questGroup poolId limit quests)).keys ↔ q ∈ quests ∧ q ∉ s.activeQuests.keys := by
  rw [mem_newQuests, questGroup_eq]
  simp

theorem size_new (hquests : quests.Nodup) : (s.newQuests (questGroup poolId limit quests)).size = (s.idle quests).length := by
  rw [← OMap.length_keys]
  refine List.Perm.length_eq ((List.perm_ext_iff_of_nodup (OMap.nodup_keys _) (hquests.filter _)).2 fun q => ?_)
  rw [mem_new, List.mem_filter, decide_eq_true_iff]

/-- If all active quests are of the pool, its quests are those and the idle ones. -/
theorem size_idle_active (hquests : quests.Nodup) (hown : ∀ q ∈ s.activeQuests.keys, q ∈ quests) :
    (s.idle quests).length + s.activeQuests.size = quests.length := by
  have hactive : s.activeQuests.keys.Perm (quests.filter fun q => q ∈ s.activeQuests.keys) :=
    (List.perm_ext_iff_of_nodup (OMap.nodup_keys _) (hquests.filter _)).2 fun q => by
      rw [List.mem_filter, decide_eq_true_iff]
      exact ⟨fun hq => ⟨hown q hq, hq⟩, And.right⟩
  have hsplit := quests.length_eq_length_filter_add fun q => decide (q ∈ s.activeQuests.keys)
  rw [← OMap.length_keys, hactive.length_eq, idle, hsplit, Nat.add_comm]
  simp only [decide_not]

theorem changed_saved_iff (starters : QuestStarters) (poolId : Nat) (s : ActiveQuests) (hsaved : saved.Nodup) :
    Changed (questGroup poolId limit quests) limit s (s.spawnSaved starters poolId limit saved) ↔
      (∀ q ∈ saved.take (rounds limit), q ∈ quests) ∧
        (saved.take (rounds limit)).length = min limit.toNat quests.length ∧
        ∀ q ∈ quests, q ∈ s.activeQuests.keys → q ∈ saved.take (rounds limit) := by
  rw [← spawnSaved_fst starters poolId limit saved s]
  constructor
  · intro hc
    have hmembers := hc.members
    have hexact := hc.exact
    rw [guids_questGroup] at hmembers hexact
    refine ⟨hmembers, hexact, fun q hq hactive => ?_⟩
    have hafter := (hc.active q).1 ((active_spawnSaved _ _ _ _).2 (.inr hactive))
    rw [guids_questGroup] at hafter
    exact hafter.resolve_right fun h => h.2 hq
  · rintro ⟨hmembers, hexact, hkept⟩
    refine ⟨?_, ?_, ?_, fun q => ?_⟩
    · rw [spawnSaved_fst]
      exact hsaved.sublist (List.take_sublist _ _)
    · rwa [guids_questGroup]
    · rwa [guids_questGroup]
    · rw [active_spawnSaved, guids_questGroup]
      refine or_congr_right' fun hq => (and_iff_left_of_imp fun hactive hmember => hq (hkept q hmember hactive)).symm

/-- With enough idle quests, or only the pool's own to recycle, the change goes right. -/
theorem changed_random (hquests : quests.Nodup) (hsaved : ¬(triggerFrom = 0 ∧ saved ≠ []))
    (hlimit : limit = 0 → s.idle quests = []) (hown : limit.toNat ≤ (s.idle quests).length ∨ ∀ q ∈ s.activeQuests.keys, q ∈ quests) :
    Changed (questGroup poolId limit quests) limit s
      (s.spawnObject starters recycled chosen (questGroup poolId limit quests) limit saved triggerFrom) := by
  have hactivated := spawnObject_activated starters (questGroup poolId limit quests) limit s recycled chosen hsaved
  have hle : (s.idle quests).length ≤ quests.length := List.length_filter_le _ _
  rw [hactivated.changed_iff, guids_questGroup]
  suffices h : (∀ q ∈ (available recycled (questGroup poolId limit quests) limit s).keys, q ∈ quests) ∧
      min (rounds limit) (available recycled (questGroup poolId limit quests) limit s).size = min limit.toNat quests.length from
    ⟨fun q hq => h.1 q (hactivated.known q hq), h.2⟩
  rw [available, size_new hquests]
  split
  next hrecycle =>
    rw [Bool.and_eq_true, decide_eq_true_iff, Bool.not_eq_true', Bool.eq_false_iff, Ne, OMap.isEmpty_iff,
      ← List.length_eq_zero_iff, OMap.length_keys] at hrecycle
    obtain ⟨hroom, hsome⟩ := hrecycle
    have hown := hown.resolve_left (Nat.not_le_of_lt hroom)
    have hall := size_idle_active hquests hown
    have hrecycled := recycle_spec recycled (s.newQuests (questGroup poolId limit quests)) s.activeQuests rfl hsome (by rwa [size_new hquests]) fun q hq hnew => ((mem_new q).1 hnew).2 hq
    refine ⟨fun q hq => ?_, ?_⟩
    · rcases hrecycled.known q hq with h | h
      · exact ((mem_new q).1 h).1
      · exact hown q h
    · rw [rounds_eq fun h => by rw [h] at hroom; exact Nat.not_lt_zero _ hroom, hrecycled.size, size_new hquests, hall]
      omega
  next hkept =>
  refine ⟨fun q hq => ((mem_new q).1 hq).1, ?_⟩
  rw [Bool.and_eq_true, decide_eq_true_iff, Bool.not_eq_true', Bool.eq_false_iff, Ne, OMap.isEmpty_iff] at hkept
  have henough : limit.toNat ≤ (s.idle quests).length ∨ (s.idle quests).length = quests.length := by
    by_contra hcon
    refine hkept ⟨by omega, fun hnone => hcon (.inr ?_)⟩
    rw [← size_idle_active hquests (by rw [hnone]; exact fun q hq => (nomatch hq)), ← OMap.length_keys s.activeQuests, hnone]
    rfl
  rw [size_new hquests]
  by_cases h0 : limit = 0
  · rw [hlimit h0, h0, List.length_nil, Nat.min_zero]
    exact (Nat.zero_min _).symm
  · rw [rounds_eq h0]
    omega

/-- A foreign quest may be recycled if there are too few idle quests. -/
theorem recycles_foreign (starters : QuestStarters) (poolId : Nat) (hquests : quests.Nodup) (hsaved : ¬(triggerFrom = 0 ∧ saved ≠ []))
    (hroom : (s.idle quests).length < limit.toNat) (hactive : q ∈ s.activeQuests.keys) (chosen : Outcomes) :
    ∃ recycled, q ∈ (s.spawnObject starters recycled chosen (questGroup poolId limit quests) limit saved triggerFrom).1 := by
  obtain ⟨recycled, hq⟩ := exists_recycle limit (s.newQuests (questGroup poolId limit quests)) hactive
  refine ⟨recycled, ?_⟩
  have hactivated := spawnObject_activated starters (questGroup poolId limit quests) limit s recycled chosen hsaved
  have hsome : s.activeQuests.size ≠ 0 := by
    rw [← OMap.size_erase hactive]
    exact Nat.succ_ne_zero _
  have hrecycled := recycle_spec recycled (s.newQuests (questGroup poolId limit quests)) s.activeQuests rfl hsome (by rwa [size_new hquests]) fun q hq hnew => ((mem_new q).1 hnew).2 hq
  have havailable : available recycled (questGroup poolId limit quests) limit s =
      recycle recycled limit s.activeQuests.size (s.newQuests (questGroup poolId limit quests)) s.activeQuests := by
    rw [available, if_pos]
    rw [Bool.and_eq_true, decide_eq_true_iff, size_new hquests, Bool.not_eq_true', Bool.eq_false_iff, Ne, OMap.isEmpty_iff]
    exact ⟨hroom, List.ne_nil_of_mem hactive⟩
  rw [havailable] at hactivated
  have hlimit : limit ≠ 0 := fun h => by
    rw [h] at hroom
    exact Nat.not_lt_zero _ hroom
  -- all that was recycled is activated
  have hlength := hactivated.length
  rw [rounds_eq hlimit, hrecycled.size, ← Nat.min_assoc, Nat.min_self, ← hrecycled.size, ← OMap.length_keys] at hlength
  exact ((hactivated.nodup.subperm hactivated.known).perm_of_length_le hlength.ge).mem_iff.2 hq

/-- A change that goes right for every random choice. -/
theorem spawnObject_changed_iff (starters : QuestStarters) (poolId : Nat) (limit : UInt32) {quests : List Nat}
    (hquests : quests.Nodup) {saved : List Nat} (hsaved : saved.Nodup) (triggerFrom : Nat) (s : ActiveQuests) :
    (∀ recycled chosen, Changed (questGroup poolId limit quests) limit s
        (s.spawnObject starters recycled chosen (questGroup poolId limit quests) limit saved triggerFrom)) ↔
      if triggerFrom = 0 ∧ saved ≠ [] then
        (∀ q ∈ saved.take (rounds limit), q ∈ quests) ∧
          (saved.take (rounds limit)).length = min limit.toNat quests.length ∧
          ∀ q ∈ quests, q ∈ s.activeQuests.keys → q ∈ saved.take (rounds limit)
      else (limit = 0 → s.idle quests = []) ∧
        (limit.toNat ≤ (s.idle quests).length ∨ ∀ q ∈ s.activeQuests.keys, q ∈ quests) := by
  split
  next h =>
    simp only [spawnObject_saved h, forall_const]
    rw [← changed_saved_iff starters poolId s hsaved, questGroup_eq]
  next h =>
    constructor
    · intro hall
      refine ⟨fun h0 => ?_, ?_⟩
      · subst h0
        have hchanged := (spawnObject_activated starters _ _ s _ _ h).changed_iff.1 (hall (fun _ => 0) (fun _ => 0))
        have hnone : available (fun _ => 0) (questGroup poolId 0 quests) 0 s = s.newQuests (questGroup poolId 0 quests) := by
          rw [available, if_neg]
          simp
        have hsize := hchanged.2
        rw [hnone, size_new hquests, rounds] at hsize
        rw [← List.length_eq_zero_iff]
        have hzero : (0 : UInt32).toNat = 0 := rfl
        omega
      · by_contra hcon
        rw [not_or, Nat.not_le] at hcon
        obtain ⟨hroom, hforeign⟩ := hcon
        push Not at hforeign
        obtain ⟨q, hactive, hq⟩ := hforeign
        obtain ⟨recycled, hmem⟩ := recycles_foreign starters poolId hquests h hroom hactive (fun _ => 0)
        have hmembers := (hall recycled fun _ => 0).members q hmem
        rw [guids_questGroup] at hmembers
        exact hq hmembers
    · rintro ⟨hlimit, hown⟩ recycled chosen
      exact changed_random hquests h hlimit hown

/-- Two pools, with one quest active of each. -/
def twoPools : ActiveQuests :=
  (startQuest ⟨.empty, .empty⟩ 1 10 ⟨.empty, .empty, .empty, .empty⟩).startQuest ⟨.empty, .empty⟩ 2 20

/-- A pool with another quest to offer changes as it should. -/
theorem spawnObject_changed_two : [10, 11].Nodup ∧ ([] : List Nat).Nodup ∧
    ((∀ recycled chosen, Changed (questGroup 1 1 [10, 11]) 1 twoPools
        (twoPools.spawnObject ⟨.empty, .empty⟩ recycled chosen (questGroup 1 1 [10, 11]) 1 [] 1)) ↔
      if 1 = 0 ∧ ([] : List Nat) ≠ [] then
        (∀ q ∈ ([] : List Nat).take (rounds 1), q ∈ [10, 11]) ∧
          (([] : List Nat).take (rounds 1)).length = min (1 : UInt32).toNat [10, 11].length ∧
          ∀ q ∈ [10, 11], q ∈ twoPools.activeQuests.keys → q ∈ ([] : List Nat).take (rounds 1)
      else ((1 : UInt32) = 0 → twoPools.idle [10, 11] = []) ∧
        ((1 : UInt32).toNat ≤ (twoPools.idle [10, 11]).length ∨ ∀ q ∈ twoPools.activeQuests.keys, q ∈ [10, 11])) :=
  ⟨by decide, by decide, spawnObject_changed_iff ⟨.empty, .empty⟩ 1 1 (by decide) (by decide) 1 twoPools⟩

/-- A pool with no other quest takes one of the other pool. -/
theorem spawnObject_takes_foreign : ¬Changed (questGroup 1 1 [10]) 1 twoPools
    (twoPools.spawnObject ⟨.empty, .empty⟩ (fun _ => 1) (fun _ => 0) (questGroup 1 1 [10]) 1 [] 1) := fun h => by
  have hmembers := h.members 20
  rw [guids_questGroup, questGroup_eq] at hmembers
  exact absurd (hmembers (by decide)) (by decide)

end ActiveQuests

end AtlasWow.Pools
