/-
The dungeons of the dungeon finder (`LFGMgr::LoadLFGDungeons`,
`GetDungeonsByRandom`): a store filled from the client's table, the entrances
that the world's tables add to it, and a cache of the dungeons of each group.

What the store holds and how it is grouped depends on the client's table only,
so it is the same after every load; the cache is filled while a load looks for
entrances, and `lasting` says which loads it still answers for.
`run_agrees_iff` tells when it answers as the store does.
-/
import AtlasWow.Lib.OrderedMap
import AtlasWow.Lib.UnorderedMap

namespace AtlasWow.Lfg

/-- A `float`, as its bits. -/
abbrev FloatBits := BitVec 32

/-- `== 0.0f`. -/
def FloatBits.isZero (f : FloatBits) : Bool := f = 0#32 || f = 0x80000000#32

def atOrigin (x y z : FloatBits) : Bool := x.isZero && y.isZero && z.isZero

def LFG_TYPE_DUNGEON : Nat := 1
def LFG_TYPE_RAID : Nat := 2
def LFG_TYPE_HEROIC : Nat := 5
def LFG_TYPE_RANDOM : Nat := 6

structure LFGDungeonEntry where
  ID : Nat
  map : Int
  type : Nat
  grouptype : Nat

/-- `sLFGDungeonStore`: the client's table, each entry at its own id. -/
structure DBCStorage where
  indexTable : List (Option LFGDungeonEntry)
  indexed : ∀ (i : Nat) (dbc : LFGDungeonEntry), indexTable[i]? = some (some dbc) → dbc.ID = i

def DBCStorage.lookupEntry (store : DBCStorage) (id : Nat) : Option LFGDungeonEntry := store.indexTable[id]?.join

def DBCStorage.getNumRows (store : DBCStorage) : Nat := store.indexTable.length

structure LFGDungeonData where
  id : Nat
  map : Nat
  type : Nat
  group : Nat
  x : FloatBits
  y : FloatBits
  z : FloatBits
  o : FloatBits
deriving DecidableEq

def LFGDungeonData.ofEntry (dbc : LFGDungeonEntry) : LFGDungeonData where
  id := dbc.ID
  map := (dbc.map % 65536).toNat
  type := dbc.type % 256
  group := dbc.grouptype % 256
  x := 0#32
  y := 0#32
  z := 0#32
  o := 0#32

/-- A row of `lfg_dungeon_template`. -/
structure LfgDungeonTemplate where
  dungeonId : Nat
  x : FloatBits
  y : FloatBits
  z : FloatBits
  o : FloatBits

/-- The dungeon with the coordinates of a row. -/
def LFGDungeonData.place (data : LFGDungeonData) (fields : LfgDungeonTemplate) : LFGDungeonData :=
  { data with x := fields.x, y := fields.y, z := fields.z, o := fields.o }

structure AreaTrigger where
  target_mapId : Nat
  target_X : FloatBits
  target_Y : FloatBits
  target_Z : FloatBits
  target_Orientation : FloatBits

/-- What a load reads of the world's tables. -/
structure WorldTables where
  template : List LfgDungeonTemplate
  areaTriggerStore : List (Nat × AreaTrigger)
  /-- Whether the client has the trigger (`sAreaTriggerStore`). -/
  hasEntry : Nat → Bool

def WorldTables.getMapEntranceTrigger (t : WorldTables) (map : Nat) : Option AreaTrigger :=
  (t.areaTriggerStore.find? fun itr => itr.2.target_mapId = map && t.hasEntry itr.1).map Prod.snd

abbrev LFGDungeonContainer := UMap Nat LFGDungeonData

abbrev LfgCachedDungeonContainer := OMap Nat (Finset Nat)

/-- What the manager knows of dungeons. -/
structure DungeonStores where
  lfgDungeonStore : LFGDungeonContainer
  cachedDungeonMapStore : LfgCachedDungeonContainer

/-- The types that the finder offers. -/
def isLfgType (type : Nat) : Bool :=
  type = LFG_TYPE_DUNGEON || type = LFG_TYPE_HEROIC || type = LFG_TYPE_RAID || type = LFG_TYPE_RANDOM

variable (pl : Placement Nat LFGDungeonData)

/-- One row of the client's table. -/
def loadEntry (store : DBCStorage) (m : LFGDungeonContainer) (i : Nat) : LFGDungeonContainer :=
  match store.lookupEntry i with
  | none => m
  | some dungeon => if isLfgType dungeon.type then m.insert pl dungeon.ID (.ofEntry dungeon) else m

/-- One row of `lfg_dungeon_template`. -/
def loadTemplate (m : LFGDungeonContainer) (fields : LfgDungeonTemplate) : LFGDungeonContainer :=
  match m.find? fields.dungeonId with
  | none => m
  | some data => m.insert pl fields.dungeonId (data.place fields)

/-- The dungeon with its entrance; `none` if its map has no trigger to take it from. -/
def findEntrance (t : WorldTables) (dungeon : LFGDungeonData) : Option LFGDungeonData :=
  if dungeon.type ≠ LFG_TYPE_RANDOM && atOrigin dungeon.x dungeon.y dungeon.z then
    (t.getMapEntranceTrigger dungeon.map).map fun trigger =>
      { dungeon with
        map := trigger.target_mapId % 65536, x := trigger.target_X, y := trigger.target_Y, z := trigger.target_Z
        o := trigger.target_Orientation }
  else some dungeon

/-- `CachedDungeonMapStore[group]`; reading makes the set, which is empty then. -/
def cached (m : LfgCachedDungeonContainer) (group : Nat) : Finset Nat := (m.find? group).getD ∅

/-- `CachedDungeonMapStore[group].insert(id)`. -/
def cacheId (m : LfgCachedDungeonContainer) (group id : Nat) : LfgCachedDungeonContainer :=
  m.insert group (insert id (cached m group))

/-- One turn of the loop over the store, for the cache. -/
def cacheDungeon (t : WorldTables) (m : LfgCachedDungeonContainer) (dungeon : LFGDungeonData) :
    LfgCachedDungeonContainer :=
  match findEntrance t dungeon with
  | none => m
  | some dungeon =>
    cacheId (if dungeon.type ≠ LFG_TYPE_RANDOM then cacheId m dungeon.group dungeon.id else m) 0 dungeon.id

namespace DungeonStores

/-- Before the first load. -/
def empty : DungeonStores := ⟨.empty, .empty⟩

def loadLFGDungeons (store : DBCStorage) (t : WorldTables) (reload : Bool) (s : DungeonStores) : DungeonStores :=
  let filled := (List.range store.getNumRows).foldl (loadEntry pl store) .empty
  -- the cache stays as it is when the table is empty
  if t.template.isEmpty then { s with lfgDungeonStore := filled }
  else
    let placed := t.template.foldl (loadTemplate pl) filled
    let cache := placed.entries.foldl (fun m itr => cacheDungeon t m itr.2) s.cachedDungeonMapStore
    { lfgDungeonStore := placed.mapValues fun _ dungeon => (findEntrance t dungeon).getD dungeon
      cachedDungeonMapStore := if reload then .empty else cache }

def getDungeonsByRandom (randomdungeon : Nat) (s : DungeonStores) : Finset Nat × DungeonStores :=
  let group := (s.lfgDungeonStore.find? randomdungeon).elim 0 (·.group)
  let dungeons := cached s.cachedDungeonMapStore group
  (dungeons, { s with cachedDungeonMapStore := s.cachedDungeonMapStore.insert group dungeons })

/-- What is asked of the manager about dungeons. -/
inductive Call where
  | load (t : WorldTables) (reload : Bool)
  | get (randomdungeon : Nat)

def apply (store : DBCStorage) (s : DungeonStores) : Call → DungeonStores
  | .load t reload => s.loadLFGDungeons pl store t reload
  | .get randomdungeon => (s.getDungeonsByRandom randomdungeon).2

def run (store : DBCStorage) (calls : List Call) : DungeonStores := calls.foldl (apply pl store) empty

/-- A random dungeon is answered with the dungeons of its group that are not random. -/
def Agrees (s : DungeonStores) : Prop :=
  ∀ r data, s.lfgDungeonStore.find? r = some data → data.type = LFG_TYPE_RANDOM →
    ∀ id, id ∈ (s.getDungeonsByRandom r).1 ↔
      ∃ d, s.lfgDungeonStore.find? id = some d ∧ d.type ≠ LFG_TYPE_RANDOM ∧ d.group = data.group

end DungeonStores
end AtlasWow.Lfg
