/-
`LFGQueue` (`LFGQueue.h`, `LFGQueue.cpp`): the data of the queued players and
groups, the two lists of who is queued, and the cache of combinations that have
been checked. A combination is known by the guids in it, written in order with
`|` between them; guids are looked for in such keys as texts.
-/
import AtlasWow.Lfg.GroupRoles
import Mathlib.Data.Char

namespace AtlasWow.Lfg

abbrev GuidList := List ObjectGuid

/-- Dungeon ids, in order. -/
abbrev LfgDungeonSet := List Nat

def MAXGROUPSIZE : Nat := 5

inductive LfgState where
  | none | rolecheck | queued | proposal | dungeon | finishedDungeon | raidBrowser
deriving DecidableEq

/-- What is known of a combination, in the order of the source. -/
inductive LfgCompatibility where
  | pending
  | wrongGroupSize
  | tooMuchPlayers
  | multipleLfgGroups
  | hasIgnores
  | noRoles
  | noDungeons
  | withLessPlayers
  | badStates
  | match
deriving DecidableEq

/-- Values under `withLessPlayers`: not compatible. -/
def LfgCompatibility.isIncompatible : LfgCompatibility → Bool
  | .withLessPlayers | .badStates | .match => false
  | _ => true

/-! ## Keys -/

abbrev Key := List Char

def guidString (guid : ObjectGuid) : Key := Nat.toDigits 10 guid

/-- The guids of a list, each once and in order. -/
def guidSet (check : GuidList) : GuidList := (check.foldl (fun set guid => set.insert guid ()) OMap.empty).keys

def concatenateGuids (check : GuidList) : Key := List.intercalate ['|'] ((guidSet check).map guidString)

/-- `find(guid) != npos`. -/
def Key.mentions (key : Key) (guid : ObjectGuid) : Bool := guidString guid <:+: key

/-- How many guids are in a key that is not empty. -/
def Key.guids (key : Key) : Nat := (key.count '|' + 1) % 256

/-! ## The queue -/

structure LfgCompatibilityData where
  compatibility : LfgCompatibility
  roles : LfgRolesMap

structure LfgQueueData where
  joinTime : Nat
  tanks : UInt8
  healers : UInt8
  dps : UInt8
  dungeons : LfgDungeonSet
  roles : LfgRolesMap
  /-- Best compatible combination of people queued. -/
  bestCompatible : Key

structure LFGQueue where
  queueDataStore : OMap ObjectGuid LfgQueueData
  compatibleMapStore : OMap Key LfgCompatibilityData
  currentQueueStore : GuidList
  newToQueueStore : GuidList

def LfgQueueData.make (joinTime : Nat) (dungeons : LfgDungeonSet) (roles : LfgRolesMap) : LfgQueueData where
  joinTime := joinTime
  tanks := UInt8.ofNat LFG_TANKS_NEEDED
  healers := UInt8.ofNat LFG_HEALERS_NEEDED
  dps := UInt8.ofNat LFG_DPS_NEEDED
  dungeons := dungeons
  roles := roles
  bestCompatible := []

/-- What `QueueDataStore[guid]` makes of a guid without data. -/
def LfgQueueData.empty (gameTime : Nat) : LfgQueueData := .make gameTime [] .empty

/-- `UpdateBestCompatibleInQueue`, on the data of one entry. -/
def LfgQueueData.updateBestCompatible (data : LfgQueueData) (key : Key) (roles : LfgRolesMap) : LfgQueueData :=
  let storedSize := if data.bestCompatible.isEmpty then 0 else data.bestCompatible.guids
  if key.guids ≤ storedSize then data
  else
    roles.entries.foldl (fun data e =>
      if e.2 &&& PLAYER_ROLE_TANK ≠ 0 then { data with tanks := data.tanks - 1 }
      else if e.2 &&& PLAYER_ROLE_HEALER ≠ 0 then { data with healers := data.healers - 1 }
      else { data with dps := data.dps - 1 })
      { data with
        bestCompatible := key
        tanks := UInt8.ofNat LFG_TANKS_NEEDED
        healers := UInt8.ofNat LFG_HEALERS_NEEDED
        dps := UInt8.ofNat LFG_DPS_NEEDED }

namespace LFGQueue

def empty : LFGQueue := ⟨.empty, .empty, [], []⟩

/-- The data of an entry, where the source has made sure there is some. -/
def dataOf (q : LFGQueue) (guid : ObjectGuid) : LfgQueueData := (q.queueDataStore.find? guid).getD (.empty 0)

def addToNewQueue (q : LFGQueue) (guid : ObjectGuid) : LFGQueue :=
  { q with newToQueueStore := q.newToQueueStore ++ [guid] }

def removeFromNewQueue (q : LFGQueue) (guid : ObjectGuid) : LFGQueue :=
  { q with newToQueueStore := q.newToQueueStore.filter (· ≠ guid) }

def addToCurrentQueue (q : LFGQueue) (guid : ObjectGuid) : LFGQueue :=
  { q with currentQueueStore := q.currentQueueStore ++ [guid] }

def addToFrontCurrentQueue (q : LFGQueue) (guid : ObjectGuid) : LFGQueue :=
  { q with currentQueueStore := guid :: q.currentQueueStore }

def removeFromCurrentQueue (q : LFGQueue) (guid : ObjectGuid) : LFGQueue :=
  { q with currentQueueStore := q.currentQueueStore.filter (· ≠ guid) }

def addToQueue (q : LFGQueue) (guid : ObjectGuid) (reAdd : Bool) : LFGQueue :=
  match q.queueDataStore.find? guid with
  | none => q
  | some _ => if reAdd then q.addToFrontCurrentQueue guid else q.addToNewQueue guid

def addQueueData (q : LFGQueue) (guid : ObjectGuid) (joinTime : Nat) (dungeons : LfgDungeonSet)
    (rolesMap : LfgRolesMap) : LFGQueue :=
  { q with queueDataStore := q.queueDataStore.insert guid (.make joinTime dungeons rolesMap) }.addToQueue guid false

/-- Any key the guid is found in goes. -/
def removeFromCompatibles (q : LFGQueue) (guid : ObjectGuid) : LFGQueue :=
  { q with compatibleMapStore := q.compatibleMapStore.filter fun key => !key.mentions guid }

def setCompatibilityData (q : LFGQueue) (key : Key) (data : LfgCompatibilityData) : LFGQueue :=
  { q with compatibleMapStore := q.compatibleMapStore.insert key data }

def setCompatibles (q : LFGQueue) (key : Key) (compatibles : LfgCompatibility) : LFGQueue :=
  q.setCompatibilityData key
    { compatibility := compatibles, roles := ((q.compatibleMapStore.find? key).map (·.roles)).getD .empty }

def getCompatibles (q : LFGQueue) (key : Key) : LfgCompatibility :=
  match q.compatibleMapStore.find? key with
  | some data => data.compatibility
  | none => .pending

/-- `UpdateBestCompatibleInQueue`. -/
def updateBestCompatibleInQueue (q : LFGQueue) (guid : ObjectGuid) (key : Key) (roles : LfgRolesMap) : LFGQueue :=
  match q.queueDataStore.find? guid with
  | none => q
  | some data => { q with queueDataStore := q.queueDataStore.insert guid (data.updateBestCompatible key roles) }

/-- `FindBestCompatibleInQueue`, on the data of one entry. -/
def findBestCompatible (q : LFGQueue) (guid : ObjectGuid) (data : LfgQueueData) : LfgQueueData :=
  q.compatibleMapStore.entries.foldl (fun data e =>
    if e.2.compatibility = .withLessPlayers && e.1.mentions guid then data.updateBestCompatible e.1 e.2.roles
    else data) data

def removeFromQueue (q : LFGQueue) (guid : ObjectGuid) : LFGQueue :=
  let q := ((q.removeFromNewQueue guid).removeFromCurrentQueue guid).removeFromCompatibles guid
  { q with
    queueDataStore := (q.queueDataStore.mapValues fun other data =>
      if other ≠ guid && data.bestCompatible.mentions guid then
        q.findBestCompatible other { data with bestCompatible := [] }
      else data).erase guid }

/-- `UpdateQueueTimers`, but for the waiting times. -/
def updateQueueTimers (q : LFGQueue) : LFGQueue :=
  { q with
    queueDataStore := q.queueDataStore.mapValues fun guid data =>
      if data.bestCompatible.isEmpty then q.findBestCompatible guid data else data }

/-- `QueueDataStore[guid].joinTime`; the time itself is only used for the waiting times. -/
def getJoinTime (q : LFGQueue) (guid : ObjectGuid) (gameTime : Nat) : LFGQueue :=
  match q.queueDataStore.find? guid with
  | some _ => q
  | none => { q with queueDataStore := q.queueDataStore.insert guid (.empty gameTime) }

end LFGQueue

end AtlasWow.Lfg
