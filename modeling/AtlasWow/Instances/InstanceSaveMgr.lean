/-
The times at which instances are reset: `InstanceSaveMgr.cpp`, from
`LoadResetTimes` on. What is bound to an instance, and what a reset does to
its map, is not followed here; `log` says what is scheduled, announced and
reset. The table `instance_reset` is only read: what is written to it are the
reset times. Times are seconds, and none is negative.
-/
import AtlasWow.Lib.Machine
import AtlasWow.Lib.OrderedMap
import AtlasWow.Lib.OrderedMultimap
import Mathlib.Algebra.Group.Nat.Defs

namespace AtlasWow.Instances

def MINUTE : Int := 60
def HOUR : Int := 3600
def DAY : Int := 86400

def MAKE_PAIR32 (l h : Nat) : Nat := l % 2 ^ 16 + h % 2 ^ 16 * 2 ^ 16
def PAIR32_LOPART (x : Nat) : Nat := x % 2 ^ 16
def PAIR32_HIPART (x : Nat) : Nat := x / 2 ^ 16 % 2 ^ 16

def DUNGEON_DIFFICULTY_NORMAL : Nat := 0
def RAID_DIFFICULTY_25MAN_NORMAL : Nat := 1
def MAX_DUNGEON_DIFFICULTY : Nat := 3
def MAX_RAID_DIFFICULTY : Nat := 4

/-- `ResetTimeDelay[type - 1]`. -/
def resetTimeDelay : Nat → Int
  | 1 => 3600
  | 2 => 900
  | 3 => 300
  | _ => 60

structure InstResetEvent where
  type : Nat
  difficulty : Nat
  mapid : Nat
  instanceId : Nat
  deriving DecidableEq, Repr

namespace InstResetEvent

/-- What fits into the fields of an event. -/
def new (t mapid d instanceid : Nat) : InstResetEvent :=
  { type := t % 2 ^ 8, difficulty := d % 2 ^ 8, mapid := mapid % 2 ^ 16, instanceId := instanceid % 2 ^ 16 }

/-- `operator==`. -/
def equals (event e : InstResetEvent) : Bool := e.instanceId = event.instanceId

def key (event : InstResetEvent) : Nat := MAKE_PAIR32 event.mapid event.difficulty

end InstResetEvent

inductive MapType where
  | mapCommon | mapInstance | mapRaid | mapBattleground | mapArena
  deriving DecidableEq, Repr

def MapType.instanceable (mapType : MapType) : Bool := mapType ≠ .mapCommon

/-- The client's data, and the configuration. -/
structure Data where
  /-- The maps by id. -/
  maps : Nat → Option MapType
  /-- The map difficulties with their reset times. -/
  mapDifficulties : OMap Nat Nat
  difficulties : ∀ key ∈ mapDifficulties.keys, key < MAX_RAID_DIFFICULTY * 2 ^ 16
  /-- Raids and heroic dungeons have a reset time. -/
  instances : ∀ key delay, mapDifficulties.find? key = some delay → delay ≠ 0 →
    (maps (PAIR32_LOPART key)).any MapType.instanceable = true
  hour : Nat
  /-- The reset time of a map difficulty, by the rate for it: a float that is cut off to seconds. -/
  scaled : Nat → Nat

namespace Data

variable (data : Data)

/-- `GetMapDifficultyData`. -/
def mapDifficulty (key : Nat) : Option Nat := data.mapDifficulties.find? key

/-- `GetDownscaledMapDifficultyData`: the difficulty there is for a map, if there is one. -/
def downscaled (mapId difficulty : Nat) : Option Nat :=
  let sub (x y : Nat) : Nat := (x + 2 ^ 32 - y) % 2 ^ 32
  if (data.mapDifficulty (MAKE_PAIR32 mapId difficulty)).isSome then some difficulty
  else
    let tmpDiff := if difficulty > RAID_DIFFICULTY_25MAN_NORMAL then sub difficulty 2 else sub difficulty 1
    if (data.mapDifficulty (MAKE_PAIR32 mapId tmpDiff)).isSome then some tmpDiff
    else
      let tmpDiff := sub tmpDiff 1
      if (data.mapDifficulty (MAKE_PAIR32 mapId tmpDiff)).isSome then some tmpDiff else none

/-- The seconds of a day at which maps are reset. -/
def diff : Int := data.hour * HOUR

/-- The time between two resets: at least one day. -/
def period (resetTime : Nat) : Int := if (data.scaled resetTime : Int) < DAY then DAY else data.scaled resetTime

/-- `GetSubsequentResetTime`. -/
def getSubsequentResetTime (key : Nat) (resetTime : Int) : Int :=
  match data.mapDifficulty key with
  | none => 0
  | some delay => if delay = 0 then 0 else (resetTime + MINUTE) / DAY * DAY + data.period delay + data.diff

end Data

/-- What the manager has done. -/
inductive Happening where
  /-- An event for one instance is scheduled. -/
  | scheduled (time : Int) (mapid difficulty instanceId : Nat)
  | instanceReset (mapid instanceId : Nat)
  | warned (mapid difficulty : Nat) (resetTime now : Int)
  | reset (mapid difficulty : Nat) (nextReset now : Int)
  /-- A reset is forced. -/
  | forced (mapid difficulty : Nat) (now : Int)
  deriving DecidableEq, Repr

structure InstanceSaveManager where
  resetTimes : OMap Nat Int
  resetTimeQueue : OMultimap Int InstResetEvent
  log : List Happening

/-- A row of the table `instance`. -/
structure InstanceRow where
  map : Nat
  difficulty : Nat
  resettime : Nat

/-- A row of the table `instance_reset`. -/
structure ResetRow where
  mapid : Nat
  difficulty : Nat
  resettime : Nat

namespace InstanceSaveManager

variable (data : Data)

def getResetTimeFor (s : InstanceSaveManager) (key : Nat) : Int := (s.resetTimes.find? key).getD 0

/-- `InitializeResetTimeFor`. -/
def initializeResetTimeFor (key : Nat) (t : Int) (s : InstanceSaveManager) : InstanceSaveManager :=
  { s with resetTimes := s.resetTimes.insert key t }

/-- `SetResetTimeFor`, which asserts that there is a reset time. -/
def setResetTimeFor (key : Nat) (t : Int) (s : InstanceSaveManager) : Option InstanceSaveManager :=
  (s.resetTimes.find? key).map fun _ => s.initializeResetTimeFor key t

/-- `ScheduleReset`. -/
def scheduleReset (add : Bool) (time : Int) (event : InstResetEvent) (s : InstanceSaveManager) : InstanceSaveManager :=
  if !add then
    -- in case the reset time changed, the whole queue is searched
    if s.resetTimeQueue.entries.any fun e => e.1 = time && e.2.equals event
      then { s with resetTimeQueue := s.resetTimeQueue.eraseFirst fun t e => t = time && e.equals event }
      else { s with resetTimeQueue := s.resetTimeQueue.eraseFirst fun _ e => e.equals event }
  else { s with resetTimeQueue := s.resetTimeQueue.insert time event }

/-- An event for one instance, by its type 0 or with the warnings of its map. -/
def scheduleInstance (time : Int) (type mapid difficulty instanceId : Nat) (s : InstanceSaveManager) : InstanceSaveManager :=
  let s := s.scheduleReset true time (.new type mapid difficulty instanceId)
  { s with log := s.log ++ [.scheduled time mapid difficulty instanceId] }

/-- The type of the next warning, or reset, for a reset time. -/
def nextType (t now : Int) : Nat :=
  if t - resetTimeDelay 1 > now then 1 else if t - resetTimeDelay 2 > now then 2 else if t - resetTimeDelay 3 > now then 3 else 4

/-- The events of normal instances, by id, of `LoadResetTimes`. -/
def loadInstances (now : Int) (rows : OMap Nat InstanceRow) (s : InstanceSaveManager) : InstanceSaveManager :=
  rows.entries.foldl (fun s row =>
    if row.2.resettime ≠ 0 ∧ (row.2.resettime : Int) > now
      then s.scheduleInstance row.2.resettime 0 row.2.map row.2.difficulty row.1 else s) s

/-- The reset times that the table has: on the hour of the configuration. -/
def loadResetTime (row : ResetRow) (s : InstanceSaveManager) : InstanceSaveManager :=
  let key := MAKE_PAIR32 row.mapid row.difficulty
  if (data.mapDifficulty key).isSome
    then s.initializeResetTimeFor key ((row.resettime : Int) / DAY * DAY + data.diff) else s

/-- The reset time of a map difficulty: a new one, or the next if it has expired. -/
def loadedResetTime (now : Int) (delay : Nat) (old : Int) : Int :=
  let today := now / DAY * DAY
  let period := data.period delay
  let t := if old = 0 then today + period + data.diff else old
  if t < now then t / DAY * DAY + (((today - t / DAY * DAY) / period + 1) * period + data.diff) else t

/-- The events of a map difficulty: its own, and those of its instances that have a reset time. -/
def loadMapDifficulty (now : Int) (rows : OMap Nat InstanceRow) (s : InstanceSaveManager) (mapDiff : Nat × Nat) :
    InstanceSaveManager :=
  if mapDiff.2 = 0 then s
  else
    let t := loadedResetTime data now mapDiff.2 (s.getResetTimeFor mapDiff.1)
    let s := s.initializeResetTimeFor mapDiff.1 t
    let mapid := PAIR32_LOPART mapDiff.1
    let difficulty := PAIR32_HIPART mapDiff.1
    -- schedule the global reset/warning
    let type := nextType t now
    let s := s.scheduleReset true (t - resetTimeDelay type) (.new type mapid difficulty 0)
    rows.entries.foldl (fun s row =>
      if row.2.resettime ≠ 0 ∧ MAKE_PAIR32 row.2.map row.2.difficulty = mapDiff.1
        then s.scheduleInstance (t - resetTimeDelay type) type mapid difficulty row.1 else s) s

/-- `LoadResetTimes`. -/
def loadResetTimes (now : Int) (rows : OMap Nat InstanceRow) (resets : List ResetRow) : InstanceSaveManager :=
  let s : InstanceSaveManager := { resetTimes := .empty, resetTimeQueue := .empty, log := [] }
  let s := s.loadInstances now rows
  let s := resets.foldl (fun s row => s.loadResetTime data row) s
  data.mapDifficulties.entries.foldl (loadMapDifficulty data now rows) s

/-- `_ResetInstance`. -/
def resetInstance (mapid instanceId : Nat) (s : InstanceSaveManager) : InstanceSaveManager :=
  if (data.maps mapid).any MapType.instanceable then { s with log := s.log ++ [.instanceReset mapid instanceId] } else s

/-- `_ResetOrWarnAll`. -/
def resetOrWarnAll (mapid difficulty : Nat) (warn : Bool) (resetTime now : Int) (s : InstanceSaveManager) :
    Option InstanceSaveManager :=
  if !(data.maps mapid).any MapType.instanceable then some s
  else if warn then some { s with log := s.log ++ [.warned mapid difficulty resetTime now] }
  else
    let nextReset := data.getSubsequentResetTime (MAKE_PAIR32 mapid difficulty) resetTime
    if nextReset = 0 then some s
    else
      (s.setResetTimeFor (MAKE_PAIR32 mapid difficulty) nextReset).map fun s =>
        let s := s.scheduleReset true (nextReset - 3600) (.new 1 mapid difficulty 0)
        { s with log := s.log ++ [.reset mapid difficulty nextReset now] }

/-- `ForceGlobalReset`. -/
def forceGlobalReset (mapId difficulty : Nat) (now : Int) (s : InstanceSaveManager) : Option InstanceSaveManager :=
  match data.downscaled mapId difficulty with
  | none => some s
  | some difficulty =>
    -- remove currently scheduled reset times
    let s := s.scheduleReset false 0 (.new 1 mapId difficulty 0)
    let s := s.scheduleReset false 0 (.new 4 mapId difficulty 0)
    -- force global reset on the instance
    let s := { s with log := s.log ++ [Happening.forced mapId difficulty now] }
    s.resetOrWarnAll data mapId difficulty false now now

def isDue (now : Int) (s : InstanceSaveManager) : Bool := s.resetTimeQueue.entries.head?.any (·.1 < now)

/-- The first event of the queue, in `Update`. -/
def processFirst (now : Int) (s : InstanceSaveManager) : Option InstanceSaveManager :=
  match s.resetTimeQueue.entries with
  | [] => some s
  | (_, event) :: _ =>
    if event.type = 0 then
      let s := s.resetInstance data event.mapid event.instanceId
      some { s with resetTimeQueue := s.resetTimeQueue.popFirst }
    else
      let resetTime := s.getResetTimeFor event.key
      (s.resetOrWarnAll data event.mapid event.difficulty (event.type ≠ 4) resetTime now).map fun s =>
        let s :=
          if event.type ≠ 4 then
            -- schedule the next warning/reset
            let next := { event with type := event.type + 1 }
            let s := { s with resetTimeQueue := s.resetTimeQueue.changeFirst fun _ => next }
            s.scheduleReset true (resetTime - resetTimeDelay next.type) next
          else s
        { s with resetTimeQueue := s.resetTimeQueue.popFirst }

/-- `Update`, for at most a number of events. -/
def update (rounds : Nat) (now : Int) (s : InstanceSaveManager) : Option InstanceSaveManager :=
  whileLoop (isDue now) (processFirst data now) rounds s

/-- `AddInstanceSave`; whether there is a save for the id is an input. -/
def addInstanceSave (mapId instanceId difficulty : Nat) (resetTime now : Int) (known : Bool) (s : InstanceSaveManager) :
    InstanceSaveManager :=
  if known then s
  else
    match data.maps mapId with
    | none => s
    | some mapType =>
      if instanceId = 0 then s
      else if (if mapType = .mapRaid then MAX_RAID_DIFFICULTY else MAX_DUNGEON_DIFFICULTY) ≤ difficulty then s
      -- for normal instances if no creatures are killed the instance will reset in two hours
      else if resetTime = 0 ∧ ¬(mapType = .mapRaid ∨ difficulty > DUNGEON_DIFFICULTY_NORMAL)
        then s.scheduleInstance (now + 2 * HOUR) 0 mapId difficulty instanceId
        else s

inductive Event where
  | update (rounds : Nat) (now : Int)
  | forceGlobalReset (mapId difficulty : Nat) (now : Int)
  | addInstanceSave (mapId instanceId difficulty : Nat) (resetTime now : Int) (known : Bool)

def step : Event → InstanceSaveManager → Option InstanceSaveManager
  | .update rounds now, s => s.update data rounds now
  | .forceGlobalReset mapId difficulty now, s => s.forceGlobalReset data mapId difficulty now
  | .addInstanceSave mapId instanceId difficulty resetTime now known, s =>
    some (s.addInstanceSave data mapId instanceId difficulty resetTime now known)

end InstanceSaveManager

end AtlasWow.Instances
