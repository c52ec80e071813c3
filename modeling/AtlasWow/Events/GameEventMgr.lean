/-
`GameEventMgr` as far as it changes the quests, vendors, models and flags of the
world when an event starts or stops. The tables of the events are loaded once
(`GameEvents`); `World` is what they are applied to, with the values that
`ChangeEquipOrModel` saves for undoing. `m_ActiveEvents` is a sorted set, here an
ascending list. Of `CreatureData` and `Creature` only what is read or written
here is kept; the model and equipment that a spawned creature shows, spawns and
world states are left out.
-/
import AtlasWow.Lib.KeyedLists
import AtlasWow.Lib.MachineInt
import AtlasWow.Lib.Machine

namespace AtlasWow.Events

/-- `equipmentId` is an `int8`, kept by its bits. -/
structure CreatureData where
  displayid : Nat
  equipmentId : Nat
deriving DecidableEq

structure ModelEquip where
  modelid : Nat
  modelidPrev : Nat
  equipmentId : Nat
  equipementIdPrev : Nat
deriving DecidableEq

structure NPCVendorEntry where
  entry : Nat
  item : Nat
  maxcount : Int
  incrtime : Nat
  extendedCost : Nat

structure VendorItem where
  item : Nat
  maxcount : Nat
  incrtime : Nat
  extendedCost : Nat
deriving DecidableEq

structure Creature where
  spawnId : Nat
  entry : Nat
  npcFlags : Nat
deriving DecidableEq

/-- What an event changes, by its id: pairs of giver and quest, sold items, pairs of spawn and flags. `templateFlags` is
the `npcflag` of a creature's template, if it has one. -/
structure GameEvents where
  creatureQuests : Nat → List (Nat × Nat)
  gameObjectQuests : Nat → List (Nat × Nat)
  vendors : Nat → List NPCVendorEntry
  npcFlags : Nat → List (Nat × Nat)
  templateFlags : Nat → Option Nat

structure World where
  activeEvents : List Nat
  creatureQuestRelations : Nat → List Nat
  gameObjectQuestRelations : Nat → List Nat
  vendorItems : Nat → List VendorItem
  creatureData : Nat → Option CreatureData
  modelEquip : Nat → List (Nat × ModelEquip)
  creatures : List Creature

namespace World

def isActiveEvent (s : World) (eventId : Nat) : Bool := decide (eventId ∈ s.activeEvents)

/-- An id is put into an ascending list. -/
def insertActive (eventId : Nat) (active : List Nat) : List Nat :=
  active.filter (· < eventId) ++ eventId :: active.filter (eventId < ·)

def addActiveEvent (s : World) (eventId : Nat) : World := { s with activeEvents := insertActive eventId s.activeEvents }

def removeActiveEvent (s : World) (eventId : Nat) : World :=
  { s with activeEvents := s.activeEvents.filter (· ≠ eventId) }

/-- Whether an active event other than this one has the quest, at whichever giver. -/
def hasQuestActiveEventExcept (quests : Nat → List (Nat × Nat)) (s : World) (quest eventId : Nat) : Bool :=
  s.activeEvents.any fun e => decide (e ≠ eventId) && (quests e).any (·.2 = quest)

def hasCreatureQuestActiveEventExcept (t : GameEvents) (s : World) (quest eventId : Nat) : Bool :=
  hasQuestActiveEventExcept t.creatureQuests s quest eventId

def hasGameObjectQuestActiveEventExcept (t : GameEvents) (s : World) (quest eventId : Nat) : Bool :=
  hasQuestActiveEventExcept t.gameObjectQuests s quest eventId

/-- One loop of `UpdateEventQuests`; `held` is the test for another active event. -/
def updateRelations (held : Nat → Bool) (activate : Bool) (relations : Nat → List Nat) (quests : List (Nat × Nat)) :
    Nat → List Nat :=
  quests.foldl (fun relations r =>
    if activate then Function.update relations r.1 (relations r.1 ++ [r.2])
    else if held r.2 then relations
    else Function.update relations r.1 ((relations r.1).erase r.2)) relations

def updateEventQuests (t : GameEvents) (s : World) (eventId : Nat) (activate : Bool) : World :=
  { s with
    creatureQuestRelations := updateRelations (fun quest => hasCreatureQuestActiveEventExcept t s quest eventId) activate
      s.creatureQuestRelations (t.creatureQuests eventId)
    gameObjectQuestRelations := updateRelations (fun quest => hasGameObjectQuestActiveEventExcept t s quest eventId) activate
      s.gameObjectQuestRelations (t.gameObjectQuests eventId) }

/-- `VendorItem`'s constructor takes the count as a `uint32`. -/
def vendorItem (v : NPCVendorEntry) : VendorItem := ⟨v.item, uint32 v.maxcount, v.incrtime, v.extendedCost⟩

def addVendorItem (items : Nat → List VendorItem) (v : NPCVendorEntry) : Nat → List VendorItem :=
  Function.update items v.entry (items v.entry ++ [vendorItem v])

def removeVendorItem (items : Nat → List VendorItem) (entry item : Nat) : Nat → List VendorItem :=
  Function.update items entry ((items entry).filter (·.item ≠ item))

def updateEventNPCVendor (t : GameEvents) (s : World) (eventId : Nat) (activate : Bool) : World :=
  { s with vendorItems := (t.vendors eventId).foldl (fun items v =>
      if activate then addVendorItem items v else removeVendorItem items v.entry v.item) s.vendorItems }

/-- One turn of `ChangeEquipOrModel`: the creature's data and the entry with what it saved. -/
def changeOne (activate : Bool) (data : Nat → Option CreatureData) (p : Nat × ModelEquip) :
    (Nat → Option CreatureData) × (Nat × ModelEquip) :=
  match data p.1 with
  | none => (data, p)
  | some d =>
    if activate then
      (Function.update data p.1 (some ⟨p.2.modelid, p.2.equipmentId⟩),
        (p.1, { p.2 with modelidPrev := d.displayid, equipementIdPrev := d.equipmentId }))
    else (Function.update data p.1 (some ⟨p.2.modelidPrev, p.2.equipementIdPrev⟩), p)

def changeAll (activate : Bool) : (Nat → Option CreatureData) → List (Nat × ModelEquip) →
    (Nat → Option CreatureData) × List (Nat × ModelEquip)
  | data, [] => (data, [])
  | data, p :: l =>
    let r := changeOne activate data p
    let rest := changeAll activate r.1 l
    (rest.1, r.2 :: rest.2)

def changeEquipOrModel (s : World) (eventId : Nat) (activate : Bool) : World :=
  let r := changeAll activate s.creatureData (s.modelEquip eventId)
  { s with creatureData := r.1, modelEquip := Function.update s.modelEquip eventId r.2 }

def getNPCFlag (t : GameEvents) (s : World) (spawnId : Nat) : Nat :=
  s.activeEvents.foldl (fun mask e =>
    (t.npcFlags e).foldl (fun mask f => if f.1 = spawnId then mask ||| f.2 else mask) mask) 0

/-- Only creatures that the event lists are given their flags anew. -/
def updateEventNPCFlags (t : GameEvents) (s : World) (eventId : Nat) : World :=
  { s with creatures := s.creatures.map fun c =>
      if (t.npcFlags eventId).any (·.1 = c.spawnId) && (s.creatureData c.spawnId).isSome then
        { c with npcFlags := getNPCFlag t s c.spawnId ||| (t.templateFlags c.entry).getD 0 }
      else c }

def unApplyEvent (t : GameEvents) (s : World) (eventId : Nat) : World :=
  let s := changeEquipOrModel s eventId false
  let s := updateEventQuests t s eventId false
  let s := updateEventNPCFlags t s eventId
  updateEventNPCVendor t s eventId false

def applyNewEvent (t : GameEvents) (s : World) (eventId : Nat) : World :=
  let s := changeEquipOrModel s eventId true
  let s := updateEventQuests t s eventId true
  let s := updateEventNPCFlags t s eventId
  updateEventNPCVendor t s eventId true

def startEvent (t : GameEvents) (s : World) (eventId : Nat) : World :=
  applyNewEvent t (s.addActiveEvent eventId) eventId

def stopEvent (t : GameEvents) (s : World) (eventId : Nat) : World :=
  unApplyEvent t (s.removeActiveEvent eventId) eventId

end World

/-- What scripts, commands and `GameEventMgr::Update` ask for. They start only inactive events and stop only active
ones. -/
inductive Request where
  | startEvent (eventId : Nat)
  | stopEvent (eventId : Nat)
deriving DecidableEq

open World in
def handle (t : GameEvents) (r : Request) (s : World) : World :=
  match r with
  | .startEvent eventId => if s.isActiveEvent eventId then s else startEvent t s eventId
  | .stopEvent eventId => if s.isActiveEvent eventId then stopEvent t s eventId else s

end AtlasWow.Events
