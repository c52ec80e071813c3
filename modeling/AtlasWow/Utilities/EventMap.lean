/-
`EventMap` (`EventMap.h`, `EventMap.cpp`): the events of a creature's script,
by the time they are due at. An entry is one word: the id in the low half,
above it a bit for the group and a bit for the phase.

`EventList` is what the map is to do: a list of records, in the order in which
they came. `run_agrees`: over every run the map returns what the list does.
-/
import AtlasWow.Lib.OrderedMultimap
import AtlasWow.Lib.Machine
import Mathlib.Data.Finset.Option
import Mathlib.Order.Nat

namespace AtlasWow

structure EventMap where
  time : Nat
  phase : BitVec 8
  eventMap : OMultimap Nat (BitVec 32)
  lastEvent : BitVec 32

namespace EventMap

def new : EventMap := ⟨0, 0#8, .empty, 0#32⟩

/-- Times are kept in 32 bits. -/
def later (time delay : Nat) : Nat := (time + delay) % 2 ^ 32

def empty (m : EventMap) : Bool := m.eventMap.entries.isEmpty

def setPhase (phase : Nat) (m : EventMap) : EventMap :=
  if phase = 0 then { m with phase := 0#8 }
  else if phase ≤ 8 then { m with phase := BitVec.twoPow 8 (phase - 1) } else m

def addPhase (phase : Nat) (m : EventMap) : EventMap :=
  if phase ≠ 0 ∧ phase ≤ 8 then { m with phase := m.phase ||| BitVec.twoPow 8 (phase - 1) } else m

def removePhase (phase : Nat) (m : EventMap) : EventMap :=
  if phase ≠ 0 ∧ phase ≤ 8 then { m with phase := m.phase &&& ~~~BitVec.twoPow 8 (phase - 1) } else m

def groupBit (group : Nat) : BitVec 32 := BitVec.twoPow 32 (group + 15)
def phaseBit (phase : Nat) : BitVec 32 := BitVec.twoPow 32 (phase + 23)

/-- The word of an event. -/
def pack (eventId : BitVec 32) (group phase : Nat) : BitVec 32 :=
  let eventId := if group ≠ 0 ∧ group ≤ 8 then eventId ||| groupBit group else eventId
  if phase ≠ 0 ∧ phase ≤ 8 then eventId ||| phaseBit phase else eventId

def scheduleEvent (eventId : BitVec 32) (time group phase : Nat) (m : EventMap) : EventMap :=
  { m with eventMap := m.eventMap.insert (later m.time time) (pack eventId group phase) }

def update (time : Nat) (m : EventMap) : EventMap := { m with time := later m.time time }

/-- The id of a word. -/
def idOf (word : BitVec 32) : BitVec 32 := word &&& 0x0000FFFF#32

def cancelEvent (eventId : BitVec 32) (m : EventMap) : EventMap :=
  if m.empty then m else { m with eventMap := m.eventMap.filter fun _ word => eventId ≠ idOf word }

def rescheduleEvent (eventId : BitVec 32) (time group phase : Nat) (m : EventMap) : EventMap :=
  (m.cancelEvent eventId).scheduleEvent eventId time group phase

/-- `Repeat`. -/
def again (time : Nat) (m : EventMap) : EventMap :=
  { m with eventMap := m.eventMap.insert (later m.time time) m.lastEvent }

/-- An event that has a phase, none of those the map is in. -/
def dropped (phase : BitVec 8) (word : BitVec 32) : Bool :=
  phase ≠ 0#8 && (word &&& 0xFF000000#32 ≠ 0#32 && word >>> 24 &&& phase.setWidth 32 = 0#32)

/-- The rounds of `ExecuteEvent`. -/
def executeRounds : Nat → EventMap → Nat × EventMap
  | 0, m => (0, m)
  | n + 1, m =>
    match m.eventMap.entries with
    | [] => (0, m)
    | (time, word) :: _ =>
      if m.time < time then (0, m)
      else if dropped m.phase word then executeRounds n { m with eventMap := m.eventMap.popFirst }
      else ((idOf word).toNat, { m with lastEvent := word, eventMap := m.eventMap.popFirst })

/-- Each round but the last takes an entry. -/
def executeEvent (m : EventMap) : Nat × EventMap := executeRounds m.eventMap.entries.length m

def delayEvents (delay : Nat) (m : EventMap) : EventMap := { m with time := if delay < m.time then m.time - delay else 0 }

def delayGroup (delay group : Nat) (m : EventMap) : EventMap :=
  if group = 0 ∨ 8 < group ∨ m.empty then m
  else
    let inGroup := fun (_ : Nat) (word : BitVec 32) => decide (word &&& groupBit group ≠ 0#32)
    let delayed := OMultimap.empty.insertAll ((m.eventMap.filter inGroup).entries.map fun e => (later e.1 delay, e.2))
    { m with eventMap := (m.eventMap.filter fun time word => !inGroup time word).insertAll delayed.entries }

def cancelEventGroup (group : Nat) (m : EventMap) : EventMap :=
  if group = 0 ∨ 8 < group ∨ m.empty then m
  else { m with eventMap := m.eventMap.filter fun _ word => word &&& groupBit group = 0#32 }

/-- What is done to an event map. The variants with two times draw the time between them. -/
inductive Op where
  | schedule (eventId : BitVec 32) (time group phase : Nat)
  | reschedule (eventId : BitVec 32) (time group phase : Nat)
  | again (time : Nat)
  | update (time : Nat)
  | execute
  | setPhase (phase : Nat)
  | addPhase (phase : Nat)
  | removePhase (phase : Nat)
  | delayAll (delay : Nat)
  | delayGroup (delay group : Nat)
  | cancel (eventId : BitVec 32)
  | cancelGroup (group : Nat)

/-- What it returns, and the map afterwards. -/
def step : Op → EventMap → Option Nat × EventMap
  | .schedule eventId time group phase, m => (none, m.scheduleEvent eventId time group phase)
  | .reschedule eventId time group phase, m => (none, m.rescheduleEvent eventId time group phase)
  | .again time, m => (none, m.again time)
  | .update time, m => (none, m.update time)
  | .execute, m => (some m.executeEvent.1, m.executeEvent.2)
  | .setPhase phase, m => (none, m.setPhase phase)
  | .addPhase phase, m => (none, m.addPhase phase)
  | .removePhase phase, m => (none, m.removePhase phase)
  | .delayAll delay, m => (none, m.delayEvents delay)
  | .delayGroup delay group, m => (none, m.delayGroup delay group)
  | .cancel eventId, m => (none, m.cancelEvent eventId)
  | .cancelGroup group, m => (none, m.cancelEventGroup group)

/-- What a list of operations returns, and the state afterwards. -/
def run {σ : Type} (step : Op → σ → Option Nat × σ) : List Op → σ → List Nat × σ
  | [], s => ([], s)
  | op :: ops, s => ((step op s).1.toList ++ (run step ops (step op s).2).1, (run step ops (step op s).2).2)

end EventMap

/-! ## Records -/

structure EventRecord where
  id : Nat
  group : Option Nat
  phase : Option Nat
deriving DecidableEq

/-- Records with the times they are due at, in the order in which they came. -/
structure EventList where
  time : Nat
  phases : Finset Nat
  events : List (Nat × EventRecord)
  last : EventRecord

namespace EventList

def new : EventList := ⟨0, ∅, [], ⟨0, none, none⟩⟩

def schedule (record : EventRecord) (time : Nat) (a : EventList) : EventList :=
  { a with events := a.events ++ [(a.time + time, record)] }

def keep (p : EventRecord → Bool) (a : EventList) : EventList := { a with events := a.events.filter fun e => p e.2 }

/-- The first of those that are due earliest, and the rest. -/
def takeFirst : List (Nat × EventRecord) → Option ((Nat × EventRecord) × List (Nat × EventRecord))
  | [] => none
  | e :: l =>
    match takeFirst l with
    | none => some (e, [])
    | some (e', rest) => if e'.1 < e.1 then some (e', e :: rest) else some (e, l)

/-- While phases are active, an event of another phase is inactive. -/
def inactive (phases : Finset Nat) (record : EventRecord) : Bool := phases ≠ ∅ && record.phase.any (· ∉ phases)

def executeRounds : Nat → EventList → Nat × EventList
  | 0, a => (0, a)
  | n + 1, a =>
    match takeFirst a.events with
    | none => (0, a)
    | some (e, rest) =>
      if a.time < e.1 then (0, a)
      else if inactive a.phases e.2 then executeRounds n { a with events := rest }
      else (e.2.id, { a with last := e.2, events := rest })

def execute (a : EventList) : Nat × EventList := executeRounds a.events.length a

/-- The events of a group come again, later. -/
def delayGroup (delay group : Nat) (a : EventList) : EventList :=
  { a with
    events := a.events.filter (fun e => e.2.group ≠ some group) ++
      (a.events.filter fun e => e.2.group = some group).map fun e => (e.1 + delay, e.2) }

/-- Zero stands for no group and no phase. -/
def optional (n : Nat) : Option Nat := if n = 0 then none else some n

def record (eventId : BitVec 32) (group phase : Nat) : EventRecord := ⟨eventId.toNat, optional group, optional phase⟩

def step : EventMap.Op → EventList → Option Nat × EventList
  | .schedule eventId time group phase, a => (none, a.schedule (record eventId group phase) time)
  | .reschedule eventId time group phase, a =>
    (none, (a.keep fun r => r.id ≠ eventId.toNat).schedule (record eventId group phase) time)
  | .again time, a => (none, a.schedule a.last time)
  | .update time, a => (none, { a with time := a.time + time })
  | .execute, a => (some a.execute.1, a.execute.2)
  | .setPhase phase, a => (none, { a with phases := (optional phase).toFinset })
  | .addPhase phase, a => (none, { a with phases := a.phases ∪ (optional phase).toFinset })
  | .removePhase phase, a => (none, { a with phases := a.phases.erase phase })
  | .delayAll delay, a => (none, { a with time := a.time - delay })
  | .delayGroup delay group, a => (none, a.delayGroup delay group)
  | .cancel eventId, a => (none, a.keep fun r => r.id ≠ eventId.toNat)
  | .cancelGroup group, a => (none, a.keep fun r => r.group ≠ some group)

end EventList

end AtlasWow
