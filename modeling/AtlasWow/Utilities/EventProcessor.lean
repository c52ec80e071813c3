/-
`EventProcessor` (`EventProcessor.h`, `EventProcessor.cpp`): events that
execute when they are due, or are aborted. Events are known by numbers, never
used twice, in place of pointers; what the methods of an event do (`Execute`,
`Abort`, `IsDeletable` and the destructor) is input, since any event may
define them. `none` stands for a failed assertion, and for an iterator whose
entry is gone.
-/
import AtlasWow.Lib.OrderedMultimap
import AtlasWow.Lib.Machine
import Mathlib.Algebra.Group.Nat.Defs
import Mathlib.Logic.Function.Basic
import Mathlib.Order.Nat

namespace AtlasWow

inductive AbortState where
  | running
  | abortScheduled
  | aborted
deriving DecidableEq

structure BasicEvent where
  abortState : AbortState
  addTime : Nat
  execTime : Nat

/-- What an event goes through. -/
inductive EventTrace where
  | added (event : Nat)
  | executed (event : Nat) (state : AbortState)
  | aborted (event : Nat)
  | deleted (event : Nat)
deriving DecidableEq

structure EventProcessor where
  time : Nat
  events : OMultimap Nat Nat
  basicEvent : Nat → BasicEvent
  /-- The event was taken for its `Execute`, and was not added again. -/
  kept : Nat → Bool
  /-- The latest first. -/
  log : List EventTrace

/-- What a body may call. -/
inductive EventCall where
  | addEvent (event time : Nat) (setAddtime : Bool)
  | scheduleAbort (event : Nat)
  | modifyEventTime (event newTime : Nat)

/-- What the methods of an event do in one round of a loop: what they call, and what they return. -/
structure EventBodies where
  execute : List EventCall
  finished : Bool
  abort : List EventCall
  deletable : Bool
  destroy : List EventCall

namespace EventProcessor

def new : EventProcessor := ⟨0, .empty, fun _ => ⟨.running, 0, 0⟩, fun _ => false, []⟩

/-- The events in the queue. -/
def queued (m : EventProcessor) : List Nat := m.events.entries.map (·.2)

def note (trace : EventTrace) (m : EventProcessor) : EventProcessor := { m with log := trace :: m.log }

def setEvent (event : Nat) (basicEvent : BasicEvent) (m : EventProcessor) : EventProcessor :=
  { m with basicEvent := Function.update m.basicEvent event basicEvent }

/-- Times are kept in 64 bits. -/
def calculateTime (offset : Nat) (m : EventProcessor) : Nat := (m.time + offset) % 2 ^ 64

def addEvent (event time : Nat) (setAddtime : Bool) (m : EventProcessor) : EventProcessor :=
  let old := m.basicEvent event
  { m.setEvent event { old with addTime := if setAddtime then m.time else old.addTime, execTime := time } with
    events := m.events.insert time event
    kept := Function.update m.kept event false
    log := .added event :: m.log }

def scheduleAbort (event : Nat) (m : EventProcessor) : Option EventProcessor :=
  if (m.basicEvent event).abortState = .running then
    some (m.setEvent event { m.basicEvent event with abortState := .abortScheduled })
  else none

def setAborted (event : Nat) (m : EventProcessor) : Option EventProcessor :=
  if (m.basicEvent event).abortState ≠ .aborted then some (m.setEvent event { m.basicEvent event with abortState := .aborted })
  else none

def modifyEventTime (event newTime : Nat) (m : EventProcessor) : EventProcessor :=
  if event ∈ m.queued then
    { m.setEvent event { m.basicEvent event with execTime := newTime } with
      events := (m.events.eraseFirst fun _ x => x = event).insert newTime event }
  else m

def call : EventCall → EventProcessor → Option EventProcessor
  | .addEvent event time setAddtime, m => some (m.addEvent event time setAddtime)
  | .scheduleAbort event, m => m.scheduleAbort event
  | .modifyEventTime event newTime, m => some (m.modifyEventTime event newTime)

/-! ## Update -/

/-- An event is deleted: it is no longer there when its destructor runs. -/
def deleted (event : Nat) (m : EventProcessor) : EventProcessor :=
  { m with kept := Function.update m.kept event false, log := .deleted event :: m.log }

/-- The event is in the hands of its `Execute`. -/
def executing (event : Nat) (m : EventProcessor) : EventProcessor :=
  { m with
    kept := Function.update m.kept event true
    log := .executed event (m.basicEvent event).abortState :: m.log }

/-- `Abort`, where it was scheduled. -/
def abortIfScheduled (event : Nat) (bodies : EventBodies) (m : EventProcessor) : Option EventProcessor :=
  if (m.basicEvent event).abortState = .abortScheduled then
    (runSteps call bodies.abort (m.note (.aborted event))).bind (setAborted event)
  else some m

/-- What is done with an event taken from the queue. -/
def handle (event : Nat) (bodies : EventBodies) (m : EventProcessor) : Option EventProcessor :=
  if (m.basicEvent event).abortState = .running then
    (runSteps call bodies.execute (m.executing event)).bind fun m =>
      if bodies.finished then runSteps call bodies.destroy (m.deleted event) else some m
  else
    (m.abortIfScheduled event bodies).bind fun m =>
      if bodies.deletable then runSteps call bodies.destroy (m.deleted event)
      else some (m.addEvent event (m.calculateTime 1) false)

/-- The loop of `Update`, one element of the list for each round. -/
def updateRounds : List EventBodies → EventProcessor → Option EventProcessor
  | [], m => some m
  | bodies :: rest, m =>
    match m.events.entries with
    | [] => some m
    | (time, event) :: _ =>
      if time ≤ m.time then (handle event bodies { m with events := m.events.popFirst }).bind (updateRounds rest) else some m

/-- The loop goes on. -/
def due (m : EventProcessor) : Bool := m.events.entries.head?.any (·.1 ≤ m.time)

/-- `Update` with as many rounds as it takes. -/
def update (pTime : Nat) (rounds : List EventBodies) (m : EventProcessor) : Option EventProcessor :=
  (updateRounds rounds { m with time := (m.time + pTime) % 2 ^ 64 }).filter fun m => !m.due

/-! ## KillAllEvents -/

/-- Where the iterator is among the entries, and the processor. -/
abbrev Walk := Nat × EventProcessor

/-- A call while an iterator stands at an entry of some time. Entries that come before it move it on, entries that go
from before it move it back. -/
def walkCall (at' : Nat) : EventCall → Walk → Option Walk
  | .addEvent event time setAddtime, (itr, m) => some (if time < at' then itr + 1 else itr, m.addEvent event time setAddtime)
  | .scheduleAbort event, (itr, m) => (m.scheduleAbort event).map fun m => (itr, m)
  | .modifyEventTime event newTime, (itr, m) =>
    match m.events.entries.findIdx? (·.2 = event) with
    | none => some (itr, m)
    | some j =>
      if j = itr then none
      else some ((if j < itr then itr - 1 else itr) + (if newTime < at' then 1 else 0), m.modifyEventTime event newTime)

/-- `Abort`, where the event was not aborted already. -/
def killAbort (time event : Nat) (bodies : EventBodies) (w : Walk) : Option Walk :=
  if (w.2.basicEvent event).abortState = .aborted then some w
  else (w.2.setAborted event).bind fun m => runSteps (walkCall time) bodies.abort (w.1, m.note (.aborted event))

/-- What is done with the entry the iterator stands at. -/
def killRound (force : Bool) (time event : Nat) (bodies : EventBodies) (w : Walk) : Option Walk :=
  (killAbort time event bodies w).bind fun w =>
    if !force && !bodies.deletable then some (w.1 + 1, w.2)
    else (runSteps (walkCall time) bodies.destroy (w.1, w.2.deleted event)).map fun w =>
      if force then (w.1 + 1, w.2) else (w.1, { w.2 with events := w.2.events.eraseAt w.1 })

/-- The loop of `KillAllEvents`, one element of the list for each round. -/
def killRounds (force : Bool) : List EventBodies → Walk → Option Walk
  | [], w => some w
  | bodies :: rest, w =>
    match w.2.events.entries[w.1]? with
    | none => some w
    | some (time, event) => (killRound force time event bodies w).bind (killRounds force rest)

/-- `KillAllEvents` with as many rounds as it takes. -/
def killAllEvents (force : Bool) (rounds : List EventBodies) (m : EventProcessor) : Option EventProcessor :=
  ((killRounds force rounds (0, m)).filter fun w => w.2.events.entries.length ≤ w.1).map fun w =>
    if force then { w.2 with events := .empty } else w.2

inductive Op where
  | call (c : EventCall)
  | update (pTime : Nat) (rounds : List EventBodies)
  | killAllEvents (force : Bool) (rounds : List EventBodies)

def step : Op → EventProcessor → Option EventProcessor
  | .call c, m => call c m
  | .update pTime rounds, m => m.update pTime rounds
  | .killAllEvents force rounds, m => m.killAllEvents force rounds

end EventProcessor

end AtlasWow
