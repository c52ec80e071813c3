/-
A unit's movement: `MotionMaster` with its stack of movement generators.

Generators are objects the stack points to; `live` says which are allocated,
and a read through a dead pointer answers `none`, as a failed assertion or a
removal from an empty list does. What a generator's own functions do is kept as
far as the stack depends on it: the two flags that `Update` looks at, whether
`Update` may report that the movement is finished, and the base states that
`HomeMovementGenerator` clears.
-/
import AtlasWow.Lib.Machine
import AtlasWow.Lib.HandleHeap

namespace AtlasWow.Movement

/-! ## Unit states -/

abbrev UnitState := BitVec 32

def UNIT_STATE_DIED : UnitState := 0x00000001#32
def UNIT_STATE_MELEE_ATTACKING : UnitState := 0x00000002#32
def UNIT_STATE_CHARMED : UnitState := 0x00000004#32
def UNIT_STATE_STUNNED : UnitState := 0x00000008#32
def UNIT_STATE_ROAMING : UnitState := 0x00000010#32
def UNIT_STATE_CHASE : UnitState := 0x00000020#32
def UNIT_STATE_FOCUSING : UnitState := 0x00000040#32
def UNIT_STATE_FLEEING : UnitState := 0x00000080#32
def UNIT_STATE_IN_FLIGHT : UnitState := 0x00000100#32
def UNIT_STATE_FOLLOW : UnitState := 0x00000200#32
def UNIT_STATE_ROOT : UnitState := 0x00000400#32
def UNIT_STATE_CONFUSED : UnitState := 0x00000800#32
def UNIT_STATE_DISTRACTED : UnitState := 0x00001000#32
def UNIT_STATE_ISOLATED : UnitState := 0x00002000#32
def UNIT_STATE_ATTACK_PLAYER : UnitState := 0x00004000#32
def UNIT_STATE_CASTING : UnitState := 0x00008000#32
def UNIT_STATE_POSSESSED : UnitState := 0x00010000#32
def UNIT_STATE_CHARGING : UnitState := 0x00020000#32
def UNIT_STATE_JUMPING : UnitState := 0x00040000#32
def UNIT_STATE_MOVE : UnitState := 0x00100000#32
def UNIT_STATE_ROTATING : UnitState := 0x00200000#32
def UNIT_STATE_EVADE : UnitState := 0x00400000#32
def UNIT_STATE_ROAMING_MOVE : UnitState := 0x00800000#32
def UNIT_STATE_CONFUSED_MOVE : UnitState := 0x01000000#32
def UNIT_STATE_FLEEING_MOVE : UnitState := 0x02000000#32
def UNIT_STATE_CHASE_MOVE : UnitState := 0x04000000#32
def UNIT_STATE_FOLLOW_MOVE : UnitState := 0x08000000#32
def UNIT_STATE_IGNORE_PATHFINDING : UnitState := 0x10000000#32

def UNIT_STATE_ALL_STATE_SUPPORTED : UnitState :=
  UNIT_STATE_DIED ||| UNIT_STATE_MELEE_ATTACKING ||| UNIT_STATE_CHARMED ||| UNIT_STATE_STUNNED ||| UNIT_STATE_ROAMING |||
  UNIT_STATE_CHASE ||| UNIT_STATE_FOCUSING ||| UNIT_STATE_FLEEING ||| UNIT_STATE_IN_FLIGHT ||| UNIT_STATE_FOLLOW |||
  UNIT_STATE_ROOT ||| UNIT_STATE_CONFUSED ||| UNIT_STATE_DISTRACTED ||| UNIT_STATE_ISOLATED ||| UNIT_STATE_ATTACK_PLAYER |||
  UNIT_STATE_CASTING ||| UNIT_STATE_POSSESSED ||| UNIT_STATE_CHARGING ||| UNIT_STATE_JUMPING ||| UNIT_STATE_MOVE |||
  UNIT_STATE_ROTATING ||| UNIT_STATE_EVADE ||| UNIT_STATE_ROAMING_MOVE ||| UNIT_STATE_CONFUSED_MOVE |||
  UNIT_STATE_FLEEING_MOVE ||| UNIT_STATE_CHASE_MOVE ||| UNIT_STATE_FOLLOW_MOVE ||| UNIT_STATE_IGNORE_PATHFINDING

def UNIT_STATE_ALL_ERASABLE : UnitState := UNIT_STATE_ALL_STATE_SUPPORTED &&& ~~~UNIT_STATE_IGNORE_PATHFINDING

/-! ## Generators -/

inductive MovementGeneratorType where
  | idle | random | waypoint | confused | chase | home | flight | point | fleeing | distract | assistance
  | assistanceDistract | timedFleeing | follow | rotate | effect | splineChain | formation
deriving DecidableEq

/-- The classes of generators. A `GenericMovementGenerator` is given the type it answers with. -/
inductive GeneratorClass where
  | idle | rotate | distract | assistanceDistract | random | waypoint | confused | chase | home | flightPath | point
  | assistance | fleeing | timedFleeing | follow | splineChain | formation
  | generic (type : MovementGeneratorType)
deriving DecidableEq

def GeneratorClass.type : GeneratorClass → MovementGeneratorType
  | .idle => .idle
  | .rotate => .rotate
  | .distract => .distract
  | .assistanceDistract => .assistanceDistract
  | .random => .random
  | .waypoint => .waypoint
  | .confused => .confused
  | .chase => .chase
  | .home => .home
  | .flightPath => .flight
  | .point => .point
  | .assistance => .assistance
  | .fleeing => .fleeing
  | .timedFleeing => .timedFleeing
  | .follow => .follow
  | .splineChain => .splineChain
  | .formation => .formation
  | .generic type => type

/-- `Update` of these classes never answers that the movement is finished. -/
def GeneratorClass.endless : GeneratorClass → Bool
  | .idle | .random | .waypoint => true
  | _ => false

def MOTION_MODE_DEFAULT : Nat := 0

def MOTION_PRIORITY_NORMAL : Nat := 1
def MOTION_PRIORITY_HIGHEST : Nat := 2

structure MovementGenerator where
  cls : GeneratorClass
  mode : Nat
  priority : Nat
  /-- `MOVEMENTGENERATOR_FLAG_INITIALIZATION_PENDING`. -/
  initPending : Bool
  /-- `MOVEMENTGENERATOR_FLAG_DEACTIVATED`. -/
  deactivated : Bool
  baseUnitState : UnitState

def GeneratorClass.priority : GeneratorClass → Nat
  | .distract | .confused | .fleeing | .timedFleeing | .flightPath => MOTION_PRIORITY_HIGHEST
  | _ => MOTION_PRIORITY_NORMAL

def GeneratorClass.baseUnitState : GeneratorClass → UnitState
  | .idle => 0#32
  | .rotate => UNIT_STATE_ROTATING
  | .distract | .assistanceDistract => UNIT_STATE_DISTRACTED
  | .confused => UNIT_STATE_CONFUSED
  | .chase => UNIT_STATE_CHASE
  | .flightPath => UNIT_STATE_IN_FLIGHT
  | .fleeing | .timedFleeing => UNIT_STATE_FLEEING
  | .follow => UNIT_STATE_FOLLOW
  | .random | .waypoint | .home | .point | .assistance | .splineChain | .formation | .generic _ => UNIT_STATE_ROAMING

/-- The constructor of a class. -/
def GeneratorClass.create (c : GeneratorClass) : MovementGenerator :=
  ⟨c, MOTION_MODE_DEFAULT, c.priority, c ≠ .idle, false, c.baseUnitState⟩

/-- What a caller passes to `Add`: a generator of a class, with the priority and the base state it may have set. -/
structure NewGenerator where
  cls : GeneratorClass
  priority : Option Nat
  baseUnitState : Option UnitState
  notIdle : cls ≠ .idle
  launched : ∀ b ∈ baseUnitState, b = UNIT_STATE_CHARGING ∨ b = UNIT_STATE_JUMPING

theorem launched_none : ∀ b ∈ (none : Option UnitState), b = UNIT_STATE_CHARGING ∨ b = UNIT_STATE_JUMPING := nofun

def NewGenerator.create (g : NewGenerator) : MovementGenerator :=
  { g.cls.create with
    priority := g.priority.getD g.cls.priority
    baseUnitState := g.baseUnitState.getD g.cls.baseUnitState }

/-- `MovementGeneratorComparator`. -/
def generatorBefore (a b : MovementGenerator) : Bool :=
  if b.mode < a.mode then true else if a.mode = b.mode then b.priority < a.priority else false

/-! ## The stack -/

abbrev GeneratorPtr := Nat

/-- `GetIdleMovementGenerator`: the static object all units share. -/
def IDLE_GENERATOR : GeneratorPtr := 0

inductive MovementSlot where
  | default | active
deriving DecidableEq

/-- The default movement types in the generator registry. -/
inductive DefaultMovementType where
  | idle | random | waypoint
deriving DecidableEq

/-- A call of `Finalize`. -/
structure Finalized where
  generator : GeneratorPtr
  active : Bool
  movementInform : Bool

/-- The owner as far as its movement goes, the objects, and the members of `MotionMaster` but for the delayed actions. -/
structure Stack where
  unitState : UnitState
  defaultMovementType : DefaultMovementType
  object : GeneratorPtr → MovementGenerator
  live : GeneratorPtr → Bool
  next : GeneratorPtr
  /-- Calls of `Finalize`, the latest first. -/
  finalized : List Finalized
  /-- How often each object has been deleted. -/
  deleted : GeneratorPtr → Nat
  defaultGenerator : Option GeneratorPtr
  generators : List GeneratorPtr
  baseUnitStatesMap : List (UnitState × GeneratorPtr)
  /-- `MOTIONMASTER_FLAG_STATIC_INITIALIZATION_PENDING`. -/
  staticInitPending : Bool

namespace Stack

def deref (s : Stack) (p : GeneratorPtr) : Option MovementGenerator :=
  if s.live p then some (s.object p) else none

/-- Every pointer of the container can be read, as a walk through it or a comparison does. -/
def readable (s : Stack) : Bool := s.generators.all s.live

def allocate (s : Stack) (g : MovementGenerator) : Stack :=
  { s with object := Function.update s.object s.next g, live := Function.update s.live s.next true, next := s.next + 1 }

def modify (s : Stack) (p : GeneratorPtr) (g : MovementGenerator) : Stack :=
  { s with object := Function.update s.object p g }

def AddUnitState (s : Stack) (f : UnitState) : Stack := { s with unitState := s.unitState ||| f }
def ClearUnitState (s : Stack) (f : UnitState) : Stack := { s with unitState := s.unitState &&& ~~~f }
def HasUnitState (s : Stack) (f : UnitState) : Bool := s.unitState &&& f ≠ 0#32

/-! ### Calls of a generator's functions -/

/-- `SetTargetLocation` of a home generator; `held`: the owner is rooted or stunned. -/
def setHomeLocation (s : Stack) (held : Bool) : Stack :=
  if held || s.HasUnitState UNIT_STATE_DISTRACTED then s
  else s.ClearUnitState (UNIT_STATE_ALL_ERASABLE &&& ~~~UNIT_STATE_EVADE)

/-- `Initialize` of a generator. -/
def generatorInit (s : Stack) (p : GeneratorPtr) (held : Bool) : Option Stack :=
  (s.deref p).map fun g =>
    if g.cls = .idle then s
    else
      let s := s.modify p { g with initPending := false, deactivated := false }
      if g.cls = .home then s.setHomeLocation held else s

/-- `Reset` of a generator; most go on with `Initialize`. -/
def generatorReset (s : Stack) (p : GeneratorPtr) (held : Bool) : Option Stack :=
  (s.deref p).bind fun g =>
    match g.cls with
    | .idle => some s
    | .waypoint | .flightPath => some (s.modify p { g with deactivated := false })
    | _ => (s.modify p { g with deactivated := false }).generatorInit p held

def generatorDeactivate (s : Stack) (p : GeneratorPtr) : Option Stack :=
  (s.deref p).map fun g => if g.cls = .idle then s else s.modify p { g with deactivated := true }

def generatorFinalize (s : Stack) (p : GeneratorPtr) (active movementInform : Bool) : Option Stack :=
  (s.deref p).map fun _ => { s with finalized := ⟨p, active, movementInform⟩ :: s.finalized }

/-- `MovementGeneratorPointerDeleter`: the static object stays. -/
def pointerDeleter (s : Stack) (p : GeneratorPtr) : Stack :=
  if p = IDLE_GENERATOR then s
  else { s with live := Function.update s.live p false, deleted := Function.update s.deleted p (s.deleted p + 1) }

/-! ### Private methods -/

def Empty (s : Stack) : Bool := s.defaultGenerator.isNone && s.generators.isEmpty

def GetCurrentMovementGenerator (s : Stack) : Option GeneratorPtr :=
  match s.generators with
  | p :: _ => some p
  | [] => s.defaultGenerator

def addBaseUnitState (s : Stack) (p : GeneratorPtr) : Option Stack :=
  (s.deref p).map fun g =>
    if g.baseUnitState = 0#32 then s
    else { s with baseUnitStatesMap := (g.baseUnitState, p) :: s.baseUnitStatesMap }.AddUnitState g.baseUnitState

def clearBaseUnitState (s : Stack) (p : GeneratorPtr) : Option Stack :=
  (s.deref p).map fun g =>
    if g.baseUnitState = 0#32 then s
    else
      let s := { s with baseUnitStatesMap := s.baseUnitStatesMap.filter (· ≠ (g.baseUnitState, p)) }
      if s.baseUnitStatesMap.all (·.1 ≠ g.baseUnitState) then s.ClearUnitState g.baseUnitState else s

def clearBaseUnitStates (s : Stack) : Stack :=
  { s.ClearUnitState (s.baseUnitStatesMap.foldl (fun b e => b ||| e.1) 0#32) with baseUnitStatesMap := [] }

/-- `Delete`. -/
def delete (s : Stack) (p : GeneratorPtr) (active movementInform : Bool) : Option Stack :=
  (s.generatorFinalize p active movementInform).bind fun s => (s.clearBaseUnitState p).map (·.pointerDeleter p)

/-- `DeleteDefault`: the idle generator takes over. -/
def deleteDefault (s : Stack) (active movementInform : Bool) : Option Stack :=
  s.defaultGenerator.bind fun p => (s.generatorFinalize p active movementInform).map fun s =>
    { s.pointerDeleter p with defaultGenerator := some IDLE_GENERATOR, staticInitPending := true }

/-- `Remove`, on an iterator. -/
def removeAt (s : Stack) (p : GeneratorPtr) (active movementInform : Bool) : Option Stack :=
  { s with generators := s.generators.erase p }.delete p active movementInform

def pop (s : Stack) (active movementInform : Bool) : Option Stack :=
  match s.generators with
  | [] => none
  | p :: _ => s.removeAt p active movementInform

def directClear (s : Stack) : Option Stack :=
  ((if s.generators.isEmpty then some s else s.pop true false).bind
    (whileLoop (fun s => !s.generators.isEmpty) (fun s => s.pop false false) s.generators.length)).map clearBaseUnitStates

def directClearDefault (s : Stack) : Option Stack :=
  if s.defaultGenerator.isSome then s.deleteDefault s.generators.isEmpty false else some s

/-- `DirectClear`, with a filter. -/
def directClearFilter (s : Stack) (filter : MovementGenerator → Bool) : Option Stack :=
  let top := s.GetCurrentMovementGenerator
  s.generators.foldlM (fun s p => (s.deref p).bind fun g =>
    if filter g then s.removeAt p (top = some p) false else some s) s

/-- A generator goes behind those of its mode and priority. -/
def emplace (s : Stack) (p : GeneratorPtr) : Option Stack :=
  if s.live p && s.readable then
    some { s with
      generators := HandleHeap.insertSorted (fun a b => !generatorBefore (s.object a) (s.object b)) p s.generators }
  else none

def directAdd (s : Stack) (p : GeneratorPtr) : MovementSlot → Option Stack
  | .default =>
    (match s.defaultGenerator with
      | some old => (s.generatorFinalize old s.generators.isEmpty false).map fun s : Stack => s.pointerDeleter old
      | none => some s).map fun s : Stack =>
        { s with defaultGenerator := some p, staticInitPending := s.staticInitPending || p = IDLE_GENERATOR }
  | .active =>
    (match s.generators with
      | top :: _ => (s.deref p).bind fun movement => (s.deref top).bind fun t =>
        if t.priority ≤ movement.priority then
          if movement.priority = t.priority then s.removeAt top true false else s.generatorDeactivate top
        else if s.readable then
          match s.generators.find? fun a => (s.object a).priority = movement.priority with
          | some a => s.removeAt a false false
          | none => some s
        else none
      | [] => s.defaultGenerator.bind s.generatorDeactivate).bind fun s =>
        (s.emplace p).bind (·.addBaseUnitState p)

/-- `InitializeDefault`, with `FactorySelector::SelectMovementGenerator`. -/
def initDefault (s : Stack) : Option Stack :=
  match s.defaultMovementType with
  | .idle => s.directAdd IDLE_GENERATOR .default
  | .random => (s.allocate GeneratorClass.random.create).directAdd s.next .default
  | .waypoint => (s.allocate GeneratorClass.waypoint.create).directAdd s.next .default

def directInit (s : Stack) : Option Stack :=
  (s.directClearDefault.bind (·.directClear)).bind (·.initDefault)

/-! ### Public methods, while no update is in progress -/

/-- `Remove`, by pointer. `equal_range` compares with the object; where the pointer is not in the range, the iterator is
left at its end, which need not be the end of the container. -/
def directRemove (s : Stack) (p : GeneratorPtr) : MovementSlot → Option Stack
  | .default => if s.defaultGenerator = some p then s.directClearDefault else some s
  | .active =>
    if s.generators.isEmpty then some s
    else (s.deref p).bind fun movement =>
      if s.readable then
        let lower := s.generators.dropWhile fun a => generatorBefore (s.object a) movement
        let range := lower.takeWhile fun a => !generatorBefore movement (s.object a)
        let last := lower.dropWhile fun a => !generatorBefore movement (s.object a)
        match if p ∈ range then some p else last.head? with
        | some a => s.removeAt a (s.GetCurrentMovementGenerator = some a) false
        | none => some s
      else none

/-- `Remove`, by type. -/
def directRemoveType (s : Stack) (type : MovementGeneratorType) : MovementSlot → Option Stack
  | .default =>
    match s.defaultGenerator with
    | some d => (s.deref d).bind fun g => if g.cls.type = type then s.directClearDefault else some s
    | none => some s
  | .active =>
    if s.readable then
      match s.generators.find? fun a => (s.object a).cls.type = type with
      | some a => s.removeAt a (s.GetCurrentMovementGenerator = some a) false
      | none => some s
    else none

def directClearSlot (s : Stack) : MovementSlot → Option Stack
  | .default => s.directClearDefault
  | .active => s.directClear

end Stack

/-! ## Requests -/

/-- What may be asked of the stack besides adding to it. -/
inductive Change where
  | remove (p : GeneratorPtr) (slot : MovementSlot)
  | removeType (type : MovementGeneratorType) (slot : MovementSlot)
  | clear
  | clearSlot (slot : MovementSlot)
  | clearMode (mode : Nat)
  | clearPriority (priority : Nat)
  | init

/-- The closure of a `DelayedAction`: the call, made again. -/
inductive DelayedAction where
  | add (p : GeneratorPtr) (slot : MovementSlot)
  | change (c : Change)

def Stack.change (s : Stack) : Change → Option Stack
  | .remove p slot => if s.Empty then some s else s.directRemove p slot
  | .removeType type slot => if s.Empty then some s else s.directRemoveType type slot
  | .clear => if s.Empty then some s else s.directClear
  | .clearSlot slot => if s.Empty then some s else s.directClearSlot slot
  | .clearMode mode => if s.Empty then some s else s.directClearFilter (·.mode = mode)
  | .clearPriority priority => if s.Empty then some s else s.directClearFilter (·.priority = priority)
  | .init => s.directInit

def Stack.act (s : Stack) : DelayedAction → Option Stack
  | .add p slot => s.directAdd p slot
  | .change c => s.change c

structure MotionMaster where
  stack : Stack
  /-- `MOTIONMASTER_FLAG_UPDATE`. -/
  updating : Bool
  delayedActions : List DelayedAction

namespace MotionMaster

/-- The public methods: carried out at once, or delayed while an update is in progress. -/
def call (m : MotionMaster) (a : DelayedAction) : Option MotionMaster :=
  if m.updating then some { m with delayedActions := m.delayedActions ++ [a] }
  else (m.stack.act a).map fun s => { m with stack := s }

def Add (m : MotionMaster) (p : GeneratorPtr) (slot : MovementSlot) : Option MotionMaster := m.call (.add p slot)
def Remove (m : MotionMaster) (p : GeneratorPtr) (slot : MovementSlot) : Option MotionMaster := m.call (.change (.remove p slot))
def RemoveType (m : MotionMaster) (type : MovementGeneratorType) (slot : MovementSlot) : Option MotionMaster :=
  m.call (.change (.removeType type slot))
def Clear (m : MotionMaster) : Option MotionMaster := m.call (.change .clear)
def ClearSlot (m : MotionMaster) (slot : MovementSlot) : Option MotionMaster := m.call (.change (.clearSlot slot))
def ClearMode (m : MotionMaster) (mode : Nat) : Option MotionMaster := m.call (.change (.clearMode mode))
def ClearPriority (m : MotionMaster) (priority : Nat) : Option MotionMaster := m.call (.change (.clearPriority priority))
def Initialize (m : MotionMaster) : Option MotionMaster := m.call (.change .init)

end MotionMaster

/-- What a caller does: it makes a generator and adds it, adds the idle generator (`MoveIdle`), or asks for a change. The
owner's default movement type may be set at any time. -/
inductive Request where
  | add (g : NewGenerator) (slot : MovementSlot)
  | moveIdle
  | change (c : Change)
  | setDefaultMovementType (type : DefaultMovementType)

def request (m : MotionMaster) : Request → Option MotionMaster
  | .add g slot => { m with stack := m.stack.allocate g.create }.Add m.stack.next slot
  | .moveIdle => m.Add IDLE_GENERATOR .default
  | .change (.remove p slot) => m.Remove p slot
  | .change (.removeType type slot) => m.RemoveType type slot
  | .change .clear => m.Clear
  | .change (.clearSlot slot) => m.ClearSlot slot
  | .change (.clearMode mode) => m.ClearMode mode
  | .change (.clearPriority priority) => m.ClearPriority priority
  | .change .init => m.Initialize
  | .setDefaultMovementType type => some { m with stack := { m.stack with defaultMovementType := type } }

/-! ## Update -/

/-- What an update meets: the requests issued from inside the generator's functions, its answer, and the requests issued
while the AI is informed that it finished. -/
structure Tick where
  /-- The owner is rooted or stunned. -/
  held : Bool
  requests : List Request
  finished : Bool
  informed : List Request

/-- The top is brought to where it may be updated: initialized if it waits for that, and reset after a deactivation. -/
def Stack.prepare (s : Stack) (top : GeneratorPtr) (held : Bool) : Option Stack :=
  ((if s.staticInitPending && top = IDLE_GENERATOR then { s with staticInitPending := false }.generatorInit top held
    else some s).bind fun s =>
  (s.deref top).bind fun g => if g.initPending then s.generatorInit top held else some s).bind fun s =>
  (s.deref top).bind fun g => if g.deactivated then s.generatorReset top held else some s

/-- `Update`, up to the delayed actions. -/
def updateTop (m : MotionMaster) (t : Tick) : Option MotionMaster :=
  if m.stack.Empty then none
  else m.stack.GetCurrentMovementGenerator.bind fun top => (m.stack.prepare top t.held).bind fun s => (s.deref top).bind fun g =>
    if g.initPending || g.deactivated then none
    else (t.requests.foldlM request { m with stack := s, updating := true }).bind fun m =>
      (if !g.cls.endless && t.finished then
        if m.stack.GetCurrentMovementGenerator = some top then
          (m.stack.pop true true).bind fun s => t.informed.foldlM request { m with stack := s }
        else none
      else some m).map fun m => { m with updating := false }

/-- A delayed action is resolved, and leaves the queue. -/
def resolve (m : MotionMaster) : Option MotionMaster :=
  match m.delayedActions with
  | [] => none
  | a :: _ => (m.call a).map fun m => { m with delayedActions := m.delayedActions.tail }

def MotionMaster.Update (m : MotionMaster) (t : Tick) : Option MotionMaster :=
  (updateTop m t).bind fun m => whileLoop (fun m => !m.delayedActions.isEmpty) resolve m.delayedActions.length m

/-! ## Runs -/

/-- The steps of a run: a request from outside, an update up to its delayed actions, or the next of these. -/
inductive Op where
  | request (r : Request)
  | update (t : Tick)
  | resolve

def step : Op → MotionMaster → Option MotionMaster
  | .request r, m => if m.delayedActions.isEmpty then request m r else none
  | .update t, m => if m.delayedActions.isEmpty then updateTop m t else none
  | .resolve, m => resolve m

/-- The movement of a new unit. -/
def Stack.new (type : DefaultMovementType) : Stack where
  unitState := 0#32
  defaultMovementType := type
  object := fun _ => GeneratorClass.idle.create
  live := fun p => p = IDLE_GENERATOR
  next := 1
  finalized := []
  deleted := fun _ => 0
  defaultGenerator := none
  generators := []
  baseUnitStatesMap := []
  staticInitPending := false

def MotionMaster.new (type : DefaultMovementType) : MotionMaster := ⟨.new type, false, []⟩

/-- The states that runs lead an initialised unit's movement to, each step taken where it is allowed. -/
def Moving (ok : Op → MotionMaster → Prop) (m : MotionMaster) : Prop :=
  ∃ type m₀, (MotionMaster.new type).Initialize = some m₀ ∧ Reaches step ok m₀ m

end AtlasWow.Movement
