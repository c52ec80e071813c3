/-
The state of the combat and threat systems (`CombatManager.h`,
`ThreatManager.h`): the units with their two maps of combat references, the
threat managers with their lists, and the allocated reference objects. A
pointer is the number of the object it points to; a deleted object is `none`.

`Env` is what the two systems ask of the rest of the server. It may differ
from one call to the next, so a run takes an environment with each step.
-/
import AtlasWow.Lib.UnorderedMap
import AtlasWow.Lib.RoundedArith
import AtlasWow.Lib.HandleHeap
import Mathlib.Data.Prod.Lex

namespace AtlasWow.Combat

abbrev ObjectGuid := Nat

/-- The address of a `CombatReference`. -/
abbrev RefId := Nat

/-- The address of a `ThreatReference`. -/
abbrev ThreatId := Nat

/-- What the code is compiled against: the `float` arithmetic and `boost::heap`. -/
structure Platform where
  fmt : FloatFormat
  heap : HandleHeap ThreatId

/-- Exact arithmetic and a sorted list for a heap. -/
def Platform.plain : Platform := ⟨.exact, .sortedList ThreatId⟩

/-! ## Combat references -/

/-- `CombatReference`, and `PvPCombatReference` when `isPvP`. -/
structure CombatReference where
  first : ObjectGuid
  second : ObjectGuid
  isPvP : Bool
  combatTimer : Nat
  suppressFirst : Bool
  suppressSecond : Bool
deriving DecidableEq

def PVP_COMBAT_TIMEOUT : Nat := 5 * 1000

def CombatReference.getOther (ref : CombatReference) (me : ObjectGuid) : ObjectGuid :=
  if ref.first = me then ref.second else ref.first

/-- A PvE reference is never suppressed: its two flags stay down. -/
def CombatReference.isSuppressedFor (ref : CombatReference) (who : ObjectGuid) : Bool :=
  if who = ref.first then ref.suppressFirst else ref.suppressSecond

def CombatReference.suppress (ref : CombatReference) (who : ObjectGuid) : CombatReference :=
  if who = ref.first then { ref with suppressFirst := true } else { ref with suppressSecond := true }

/-- What a unit keeps of its combat: `UNIT_FLAG_IN_COMBAT`,
`UNIT_FLAG_PET_IN_COMBAT`, `m_isEngaged` and the maps of its `CombatManager`. -/
structure Unit where
  inCombat : Bool
  petInCombat : Bool
  isEngaged : Bool
  pveRefs : UMap ObjectGuid RefId
  pvpRefs : UMap ObjectGuid RefId

def Unit.idle : Unit := ⟨false, false, false, .empty, .empty⟩

structure CombatState where
  unit : ObjectGuid → Unit
  refs : RefId → Option CombatReference
  nextRef : RefId

def CombatState.init : CombatState := ⟨fun _ => .idle, fun _ => none, 0⟩

/-! ## Threat references -/

inductive OnlineState where
  | offline | suppressed | online
deriving DecidableEq

def OnlineState.toNat : OnlineState → Nat
  | .offline => 0
  | .suppressed => 1
  | .online => 2

def TAUNT_STATE_DETAUNT : Nat := 0
def TAUNT_STATE_NONE : Nat := 1
def TAUNT_STATE_TAUNT : Nat := 2

structure ThreatReference (fmt : FloatFormat) where
  owner : ObjectGuid
  victim : ObjectGuid
  online : OnlineState
  baseAmount : Fl fmt
  tempModifier : Int
  taunted : Nat

namespace ThreatReference

variable {fmt : FloatFormat} (ref : ThreatReference fmt)

def getThreat : Fl fmt := max (ref.baseAmount + .ofInt ref.tempModifier) 0
def isOnline : Bool := 2 ≤ ref.online.toNat
def isAvailable : Bool := 0 < ref.online.toNat
def isSuppressed : Bool := ref.online = .suppressed
def isOffline : Bool := ref.online.toNat ≤ 0
def isTaunting : Bool := TAUNT_STATE_TAUNT ≤ ref.taunted

end ThreatReference

/-- Where a reference stands under `CompareReferencesLT`: by online state, then
taunt state, then threat. -/
abbrev Position (fmt : FloatFormat) := Nat ×ₗ Nat ×ₗ Fl fmt

def ThreatReference.position {fmt : FloatFormat} (ref : ThreatReference fmt) : Position fmt :=
  toLex (ref.online.toNat, toLex (ref.taunted, ref.getThreat))

/-- A call of `HeapNotifyIncreased` or `HeapNotifyDecreased`: where the heap had
last put the reference, and where it stands now. -/
structure HeapNotify (fmt : FloatFormat) where
  ref : ThreatId
  increased : Bool
  before : Option (Position fmt)
  after : Position fmt

structure ThreatManager (P : Platform) where
  ownerCanHaveThreatList : Bool
  needClientUpdate : Bool
  updateTimer : Nat
  sortedThreatList : P.heap.Carrier
  myThreatListEntries : UMap ObjectGuid ThreatId
  currentVictimRef : Option ThreatId
  fixateRef : Option ThreatId
  threatenedByMe : UMap ObjectGuid ThreatId
  singleSchoolModifiers : Nat → Fl P.fmt
  multiSchoolModifiers : UMap Nat (Fl P.fmt)
  redirectInfo : List (ObjectGuid × Nat)
  redirectRegistry : UMap Nat (UMap ObjectGuid Nat)

def THREAT_UPDATE_INTERVAL : Nat := 1000

def ThreatManager.init (P : Platform) (canHaveThreatList : Bool) : ThreatManager P where
  ownerCanHaveThreatList := canHaveThreatList
  needClientUpdate := false
  updateTimer := THREAT_UPDATE_INTERVAL
  sortedThreatList := P.heap.empty
  myThreatListEntries := .empty
  currentVictimRef := none
  fixateRef := none
  threatenedByMe := .empty
  singleSchoolModifiers := fun _ => 1
  multiSchoolModifiers := .empty
  redirectInfo := []
  redirectRegistry := .empty

/-- `inPlace` and `heapLog` are not in the source: they record where each heap
last put a reference and every notification the heaps were given. -/
structure ThreatState (P : Platform) where
  mgr : ObjectGuid → ThreatManager P
  refs : ThreatId → Option (ThreatReference P.fmt)
  nextRef : ThreatId
  inPlace : ThreatId → Option (Position P.fmt)
  heapLog : List (HeapNotify P.fmt)

def ThreatState.init (P : Platform) (canHaveThreatList : ObjectGuid → Bool) : ThreatState P :=
  ⟨fun u => .init P (canHaveThreatList u), fun _ => none, 0, fun _ => none, []⟩

structure World (P : Platform) where
  combat : CombatState
  threat : ThreatState P

/-- The units just created: no combat, no threat. -/
def World.init (P : Platform) (canHaveThreatList : ObjectGuid → Bool) : World P :=
  ⟨.init, .init P canHaveThreatList⟩

/-! ## The rest of the server -/

structure SpellInfo where
  id : Nat
  noThreat : Bool
  noInitialAggro : Bool
  schoolMask : Nat

structure Env (P : Platform) where
  /-- Where the hash tables put new entries. -/
  place : Placement ObjectGuid Nat
  placeSchool : Placement Nat (Fl P.fmt)
  placeSpell : Placement Nat (UMap ObjectGuid Nat)
  /-- How deep calls of `AddThreat` may nest. -/
  callDepth : Nat
  -- asked by `CanBeginCombat`
  isInWorld : ObjectGuid → Bool
  isAlive : ObjectGuid → Bool
  getMap : ObjectGuid → Nat
  inSamePhase : ObjectGuid → ObjectGuid → Bool
  isEvading : ObjectGuid → Bool
  isInFlight : ObjectGuid → Bool
  isFriendlyTo : ObjectGuid → ObjectGuid → Bool
  charmerOrOwnerPlayerOrPlayerItself : ObjectGuid → Option ObjectGuid
  isGameMaster : ObjectGuid → Bool
  -- asked by the combat manager
  isControlledByPlayer : ObjectGuid → Bool
  isCreatureWithAI : ObjectGuid → Bool
  charmerOrOwner : ObjectGuid → Option ObjectGuid
  controlled : ObjectGuid → List ObjectGuid
  isImmuneToPC : ObjectGuid → Bool
  isImmuneToNPC : ObjectGuid → Bool
  isPlayerControlled : ObjectGuid → Bool
  isWithinDistInMap : ObjectGuid → ObjectGuid → ℚ → Bool
  -- asked by the threat references
  canSeeOrDetect : ObjectGuid → ObjectGuid → Bool
  isTargetAcceptable : ObjectGuid → ObjectGuid → Bool
  canCreatureAttack : ObjectGuid → ObjectGuid → Bool
  isTrigger : ObjectGuid → Bool
  /-- Immune to the owner's melee damage school. -/
  isImmunedToDamage : ObjectGuid → ObjectGuid → Bool
  hasConfuseAura : ObjectGuid → Bool
  hasBreakableStunAura : ObjectGuid → Bool
  hasDetauntAuraFrom : ObjectGuid → ObjectGuid → Bool
  -- asked by the threat manager
  tauntCasters : ObjectGuid → List ObjectGuid
  totalThreatAuras : ObjectGuid → List Int
  vehicleBase : ObjectGuid → Option ObjectGuid
  isAccessory : ObjectGuid → Bool
  canFindUnit : ObjectGuid → ObjectGuid → Bool
  isWithinMeleeRange : ObjectGuid → ObjectGuid → Bool
  isUnderControl : ObjectGuid → Bool
  spellThreatPct : Nat → Option (Fl P.fmt)
  applySpellMod : ObjectGuid → Nat → Fl P.fmt → Fl P.fmt
  auraThreatMultiplier : ObjectGuid → Nat → Fl P.fmt

/-- Everybody is in the world, alive and hostile; nobody is under any effect. -/
def Env.openField (P : Platform) : Env P where
  place := .front _ _
  placeSchool := .front _ _
  placeSpell := .front _ _
  callDepth := 4
  isInWorld := fun _ => true
  isAlive := fun _ => true
  getMap := fun _ => 0
  inSamePhase := fun _ _ => true
  isEvading := fun _ => false
  isInFlight := fun _ => false
  isFriendlyTo := fun _ _ => false
  charmerOrOwnerPlayerOrPlayerItself := fun _ => none
  isGameMaster := fun _ => false
  isControlledByPlayer := fun _ => false
  isCreatureWithAI := fun _ => false
  charmerOrOwner := fun _ => none
  controlled := fun _ => []
  isImmuneToPC := fun _ => false
  isImmuneToNPC := fun _ => false
  isPlayerControlled := fun _ => false
  isWithinDistInMap := fun _ _ _ => true
  canSeeOrDetect := fun _ _ => true
  isTargetAcceptable := fun _ _ => true
  canCreatureAttack := fun _ _ => true
  isTrigger := fun _ => false
  isImmunedToDamage := fun _ _ => false
  hasConfuseAura := fun _ => false
  hasBreakableStunAura := fun _ => false
  hasDetauntAuraFrom := fun _ _ => false
  tauntCasters := fun _ => []
  totalThreatAuras := fun _ => []
  vehicleBase := fun _ => none
  isAccessory := fun _ => false
  canFindUnit := fun _ _ => true
  isWithinMeleeRange := fun _ _ => true
  isUnderControl := fun _ => false
  spellThreatPct := fun _ => none
  applySpellMod := fun _ _ x => x
  auraThreatMultiplier := fun _ _ => 1

end AtlasWow.Combat
