/-
A row of the table `conditions`: when an object meets it, and the types of
objects that can, as `ConditionMgr.cpp` has them. What the condition asks of an
object is a parameter (`World`); the row is one that `LoadConditions` accepts.
The condition that failed last is left out.
-/
import Mathlib.Algebra.Order.Ring.Unbundled.Rat

namespace AtlasWow.Conditions

/-- The types of world objects. -/
inductive TypeId where
  | unit | player | gameObject | dynamicObject | corpse
  deriving DecidableEq, Repr, Inhabited

def TypeId.toNat : TypeId → Nat
  | .unit => 3
  | .player => 4
  | .gameObject => 5
  | .dynamicObject => 6
  | .corpse => 7

def TYPEMASK_UNIT : Nat := 0x08
def TYPEMASK_PLAYER : Nat := 0x10
def TYPEMASK_GAMEOBJECT : Nat := 0x20
def TYPEMASK_CORPSE : Nat := 0x80

/-- The types that a type mask of a condition may have. -/
def TYPEMASK_SEARCHED : Nat := TYPEMASK_UNIT ||| TYPEMASK_PLAYER ||| TYPEMASK_GAMEOBJECT ||| TYPEMASK_CORPSE

/-- `m_objectType`, with TYPEMASK_OBJECT. -/
def TypeId.objectType : TypeId → Nat
  | .unit => 0x09
  | .player => 0x19
  | .gameObject => 0x21
  | .dynamicObject => 0x41
  | .corpse => 0x81

/-- The place of a type in a grid map type mask. -/
def TypeId.gridBit : TypeId → Nat
  | .corpse => 0
  | .unit => 1
  | .dynamicObject => 2
  | .gameObject => 3
  | .player => 4

def GRID_MAP_TYPE_MASK_CORPSE : Nat := 0x01
def GRID_MAP_TYPE_MASK_CREATURE : Nat := 0x02
def GRID_MAP_TYPE_MASK_GAMEOBJECT : Nat := 0x08
def GRID_MAP_TYPE_MASK_PLAYER : Nat := 0x10
def GRID_MAP_TYPE_MASK_ALL : Nat := 0x1F

inductive QuestStatus where
  | none | complete | incomplete | failed | rewarded
  deriving DecidableEq, Repr, Inhabited

/-- The bit of a status in a state mask. -/
def QuestStatus.bit : QuestStatus → Nat
  | .none => 1
  | .complete => 2
  | .incomplete => 8
  | .failed => 32
  | .rewarded => 64

inductive ConditionType where
  | none | aura | item | itemEquipped | zoneId | reputationRank | team | skill | questRewarded | questTaken
  | drunkenState | worldState | activeEvent | instanceInfo | questNone | «class» | race | achievement | title | spawnMask
  | gender | unitState | mapId | areaId | creatureType | spell | phaseMask | level | questComplete | nearCreature
  | nearGameObject | objectEntryGuid | typeMask | relationTo | reactionTo | distanceTo | alive | hpVal | hpPct
  | realmAchievement | inWater | terrainSwap | standState | dailyQuestDone | charmed | petType | taxi | questState
  | questObjectiveProgress | gameMaster
  deriving DecidableEq, Repr

def MAX_QUEST_LOG_SIZE : Nat := 25

/-- What an instance script answers. -/
structure InstanceScript where
  getData : Nat → Nat
  getGuidData : Nat → Nat
  getBossState : Nat → Nat
  getData64 : Nat → Nat
  deriving Inhabited

/-- What is asked of objects, and of the world. Distances and percentages are single precision numbers. -/
structure World (Obj : Type) where
  getTypeId : Obj → TypeId
  hasAuraEffect : Obj → Nat → Nat → Bool
  hasItemCount : Obj → Nat → Nat → Bool → Bool
  hasItemOrGemWithIdEquipped : Obj → Nat → Nat → Bool
  getZoneId : Obj → Nat
  factionExists : Nat → Bool
  getReputationRank : Obj → Nat → Nat
  hasAchieved : Obj → Nat → Bool
  getTeam : Obj → Nat
  getClassMask : Obj → Nat
  getRaceMask : Obj → Nat
  getGender : Obj → Nat
  hasSkill : Obj → Nat → Bool
  getBaseSkillValue : Obj → Nat → Nat
  getQuestRewardStatus : Obj → Nat → Bool
  getQuestStatus : Obj → Nat → QuestStatus
  isActiveEvent : Nat → Bool
  isDungeon : Obj → Bool
  getInstanceScript : Obj → Option InstanceScript
  getMapId : Obj → Nat
  getAreaId : Obj → Nat
  hasSpell : Obj → Nat → Bool
  getLevel : Obj → Nat
  getDrunkenstate : Obj → Nat
  toFloat : Nat → ℚ
  findNearestCreature : Obj → Nat → ℚ → Bool → Bool
  findNearestGameObject : Obj → Nat → ℚ → Bool
  getEntry : Obj → Nat
  getSpawnId : Obj → Nat
  same : Obj → Obj → Bool
  isInPartyWith : Obj → Obj → Bool
  isInRaidWith : Obj → Obj → Bool
  getOwnerGUID : Obj → Nat
  getCreatorGUID : Obj → Nat
  getGUID : Obj → Nat
  isOnVehicle : Obj → Obj → Bool
  getReactionTo : Obj → Obj → Nat
  getDistance : Obj → Obj → ℚ
  isAlive : Obj → Bool
  getHealth : Obj → Nat
  getHealthPct : Obj → ℚ
  getWorldState : Nat → Nat
  getPhaseMask : Obj → Nat
  hasTitle : Obj → Nat → Bool
  getSpawnMode : Obj → Nat
  hasUnitState : Obj → Nat → Bool
  /-- `GetCreatureTemplate()->type`. -/
  creatureType : Obj → Nat
  /-- There is such an achievement, and the realm has it. -/
  isRealmCompleted : Nat → Bool
  isInWater : Obj → Bool
  getStandState : Obj → Nat
  isStandState : Obj → Bool
  isSitState : Obj → Bool
  isDailyQuestDone : Obj → Nat → Bool
  isCharmed : Obj → Bool
  /-- The type of the player's pet. -/
  getPetType : Obj → Option Nat
  isInFlight : Obj → Bool
  findQuestSlot : Obj → Nat → Nat
  getQuestSlotCounter : Obj → Nat → Nat → Nat
  canBeGameMaster : Obj → Bool
  isGameMaster : Obj → Bool
  deriving Inhabited

/-- `CompareValues`: of other comparisons, which the loader refuses, nothing is made. -/
def compareValues {α : Type} [LinearOrder α] (type : Nat) (val1 val2 : α) : Bool :=
  match type with
  | 0 => val1 = val2
  | 1 => val2 < val1
  | 2 => val1 < val2
  | 3 => val2 ≤ val1
  | 4 => val1 ≤ val2
  | _ => false

/-- A row, with a reference to a template or a condition type that `isConditionTypeValid` accepts. -/
structure Condition where
  elseGroup : Nat
  conditionType : ConditionType
  conditionValue1 : Nat
  conditionValue2 : Nat
  conditionValue3 : Nat
  referenceId : Nat
  conditionTarget : Fin 3
  negativeCondition : Bool
  accepted : referenceId ≠ 0 ∨ conditionType ≠ .none ∧ conditionType ≠ .terrainSwap ∧
    (conditionType = .objectEntryGuid → conditionValue1 ∈ [TypeId.unit, .player, .gameObject, .corpse].map TypeId.toNat) ∧
    (conditionType = .typeMask → conditionValue1 ≠ 0 ∧ conditionValue1 &&& TYPEMASK_SEARCHED = conditionValue1)

/-- `ConditionSourceInfo`: the searched object, the caster. -/
abbrev Targets (Obj : Type) : Type := Fin 3 → Option Obj

namespace Condition

def isLoaded (c : Condition) : Bool := c.conditionType ≠ .none || c.referenceId ≠ 0

section

variable {Obj : Type} (w : World Obj)

def isType (object : Obj) (mask : Nat) : Bool := (w.getTypeId object).objectType &&& mask ≠ 0

/-- `if (Unit* unit = object->ToUnit())`. -/
def asUnit (object : Obj) (check : Obj → Bool) : Bool := isType w object TYPEMASK_UNIT && check object

def asPlayer (object : Obj) (check : Obj → Bool) : Bool := w.getTypeId object = .player && check object

def asCreature (object : Obj) (check : Obj → Bool) : Bool := w.getTypeId object = .unit && check object

/-- The relations of a unit to another. -/
def relation (type : Nat) (unit toUnit : Obj) : Bool :=
  match type with
  | 0 => w.same unit toUnit
  | 1 => w.isInPartyWith unit toUnit
  | 2 => w.isInRaidWith unit toUnit
  | 3 => w.getOwnerGUID unit = w.getGUID toUnit
  | 4 => w.isOnVehicle unit toUnit
  | 5 => w.getCreatorGUID unit = w.getGUID toUnit
  | _ => false

def instanceInfo (script : InstanceScript) (entry data type : Nat) : Bool :=
  match type with
  | 0 => script.getData entry = data
  | 1 => script.getGuidData entry = data
  | 2 => script.getBossState entry = data
  | 3 => script.getData64 entry = data
  | _ => false

/-- The switch of `Meets`, for the object that the condition tests. -/
def condMeets (c : Condition) (targets : Targets Obj) (object : Obj) : Bool :=
  let value1 := c.conditionValue1
  let value2 := c.conditionValue2
  let value3 := c.conditionValue3
  -- the target that the first value selects
  let toObject := if h : value1 < 3 then targets ⟨value1, h⟩ else none
  match c.conditionType with
  | .none => true
  | .aura => asUnit w object (w.hasAuraEffect · value1 value2)
  | .item => asPlayer w object (w.hasItemCount · value1 value2 (value3 ≠ 0))
  | .itemEquipped => asPlayer w object (w.hasItemOrGemWithIdEquipped · value1 1)
  | .zoneId => w.getZoneId object = value1
  | .reputationRank => asPlayer w object fun player =>
      w.factionExists value1 && value2 &&& (1 <<< w.getReputationRank player value1) ≠ 0
  | .achievement => asPlayer w object (w.hasAchieved · value1)
  | .team => asPlayer w object fun player => w.getTeam player = value1
  | .class => asUnit w object fun unit => w.getClassMask unit &&& value1 ≠ 0
  | .race => asUnit w object fun unit => w.getRaceMask unit &&& value1 ≠ 0
  | .gender => asPlayer w object fun player => w.getGender player = value1
  | .skill => asPlayer w object fun player => w.hasSkill player value1 && value2 ≤ w.getBaseSkillValue player value1
  | .questRewarded => asPlayer w object (w.getQuestRewardStatus · value1)
  | .questTaken => asPlayer w object fun player => w.getQuestStatus player value1 = .incomplete
  | .questComplete => asPlayer w object fun player =>
      w.getQuestStatus player value1 = .complete && !w.getQuestRewardStatus player value1
  | .questNone => asPlayer w object fun player => w.getQuestStatus player value1 = .none
  | .activeEvent => w.isActiveEvent value1
  | .instanceInfo => w.isDungeon object && (w.getInstanceScript object).any (instanceInfo · value1 value2 value3)
  | .mapId => w.getMapId object = value1
  | .areaId => w.getAreaId object = value1
  | .spell => asPlayer w object (w.hasSpell · value1)
  | .level => asUnit w object fun unit => compareValues value2 (w.getLevel unit) value1
  | .drunkenState => asPlayer w object fun player => value1 ≤ w.getDrunkenstate player
  | .nearCreature => w.findNearestCreature object value1 (w.toFloat value2) (value3 = 0)
  | .nearGameObject => w.findNearestGameObject object value1 (w.toFloat value2)
  | .objectEntryGuid =>
      (w.getTypeId object).toNat = value1 && (value2 = 0 || w.getEntry object = value2) &&
        (value3 = 0 ||
          match w.getTypeId object with
          | .unit => w.getSpawnId object = value3
          | .gameObject => w.getSpawnId object = value3
          | _ => true)
  | .typeMask => isType w object value1
  | .relationTo => toObject.any fun toObject =>
      asUnit w toObject fun toUnit => asUnit w object fun unit => relation w value2 unit toUnit
  | .reactionTo => toObject.any fun toObject =>
      asUnit w toObject fun toUnit => asUnit w object fun unit => (1 <<< w.getReactionTo unit toUnit) &&& value2 ≠ 0
  | .distanceTo => toObject.any fun toObject => compareValues value3 (w.getDistance object toObject) (w.toFloat value2)
  | .alive => asUnit w object w.isAlive
  | .hpVal => asUnit w object fun unit => compareValues value2 (w.getHealth unit) value1
  | .hpPct => asUnit w object fun unit => compareValues value2 (w.getHealthPct unit) (w.toFloat value1)
  | .worldState => value2 = w.getWorldState value1
  | .phaseMask => w.getPhaseMask object &&& value1 ≠ 0
  | .title => asPlayer w object (w.hasTitle · value1)
  | .spawnMask => (1 <<< w.getSpawnMode object) &&& value1 ≠ 0
  | .unitState => asUnit w object (w.hasUnitState · value1)
  | .creatureType => asCreature w object fun creature => w.creatureType creature = value1
  | .realmAchievement => w.isRealmCompleted value1
  | .inWater => asUnit w object w.isInWater
  | .standState => asUnit w object fun unit =>
      if value1 = 0 then w.getStandState unit = value2
      else if value2 = 0 then w.isStandState unit
      else if value2 = 1 then w.isSitState unit
      else false
  | .dailyQuestDone => asPlayer w object (w.isDailyQuestDone · value1)
  | .charmed => asUnit w object w.isCharmed
  | .petType => asPlayer w object fun player => (w.getPetType player).any fun type => (1 <<< type) &&& value1 ≠ 0
  | .taxi => asPlayer w object w.isInFlight
  | .questState => asPlayer w object fun player =>
      let has := fun status : QuestStatus => value2 &&& status.bit ≠ 0
      has .none && w.getQuestStatus player value1 = .none ||
        has .complete && w.getQuestStatus player value1 = .complete ||
        has .incomplete && w.getQuestStatus player value1 = .incomplete ||
        has .failed && w.getQuestStatus player value1 = .failed ||
        has .rewarded && w.getQuestRewardStatus player value1
  | .questObjectiveProgress => asPlayer w object fun player =>
      let logSlot := w.findQuestSlot player value1
      logSlot < MAX_QUEST_LOG_SIZE && w.getQuestSlotCounter player logSlot value2 = value3
  | .gameMaster => asPlayer w object fun player =>
      if value1 = 1 then w.canBeGameMaster player else w.isGameMaster player
  | .terrainSwap => false

/-- `Meets`; the scripts may forbid it (`OnConditionCheck`). -/
def meets (onConditionCheck : Condition → Targets Obj → Bool) (c : Condition) (targets : Targets Obj) : Bool :=
  match targets c.conditionTarget with
  | none => false
  | some object => (condMeets w c targets object != c.negativeCondition) && onConditionCheck c targets

end

/-- `GetSearcherTypeMaskForCondition`: `none` where it asserts. -/
def getSearcherTypeMask (c : Condition) : Option Nat :=
  if c.negativeCondition then some GRID_MAP_TYPE_MASK_ALL
  else match c.conditionType with
  | .none | .zoneId | .activeEvent | .instanceInfo | .mapId | .areaId | .nearCreature | .nearGameObject | .distanceTo
  | .worldState | .phaseMask | .spawnMask | .realmAchievement => some GRID_MAP_TYPE_MASK_ALL
  | .aura | .class | .race | .level | .relationTo | .reactionTo | .alive | .hpVal | .hpPct | .unitState | .inWater
  | .standState | .charmed => some (GRID_MAP_TYPE_MASK_CREATURE ||| GRID_MAP_TYPE_MASK_PLAYER)
  | .item | .itemEquipped | .reputationRank | .achievement | .team | .skill | .questRewarded | .questTaken
  | .questComplete | .questNone | .spell | .drunkenState | .title | .gender | .dailyQuestDone | .petType | .taxi
  | .questState | .questObjectiveProgress | .gameMaster => some GRID_MAP_TYPE_MASK_PLAYER
  | .creatureType => some GRID_MAP_TYPE_MASK_CREATURE
  | .objectEntryGuid =>
    if c.conditionValue1 = TypeId.unit.toNat then some GRID_MAP_TYPE_MASK_CREATURE
    else if c.conditionValue1 = TypeId.player.toNat then some GRID_MAP_TYPE_MASK_PLAYER
    else if c.conditionValue1 = TypeId.gameObject.toNat then some GRID_MAP_TYPE_MASK_GAMEOBJECT
    else if c.conditionValue1 = TypeId.corpse.toNat then some GRID_MAP_TYPE_MASK_CORPSE
    else some 0
  | .typeMask =>
    some
      ((if c.conditionValue1 &&& TYPEMASK_UNIT ≠ 0 then GRID_MAP_TYPE_MASK_CREATURE ||| GRID_MAP_TYPE_MASK_PLAYER else 0) |||
        (if c.conditionValue1 &&& TYPEMASK_PLAYER ≠ 0 then GRID_MAP_TYPE_MASK_PLAYER else 0) |||
        (if c.conditionValue1 &&& TYPEMASK_GAMEOBJECT ≠ 0 then GRID_MAP_TYPE_MASK_GAMEOBJECT else 0) |||
        (if c.conditionValue1 &&& TYPEMASK_CORPSE ≠ 0 then GRID_MAP_TYPE_MASK_CORPSE else 0))
  | .terrainSwap => none

/-- The searched types have the type of an object: the condition is for it. -/
def Admits (type : TypeId) (c : Condition) : Prop :=
  ∃ mask, c.getSearcherTypeMask = some mask ∧ mask.testBit type.gridBit = true

section

variable {Obj : Type} {w : World Obj} {c : Condition} {targets : Targets Obj} {object : Obj}
  {onConditionCheck : Condition → Targets Obj → Bool}

theorem all_testBit (type : TypeId) : GRID_MAP_TYPE_MASK_ALL.testBit type.gridBit = true := by
  cases type <;> decide

variable {check : Obj → Bool}

theorem asUnit_type (h : asUnit w object check = true) : w.getTypeId object = .unit ∨ w.getTypeId object = .player := by
  have htype := (Bool.and_eq_true_iff.1 h).1
  unfold isType at htype
  cases hobject : w.getTypeId object with
  | unit => exact .inl rfl
  | player => exact .inr rfl
  | gameObject | dynamicObject | corpse =>
    rw [hobject] at htype
    exact absurd htype (by decide)

theorem unit_testBit {type : TypeId} (h : type = .unit ∨ type = .player) :
    (GRID_MAP_TYPE_MASK_CREATURE ||| GRID_MAP_TYPE_MASK_PLAYER).testBit type.gridBit = true := by
  rcases h with rfl | rfl <;> decide

theorem asPlayer_type (h : asPlayer w object check = true) : w.getTypeId object = .player :=
  of_decide_eq_true (Bool.and_eq_true_iff.1 h).1

theorem asCreature_type (h : asCreature w object check = true) : w.getTypeId object = .unit :=
  of_decide_eq_true (Bool.and_eq_true_iff.1 h).1

/-- A type mask of searched types, and the bits of an object. -/
theorem isType_searched {v m : Nat} (hv : v &&& TYPEMASK_SEARCHED = v) : m &&& v = v &&& (m &&& TYPEMASK_SEARCHED) := by
  calc m &&& v = m &&& (v &&& TYPEMASK_SEARCHED) := by rw [hv]
    _ = v &&& (m &&& TYPEMASK_SEARCHED) := by rw [← Nat.and_assoc, Nat.and_comm m v, Nat.and_assoc]

/-- What a negated condition asks for is never restricted. -/
theorem admits_negative (h : c.negativeCondition = true) (type : TypeId) : Admits type c := by
  refine ⟨_, ?_, all_testBit type⟩
  unfold getSearcherTypeMask
  rw [if_pos h]

/-- An object of another type than those searched for is not met. -/
theorem admits_of_condMeets (hpositive : c.negativeCondition = false) (hown : c.referenceId = 0)
    (hmeets : condMeets w c targets object = true) : Admits (w.getTypeId object) c := by
  obtain ⟨-, hswap, hguid, hmask⟩ := c.accepted.resolve_left (fun h => h hown)
  unfold Admits getSearcherTypeMask
  rw [hpositive, if_neg Bool.false_ne_true]
  unfold condMeets at hmeets
  dsimp only at hmeets
  cases htype : c.conditionType with
  | none | zoneId | activeEvent | instanceInfo | mapId | areaId | nearCreature | nearGameObject | distanceTo | worldState
  | phaseMask | spawnMask | realmAchievement => exact ⟨_, rfl, all_testBit _⟩
  | aura | «class» | race | level | alive | hpVal | hpPct | unitState | inWater | standState | charmed =>
    rw [htype] at hmeets
    exact ⟨_, rfl, unit_testBit (asUnit_type hmeets)⟩
  | relationTo | reactionTo =>
    rw [htype] at hmeets
    obtain ⟨toObject, -, hto⟩ := (Option.any_eq_true ..).1 hmeets
    exact ⟨_, rfl, unit_testBit (asUnit_type (Bool.and_eq_true_iff.1 hto).2)⟩
  | item | itemEquipped | reputationRank | achievement | team | skill | questRewarded | questTaken | questComplete
  | questNone | spell | drunkenState | title | gender | dailyQuestDone | petType | taxi | questState
  | questObjectiveProgress | gameMaster =>
    rw [htype] at hmeets
    exact ⟨_, rfl, by rw [asPlayer_type hmeets]; decide⟩
  | creatureType =>
    rw [htype] at hmeets
    exact ⟨_, rfl, by rw [asCreature_type hmeets]; decide⟩
  | objectEntryGuid =>
    rw [htype] at hmeets
    obtain ⟨hentry, -⟩ := Bool.and_eq_true_iff.1 hmeets
    have hvalue := (of_decide_eq_true (Bool.and_eq_true_iff.1 hentry).1).symm
    have hsearched := hguid htype
    dsimp only
    rw [hvalue] at hsearched ⊢
    cases hobject : w.getTypeId object with
    | unit | player | gameObject | corpse => exact ⟨_, rfl, by decide⟩
    | dynamicObject =>
      rw [hobject] at hsearched
      exact absurd hsearched (by decide)
  | typeMask =>
    rw [htype] at hmeets
    refine ⟨_, rfl, ?_⟩
    have hbits : c.conditionValue1 &&& ((w.getTypeId object).objectType &&& TYPEMASK_SEARCHED) ≠ 0 := by
      rw [← isType_searched (hmask htype).2]
      exact of_decide_eq_true hmeets
    rw [Nat.testBit_or, Nat.testBit_or, Nat.testBit_or]
    cases hobject : w.getTypeId object with
    | unit =>
      rw [hobject, show TypeId.unit.objectType &&& TYPEMASK_SEARCHED = TYPEMASK_UNIT by decide] at hbits
      have hbit : (GRID_MAP_TYPE_MASK_CREATURE ||| GRID_MAP_TYPE_MASK_PLAYER).testBit TypeId.unit.gridBit = true := by
        decide
      rw [if_pos hbits, hbit, Bool.true_or, Bool.true_or, Bool.true_or]
    | player =>
      rw [hobject, show TypeId.player.objectType &&& TYPEMASK_SEARCHED = TYPEMASK_UNIT ||| TYPEMASK_PLAYER by decide,
        Nat.and_or_distrib_left] at hbits
      by_cases hunit : c.conditionValue1 &&& TYPEMASK_UNIT ≠ 0
      · have hbit : (GRID_MAP_TYPE_MASK_CREATURE ||| GRID_MAP_TYPE_MASK_PLAYER).testBit TypeId.player.gridBit = true := by
          decide
        rw [if_pos hunit, hbit, Bool.true_or, Bool.true_or, Bool.true_or]
      have hplayer : c.conditionValue1 &&& TYPEMASK_PLAYER ≠ 0 := fun h => hbits (by
        rw [not_not.1 hunit, h, Nat.or_zero])
      have hbit : GRID_MAP_TYPE_MASK_PLAYER.testBit TypeId.player.gridBit = true := by decide
      rw [if_pos hplayer, hbit, Bool.or_true, Bool.true_or, Bool.true_or]
    | gameObject =>
      rw [hobject, show TypeId.gameObject.objectType &&& TYPEMASK_SEARCHED = TYPEMASK_GAMEOBJECT by decide] at hbits
      have hbit : GRID_MAP_TYPE_MASK_GAMEOBJECT.testBit TypeId.gameObject.gridBit = true := by decide
      rw [if_pos hbits, hbit, Bool.or_true, Bool.true_or]
    | corpse =>
      rw [hobject, show TypeId.corpse.objectType &&& TYPEMASK_SEARCHED = TYPEMASK_CORPSE by decide] at hbits
      have hbit : GRID_MAP_TYPE_MASK_CORPSE.testBit TypeId.corpse.gridBit = true := by decide
      rw [if_pos hbits, hbit, Bool.or_true]
    | dynamicObject =>
      rw [hobject, show TypeId.dynamicObject.objectType &&& TYPEMASK_SEARCHED = 0 by decide, Nat.and_zero] at hbits
      exact absurd rfl hbits
  | terrainSwap => exact absurd htype hswap

end

end Condition

end AtlasWow.Conditions
