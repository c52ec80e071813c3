/-
The table `conditions`, and what `LoadConditions` makes of it. Each row is
checked by itself, against the stores of other modules (`LoadStores`), and put
at the end of a list: of its reference template, or of what it is a condition
for. A reference is not looked up: only a row of a template that refers to the
template itself is skipped.
-/
import AtlasWow.Conditions.ConditionMgr
import Mathlib.Algebra.Group.Nat.Defs

namespace AtlasWow.Conditions

/-- A row of the table; the error texts and the name of the script are left out. -/
structure ConditionRow where
  sourceTypeOrReferenceId : Int
  sourceGroup : Nat
  sourceEntry : Int
  sourceId : Int
  elseGroup : Nat
  conditionTypeOrReference : Int
  conditionTarget : Nat
  conditionValue1 : Nat
  conditionValue2 : Nat
  conditionValue3 : Nat
  negativeCondition : Bool
  deriving DecidableEq, Repr

/-- The types that a row may have in the table, in the order of their numbers. -/
def conditionTypes : List ConditionType :=
  [.none, .aura, .item, .itemEquipped, .zoneId, .reputationRank, .team, .skill, .questRewarded, .questTaken,
    .drunkenState, .worldState, .activeEvent, .instanceInfo, .questNone, .class, .race, .achievement, .title, .spawnMask,
    .gender, .unitState, .mapId, .areaId, .creatureType, .spell, .phaseMask, .level, .questComplete, .nearCreature,
    .nearGameObject, .objectEntryGuid, .typeMask, .relationTo, .reactionTo, .distanceTo, .alive, .hpVal, .hpPct,
    .realmAchievement, .inWater, .terrainSwap, .standState, .dailyQuestDone, .charmed, .petType, .taxi, .questState,
    .questObjectiveProgress, .gameMaster]

inductive ConditionSourceType where
  | none | creatureLootTemplate | disenchantLootTemplate | fishingLootTemplate | gameobjectLootTemplate
  | itemLootTemplate | mailLootTemplate | millingLootTemplate | pickpocketingLootTemplate | prospectingLootTemplate
  | referenceLootTemplate | skinningLootTemplate | spellLootTemplate | spellImplicitTarget | gossipMenu
  | gossipMenuOption | creatureTemplateVehicle | spell | spellClickEvent | questAvailable | unused20 | vehicleSpell
  | smartEvent | npcVendor | spellProc | terrainSwap | phase | graveyard
  /-- CONDITION_SOURCE_TYPE_MAX and above. -/
  | max
  deriving DecidableEq, Repr

/-- The source types, in the order of their numbers. -/
def conditionSourceTypes : List ConditionSourceType :=
  [.none, .creatureLootTemplate, .disenchantLootTemplate, .fishingLootTemplate, .gameobjectLootTemplate,
    .itemLootTemplate, .mailLootTemplate, .millingLootTemplate, .pickpocketingLootTemplate, .prospectingLootTemplate,
    .referenceLootTemplate, .skinningLootTemplate, .spellLootTemplate, .spellImplicitTarget, .gossipMenu,
    .gossipMenuOption, .creatureTemplateVehicle, .spell, .spellClickEvent, .questAvailable, .unused20, .vehicleSpell,
    .smartEvent, .npcVendor, .spellProc, .terrainSwap, .phase, .graveyard]

/-- What the checks look up in the stores of other modules, and the lists there. -/
structure LoadStores where
  hasSpell : Nat → Bool
  /-- An effect of a spell chains, or selects its targets nearby, in a cone, an area or on a trajectory. -/
  searchesTargets : Nat → Nat → Bool
  hasItem : Nat → Bool
  /-- The zone of an area that exists. -/
  areaZone : Nat → Option Nat
  hasFaction : Nat → Bool
  hasSkill : Nat → Bool
  configMaxSkillValue : Nat
  /-- `RequiredNpcOrGo` and `RequiredNpcOrGoCount` of a quest. -/
  quest : Nat → Option (Nat → Int × Nat)
  isValidEvent : Nat → Bool
  hasAchievement : Nat → Bool
  hasMap : Nat → Bool
  hasCreatureTemplate : Nat → Bool
  hasGameObjectTemplate : Nat → Bool
  /-- The entry of a spawn. -/
  creatureData : Nat → Option Nat
  gameObjectData : Nat → Option Nat
  worldState : Nat → Nat
  hasTitle : Nat → Bool
  /-- A loot template of a source type, by what is a reference in it. -/
  loot : ConditionSourceType → Nat → Option (Nat → Bool)
  /-- The list of a loot template, a gossip menu or a spell that takes a row, after the rows before it. -/
  fill : List ConditionRow → ConditionRow → Option Nat
  deriving Inhabited

def CLASSMASK_ALL_PLAYABLE : Nat := 0x5FF
def RACEMASK_ALL_PLAYABLE : Nat := 0x6FF
def UNIT_STATE_ALL_STATE_SUPPORTED : Nat := 0x1FF7FFFF
def SPAWNMASK_RAID_ALL : Nat := 15
def COMP_TYPE_MAX : Nat := 5
def RELATION_MAX : Nat := 6
def MAX_QUEST_STATUS : Nat := 7
def MAX_PET_TYPE : Nat := 4
def MAX_EFFECT_MASK : Nat := 7
def HORDE : Nat := 67
def ALLIANCE : Nat := 469

namespace ConditionSourceType

def getMaxAvailableConditionTargets : ConditionSourceType → Nat
  | .spell | .spellImplicitTarget | .creatureTemplateVehicle | .vehicleSpell | .spellClickEvent | .gossipMenu
  | .gossipMenuOption | .smartEvent | .npcVendor | .spellProc => 2
  | _ => 1

def canHaveSourceGroupSet : ConditionSourceType → Bool
  | .creatureLootTemplate | .disenchantLootTemplate | .fishingLootTemplate | .gameobjectLootTemplate
  | .itemLootTemplate | .mailLootTemplate | .millingLootTemplate | .pickpocketingLootTemplate
  | .prospectingLootTemplate | .referenceLootTemplate | .skinningLootTemplate | .spellLootTemplate | .gossipMenu
  | .gossipMenuOption | .vehicleSpell | .spellImplicitTarget | .spellClickEvent | .smartEvent | .npcVendor => true
  | _ => false

def canHaveSourceIdSet (type : ConditionSourceType) : Bool := type = .smartEvent

end ConditionSourceType

/-- A number of the table as `uint32`. -/
def toUInt32 (i : Int) : Nat := (i % 2 ^ 32).toNat

namespace ConditionRow

def isReferenceTemplate (row : ConditionRow) : Bool := row.sourceTypeOrReferenceId < 0

/-- CONDITION_SOURCE_TYPE_NONE for a reference template. -/
def sourceType (row : ConditionRow) : ConditionSourceType :=
  if row.isReferenceTemplate then .none else conditionSourceTypes.getD row.sourceTypeOrReferenceId.toNat .max

section

variable (s : LoadStores) (row : ConditionRow)

/-- A spawn has the entry that is asked for. -/
def spawnValid (entry spawnId : Nat) (data : Option Nat) : Bool :=
  spawnId = 0 || data.any fun id => entry = 0 || id = entry

/-- The target that a condition selects by its first value. -/
def selectionValid : Bool :=
  row.conditionValue1 < row.sourceType.getMaxAvailableConditionTargets && row.conditionValue1 ≠ row.conditionTarget

/-- `isConditionTypeValid`. -/
def isConditionTypeValid (type : ConditionType) : Bool :=
  let value1 := row.conditionValue1
  let value2 := row.conditionValue2
  let value3 := row.conditionValue3
  type ≠ .none && row.conditionTarget < row.sourceType.getMaxAvailableConditionTargets &&
    match type with
    | .aura => s.hasSpell value1 && value2 ≤ 2
    | .item => s.hasItem value1 && value2 ≠ 0
    | .itemEquipped => s.hasItem value1
    | .zoneId => s.areaZone value1 = some 0
    | .reputationRank => s.hasFaction value1
    | .team => value1 = ALLIANCE || value1 = HORDE
    | .skill => s.hasSkill value1 && 1 ≤ value2 && value2 ≤ s.configMaxSkillValue
    | .questState => value2 < 1 <<< MAX_QUEST_STATUS && (s.quest value1).isSome
    | .questRewarded | .questTaken | .questNone | .questComplete | .dailyQuestDone => (s.quest value1).isSome
    | .activeEvent => s.isValidEvent value1
    | .achievement | .realmAchievement => s.hasAchievement value1
    | .class => value1 &&& CLASSMASK_ALL_PLAYABLE ≠ 0
    | .race => value1 &&& RACEMASK_ALL_PLAYABLE ≠ 0
    | .gender => value1 % 2 ^ 8 ≤ 1
    | .mapId => s.hasMap value1
    | .spell => s.hasSpell value1
    | .level => value2 < COMP_TYPE_MAX
    | .drunkenState => value1 ≤ 3
    | .nearCreature => s.hasCreatureTemplate value1
    | .nearGameObject => s.hasGameObjectTemplate value1
    | .objectEntryGuid =>
      if value1 = TypeId.unit.toNat then
        (value2 = 0 || s.hasCreatureTemplate value2) && spawnValid value2 value3 (s.creatureData value3)
      else if value1 = TypeId.gameObject.toNat then
        (value2 = 0 || s.hasGameObjectTemplate value2) && spawnValid value2 value3 (s.gameObjectData value3)
      else value1 = TypeId.player.toNat || value1 = TypeId.corpse.toNat
    | .typeMask => value1 ≠ 0 && value1 &&& TYPEMASK_SEARCHED = value1
    | .relationTo => row.selectionValid && value2 < RELATION_MAX
    | .reactionTo => row.selectionValid && value2 ≠ 0
    | .distanceTo => row.selectionValid && value3 < COMP_TYPE_MAX
    | .hpVal => value2 < COMP_TYPE_MAX
    | .hpPct => value1 ≤ 100 && value2 < COMP_TYPE_MAX
    | .worldState => s.worldState value1 ≠ 0
    | .title => s.hasTitle value1
    | .spawnMask => value1 ≤ SPAWNMASK_RAID_ALL
    | .unitState => value1 &&& UNIT_STATE_ALL_STATE_SUPPORTED ≠ 0
    | .creatureType => value1 ≠ 0 && value1 ≤ 13
    | .terrainSwap => false
    | .standState => value1 = 0 && value2 ≤ 9 || value1 = 1 && value2 ≤ 1
    | .petType => value1 < 1 <<< MAX_PET_TYPE
    | .questObjectiveProgress => (s.quest value1).any fun required =>
        value2 ≤ 3 && (required value2).1 ≠ 0 && value3 ≤ (required value2).2
    | .none | .instanceInfo | .areaId | .phaseMask | .alive | .inWater | .charmed | .taxi | .gameMaster => true

/-- A round of the loop over the effects: one without targets to search is taken out of the SourceGroup. -/
def removeEffect (sourceGroup i : Nat) : Nat :=
  if sourceGroup.testBit i && !s.searchesTargets (toUInt32 row.sourceEntry) i then sourceGroup ^^^ (1 <<< i)
  else sourceGroup

/-- `isSourceTypeValid`, with the SourceGroup that it leaves. -/
def isSourceTypeValid : Option Nat :=
  let entry := toUInt32 row.sourceEntry
  let keep := fun valid : Bool => if valid then some row.sourceGroup else none
  match row.sourceType with
  | .none | .max => none
  | .creatureLootTemplate | .disenchantLootTemplate | .fishingLootTemplate | .gameobjectLootTemplate
  | .itemLootTemplate | .mailLootTemplate | .millingLootTemplate | .pickpocketingLootTemplate
  | .prospectingLootTemplate | .referenceLootTemplate | .skinningLootTemplate | .spellLootTemplate =>
    keep ((s.loot row.sourceType row.sourceGroup).any fun isReference => s.hasItem entry || isReference entry)
  | .spellImplicitTarget =>
    if s.hasSpell entry && row.sourceGroup ≤ MAX_EFFECT_MASK && row.sourceGroup ≠ 0 then
      match [0, 1, 2].foldl (removeEffect s row) row.sourceGroup with
      | 0 => none
      | sourceGroup => some sourceGroup
    else none
  | .creatureTemplateVehicle => keep (s.hasCreatureTemplate entry)
  | .spell | .spellProc => keep (s.hasSpell entry)
  | .questAvailable => keep (s.quest entry).isSome
  | .vehicleSpell | .spellClickEvent => keep (s.hasCreatureTemplate row.sourceGroup && s.hasSpell entry)
  | .npcVendor => keep (s.hasCreatureTemplate row.sourceGroup && s.hasItem entry)
  | .terrainSwap | .phase | .graveyard => none
  | .gossipMenu | .gossipMenuOption | .smartEvent | .unused20 => some row.sourceGroup

variable {s row}

/-- A row of a valid type is one that conditions may have. -/
theorem accepted_of_valid {type : ConditionType} (h : isConditionTypeValid s row type = true) :
    type ≠ .none ∧ type ≠ .terrainSwap ∧
      (type = .objectEntryGuid →
        row.conditionValue1 ∈ [TypeId.unit, .player, .gameObject, .corpse].map TypeId.toNat) ∧
      (type = .typeMask → row.conditionValue1 ≠ 0 ∧ row.conditionValue1 &&& TYPEMASK_SEARCHED = row.conditionValue1) := by
  unfold isConditionTypeValid at h
  obtain ⟨hhead, hvalue⟩ := Bool.and_eq_true_iff.1 h
  refine ⟨of_decide_eq_true (Bool.and_eq_true_iff.1 hhead).1, ?_, ?_, ?_⟩
  · rintro rfl
    cases hvalue
  · rintro rfl
    dsimp only at hvalue
    split at hvalue
    next hunit => simp [hunit]
    split at hvalue
    next hobject => simp [hobject]
    rcases Bool.or_eq_true_iff.1 hvalue with hplayer | hcorpse
    · simp [of_decide_eq_true hplayer]
    · simp [of_decide_eq_true hcorpse]
  · rintro rfl
    obtain ⟨hne, hmask⟩ := Bool.and_eq_true_iff.1 hvalue
    exact ⟨of_decide_eq_true hne, of_decide_eq_true hmask⟩

variable (s row)

/-- The condition of a row, unless it is skipped. -/
def toCondition : Option Condition :=
  if href : row.conditionTypeOrReference < 0 then
    -- self referencing, skip
    if row.conditionTypeOrReference = row.sourceTypeOrReferenceId then none
    else some {
      elseGroup := row.elseGroup
      conditionType := .none
      conditionValue1 := row.conditionValue1
      conditionValue2 := row.conditionValue2
      conditionValue3 := row.conditionValue3
      referenceId := row.conditionTypeOrReference.natAbs
      -- useless data, which nothing reads
      conditionTarget := ⟨row.conditionTarget % 3, Nat.mod_lt _ (by decide)⟩
      negativeCondition := row.negativeCondition
      accepted := .inl (Int.natAbs_ne_zero.2 href.ne) }
  else match conditionTypes[row.conditionTypeOrReference.toNat]? with
    | none => none
    | some type =>
      if hvalid : isConditionTypeValid s row type then
        some {
          elseGroup := row.elseGroup
          conditionType := type
          conditionValue1 := row.conditionValue1
          conditionValue2 := row.conditionValue2
          conditionValue3 := row.conditionValue3
          referenceId := 0
          conditionTarget := ⟨row.conditionTarget % 3, Nat.mod_lt _ (by decide)⟩
          negativeCondition := row.negativeCondition
          accepted := .inr (accepted_of_valid hvalid) }
      else none

end

end ConditionRow

/-! ## The lists -/

/-- What a list of conditions is for. -/
inductive ConditionPlace where
  | reference (id : Nat)
  | notGrouped (sourceType : ConditionSourceType) (entry : Int)
  | spellClickEvent (creatureId : Nat) (spellId : Int)
  | vehicleSpell (creatureId : Nat) (spellId : Int)
  | smartEvent (entryOrGuid sourceType : Int) (event : Nat)
  | npcVendor (creatureId : Nat) (itemId : Int)
  /-- A loot template, a gossip menu or a spell. -/
  | filled (list : Nat)
  deriving DecidableEq, Repr

/-- Where a row is put that is no reference template. -/
def ConditionRow.sourcePlace (s : LoadStores) (seen : List ConditionRow) (row : ConditionRow) : Option ConditionPlace :=
  let sourceType := row.sourceType
  if row.sourceGroup ≠ 0 && !sourceType.canHaveSourceGroupSet then none
  else if row.sourceId ≠ 0 && !sourceType.canHaveSourceIdSet then none
  else if row.sourceGroup ≠ 0 then
    match sourceType with
    | .spellClickEvent => some (.spellClickEvent row.sourceGroup row.sourceEntry)
    | .vehicleSpell => some (.vehicleSpell row.sourceGroup row.sourceEntry)
    | .smartEvent => some (.smartEvent row.sourceEntry row.sourceId row.sourceGroup)
    | .npcVendor => some (.npcVendor row.sourceGroup row.sourceEntry)
    | _ => (s.fill seen row).map .filled
  else some (.notGrouped sourceType row.sourceEntry)

def ConditionRow.place (s : LoadStores) (seen : List ConditionRow) (row : ConditionRow) : Option ConditionPlace :=
  if row.isReferenceTemplate then some (.reference row.sourceTypeOrReferenceId.natAbs)
  -- the source of a reference is not checked
  else if row.conditionTypeOrReference < 0 then row.sourcePlace s seen
  else (row.isSourceTypeValid s).bind fun sourceGroup => { row with sourceGroup := sourceGroup }.sourcePlace s seen

/-- The lists, empty where there is none. -/
abbrev ConditionStores := ConditionPlace → List Condition

/-- A round of the loop of `LoadConditions`. -/
def loadRow (s : LoadStores) (seen : List ConditionRow) (stores : ConditionStores) (row : ConditionRow) :
    ConditionStores :=
  match row.toCondition s, row.place s seen with
  | some c, some place => Function.update stores place (stores place ++ [c])
  | _, _ => stores

def loadRows (s : LoadStores) (seen : List ConditionRow) (stores : ConditionStores) : List ConditionRow → ConditionStores
  | [] => stores
  | row :: rows => loadRows s (seen ++ [row]) (loadRow s seen stores row) rows

def loadConditions (s : LoadStores) (rows : List ConditionRow) : ConditionStores := loadRows s [] (fun _ => []) rows

/-- `ConditionReferenceStore`. -/
def ConditionStores.references (stores : ConditionStores) : ConditionReferenceStore where
  lists id := match stores (.reference id) with
    | [] => none
    | l => some l
  filled id l h := by
    split at h
    next => cases h
    next hne =>
    cases h
    exact hne

section

variable {s : LoadStores} {seen rows : List ConditionRow} {stores : ConditionStores} {row : ConditionRow} {c : Condition}
  {id : Nat} {l : List Condition}

theorem ConditionStores.references_lists : stores.references.lists id = some l ↔ stores (.reference id) = l ∧ l ≠ [] := by
  dsimp only [ConditionStores.references]
  split
  next hempty => simp only [hempty, reduceCtorEq, false_iff, not_and, not_not, eq_comm, imp_self]
  next hne =>
  rw [Option.some_inj]
  exact ⟨fun h => ⟨h, h ▸ hne⟩, fun h => h.1⟩

theorem sourcePlace_ne_reference : row.sourcePlace s seen ≠ some (.reference id) := by
  unfold ConditionRow.sourcePlace
  dsimp only
  intro h
  split at h
  next => cases h
  split at h
  next => cases h
  split at h
  next =>
    split at h
    next => cases h
    next => cases h
    next => cases h
    next => cases h
    next =>
    obtain ⟨list, -, hlist⟩ := Option.map_eq_some_iff.1 h
    cases hlist
  next => cases h

/-- The rows of the templates, and no others, are put in their lists. -/
theorem place_reference : row.place s seen = some (.reference id) ↔
    row.isReferenceTemplate = true ∧ row.sourceTypeOrReferenceId.natAbs = id := by
  unfold ConditionRow.place
  split
  next htemplate => simp only [htemplate, true_and, Option.some_inj, ConditionPlace.reference.injEq]
  next htemplate =>
  refine iff_of_false (fun h => ?_) fun h => htemplate h.1
  split at h
  next => exact sourcePlace_ne_reference h
  next =>
  obtain ⟨sourceGroup, -, hplace⟩ := Option.bind_eq_some_iff.1 h
  exact sourcePlace_ne_reference hplace

theorem mem_loadRow : c ∈ loadRow s seen stores row (.reference id) ↔ c ∈ stores (.reference id) ∨
    row.toCondition s = some c ∧ row.isReferenceTemplate = true ∧ row.sourceTypeOrReferenceId.natAbs = id := by
  unfold loadRow
  rw [← @place_reference s seen row id]
  cases row.toCondition s with
  | none => simp only [reduceCtorEq, false_and, or_false]
  | some c' =>
    cases row.place s seen with
    | none => simp only [reduceCtorEq, and_false, or_false]
    | some place =>
      dsimp only
      rw [Option.some_inj, Option.some_inj]
      by_cases hid : place = .reference id
      · rw [hid, Function.update_self, List.mem_append, List.mem_singleton, @eq_comm _ c]
        simp only [and_true]
      · rw [Function.update_of_ne (Ne.symm hid)]
        simp only [hid, and_false, or_false]

theorem mem_loadRows : c ∈ loadRows s seen stores rows (.reference id) ↔ c ∈ stores (.reference id) ∨
    ∃ row ∈ rows, row.toCondition s = some c ∧ row.isReferenceTemplate = true ∧
      row.sourceTypeOrReferenceId.natAbs = id := by
  induction rows generalizing seen stores with
  | nil => simp only [loadRows, List.not_mem_nil, false_and, exists_false, or_false]
  | cons row rows ih => rw [loadRows, ih, mem_loadRow, or_assoc, List.exists_mem_cons_iff]

/-- A template has the conditions of its rows. -/
theorem mem_loadConditions : c ∈ loadConditions s rows (.reference id) ↔
    ∃ row ∈ rows, row.toCondition s = some c ∧ row.isReferenceTemplate = true ∧
      row.sourceTypeOrReferenceId.natAbs = id := by
  unfold loadConditions
  rw [mem_loadRows]
  exact or_iff_right List.not_mem_nil

end

end AtlasWow.Conditions
