/-
Loot templates (`LootMgr.cpp`): how the rows of a loot table become templates
with entries and groups, what is generated from a template, and how a template
is asked for quest items. An entry may refer to a template of the reference
table, by all of it or by one of its groups.

Every random number is an input, given by the place in the run that asks for
it (`Rolls`). Products of floats are exact here.
-/
import Mathlib.Data.Rat.Floor
import AtlasWow.Lib.UnorderedMap
import AtlasWow.Loots.Loot

namespace AtlasWow.Loots

/-- `LootStoreItem`, with all that generation reads of it. -/
structure LootTableItem extends LootStoreItem where
  reference : Nat
  chance : Rat
  lootmode : UInt16
  groupid : Nat
  mincount : Nat
  maxcount : Nat

/-- `LootTemplate::LootGroup`. -/
structure ItemGroup where
  explicitlyChanced : List LootTableItem
  equalChanced : List LootTableItem

structure LootTemplate where
  entries : List LootTableItem
  groups : List (Option ItemGroup)

abbrev LootTemplateMap := UMap Nat LootTemplate

/-! ## Loading -/

/-- `IsValid`; `listed` are the items of `item_template`. -/
def LootTableItem.isValid (listed : Nat → Bool) (item : LootTableItem) : Bool :=
  if item.mincount = 0 then false
  else if item.reference = 0 then
    if !listed item.itemid then false
    else if item.chance = 0 && item.groupid = 0 then false
    else if item.chance ≠ 0 && item.chance < 1 / 1000000 then false
    else if item.maxcount < item.mincount then false
    else true
  -- a reference that needs a quest may have no chance at all
  else if item.needsQuest then true
  else item.chance ≠ 0

namespace ItemGroup

def empty : ItemGroup := ⟨[], []⟩

def addEntry (group : ItemGroup) (item : LootTableItem) : ItemGroup :=
  if item.chance ≠ 0 then { group with explicitlyChanced := group.explicitlyChanced ++ [item] }
  else { group with equalChanced := group.equalChanced ++ [item] }

end ItemGroup

namespace LootTemplate

def empty : LootTemplate := ⟨[], []⟩

def addEntry (template : LootTemplate) (item : LootTableItem) : LootTemplate :=
  if 0 < item.groupid && item.reference = 0 then
    let groups := if template.groups.length ≤ item.groupid then
        template.groups ++ List.replicate (item.groupid - template.groups.length) none
      else template.groups
    { template with groups := groups.modify (item.groupid - 1) fun group => some ((group.getD .empty).addEntry item) }
  else { template with entries := template.entries ++ [item] }

end LootTemplate

namespace LootStore

/-- The rows of a table, with the template each is for; a row with a group out of range ends the loading. -/
def loadLootTable (pl : Placement Nat LootTemplate) (listed : Nat → Bool) : List (Nat × LootTableItem) → LootTemplateMap → LootTemplateMap
  | [], store => store
  | (entry, item) :: rows, store =>
    if 2 ^ 7 ≤ item.groupid then store
    else if !item.isValid listed then loadLootTable pl listed rows store
    else loadLootTable pl listed rows (store.insert pl entry (((store.find? entry).getD .empty).addEntry item))

end LootStore

namespace LootTemplate

/-- The references of a template, in its entries and then in its groups. -/
def references (template : LootTemplate) : List Nat :=
  let items := template.entries ++ template.groups.flatMap fun group =>
    match group with
    | none => []
    | some group => group.explicitlyChanced ++ group.equalChanced
  (items.map (·.reference)).filter (0 < ·)

/-- `CheckLootRefs`: the references it reports, as there is no such template. -/
def checkLootRefs (referenceStore : LootTemplateMap) (template : LootTemplate) : List Nat :=
  template.references.filter fun reference => (referenceStore.find? reference).isNone

end LootTemplate

/-! ## Generating -/

/-- What the random numbers come to at one place. -/
structure Draw where
  /-- `rand_chance()`. -/
  chance : Rat
  /-- `rand_chance()` as a float, which may be rounded up to 100. -/
  roll : Rat
  chance_range : 0 ≤ chance ∧ chance < 100
  roll_range : 0 ≤ roll ∧ roll ≤ 100
  /-- Which of the equal-chanced items it is. -/
  selected : Nat
  /-- How many of an item, between its bounds, and their random properties. -/
  count : Nat
  random : Nat → Nat × Int

/-- The random numbers of a run, by the place that asks for them. -/
abbrev Rolls := List Nat → Draw

/-- The random numbers of a part of the run. -/
def Rolls.part (rolls : Rolls) (i : Nat) : Rolls := fun place => rolls (i :: place)

/-- What generation reads beside the templates: the items, the looters, the rates and the mode. -/
structure Generation where
  itemTemplates : Nat → Option ItemTemplate
  owner : Looter
  members : List Member
  maxDuplicates : Nat
  lootMode : UInt16
  /-- The rates are used at all. -/
  rate : Bool
  /-- `RATE_DROP_ITEM_REFERENCED`, `RATE_DROP_ITEM_REFERENCED_AMOUNT` and the rates by quality. -/
  rateReferenced : Rat
  rateReferencedAmount : Rat
  rateQuality : Nat → Rat

variable (g : Generation)

/-- `AddItem`, with a count between the bounds of the item. -/
def LootTableItem.addTo (item : LootTableItem) (draw : Draw) (loot : Loot) : Loot :=
  loot.addItem g.itemTemplates g.owner g.members
    ⟨item.toLootStoreItem, item.mincount + draw.count % (item.maxcount - item.mincount + 1), draw.random⟩

/-- `LootStoreItem::Roll`. -/
def LootTableItem.roll (item : LootTableItem) (draw : Draw) : Bool :=
  if 100 ≤ item.chance then true
  else if 0 < item.reference then draw.chance < item.chance * (if g.rate then g.rateReferenced else 1)
  else
    let qualityModifier := match g.itemTemplates item.itemid with
      | some proto => if g.rate then g.rateQuality proto.quality else 1
      | none => 1
    draw.chance < item.chance * qualityModifier

/-- How often the template is processed that an entry refers to. -/
def LootTableItem.multiplicity (item : LootTableItem) : Nat := (item.maxcount * g.rateReferencedAmount).floor.toNat % 2 ^ 32

namespace ItemGroup

/-- `LootGroupInvalidSelector`; the count of duplicates is a `uint8`. -/
def isInvalid (loot : Loot) (item : LootTableItem) : Bool :=
  item.lootmode &&& g.lootMode = 0 || (0 < g.maxDuplicates && g.maxDuplicates ≤ loot.items.countP (·.itemid = item.itemid))

/-- The explicitly chanced item that the roll comes to. -/
def rollExplicit : Rat → List LootTableItem → Option LootTableItem
  | _, [] => none
  | roll, item :: items =>
    if 100 ≤ item.chance then some item
    else if roll - item.chance < 0 then some item
    else rollExplicit (roll - item.chance) items

def roll (group : ItemGroup) (draw : Draw) (loot : Loot) : Option LootTableItem :=
  match rollExplicit draw.roll (group.explicitlyChanced.filter fun item => !isInvalid g loot item) with
  | some item => some item
  | none =>
    let possibleLoot := group.equalChanced.filter fun item => !isInvalid g loot item
    possibleLoot[draw.selected % possibleLoot.length]?

def process (group : ItemGroup) (rolls : Rolls) (loot : Loot) : Loot :=
  match group.roll g (rolls [0]) loot with
  | some item => item.addTo g (rolls [1]) loot
  | none => loot

def hasQuestDrop (group : ItemGroup) : Bool :=
  group.explicitlyChanced.any (·.needsQuest) || group.equalChanced.any (·.needsQuest)

def hasQuestDropForPlayer (hasQuestForItem : Nat → Bool) (group : ItemGroup) : Bool :=
  group.explicitlyChanced.any (fun item => hasQuestForItem item.itemid) ||
    group.equalChanced.any fun item => hasQuestForItem item.itemid

end ItemGroup

namespace LootTemplate

/-- The group that a reference is to; groups are counted from one. -/
def group? (template : LootTemplate) (groupId : Nat) : Option ItemGroup := (template.groups[groupId - 1]?).join

/-- The groups are processed in turn. -/
def processGroups (rolls : Rolls) : List (Option ItemGroup) → Loot → Loot
  | [], loot => loot
  | group :: groups, loot =>
    processGroups rolls groups (match group with
      | some group => group.process g (rolls.part groups.length) loot
      | none => loot)

/-- A template that is referred to is processed some times. -/
def repeated (process : Rolls → Loot → Option Loot) (rolls : Rolls) : Nat → Loot → Option Loot
  | 0, loot => some loot
  | n + 1, loot =>
    match process (rolls.part n) loot with
    | none => none
    | some loot => repeated process rolls n loot

/-- The entries are rolled for in turn; `refer` processes what an entry refers to. -/
def processEntries (refer : LootTableItem → Rolls → Loot → Option Loot) (rolls : Rolls) : List LootTableItem → Loot → Option Loot
  | [], loot => some loot
  | item :: items, loot =>
    let rolls' := rolls.part items.length
    if item.lootmode &&& g.lootMode = 0 then processEntries refer rolls items loot
    else if !item.roll g (rolls' [0]) then processEntries refer rolls items loot
    else if 0 < item.reference then
      match refer item (rolls'.part 1) loot with
      | none => none
      | some loot => processEntries refer rolls items loot
    else processEntries refer rolls items (item.addTo g (rolls' [1]) loot)

/-- What an entry refers to is processed; a template that is missing was reported when the tables were loaded. -/
def processReference (process : LootTemplate → Nat → Rolls → Loot → Option Loot) (referenceStore : LootTemplateMap)
    (item : LootTableItem) (rolls : Rolls) (loot : Loot) : Option Loot :=
  match referenceStore.find? item.reference with
  | none => some loot
  | some referenced => repeated (process referenced item.groupid) rolls (item.multiplicity g) loot

/-- `Process`; `none` if the fuel runs out. -/
def process (referenceStore : LootTemplateMap) : Nat → LootTemplate → Nat → Rolls → Loot → Option Loot
  | 0, _, _, _, _ => none
  | fuel + 1, template, groupId, rolls, loot =>
    if groupId ≠ 0 then
      match template.group? groupId with
      | none => some loot
      | some group => some (group.process g rolls loot)
    else
      match processEntries g (processReference g (process referenceStore fuel) referenceStore) (rolls.part 0) template.entries loot with
      | none => none
      | some loot => some (processGroups g (rolls.part 1) template.groups loot)

/-- The search of `HasQuestDrop` and `HasQuestDropForPlayer`, for an item or a group that `found` and `groupFound` tell;
`none` if the fuel runs out. -/
def searchEntries (refer : LootTableItem → Option Bool) (found : LootTableItem → Bool) : List LootTableItem → Option Bool
  | [] => some false
  | item :: items =>
    if 0 < item.reference then
      match refer item with
      | none => none
      | some true => some true
      | some false => searchEntries refer found items
    else if found item then some true
    else searchEntries refer found items

/-- What an entry refers to is searched. -/
def searchReference (search : LootTemplate → Nat → Option Bool) (store : LootTemplateMap) (item : LootTableItem) : Option Bool :=
  match store.find? item.reference with
  | none => some false
  | some referenced => search referenced item.groupid

def search (found : LootTableItem → Bool) (groupFound : ItemGroup → Bool) (store : LootTemplateMap) :
    Nat → LootTemplate → Nat → Option Bool
  | 0, _, _ => none
  | fuel + 1, template, groupId =>
    if groupId ≠ 0 then some ((template.group? groupId).any groupFound)
    else
      match searchEntries (searchReference (search found groupFound store fuel) store) found template.entries with
      | none => none
      | some true => some true
      | some false => some (template.groups.any fun group => group.any groupFound)

def hasQuestDrop : LootTemplateMap → Nat → LootTemplate → Nat → Option Bool :=
  search (·.needsQuest) (·.hasQuestDrop)

def hasQuestDropForPlayer (hasQuestForItem : Nat → Bool) : LootTemplateMap → Nat → LootTemplate → Nat → Option Bool :=
  search (fun item => hasQuestForItem item.itemid) (·.hasQuestDropForPlayer hasQuestForItem)

end LootTemplate

namespace LootStore

/-- `HaveQuestLootFor`: references are looked up in the table itself. -/
def haveQuestLootFor (store : LootTemplateMap) (fuel : Nat) (lootId : Nat) : Option Bool :=
  match store.find? lootId with
  | none => some false
  | some template => template.hasQuestDrop store fuel 0

/-- `HaveQuestLootForPlayer`. -/
def haveQuestLootForPlayer (hasQuestForItem : Nat → Bool) (store : LootTemplateMap) (fuel : Nat) (lootId : Nat) : Option Bool :=
  match store.find? lootId with
  | none => some false
  | some template => template.hasQuestDropForPlayer hasQuestForItem store fuel 0

end LootStore

end AtlasWow.Loots
