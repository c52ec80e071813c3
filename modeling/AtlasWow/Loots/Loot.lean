/-
The loot of a corpse or a container: `Loot.cpp`, which fills it and finds the
item of a slot, and `Player::StoreLootItem`, which takes one. What drops, in
which number and with which random properties is an input, as is what a player
is asked when an item may be shown to him (`Looter`).

The looters an item allows (for trading it later), the packets and the
achievements are left out.
-/
import AtlasWow.Lib.Machine
import AtlasWow.Lib.OrderedMap

namespace AtlasWow.Loots

def MAX_NR_LOOT_ITEMS : Nat := 16
def MAX_NR_QUEST_ITEMS : Nat := 32

inductive Team where
  | alliance | horde
  deriving DecidableEq, Repr

inductive LootMethod where
  | freeForAll | roundRobin | masterLoot | groupLoot | needBeforeGreed
  deriving DecidableEq, Repr

structure ItemTemplate where
  maxStackSize : Nat
  quality : Nat
  /-- `ITEM_FLAG_MULTI_DROP`. -/
  multiDrop : Bool
  /-- `ITEM_FLAGS_CU_FOLLOW_LOOT_RULES` and `ITEM_FLAGS_CU_IGNORE_QUEST_STATUS`. -/
  followLootRules : Bool
  ignoreQuestStatus : Bool
  /-- `ITEM_FLAG2_FACTION_HORDE` and `ITEM_FLAG2_FACTION_ALLIANCE`. -/
  factionHorde : Bool
  factionAlliance : Bool
  /-- `ITEM_FLAG_HIDE_UNUSABLE_RECIPE`. -/
  hideUnusableRecipe : Bool
  /-- A recipe that binds when picked up. -/
  boundRecipe : Bool
  requiredSkill : Nat
  /-- The second spell. -/
  spell : Nat
  startQuest : Nat
  isCurrencyToken : Bool

structure LootStoreItem where
  itemid : Nat
  needsQuest : Bool
  /-- The conditions, by number. -/
  conditions : List Nat
  deriving DecidableEq, Repr

structure LootItem where
  itemid : Nat
  randomSuffix : Nat
  randomPropertyId : Int
  conditions : List Nat
  rollWinnerGUID : Option Nat
  count : UInt8
  isLooted : Bool
  isBlocked : Bool
  freeforall : Bool
  isUnderthreshold : Bool
  isCounted : Bool
  needsQuest : Bool
  followLootRules : Bool
  deriving DecidableEq, Repr

structure NotNormalLootItem where
  /-- The position in `items` or in `questItems`. -/
  index : Nat
  isLooted : Bool
  deriving DecidableEq, Repr

abbrev NotNormalLootItemMap := OMap Nat (List NotNormalLootItem)

structure Loot where
  items : List LootItem
  questItems : List LootItem
  gold : Nat
  unlootedCount : UInt8
  playerQuestItems : NotNormalLootItemMap
  playerFFAItems : NotNormalLootItemMap
  playerNonQuestNonFFAConditionalItems : NotNormalLootItemMap

/-- The group of a player. -/
structure LootGroup where
  lootMethod : LootMethod
  masterLooterGuid : Nat
  lootThreshold : Nat

/-- A player, as far as the loot asks. -/
structure Looter where
  guid : Nat
  team : Team
  group : Option LootGroup
  /-- `IsObjectMeetToConditions`. -/
  meets (conditions : List Nat) : Bool
  hasSkill (skill : Nat) : Bool
  hasSpell (spell : Nat) : Bool
  /-- `GetQuestStatus` is not `QUEST_STATUS_NONE`. -/
  hasQuestStatus (quest : Nat) : Bool
  hasQuestForItem (itemid : Nat) : Bool

/-- A member of the owner's group, in his map or not, near enough for a reward or not. -/
structure Member where
  player : Looter
  inMap : Bool
  atGroupRewardDistance : Bool

variable (templates : Nat → Option ItemTemplate)

/-- The loot items that are made of an entry: random suffix and property come from outside. -/
def LootItem.ofStore (item : LootStoreItem) (randomSuffix : Nat) (randomPropertyId : Int) : LootItem :=
  { itemid := item.itemid
    randomSuffix := randomSuffix
    randomPropertyId := randomPropertyId
    conditions := item.conditions
    rollWinnerGUID := none
    count := 0
    isLooted := false
    isBlocked := false
    freeforall := (templates item.itemid).any (·.multiDrop)
    isUnderthreshold := false
    isCounted := false
    needsQuest := item.needsQuest
    followLootRules := (templates item.itemid).any (·.followLootRules) }

def LootItem.allowedForPlayer (it : LootItem) (player : Looter) : Bool :=
  if !player.meets it.conditions then false
  else
    match templates it.itemid with
    | none => false
    | some proto =>
      -- not show loot for not own team
      if proto.factionHorde && player.team ≠ .horde then false
      else if proto.factionAlliance && player.team ≠ .alliance then false
      else if player.group.any (·.masterLooterGuid = player.guid) then
        -- Master looter can see certain items even if the character can't loot them
        !(!proto.ignoreQuestStatus && (it.needsQuest || proto.startQuest ≠ 0))
      else if proto.hideUnusableRecipe && (!player.hasSkill proto.requiredSkill || player.hasSpell proto.spell) then false
      else if proto.boundRecipe && proto.spell ≠ 0 && player.hasSpell proto.spell then false
      else
        !(!proto.ignoreQuestStatus &&
          ((it.needsQuest || (proto.startQuest ≠ 0 && player.hasQuestStatus proto.startQuest)) &&
            !player.hasQuestForItem it.itemid))

namespace Loot

/-- `clear`, with the gold that is generated before the loot is filled. -/
def empty (gold : Nat) : Loot :=
  { items := [], questItems := [], gold := gold, unlootedCount := 0, playerQuestItems := .empty
    playerFFAItems := .empty, playerNonQuestNonFFAConditionalItems := .empty }

def isLooted (loot : Loot) : Bool := loot.gold = 0 && loot.unlootedCount = 0

/-- One entry that drops, with what is random about it. -/
structure Drop where
  item : LootStoreItem
  count : Nat
  random (stack : Nat) : Nat × Int

/-- The owner sees an item of a drop, or in a group one of its members. -/
def canSeeItemInLootWindow (owner : Looter) (members : List Member) (it : LootItem) : Bool :=
  if owner.group.isSome then members.any fun m => it.allowedForPlayer templates m.player
  else it.allowedForPlayer templates owner

/-- The stacks of `AddItem`, from the `i`th on. -/
def addStacks (owner : Looter) (members : List Member) (proto : ItemTemplate) (drop : Drop) : Nat → Nat → Nat → Loot → Loot
  | 0, _, _, loot => loot
  | n + 1, i, count, loot =>
    let lootItems := if drop.item.needsQuest then loot.questItems else loot.items
    let limit := if drop.item.needsQuest then MAX_NR_QUEST_ITEMS else MAX_NR_LOOT_ITEMS
    if lootItems.length < limit then
      let random := drop.random i
      let generatedLoot := { LootItem.ofStore templates drop.item random.1 random.2 with
        count := UInt8.ofNat (min count proto.maxStackSize) }
      let loot := if drop.item.needsQuest then { loot with questItems := loot.questItems ++ [generatedLoot] }
        else { loot with items := loot.items ++ [generatedLoot] }
      let loot :=
        if !canSeeItemInLootWindow templates owner members generatedLoot then loot
        -- non-conditional one-player only items are counted here
        else if !drop.item.needsQuest && drop.item.conditions.isEmpty && !proto.multiDrop then
          { loot with unlootedCount := loot.unlootedCount + 1 }
        else loot
      addStacks owner members proto drop n (i + 1) (count - proto.maxStackSize) loot
    else loot

def addItem (owner : Looter) (members : List Member) (drop : Drop) (loot : Loot) : Loot :=
  match templates drop.item.itemid with
  | none => loot
  | some proto =>
    let n := drop.count / proto.maxStackSize + if drop.count % proto.maxStackSize ≠ 0 then 1 else 0
    addStacks templates owner members proto drop n 0 drop.count loot

/-- The entries for the items at some positions. -/
def entries (listed : List Nat) : List NotNormalLootItem := listed.map fun i => { index := i, isLooted := false }

/-- The positions of the items that a player is to have in a list. -/
def positions (lists : LootItem → Bool) (items : List LootItem) : List Nat :=
  (List.range items.length).filter fun i => items[i]?.any lists

def listsFFAItem (player : Looter) (it : LootItem) : Bool :=
  !it.isLooted && it.freeforall && it.allowedForPlayer templates player

/-- `FillFFALoot`. -/
def fillFFALoot (player : Looter) (loot : Loot) : Loot :=
  let listed := positions (listsFFAItem templates player) loot.items
  if listed.isEmpty then loot
  else
    { loot with
      playerFFAItems := loot.playerFFAItems.insert player.guid (entries listed)
      unlootedCount := loot.unlootedCount + UInt8.ofNat listed.length }

def listsQuestItem (player : Looter) (it : LootItem) : Bool :=
  !it.isLooted && (it.allowedForPlayer templates player ||
    (it.followLootRules && player.group.any fun group =>
      (group.lootMethod = .masterLoot && group.masterLooterGuid = player.guid) || group.lootMethod ≠ .masterLoot))

/-- The quest items that `FillQuestLoot` lists: no more than there is room for in the window. -/
def listedQuestItems (player : Looter) (loot : Loot) : List Nat :=
  (positions (listsQuestItem templates player) loot.questItems).take (MAX_NR_LOOT_ITEMS - loot.items.length)

/-- A quest item that is counted when a player has it in his list: once if one looter only, looter-times if free for all. -/
def countsQuestItem (it : LootItem) : Bool := it.freeforall || !it.isBlocked

/-- `FillQuestLoot`. -/
def fillQuestLoot (player : Looter) (loot : Loot) : Loot :=
  let listed := loot.listedQuestItems templates player
  let blocks := player.group.all fun group => group.lootMethod ≠ .groupLoot && group.lootMethod ≠ .roundRobin
  if listed.isEmpty then loot
  else
    { loot with
      playerQuestItems := loot.playerQuestItems.insert player.guid (entries listed)
      questItems := loot.questItems.mapIdx fun i it =>
        if listed.contains i then { it with isBlocked := it.isBlocked || blocks } else it
      unlootedCount := loot.unlootedCount +
        UInt8.ofNat (listed.countP fun i => loot.questItems[i]?.any countsQuestItem) }

def listsConditionalItem (player : Looter) (it : LootItem) : Bool :=
  !it.isLooted && !it.freeforall && it.allowedForPlayer templates player && !it.conditions.isEmpty

/-- `FillNonQuestNonFFAConditionalLoot`. -/
def fillNonQuestNonFFAConditionalLoot (player : Looter) (loot : Loot) : Loot :=
  let lists := listsConditionalItem templates player
  let listed := positions lists loot.items
  if listed.isEmpty then loot
  else
    { loot with
      playerNonQuestNonFFAConditionalItems :=
        loot.playerNonQuestNonFFAConditionalItems.insert player.guid (entries listed)
      items := loot.items.map fun it => if lists it then { it with isCounted := true } else it
      unlootedCount := loot.unlootedCount + UInt8.ofNat (loot.items.countP fun it => lists it && !it.isCounted) }

/-- What `LootItemInSlot` finds: the item, and the entry of a list of the player that stands for it. -/
inductive Slot where
  /-- The entry of the player's quest list, and the quest item. -/
  | quest (pos index : Nat) (it : LootItem)
  /-- The entry of the player's free-for-all or conditional list. -/
  | ffa (pos index : Nat) (it : LootItem)
  | conditional (pos index : Nat) (it : LootItem)
  /-- An item without an entry. -/
  | plain (index : Nat) (it : LootItem)

def Slot.item : Slot → LootItem
  | .quest _ _ it => it
  | .ffa _ _ it => it
  | .conditional _ _ it => it
  | .plain _ it => it

def Slot.isQuest : Slot → Bool
  | .quest .. => true
  | _ => false

/-- The first entry of a list for a slot. -/
def entryOf (map : NotNormalLootItemMap) (guid slot : Nat) : Option (Nat × NotNormalLootItem) :=
  (map.find? guid).bind fun l =>
    (l.findIdx? (·.index = slot)).bind fun pos => l[pos]?.map fun e => (pos, e)

/-- `LootItemInSlot`. -/
def lootItemInSlot (loot : Loot) (lootSlot guid : Nat) : Option Slot :=
  if loot.items.length ≤ lootSlot then
    match (loot.playerQuestItems.find? guid).bind (·[lootSlot - loot.items.length]?) with
    | some qitem =>
      if qitem.isLooted then none
      else loot.questItems[qitem.index]?.map fun it => .quest (lootSlot - loot.items.length) qitem.index it
    | none => none
  else
    match loot.items[lootSlot]? with
    | none => none
    | some it =>
      if it.freeforall then
        match entryOf loot.playerFFAItems guid lootSlot with
        | some (pos, ffaitem) => if ffaitem.isLooted then none else some (.ffa pos lootSlot it)
        | none => if it.isLooted then none else some (.plain lootSlot it)
      else if !it.conditions.isEmpty then
        match entryOf loot.playerNonQuestNonFFAConditionalItems guid lootSlot with
        | some (pos, conditem) => if conditem.isLooted then none else some (.conditional pos lootSlot it)
        | none => if it.isLooted then none else some (.plain lootSlot it)
      else if it.isLooted then none else some (.plain lootSlot it)

/-- An entry of a player's list is looted. -/
def takeEntry (map : NotNormalLootItemMap) (guid pos : Nat) : NotNormalLootItemMap :=
  match map.find? guid with
  | some l => map.insert guid (l.modify pos fun e => { e with isLooted := true })
  | none => map

/-- What `StoreLootItem` marks when the item is in the player's bags. -/
def take (loot : Loot) (guid : Nat) (slot : Slot) : Loot :=
  -- if only one person is supposed to loot the item, then set it to looted
  let looted (it : LootItem) : LootItem := if it.freeforall then it else { it with isLooted := true }
  let loot : Loot :=
    match slot with
    | .quest pos index _ =>
      { loot with
        playerQuestItems := takeEntry loot.playerQuestItems guid pos
        questItems := loot.questItems.modify index looted }
    | .ffa pos index _ =>
      { loot with
        playerFFAItems := takeEntry loot.playerFFAItems guid pos
        items := loot.items.modify index looted }
    | .conditional pos index _ =>
      { loot with
        playerNonQuestNonFFAConditionalItems := takeEntry loot.playerNonQuestNonFFAConditionalItems guid pos
        items := loot.items.modify index looted }
    | .plain index _ => { loot with items := loot.items.modify index looted }
  { loot with unlootedCount := loot.unlootedCount - 1 }

/-- The item that `StoreLootItem` stores for a player, unless his bags are full. -/
def stored (player : Looter) (lootSlot : Nat) (loot : Loot) : Option Slot :=
  (loot.lootItemInSlot lootSlot player.guid).filter fun slot =>
    slot.item.allowedForPlayer templates player &&
      -- questitems use the blocked field for other purposes
      !(!slot.isQuest && slot.item.isBlocked) &&
      -- dont allow protected item to be looted by someone else
      slot.item.rollWinnerGUID.all (· = player.guid)

/-- `StoreLootItem`; `canStore` is the answer of `CanStoreNewItem`. -/
def storeLootItem (player : Looter) (lootSlot : Nat) (canStore : Bool) (loot : Loot) : Loot :=
  match loot.stored templates player lootSlot with
  | some slot => if canStore then loot.take player.guid slot else loot
  | none => loot

def getMaxSlotInLootFor (loot : Loot) (guid : Nat) : Nat :=
  loot.items.length + ((loot.playerQuestItems.find? guid).map (·.length)).getD 0

/-- A slot that `FillNotNormalLootFor` stores at once: a currency token that is free for all. -/
def isAutoStored (player : Looter) (loot : Loot) (i : Nat) : Bool :=
  (if i < loot.items.length then loot.items[i]? else loot.questItems[i - loot.items.length]?).any fun it =>
    !it.isLooted && it.freeforall && it.allowedForPlayer templates player && (templates it.itemid).any (·.isCurrencyToken)

/-- The lists of a player, where he has none yet. -/
def fillLists (player : Looter) (loot : Loot) : Loot :=
  let loot := if (loot.playerQuestItems.find? player.guid).isNone then loot.fillQuestLoot templates player else loot
  let loot := if (loot.playerFFAItems.find? player.guid).isNone then loot.fillFFALoot templates player else loot
  if (loot.playerNonQuestNonFFAConditionalItems.find? player.guid).isNone
    then loot.fillNonQuestNonFFAConditionalLoot templates player else loot

/-- Currency items, for a player who is present. -/
def autoStore (player : Looter) (canStore : Nat → Bool) (loot : Loot) : Loot :=
  (List.range (loot.getMaxSlotInLootFor player.guid)).foldl (fun loot i =>
    if loot.isAutoStored templates player i then loot.storeLootItem templates player i (canStore i) else loot) loot

/-- `FillNotNormalLootFor`. -/
def fillNotNormalLootFor (player : Looter) (presentAtLooting : Bool) (canStore : Nat → Bool) (loot : Loot) : Loot :=
  let loot := loot.fillLists templates player
  if presentAtLooting then loot.autoStore templates player canStore else loot

/-- Items of less quality than the threshold of the group. -/
def markUnderthreshold (group : LootGroup) (loot : Loot) : Loot :=
  { loot with items := loot.items.map fun it =>
      if (templates it.itemid).any (·.quality < group.lootThreshold) then { it with isUnderthreshold := true } else it }

/-- The players whose lists `FillLoot` fills, and whether they are present. -/
def filledFor (owner : Looter) (members : List Member) (personal : Bool) : List (Looter × Bool) :=
  if !personal && owner.group.isSome then
    (members.filter (·.inMap)).map fun m => (m.player, m.atGroupRewardDistance)
  else [(owner, true)]

/-- `FillLoot`: what the template lets drop, the lists of the players and the threshold. -/
def fillLoot (owner : Looter) (members : List Member) (personal : Bool) (drops : List Drop) (canStore : Nat → Nat → Bool)
    (loot : Loot) : Loot :=
  let loot := drops.foldl (fun loot drop => loot.addItem templates owner members drop) loot
  let loot := (filledFor owner members personal).foldl
    (fun loot p => loot.fillNotNormalLootFor templates p.1 p.2 (canStore p.1.guid)) loot
  match owner.group with
  | some group => if personal then loot else loot.markUnderthreshold templates group
  | none => loot

/-- What happens to a loot that is filled. -/
inductive Event where
  | store (player : Looter) (lootSlot : Nat) (canStore : Bool)
  /-- The gold is taken by a player, or shared by his group. -/
  | takeMoney
  /-- A roll for an item begins, or is over: then the item may be its winner's. -/
  | roll (lootSlot : Nat) (blocked : Bool) (winner : Option Nat)

def setRoll (blocked : Bool) (winner : Option Nat) (it : LootItem) : LootItem :=
  { it with isBlocked := blocked, rollWinnerGUID := winner }

def handle (loot : Loot) : Event → Loot
  | .store player lootSlot canStore => loot.storeLootItem templates player lootSlot canStore
  | .takeMoney => { loot with gold := 0 }
  | .roll lootSlot blocked winner =>
    if lootSlot < loot.items.length then { loot with items := loot.items.modify lootSlot (setRoll blocked winner) }
    else { loot with questItems := loot.questItems.modify (lootSlot - loot.items.length) (setRoll blocked winner) }

end Loot

end AtlasWow.Loots
