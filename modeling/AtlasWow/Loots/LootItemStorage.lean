/-
The loot that is left in a container item: `LootItemStorage.cpp`, which keeps it
in memory and in the tables `item_loot_items` and `item_loot_money` until the
container is opened again, and what the loot window shows of it.

Every look-up and every statement names its container, so one container is
followed here; the columns hold what is written to them. The order in which a
hash map or a query gives its elements is a parameter (`Order`).
-/
import AtlasWow.Loots.Loot

namespace AtlasWow.Loots

/-- An order that the program is not promised. -/
structure Order (α : Type) where
  order : List α → List α
  perm : ∀ l, (order l).Perm l

structure StoredLootItem where
  itemId : Nat
  count : Nat
  followRules : Bool
  ffa : Bool
  blocked : Bool
  counted : Bool
  underThreshold : Bool
  needsQuest : Bool
  randomPropertyId : Int
  randomSuffix : Nat
  deriving DecidableEq, Repr

def StoredLootItem.ofLootItem (lootItem : LootItem) : StoredLootItem :=
  { itemId := lootItem.itemid
    count := lootItem.count.toNat
    followRules := lootItem.followLootRules
    ffa := lootItem.freeforall
    blocked := lootItem.isBlocked
    counted := lootItem.isCounted
    underThreshold := lootItem.isUnderthreshold
    needsQuest := lootItem.needsQuest
    randomPropertyId := lootItem.randomPropertyId
    randomSuffix := lootItem.randomSuffix }

/-- A row of `item_loot_items`. -/
structure LootItemRow where
  item_id : Nat
  item_count : Nat
  follow_rules : Bool
  ffa : Bool
  blocked : Bool
  counted : Bool
  under_threshold : Bool
  needs_quest : Bool
  rnd_prop : Int
  rnd_suffix : Nat
  deriving DecidableEq, Repr

/-- `CHAR_INS_ITEMCONTAINER_ITEMS`. -/
def LootItemRow.ofLootItem (lootItem : LootItem) : LootItemRow :=
  { item_id := lootItem.itemid
    item_count := lootItem.count.toNat
    follow_rules := lootItem.followLootRules
    ffa := lootItem.freeforall
    blocked := lootItem.isBlocked
    counted := lootItem.isCounted
    under_threshold := lootItem.isUnderthreshold
    needs_quest := lootItem.needsQuest
    rnd_prop := lootItem.randomPropertyId
    rnd_suffix := lootItem.randomSuffix }

/-- The item that `LoadStorageFromDB` reads from a row. -/
def LootItem.ofRow (row : LootItemRow) : LootItem :=
  { itemid := row.item_id
    count := UInt8.ofNat row.item_count
    followLootRules := row.follow_rules
    freeforall := row.ffa
    isBlocked := row.blocked
    isCounted := row.counted
    isUnderthreshold := row.under_threshold
    needsQuest := row.needs_quest
    randomPropertyId := row.rnd_prop
    randomSuffix := row.rnd_suffix
    conditions := []
    rollWinnerGUID := none
    isLooted := false }

/-- The item that `LoadStoredLoot` puts into the loot, before its conditions. -/
def LootItem.ofStored (stored : StoredLootItem) : LootItem :=
  { itemid := stored.itemId
    count := UInt8.ofNat stored.count
    followLootRules := stored.followRules
    freeforall := stored.ffa
    isBlocked := stored.blocked
    isCounted := stored.counted
    isUnderthreshold := stored.underThreshold
    needsQuest := stored.needsQuest
    randomPropertyId := stored.randomPropertyId
    randomSuffix := stored.randomSuffix
    conditions := []
    rollWinnerGUID := none
    isLooted := false }

/-- `LootTemplate::CopyConditions`: from the first of the entries that are in no group. -/
def copyConditions (entries : List LootStoreItem) (li : LootItem) : LootItem :=
  match entries.find? (·.itemid = li.itemid) with
  | some item => { li with conditions := item.conditions }
  | none => li

structure StoredLootContainer where
  /-- The elements of the `unordered_multimap`, in the order in which it gives them. -/
  lootItems : List StoredLootItem
  money : Nat

/-- A container item: its loot, what is stored of it in memory and in the tables, and what the player has taken from it. -/
structure Storage where
  loot : Loot
  stored : Option StoredLootContainer
  rows : List LootItemRow
  moneyRow : Option Nat
  taken : List LootItem
  takenMoney : Nat

/-- The items of a list of the player that the window shows. -/
def listedItems (map : NotNormalLootItemMap) (guid : Nat) (items : List LootItem) : List LootItem :=
  ((map.find? guid).getD []).filterMap fun e => items[e.index]?.filter fun it => !e.isLooted && !it.isLooted

variable (templates : Nat → Option ItemTemplate)

/-- What `LootView` shows the owner of a container. -/
def Loot.offered (viewer : Looter) (loot : Loot) : List LootItem :=
  (loot.items.filter fun it => !it.isLooted && !it.freeforall && it.conditions.isEmpty && it.allowedForPlayer templates viewer) ++
    listedItems loot.playerQuestItems viewer.guid loot.questItems ++ listedItems loot.playerFFAItems viewer.guid loot.items ++
    listedItems loot.playerNonQuestNonFFAConditionalItems viewer.guid loot.items

/-- What is fixed while a container lasts: the entries of its loot template, if it has one, and the orders. -/
structure Env where
  lootTemplate : Option (List LootStoreItem)
  elements : Order StoredLootItem
  select : Order LootItemRow

variable (env : Env)

namespace StoredLootContainer

/-- `AddLootItem`, in memory. -/
def addLootItem (container : StoredLootContainer) (lootItem : LootItem) : StoredLootContainer :=
  { container with lootItems := env.elements.order (container.lootItems ++ [.ofLootItem lootItem]) }

/-- `RemoveItem`, in memory: the first of the same id and count. -/
def removeItem (container : StoredLootContainer) (itemId count : Nat) : StoredLootContainer :=
  { container with lootItems := container.lootItems.eraseP fun x => x.itemId = itemId && x.count = count }

end StoredLootContainer

namespace Storage

/-- A container whose loot has just been generated. -/
def new (loot : Loot) : Storage :=
  { loot := loot, stored := none, rows := [], moneyRow := none, taken := [], takenMoney := 0 }

/-- Only items that the player should get are stored, and no currency tokens. -/
def isSaved (player : Looter) (li : LootItem) : Bool :=
  li.allowedForPlayer templates player && (templates li.itemid).any (!·.isCurrencyToken)

/-- `AddNewStoredLoot`. -/
def addNewStoredLoot (player : Looter) (s : Storage) : Storage :=
  if s.loot.isLooted || s.stored.isSome then s
  else
    let saved := s.loot.items.filter (isSaved templates player)
    { s with
      stored := some (saved.foldl (·.addLootItem env) { lootItems := [], money := s.loot.gold })
      rows := saved.map .ofLootItem
      moneyRow := if s.loot.gold ≠ 0 then some s.loot.gold else s.moneyRow }

/-- `LoadStorageFromDB`. -/
def loadStorageFromDB (s : Storage) : Storage :=
  let container := (env.select.order s.rows).foldl (fun (container : StoredLootContainer) row =>
    container.addLootItem env (.ofRow row)) { lootItems := [], money := 0 }
  { s with
    stored := if s.rows.isEmpty && s.moneyRow.isNone then none
      else some { container with money := s.moneyRow.getD 0 } }

/-- `LoadStoredLoot`, for the loot of an item: what is in memory, if there is something. -/
def loadStoredLoot (s : Storage) (loot : Loot) : Option Loot :=
  s.stored.map fun container =>
    let loot := { loot with gold := container.money }
    match env.lootTemplate with
    | none => loot
    | some entries =>
      { loot with
        items := loot.items ++ container.lootItems.map fun stored => copyConditions entries (.ofStored stored)
        unlootedCount := loot.unlootedCount + UInt8.ofNat container.lootItems.length }

/-- The item is loaded again with its owner, and its container is opened. -/
def relog (s : Storage) : Storage := { s with loot := (s.loadStoredLoot env (.empty 0)).getD (.empty 0) }

/-- `StoreLootItem`, and `RemoveStoredLootItemForContainer`: the statement deletes every row with the id and the count. -/
def takeItem (viewer : Looter) (lootSlot : Nat) (canStore : Bool) (s : Storage) : Storage :=
  match s.loot.stored templates viewer lootSlot with
  | none => s
  | some slot =>
    if !canStore then s
    else
      let itemId := slot.item.itemid
      let count := slot.item.count.toNat
      let s := { s with loot := s.loot.storeLootItem templates viewer lootSlot canStore, taken := slot.item :: s.taken }
      match s.stored with
      | none => s
      | some container =>
        { s with
          stored := some (container.removeItem itemId count)
          rows := s.rows.filter fun row => !(row.item_id = itemId && row.item_count = count) }

/-- The gold is taken, and `RemoveStoredMoneyForContainer`. -/
def takeMoney (s : Storage) : Storage :=
  let s := { s with takenMoney := s.takenMoney + s.loot.gold, loot := { s.loot with gold := 0 } }
  match s.stored with
  | none => s
  | some container => { s with stored := some { container with money := 0 }, moneyRow := none }

inductive Event where
  | takeItem (viewer : Looter) (lootSlot : Nat) (canStore : Bool)
  | takeMoney
  /-- The player logs in again. -/
  | relog
  /-- The server is started again. -/
  | restart

def handle (s : Storage) : Event → Storage
  | .takeItem viewer lootSlot canStore => s.takeItem templates viewer lootSlot canStore
  | .takeMoney => s.takeMoney
  | .relog => s.relog env
  | .restart => (s.loadStorageFromDB env).relog env

end Storage

end AtlasWow.Loots
