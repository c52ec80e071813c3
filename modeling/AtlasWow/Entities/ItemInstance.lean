/-
An item in memory, the row of `item_instance` it is saved to (`Item::SaveToDB`),
the four queries that read the row again with the place the item is in, and
`Item::LoadFromDB`, which addresses the columns of a query by number.
-/
import AtlasWow.Lib.Decimal
import AtlasWow.Lib.MachineInt
import AtlasWow.Lib.OrderedMap
import Mathlib.Data.List.FinRange

namespace AtlasWow.ItemInstance

/-- The columns of `item_instance`. -/
inductive Column where
  | guid | itemEntry | owner_guid | creatorGuid | giftCreatorGuid | count | duration | charges | flags | enchantments
  | randomPropertyId | durability | playedTime | text | transmog
  deriving DecidableEq, Repr

/-- The columns of the tables that say where an item is. -/
inductive PlaceColumn where
  | bag | slot | item | guildId | tabId | slotId
  deriving DecidableEq, Repr

inductive Value where
  | num (n : Int)
  | str (s : List Char)
  deriving DecidableEq, Repr

def ITEM_FIELD_FLAG_SOULBOUND : Nat := 0x1
def ITEM_FIELD_FLAG_WRAPPED : Nat := 0x8

structure ItemTemplate where
  duration : Nat
  /-- `Bonding` is `NO_BIND`. -/
  noBind : Bool
  maxDurability : Nat
  /-- `GenerateEnchSuffixFactor`. -/
  suffixFactor : Nat

/-- The fields of an item that are saved, or made from those that are; guids of players are their counters. -/
structure Item where
  guid : Nat := 0
  entry : Nat := 0
  owner : Nat := 0
  creator : Nat := 0
  giftCreator : Nat := 0
  count : Nat := 0
  duration : Nat := 0
  spellCharges : Fin 5 → Int := fun _ => 0
  flags : Nat := 0
  /-- From `ITEM_FIELD_ENCHANTMENT_1_1`: id, duration and charges of each of the 12 slots. -/
  enchantments : Fin 36 → Nat := fun _ => 0
  randomPropertyId : Int := 0
  propertySeed : Nat := 0
  durability : Nat := 0
  maxDurability : Nat := 0
  playedTime : Nat := 0
  text : List Char := []
  transmog : Nat := 0

inductive UpdateState where
  | unchanged | changed | new | removed
  deriving DecidableEq, Repr

namespace Item

def getEnchantmentId (it : Item) (slot : Fin 12) : Nat := it.enchantments ⟨3 * slot, by omega⟩
def getEnchantmentDuration (it : Item) (slot : Fin 12) : Nat := it.enchantments ⟨3 * slot + 1, by omega⟩
def getEnchantmentCharges (it : Item) (slot : Fin 12) : Nat := it.enchantments ⟨3 * slot + 2, by omega⟩

def hasFlag (it : Item) (flag : Nat) : Bool := it.flags &&& flag ≠ 0

/-- What `SaveToDB` sets the parameters of its statement to, by index. -/
def saveValues (it : Item) : List Value :=
  [.num it.entry, .num it.owner, .num it.creator, .num it.giftCreator, .num it.count, .num it.duration,
    .str ((List.finRange 5).flatMap fun i => decimal (it.spellCharges i) ++ [' ']),
    .num it.flags,
    .str ((List.finRange 12).flatMap fun slot =>
      decimal (it.getEnchantmentId slot) ++ [' '] ++ (decimal (it.getEnchantmentDuration slot) ++ [' ']) ++
        (decimal (it.getEnchantmentCharges slot) ++ [' '])),
    -- `setInt16` and `setUInt16`
    .num (it.randomPropertyId.bmod (2 ^ 16)), .num (it.durability % 2 ^ 16 : Nat), .num it.playedTime, .str it.text,
    .num it.transmog, .num it.guid]

end Item

/-- The columns `CHAR_REP_ITEM_INSTANCE` inserts. -/
def repItemInstance : List Column :=
  [.itemEntry, .owner_guid, .creatorGuid, .giftCreatorGuid, .count, .duration, .charges, .flags, .enchantments,
    .randomPropertyId, .durability, .playedTime, .text, .transmog, .guid]

/-- The columns `CHAR_UPD_ITEM_INSTANCE` sets, and the one that chooses the row. -/
def updItemInstance : List Column :=
  [.itemEntry, .owner_guid, .creatorGuid, .giftCreatorGuid, .count, .duration, .charges, .flags, .enchantments,
    .randomPropertyId, .durability, .playedTime, .text, .transmog, .guid]

/-- A row of `item_instance`. -/
abbrev Row := Column → Value

/-- The columns of a statement with the values of its parameters. -/
def Row.write (row : Row) (columns : List Column) (values : List Value) : Row := fun c =>
  ((columns.zip values).lookup c).getD (row c)

/-- `SaveToDB` on the table `item_instance`. -/
def Item.saveToDB (it : Item) (state : UpdateState) (items : OMap Nat Row) : OMap Nat Row :=
  match state with
  | .new => items.insert it.guid (Row.write (fun _ => .num 0) repItemInstance it.saveValues)
  | .changed =>
    match items.find? it.guid with
    | some row => items.insert it.guid (row.write updItemInstance it.saveValues)
    | none => items
  | .removed => items.erase it.guid
  | .unchanged => items

/-- A column of a query. -/
inductive Select where
  | col (c : Column)
  | place (c : PlaceColumn)
  | zero

inductive Place where
  | inventory | mail | auction | guildBank
  deriving DecidableEq, Repr

namespace Place

/-- `CHAR_SEL_CHARACTER_INVENTORY`, `CHAR_SEL_MAILITEMS`, `CHAR_SEL_AUCTION_ITEMS` and the query of `GuildMgr::LoadGuilds`. -/
def query : Place → List Select
  | .inventory =>
    [.col .creatorGuid, .col .giftCreatorGuid, .col .count, .col .duration, .col .charges, .col .flags, .col .enchantments,
      .col .randomPropertyId, .col .durability, .col .playedTime, .col .text, .place .bag, .place .slot, .place .item,
      .col .itemEntry, .zero, .col .transmog]
  | .mail =>
    [.col .creatorGuid, .col .giftCreatorGuid, .col .count, .col .duration, .col .charges, .col .flags, .col .enchantments,
      .col .randomPropertyId, .col .durability, .col .playedTime, .col .text, .place .item, .col .itemEntry,
      .col .owner_guid, .zero, .zero, .col .transmog]
  | .auction =>
    [.col .creatorGuid, .col .giftCreatorGuid, .col .count, .col .duration, .col .charges, .col .flags, .col .enchantments,
      .col .randomPropertyId, .col .durability, .col .playedTime, .col .text, .place .item, .col .itemEntry, .zero, .zero,
      .zero, .col .transmog]
  | .guildBank =>
    [.col .creatorGuid, .col .giftCreatorGuid, .col .count, .col .duration, .col .charges, .col .flags, .col .enchantments,
      .col .randomPropertyId, .col .durability, .col .playedTime, .col .text, .place .guildId, .place .tabId,
      .place .slotId, .place .item, .col .itemEntry, .col .transmog]

end Place

/-- What a query answers for one item of a place: the row of the place, joined with that of the item. -/
def select (query : List Select) (place : PlaceColumn → Nat) (items : OMap Nat Row) : Option (List Value) :=
  (items.find? (place .item)).map fun row => query.map fun
    | .col c => row c
    | .place c => .num (place c)
    | .zero => .num 0

/-- A column of an answer; past its end nothing is defined. -/
def field (fields : List Value) (i : Nat) : Value := fields.getD i (.num 0)

def Value.getUInt32 : Value → Nat
  | .num n => uint32 n
  | .str s => strtoul s % 2 ^ 32

def Value.getUInt16 : Value → Nat
  | .num n => (n % 2 ^ 16).toNat
  | .str s => strtoul s % 2 ^ 16

def Value.getInt16 : Value → Int
  | .num n => n.bmod (2 ^ 16)
  | .str s => (atoi s).bmod (2 ^ 16)

def Value.getString : Value → List Char
  | .num n => decimal n
  | .str s => s

/-- `_LoadIntoDataField` of the enchantments. -/
def loadIntoDataField (data : List Char) (values : Fin 36 → Nat) : Fin 36 → Nat :=
  let tokens := tokenize ' ' [] data
  if data = [] then values
  else if tokens.length ≠ 36 then values
  else fun i => strtoul (tokens.getD i []) % 2 ^ 32

/-- `LoadFromDB`. -/
def loadFromDB (templates : Nat → Option ItemTemplate) (guid owner : Nat) (fields : List Value) (entry : Nat) : Option Item :=
  match templates entry with
  | none => none
  | some proto =>
    let duration := (field fields 3).getUInt32
    let tokens := tokenize ' ' [] (field fields 4).getString
    let it : Item :=
      { guid := guid
        entry := entry
        owner := owner
        creator := (field fields 0).getUInt32
        giftCreator := (field fields 1).getUInt32
        count := (field fields 2).getUInt32
        -- update duration if need, and remove if not need
        duration := if decide (proto.duration = 0) != decide (duration = 0) then proto.duration else duration
        spellCharges := if tokens.length = 5 then fun i => atoi (tokens.getD i []) else fun _ => 0
        flags := (field fields 5).getUInt32 }
    -- Remove bind flag for items vs NO_BIND set
    let it : Item := if it.hasFlag ITEM_FIELD_FLAG_SOULBOUND && proto.noBind then
        { it with flags := it.flags &&& (2 ^ 32 - 1 - ITEM_FIELD_FLAG_SOULBOUND) } else it
    let it : Item := { it with
      enchantments := loadIntoDataField (field fields 6).getString it.enchantments
      randomPropertyId := (field fields 7).getInt16 }
    let it : Item := if it.randomPropertyId < 0 then { it with propertySeed := proto.suffixFactor } else it
    let durability := (field fields 8).getUInt16
    -- do not overwrite durability for wrapped items
    let it : Item := { it with
      maxDurability := proto.maxDurability
      durability := if durability > proto.maxDurability && !it.hasFlag ITEM_FIELD_FLAG_WRAPPED then proto.maxDurability
        else durability }
    some { it with
      playedTime := (field fields 9).getUInt32
      text := (field fields 10).getString
      transmog := (field fields 16).getUInt32 }

/-- `_LoadItem`, `_LoadMailedItems`, `LoadAuctionItems` and `LoadItemFromDB` of a bank tab: the columns they take the guid, the
entry and the owner from. -/
def Place.load (place : Place) (templates : Nat → Option ItemTemplate) (player : Nat) (fields : List Value) : Option Item :=
  match place with
  | .inventory => loadFromDB templates (field fields 13).getUInt32 player fields (field fields 14).getUInt32
  | .mail =>
    loadFromDB templates (field fields 11).getUInt32 (field fields 13).getUInt32 fields (field fields 12).getUInt32
  | .auction => loadFromDB templates (field fields 11).getUInt32 0 fields (field fields 12).getUInt32
  | .guildBank => loadFromDB templates (field fields 14).getUInt32 0 fields (field fields 15).getUInt32

end AtlasWow.ItemInstance
