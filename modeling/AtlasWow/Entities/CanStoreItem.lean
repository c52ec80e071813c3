/-
`Player::CanStoreItem` looks for slots for an item: first in the slot and in
the bag that were asked for, then with stacks of its kind, then in the bags
for its kind, and last in free slots. `StoreItem` puts the item there.

What `CanTakeMoreSimilarItems` answers is given; so is whether the item is
bound to someone else.
-/
import AtlasWow.Entities.DestroyItemCount
import AtlasWow.Lib.Filling

namespace AtlasWow.Storage

def ITEM_SUBCLASS_CONTAINER : Nat := 0
def BAG_FAMILY_MASK_KEYS : UInt32 := 0x100
def BAG_FAMILY_MASK_CURRENCY_TOKENS : UInt32 := 0x2000

namespace ItemTemplate

def isCurrencyToken (proto : ItemTemplate) : Bool := proto.bagFamily &&& BAG_FAMILY_MASK_CURRENCY_TOKENS ≠ 0

def isKey (proto : ItemTemplate) : Bool := proto.bagFamily &&& BAG_FAMILY_MASK_KEYS ≠ 0

/-- The families of the containers and the quivers, by their subclass. -/
def containerFamily : Nat → Option UInt32
  | 1 => some 0x4
  | 2 => some 0x20
  | 3 => some 0x40
  | 4 => some 0x80
  | 5 => some 0x200
  | 6 => some 0x400
  | 7 => some 0x8
  | 8 => some 0x10
  | _ => none

def quiverFamily : Nat → Option UInt32
  | 2 => some 0x1
  | 3 => some 0x2
  | _ => none

end ItemTemplate

/-- Templates are there in all cases. -/
def itemCanGoIntoBag (pProto pBagProto : ItemTemplate) : Bool :=
  if pBagProto.itemClass = ITEM_CLASS_CONTAINER then
    pBagProto.subClass = ITEM_SUBCLASS_CONTAINER ||
      (ItemTemplate.containerFamily pBagProto.subClass).any fun mask => pProto.bagFamily &&& mask ≠ 0
  else if pBagProto.itemClass = ITEM_CLASS_QUIVER then
    (ItemTemplate.quiverFamily pBagProto.subClass).any fun mask => pProto.bagFamily &&& mask ≠ 0
  else false

def Item.canBeMergedPartlyWith (item : Item) (proto : ItemTemplate) : InventoryResult :=
  if item.lootGenerated then .alreadyLooted
  else if item.getEntry ≠ proto.itemId then .itemCantStack
  else if proto.getMaxStackSize ≤ item.count then .itemCantStack
  else .ok

def getMaxKeyringSize : Nat := KEYRING_SLOT_END - KEYRING_SLOT_START

/-- What `CanStoreItem` answers: the result, the list `dest`, and `*no_space_count` if it is set. -/
structure StoreResult where
  result : InventoryResult
  dest : List (Pos × Nat)
  noSpaceCount : Option Nat
deriving DecidableEq

namespace Player

/-- What is in a slot, but for the item that is moved. -/
def itemBesides (p : Player) (pSrcItem : Option Item) (pos : Pos) : Option Item :=
  (p.getItemByPos pos).filter fun item => !pSrcItem.any (·.guid = item.guid)

/-- `IsNotEmptyBag` of an item that is moved: only a bag in a slot for bags has anything in it. -/
def isFullBag (p : Player) (pSrcItem : Option Item) : Bool :=
  (ownPlaces EQUIPMENT_SLOT_START BANK_SLOT_BAG_END).any fun pos =>
    p.isNotEmptyBag pos && (p.getItemByPos pos).any fun bag => pSrcItem.any (·.guid = bag.guid)

/-- The space in a slot, if the search for stacks or for free slots looks at it. -/
def needSpace (p : Player) (pProto : ItemTemplate) (pSrcItem : Option Item) (merge : Bool) (pos : Pos) : Option Nat :=
  match p.itemBesides pSrcItem pos with
  | none => if merge then none else some pProto.getMaxStackSize
  | some pItem2 =>
    if merge then
      if pItem2.canBeMergedPartlyWith pProto = .ok then some (pProto.getMaxStackSize - pItem2.count) else none
    else none

/-- An item that fits to a slot: the checks for an empty slot, or one whose item is swapped. -/
def fitsSlot (p : Player) (pos : Pos) (pProto : ItemTemplate) : Bool :=
  if pos.bag = INVENTORY_SLOT_BAG_0 then
    if KEYRING_SLOT_START ≤ pos.slot ∧ pos.slot < KEYRING_SLOT_START + getMaxKeyringSize ∧ !pProto.isKey then false
    else if CURRENCYTOKEN_SLOT_START ≤ pos.slot ∧ pos.slot < CURRENCYTOKEN_SLOT_END ∧ !pProto.isCurrencyToken then false
    else !((BUYBACK_SLOT_START ≤ pos.slot && pos.slot < BUYBACK_SLOT_END) || PLAYER_SLOT_END ≤ pos.slot)
  else
    match p.getBagByPos pos.bag with
    | none => false
    | some pBag => pos.slot < pBag.template.containerSlots && itemCanGoIntoBag pProto pBag.template

def canStoreItem_InSpecificSlot (p : Player) (pos : Pos) (pProto : ItemTemplate) (swap : Bool) (pSrcItem : Option Item)
    (f : Fill Pos) : InventoryResult × Fill Pos :=
  if p.isFullBag pSrcItem && !isBagPos pos then (.canOnlyDoWithEmptyBags, f)
  else
    match p.itemBesides pSrcItem pos with
    | none => if p.fitsSlot pos pProto then (.ok, f.place pos pProto.getMaxStackSize) else (.itemDoesntGoIntoBag, f)
    | some pItem2 =>
      if swap then
        if p.fitsSlot pos pProto then (.ok, f.place pos pProto.getMaxStackSize) else (.itemDoesntGoIntoBag, f)
      else if pItem2.canBeMergedPartlyWith pProto ≠ .ok then (pItem2.canBeMergedPartlyWith pProto, f)
      else (.ok, f.place pos (pProto.getMaxStackSize - pItem2.count))

def canStoreItem_InBag (p : Player) (bag : Nat) (pProto : ItemTemplate) (merge nonSpecialized : Bool) (pSrcItem : Option Item)
    (skipBag skipSlot : Nat) (f : Fill Pos) : InventoryResult × Fill Pos :=
  if bag = skipBag then (.itemDoesntGoIntoBag, f)
  else
    match p.getBagByPos bag with
    | none => (.itemDoesntGoIntoBag, f)
    | some pBag =>
      if pSrcItem.any (·.guid = pBag.guid) then (.itemDoesntGoIntoBag, f)
      else if p.isFullBag pSrcItem then (.canOnlyDoWithEmptyBags, f)
      else if nonSpecialized ≠
          (pBag.template.itemClass = ITEM_CLASS_CONTAINER && pBag.template.subClass = ITEM_SUBCLASS_CONTAINER : Bool) then
        (.itemDoesntGoIntoBag, f)
      else if !itemCanGoIntoBag pProto pBag.template then (.itemDoesntGoIntoBag, f)
      else (.ok, f.placeAll (p.needSpace pProto pSrcItem merge)
        (((List.range pBag.getBagSize).filter (· ≠ skipSlot)).map (⟨bag, ·⟩)))

def canStoreItem_InInventorySlots (p : Player) (slotBegin slotEnd : Nat) (pProto : ItemTemplate) (merge : Bool)
    (pSrcItem : Option Item) (skipBag skipSlot : Nat) (f : Fill Pos) : InventoryResult × Fill Pos :=
  if p.isFullBag pSrcItem then (.canOnlyDoWithEmptyBags, f)
  else (.ok, f.placeAll (p.needSpace pProto pSrcItem merge)
    ((ownPlaces slotBegin slotEnd).filter fun pos => !(INVENTORY_SLOT_BAG_0 = skipBag && pos.slot = skipSlot)))

end Player

/-- `CanStoreItem` returns once nothing is left. -/
def StoreResult.finish (noSimilarCount : Nat) (f : Fill Pos) : StoreResult :=
  if noSimilarCount = 0 then ⟨.ok, f.dest, none⟩ else ⟨.cantCarryMoreOfThis, f.dest, some ((f.count + noSimilarCount) % 2 ^ 32)⟩

/-- A search that has to be possible. -/
def must (noSimilarCount : Nat) (r : InventoryResult × Fill Pos) : Except StoreResult (Fill Pos) :=
  if r.1 ≠ .ok then .error ⟨r.1, r.2.dest, some ((r.2.count + noSimilarCount) % 2 ^ 32)⟩
  else if r.2.count = 0 then .error (.finish noSimilarCount r.2)
  else .ok r.2

/-- A search that is left out if it is not possible. -/
def attempt (noSimilarCount : Nat) (r : InventoryResult × Fill Pos) : Except StoreResult (Fill Pos) :=
  if r.1 ≠ .ok then .ok r.2
  else if r.2.count = 0 then .error (.finish noSimilarCount r.2)
  else .ok r.2

namespace Player

section Search

variable (p : Player) (pProto : ItemTemplate) (pItem : Option Item) (bag slot noSimilarCount : Nat)

/-- In some slots of the player. -/
def searchSlots (slotBegin slotEnd : Nat) (merge : Bool) (f : Fill Pos) : Except StoreResult (Fill Pos) :=
  must noSimilarCount (p.canStoreItem_InInventorySlots slotBegin slotEnd pProto merge pItem bag slot f)

/-- In all equipped bags but the one that was asked for. -/
def searchBags (merge nonSpecialized : Bool) (f : Fill Pos) : Except StoreResult (Fill Pos) :=
  (List.range' INVENTORY_SLOT_BAG_START (INVENTORY_SLOT_BAG_END - INVENTORY_SLOT_BAG_START)).foldlM
    (fun f i => attempt noSimilarCount (p.canStoreItem_InBag i pProto merge nonSpecialized pItem bag slot f)) f

/-- In the bag that was asked for, of either kind. -/
def searchBag (merge : Bool) (f : Fill Pos) : Except StoreResult (Fill Pos) :=
  let r := p.canStoreItem_InBag bag pProto merge false pItem NULL_BAG slot f
  must noSimilarCount (if r.1 ≠ .ok then p.canStoreItem_InBag bag pProto merge true pItem NULL_BAG slot f else r)

/-- "in specific bag" -/
def searchSpecificBag (f : Fill Pos) : Except StoreResult (Fill Pos) := do
  let f ← (
    if pProto.stackable ≠ 1 then
      if bag = INVENTORY_SLOT_BAG_0 then
        p.searchSlots pProto pItem bag slot noSimilarCount KEYRING_SLOT_START CURRENCYTOKEN_SLOT_END true f >>= fun f =>
          p.searchSlots pProto pItem bag slot noSimilarCount INVENTORY_SLOT_ITEM_START INVENTORY_SLOT_ITEM_END true f
      else p.searchBag pProto pItem bag slot noSimilarCount true f
    else .ok f)
  (if bag = INVENTORY_SLOT_BAG_0 then do
    let f ← (
      if pProto.isKey then
        p.searchSlots pProto pItem bag slot noSimilarCount KEYRING_SLOT_START (KEYRING_SLOT_START + getMaxKeyringSize) false f >>=
          fun f => p.searchSlots pProto pItem bag slot noSimilarCount CURRENCYTOKEN_SLOT_START CURRENCYTOKEN_SLOT_END false f
      else if pProto.isCurrencyToken then
        p.searchSlots pProto pItem bag slot noSimilarCount CURRENCYTOKEN_SLOT_START CURRENCYTOKEN_SLOT_END false f
      else .ok f)
    p.searchSlots pProto pItem bag slot noSimilarCount INVENTORY_SLOT_ITEM_START INVENTORY_SLOT_ITEM_END false f
  else p.searchBag pProto pItem bag slot noSimilarCount false f)

/-- "search stack for merge to" -/
def searchStacks (f : Fill Pos) : Except StoreResult (Fill Pos) :=
  if pProto.stackable ≠ 1 then do
    let f ← p.searchSlots pProto pItem bag slot noSimilarCount KEYRING_SLOT_START CURRENCYTOKEN_SLOT_END true f
    let f ← p.searchSlots pProto pItem bag slot noSimilarCount INVENTORY_SLOT_ITEM_START INVENTORY_SLOT_ITEM_END true f
    let f ← (if pProto.bagFamily ≠ 0 then p.searchBags pProto pItem bag slot noSimilarCount true false f else .ok f)
    p.searchBags pProto pItem bag slot noSimilarCount true true f
  else .ok f

/-- "search free slot - special bag case" -/
def searchSpecialBags (f : Fill Pos) : Except StoreResult (Fill Pos) :=
  if pProto.bagFamily ≠ 0 then do
    let f ← (
      if pProto.isKey then
        p.searchSlots pProto pItem bag slot noSimilarCount KEYRING_SLOT_START (KEYRING_SLOT_START + getMaxKeyringSize) false f
      else if pProto.isCurrencyToken then
        p.searchSlots pProto pItem bag slot noSimilarCount CURRENCYTOKEN_SLOT_START CURRENCYTOKEN_SLOT_END false f
      else .ok f)
    p.searchBags pProto pItem bag slot noSimilarCount false false f
  else .ok f

/-- "search free slot" -/
def searchFreeSlots (f : Fill Pos) : Except StoreResult (Fill Pos) :=
  if p.isFullBag pItem then .error ⟨.nonemptyBagOverOtherBag, f.dest, none⟩
  else do
    let f ← p.searchSlots pProto pItem bag slot noSimilarCount INVENTORY_SLOT_ITEM_START INVENTORY_SLOT_ITEM_END false f
    p.searchBags pProto pItem bag slot noSimilarCount false true f

/-- The cascade of `CanStoreItem`. -/
def searchAll (swap : Bool) (f : Fill Pos) : Except StoreResult (Fill Pos) := do
  let f ← (
    if bag ≠ NULL_BAG ∧ slot ≠ NULL_SLOT then
      must noSimilarCount (p.canStoreItem_InSpecificSlot ⟨bag, slot⟩ pProto swap pItem f)
    else .ok f)
  let f ← (if bag ≠ NULL_BAG then p.searchSpecificBag pProto pItem bag slot noSimilarCount f else .ok f)
  let f ← p.searchStacks pProto pItem bag slot noSimilarCount f
  let f ← p.searchSpecialBags pProto pItem bag slot noSimilarCount f
  p.searchFreeSlots pProto pItem bag slot noSimilarCount f

end Search

/-- `CanStoreItem` after the checks of the item itself. -/
def search (p : Player) (bag slot : Nat) (dest : List (Pos × Nat)) (pProto : ItemTemplate) (count noSimilarCount : Nat)
    (pItem : Option Item) (swap : Bool) : StoreResult :=
  match p.searchAll pProto pItem bag slot noSimilarCount swap ⟨dest, count⟩ with
  | .error r => r
  | .ok f => ⟨.inventoryFull, f.dest, some ((f.count + noSimilarCount) % 2 ^ 32)⟩

/-- `similar` is what `CanTakeMoreSimilarItems` answers if it is not `ok`, with the number of items that are too many. -/
def canStoreItem (p : Player) (bag slot : Nat) (dest : List (Pos × Nat)) (proto : Option ItemTemplate) (count : Nat)
    (pItem : Option Item) (isBindedNotWith : Item → Bool) (similar : Option (InventoryResult × Nat)) (swap : Bool) : StoreResult :=
  match proto with
  | none => ⟨if swap then .itemsCantBeSwapped else .itemNotFound, dest, some count⟩
  | some pProto =>
    if pItem.any (·.lootGenerated) then ⟨.alreadyLooted, dest, some count⟩
    else if pItem.any isBindedNotWith then ⟨.dontOwnThatItem, dest, some count⟩
    else
      match similar with
      | none => p.search bag slot dest pProto count 0 pItem swap
      | some (res, noSimilarCount) =>
        if count = noSimilarCount then ⟨res, dest, some noSimilarCount⟩
        else p.search bag slot dest pProto ((count + 2 ^ 32 - noSimilarCount) % 2 ^ 32) noSimilarCount pItem swap

end Player

end AtlasWow.Storage
