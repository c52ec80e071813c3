/-
The storage of a player (`Player.cpp`, "STORAGE SYSTEM"): the slots of the
player, some of them for bags, and the slots of these bags.

Only the bags in these slots have anything in them; all others are empty
before they are moved there.
-/
import Mathlib.Tactic.Common

namespace AtlasWow.Storage

def NULL_BAG : Nat := 0
def NULL_SLOT : Nat := 255
def INVENTORY_SLOT_BAG_0 : Nat := 255
def EQUIPMENT_SLOT_START : Nat := 0
def EQUIPMENT_SLOT_END : Nat := 19
def INVENTORY_SLOT_BAG_START : Nat := 19
def INVENTORY_SLOT_BAG_END : Nat := 23
def INVENTORY_SLOT_ITEM_START : Nat := 23
def INVENTORY_SLOT_ITEM_END : Nat := 39
def BANK_SLOT_ITEM_START : Nat := 39
def BANK_SLOT_ITEM_END : Nat := 67
def BANK_SLOT_BAG_START : Nat := 67
def BANK_SLOT_BAG_END : Nat := 74
def BUYBACK_SLOT_START : Nat := 74
def BUYBACK_SLOT_END : Nat := 86
def KEYRING_SLOT_START : Nat := 86
def KEYRING_SLOT_END : Nat := 118
def CURRENCYTOKEN_SLOT_START : Nat := 118
def CURRENCYTOKEN_SLOT_END : Nat := 150
def PLAYER_SLOT_END : Nat := 150
def MAX_BAG_SIZE : Nat := 36

def ITEM_CLASS_CONTAINER : Nat := 1
def ITEM_CLASS_WEAPON : Nat := 2
def ITEM_CLASS_PROJECTILE : Nat := 6
def ITEM_CLASS_QUIVER : Nat := 11
def INVTYPE_SHIELD : Nat := 14
def INVTYPE_BAG : Nat := 18
def INVTYPE_HOLDABLE : Nat := 23
def INVTYPE_RELIC : Nat := 28

/-- The results that are used here. -/
inductive InventoryResult where
  | ok | nonemptyBagOverOtherBag | itemDoesntGoIntoBag | cantCarryMoreOfThis | itemCantStack | itemsCantBeSwapped | itemNotFound
  | canOnlyDoWithEmptyBags | dontOwnThatItem | cantDoRightNow | alreadyLooted | inventoryFull | notInCombat | notDuringArenaMatch
deriving DecidableEq

structure ItemTemplate where
  itemId : Nat
  itemClass : Nat
  subClass : Nat
  inventoryType : Nat
  bagFamily : UInt32
  stackable : Int
  containerSlots : Nat
deriving DecidableEq

namespace ItemTemplate

def getMaxStackSize (proto : ItemTemplate) : Nat :=
  if proto.stackable = 2147483647 ∨ proto.stackable ≤ 0 then 0x7FFFFFFF - 1 else proto.stackable.toNat

theorem getMaxStackSize_pos (proto : ItemTemplate) : 0 < proto.getMaxStackSize := by
  rw [getMaxStackSize]
  split
  next => decide
  next h => omega

def canChangeEquipStateInCombat (proto : ItemTemplate) : Bool :=
  if proto.inventoryType = INVTYPE_RELIC ∨ proto.inventoryType = INVTYPE_SHIELD ∨ proto.inventoryType = INVTYPE_HOLDABLE then true
  else proto.itemClass = ITEM_CLASS_WEAPON || proto.itemClass = ITEM_CLASS_PROJECTILE

end ItemTemplate

structure Item where
  guid : Nat
  template : ItemTemplate
  count : Nat
  inTrade : Bool
  lootGenerated : Bool
deriving DecidableEq

namespace Item

def getEntry (item : Item) : Nat := item.template.itemId

/-- `ToBag`, as `NewItemOrBag` makes it. -/
def isBag (item : Item) : Bool := item.template.inventoryType = INVTYPE_BAG

def getBagSize (item : Item) : Nat := item.template.containerSlots

end Item

structure Pos where
  bag : Nat
  slot : Nat
deriving DecidableEq

/-- What is at the position `pos'` is in the bag at the position `pos`. -/
def Pos.Inside (pos' pos : Pos) : Prop := pos.bag = INVENTORY_SLOT_BAG_0 ∧ pos'.bag = pos.slot

instance (pos' pos : Pos) : Decidable (pos'.Inside pos) := inferInstanceAs (Decidable (_ ∧ _))

/-- `IsBagPos`, for the slots of the player. -/
def isBagSlot (slot : Nat) : Bool :=
  (INVENTORY_SLOT_BAG_START ≤ slot && slot < INVENTORY_SLOT_BAG_END) || (BANK_SLOT_BAG_START ≤ slot && slot < BANK_SLOT_BAG_END)

def isBagPos (pos : Pos) : Bool := pos.bag = INVENTORY_SLOT_BAG_0 && isBagSlot pos.slot

def isEquipmentPos (pos : Pos) : Bool :=
  pos.bag = INVENTORY_SLOT_BAG_0 && (pos.slot < EQUIPMENT_SLOT_END ||
    (INVENTORY_SLOT_BAG_START ≤ pos.slot && pos.slot < INVENTORY_SLOT_BAG_END))

theorem isEquipmentPos_iff {pos : Pos} :
    isEquipmentPos pos = true ↔ pos.bag = INVENTORY_SLOT_BAG_0 ∧ pos.slot < INVENTORY_SLOT_BAG_END := by
  rw [isEquipmentPos, Bool.and_eq_true, Bool.or_eq_true, Bool.and_eq_true, decide_eq_true_iff, decide_eq_true_iff, decide_eq_true_iff,
    decide_eq_true_iff]
  unfold EQUIPMENT_SLOT_END INVENTORY_SLOT_BAG_START INVENTORY_SLOT_BAG_END
  omega

/-- The slots of a player, and of the bags in the slots for bags. -/
structure Player where
  items : Nat → Option Item
  bagItems : Nat → Nat → Option Item
  isCharmed : Bool
  isInCombat : Bool
  /-- In an arena that is in progress. -/
  inArenaMatch : Bool

namespace Player

/-- Slots of the player that `GetItemByPos` reads. -/
def isOwnSlot (slot : Nat) : Bool := slot < BANK_SLOT_BAG_END || (KEYRING_SLOT_START ≤ slot && slot < CURRENCYTOKEN_SLOT_END)

def getBagByPos (p : Player) (bag : Nat) : Option Item := if isBagSlot bag then (p.items bag).filter Item.isBag else none

def getItemByPos (p : Player) (pos : Pos) : Option Item :=
  if pos.bag = INVENTORY_SLOT_BAG_0 && isOwnSlot pos.slot then p.items pos.slot
  else
    match p.getBagByPos pos.bag with
    | none => none
    | some bag => if pos.slot < bag.getBagSize then p.bagItems pos.bag pos.slot else none

/-- `IsNotEmptyBag` of what is at a position. -/
def isNotEmptyBag (p : Player) (pos : Pos) : Bool :=
  match p.getItemByPos pos with
  | none => false
  | some item => item.isBag && isBagPos pos && (List.range item.getBagSize).any fun j => (p.getItemByPos ⟨pos.slot, j⟩).isSome

def setItem (p : Player) (pos : Pos) (item : Option Item) : Player :=
  if pos.bag = INVENTORY_SLOT_BAG_0 then { p with items := Function.update p.items pos.slot item }
  else { p with bagItems := Function.update p.bagItems pos.bag (Function.update (p.bagItems pos.bag) pos.slot item) }

def setCount (p : Player) (pos : Pos) (count : Nat) : Player :=
  p.setItem pos ((p.getItemByPos pos).map fun item => { item with count := count })

/-- `CanUnequipItem`, not for a swap. -/
def canUnequipItem (p : Player) (pos : Pos) : InventoryResult :=
  if !isEquipmentPos pos && !isBagPos pos then .ok
  else
    match p.getItemByPos pos with
    | none => .ok
    | some item =>
      if item.lootGenerated then .alreadyLooted
      else if p.isCharmed then .cantDoRightNow
      else if !item.template.canChangeEquipStateInCombat && p.isInCombat then .notInCombat
      else if !item.template.canChangeEquipStateInCombat && p.inArenaMatch then .notDuringArenaMatch
      else if p.isNotEmptyBag pos then .canOnlyDoWithEmptyBags
      else .ok

/-- `DestroyItem` of something in a bag, which is no bag with anything in it. -/
def destroyContained (p : Player) (pos : Pos) : Player :=
  match p.getItemByPos pos with
  | none => p
  | some _ => p.setItem pos none

/-- A bag takes along what is in it. -/
def destroyItem (p : Player) (pos : Pos) : Player :=
  match p.getItemByPos pos with
  | none => p
  | some _ =>
    let p := if p.isNotEmptyBag pos then (List.range MAX_BAG_SIZE).foldl (fun p i => p.destroyContained ⟨pos.slot, i⟩) p else p
    p.setItem pos none

/-! ## What is where -/

variable {p : Player} {pos pos' : Pos} {item : Item}

variable {slot bag : Nat}

theorem isOwnSlot_of_isBagSlot (h : isBagSlot slot = true) : isOwnSlot slot = true := by
  simp only [isBagSlot, isOwnSlot, Bool.or_eq_true, Bool.and_eq_true, decide_eq_true_iff] at h ⊢
  unfold INVENTORY_SLOT_BAG_START INVENTORY_SLOT_BAG_END BANK_SLOT_BAG_START at h
  unfold BANK_SLOT_BAG_END at h ⊢
  omega

theorem getItemByPos_own (h : isOwnSlot slot = true) : p.getItemByPos ⟨INVENTORY_SLOT_BAG_0, slot⟩ = p.items slot := by
  rw [getItemByPos, if_pos]
  simp [h]

/-- Something at a position of the player is in a slot, and something else in a bag. -/
theorem getItemByPos_cases (h : p.getItemByPos pos = some item) :
    (pos.bag = INVENTORY_SLOT_BAG_0 ∧ isOwnSlot pos.slot = true ∧ p.items pos.slot = some item) ∨
      (pos.bag ≠ INVENTORY_SLOT_BAG_0 ∧ isBagSlot pos.bag = true ∧
        ∃ bag, p.items pos.bag = some bag ∧ bag.isBag = true ∧ pos.slot < bag.getBagSize ∧ p.bagItems pos.bag pos.slot = some item) := by
  rw [getItemByPos] at h
  split at h
  next hown =>
    rw [Bool.and_eq_true, decide_eq_true_iff] at hown
    exact .inl ⟨hown.1, hown.2, h⟩
  next =>
  refine .inr ?_
  unfold getBagByPos at h
  split at h
  next => cases h
  next bag hbag =>
  split at hbag
  next hslot =>
    obtain ⟨hbag, hisBag⟩ := Option.filter_eq_some_iff.1 hbag
    split at h
    next hlt =>
      refine ⟨fun he => ?_, hslot, bag, hbag, hisBag, hlt, h⟩
      rw [he] at hslot
      cases hslot
    next => cases h
  next => cases hbag

/-- Something that is in a bag is in one that is there. -/
theorem getBagByPos_of_getItemByPos (h : p.getItemByPos pos = some item) (hbag : pos.bag ≠ INVENTORY_SLOT_BAG_0) :
    ∃ b, p.getBagByPos pos.bag = some b ∧ pos.slot < b.getBagSize := by
  rcases getItemByPos_cases h with ⟨hown, _⟩ | ⟨_, hslot, b, hb, hisBag, hlt, _⟩
  · exact absurd hown hbag
  · refine ⟨b, ?_, hlt⟩
    rw [getBagByPos, if_pos hslot, hb, Option.filter_some, if_pos hisBag]

theorem items_setItem_own (slot : Nat) (v : Option Item) :
    (p.setItem ⟨INVENTORY_SLOT_BAG_0, slot⟩ v).items = Function.update p.items slot v := rfl

theorem bagItems_setItem_own (slot : Nat) (v : Option Item) :
    (p.setItem ⟨INVENTORY_SLOT_BAG_0, slot⟩ v).bagItems = p.bagItems := rfl

theorem items_setItem_bagged (h : bag ≠ INVENTORY_SLOT_BAG_0) (v : Option Item) :
    (p.setItem ⟨bag, slot⟩ v).items = p.items := by
  rw [setItem, if_neg h]

theorem bagItems_setItem_self (h : bag ≠ INVENTORY_SLOT_BAG_0) (v : Option Item) :
    (p.setItem ⟨bag, slot⟩ v).bagItems bag slot = v := by
  simp [setItem, h]

theorem bagItems_setItem_ne {bag' slot' : Nat} (hne : (⟨bag', slot'⟩ : Pos) ≠ ⟨bag, slot⟩) (v : Option Item) :
    (p.setItem ⟨bag, slot⟩ v).bagItems bag' slot' = p.bagItems bag' slot' := by
  rw [setItem]
  split
  next => rfl
  next =>
  by_cases hb : bag' = bag
  · subst hb
    have hs : slot' ≠ slot := fun hs => hne (by rw [hs])
    simp [hs]
  · simp [hb]

theorem getItemByPos_bagged (h : bag ≠ INVENTORY_SLOT_BAG_0) : p.getItemByPos ⟨bag, slot⟩ = match p.getBagByPos bag with
    | none => none
    | some b => if slot < b.getBagSize then p.bagItems bag slot else none := by
  rw [getItemByPos, if_neg]
  simp [h]

theorem getItemByPos_unowned (h : ¬isOwnSlot slot = true) : p.getItemByPos ⟨INVENTORY_SLOT_BAG_0, slot⟩ = none := by
  rw [getItemByPos, if_neg (by simp [h])]
  rfl

/-- A slot of a bag that is there gets something. -/
theorem getItemByPos_setItem_bagged (hbag : pos.bag ≠ INVENTORY_SLOT_BAG_0)
    (hplace : ∃ b, p.getBagByPos pos.bag = some b ∧ pos.slot < b.getBagSize) (v : Option Item) (pos' : Pos) :
    (p.setItem pos v).getItemByPos pos' = if pos' = pos then v else p.getItemByPos pos' := by
  obtain ⟨bag, slot⟩ := pos
  obtain ⟨bag', slot'⟩ := pos'
  obtain ⟨b, hb, hlt⟩ := hplace
  simp only at hbag hb hlt
  by_cases hbag' : bag' = INVENTORY_SLOT_BAG_0
  · subst hbag'
    rw [if_neg fun hpos => hbag (congrArg Pos.bag hpos).symm]
    by_cases hown' : isOwnSlot slot' = true
    · rw [getItemByPos_own hown', getItemByPos_own hown', items_setItem_bagged hbag]
    · rw [getItemByPos_unowned hown', getItemByPos_unowned hown']
  have hbags : (p.setItem ⟨bag, slot⟩ v).getBagByPos bag' = p.getBagByPos bag' := by
    rw [getBagByPos, getBagByPos, items_setItem_bagged hbag]
  rw [getItemByPos_bagged hbag', getItemByPos_bagged hbag', hbags]
  by_cases hpos : (⟨bag', slot'⟩ : Pos) = ⟨bag, slot⟩
  · cases hpos
    rw [if_pos rfl, hb, bagItems_setItem_self hbag]
    exact if_pos hlt
  · rw [if_neg hpos, bagItems_setItem_ne hpos]

/-- An emptied slot is empty, and if a bag was in it, so are the slots of the bag. -/
theorem getItemByPos_clear (h : p.getItemByPos pos = some item) (pos' : Pos) :
    (p.setItem pos none).getItemByPos pos' = if pos' = pos ∨ pos'.Inside pos then none else p.getItemByPos pos' := by
  obtain ⟨bag, slot⟩ := pos
  obtain ⟨bag', slot'⟩ := pos'
  rcases getItemByPos_cases h with ⟨hbag, hown, _⟩ | ⟨hbag, _⟩
  · simp only at hbag hown
    subst hbag
    by_cases hbag' : bag' = INVENTORY_SLOT_BAG_0
    · subst hbag'
      have hinside : ¬Pos.Inside ⟨INVENTORY_SLOT_BAG_0, slot'⟩ ⟨INVENTORY_SLOT_BAG_0, slot⟩ := fun hin => by
        have he : INVENTORY_SLOT_BAG_0 = slot := hin.2
        rw [← he] at hown
        cases hown
      by_cases hown' : isOwnSlot slot' = true
      · rw [getItemByPos_own hown', getItemByPos_own hown', items_setItem_own, Function.update_apply]
        simp [hinside]
      · rw [getItemByPos_unowned hown', getItemByPos_unowned hown', ite_self]
    by_cases he : bag' = slot
    · rw [if_pos (.inr ⟨rfl, he⟩), getItemByPos_bagged hbag', getBagByPos, items_setItem_own, he, Function.update_self]
      simp
    · have hkeep : ¬((⟨bag', slot'⟩ : Pos) = ⟨INVENTORY_SLOT_BAG_0, slot⟩ ∨ Pos.Inside ⟨bag', slot'⟩ ⟨INVENTORY_SLOT_BAG_0, slot⟩) := by
        rintro (hpos | hin)
        · exact hbag' (congrArg Pos.bag hpos)
        · exact he hin.2
      rw [if_neg hkeep, getItemByPos_bagged hbag', getItemByPos_bagged hbag', getBagByPos, getBagByPos, items_setItem_own,
        bagItems_setItem_own, Function.update_of_ne he]
  · have hinside : ¬Pos.Inside ⟨bag', slot'⟩ ⟨bag, slot⟩ := fun hin => hbag hin.1
    simp only [hinside, or_false]
    exact getItemByPos_setItem_bagged hbag (getBagByPos_of_getItemByPos h hbag) none ⟨bag', slot'⟩

/-- Another item of the same template in a slot. -/
theorem getItemByPos_replace (h : p.getItemByPos pos = some item) {item' : Item} (htemplate : item'.template = item.template)
    (pos' : Pos) : (p.setItem pos (some item')).getItemByPos pos' = if pos' = pos then some item' else p.getItemByPos pos' := by
  obtain ⟨bag, slot⟩ := pos
  obtain ⟨bag', slot'⟩ := pos'
  rcases getItemByPos_cases h with ⟨hbag, hown, hitem⟩ | ⟨hbag, _⟩
  · simp only at hbag hown hitem
    subst hbag
    by_cases hbag' : bag' = INVENTORY_SLOT_BAG_0
    · subst hbag'
      by_cases hown' : isOwnSlot slot' = true
      · rw [getItemByPos_own hown', getItemByPos_own hown', items_setItem_own, Function.update_apply]
        simp
      rw [getItemByPos_unowned hown', getItemByPos_unowned hown', if_neg]
      intro hpos
      cases hpos
      exact hown' hown
    rw [getItemByPos_bagged hbag', getItemByPos_bagged hbag', if_neg fun hpos => hbag' (congrArg Pos.bag hpos)]
    rw [getBagByPos, getBagByPos, items_setItem_own, bagItems_setItem_own]
    by_cases he : bag' = slot
    · subst he
      rw [Function.update_self, hitem]
      have hisBag : item'.isBag = item.isBag := by rw [Item.isBag, Item.isBag, htemplate]
      have hsize : item'.getBagSize = item.getBagSize := by rw [Item.getBagSize, Item.getBagSize, htemplate]
      by_cases hslot : isBagSlot bag' = true
      · rw [if_pos hslot, if_pos hslot, Option.filter_some, Option.filter_some, hisBag]
        cases item.isBag with
        | false => rfl
        | true => simp [hsize]
      · rw [if_neg hslot, if_neg hslot]
    · rw [Function.update_of_ne he]
  · exact getItemByPos_setItem_bagged hbag (getBagByPos_of_getItemByPos h hbag) (some item') ⟨bag', slot'⟩

theorem getItemByPos_setCount (h : p.getItemByPos pos = some item) (count : Nat) (pos' : Pos) :
    (p.setCount pos count).getItemByPos pos' = if pos' = pos then some { item with count := count } else p.getItemByPos pos' := by
  have htemplate : { item with count := count }.template = item.template := rfl
  rw [setCount, h]
  exact getItemByPos_replace h htemplate pos'

theorem getBagByPos_eq (p : Player) (bag : Nat) : p.getBagByPos bag =
    if isBagSlot bag then (p.getItemByPos ⟨INVENTORY_SLOT_BAG_0, bag⟩).filter Item.isBag else none := by
  rw [getBagByPos]
  split
  next h => rw [getItemByPos_own (isOwnSlot_of_isBagSlot h)]
  next => rfl

/-! ## What is destroyed -/

/-- What else a player is, as far as it matters here. -/
def SameState (p p' : Player) : Prop :=
  p'.isCharmed = p.isCharmed ∧ p'.isInCombat = p.isInCombat ∧ p'.inArenaMatch = p.inArenaMatch

theorem SameState.refl (p : Player) : SameState p p := ⟨rfl, rfl, rfl⟩

theorem SameState.trans {p' p'' : Player} (h : SameState p p') (h' : SameState p' p'') : SameState p p'' :=
  ⟨h'.1.trans h.1, h'.2.1.trans h.2.1, h'.2.2.trans h.2.2⟩

theorem sameState_setItem (p : Player) (pos : Pos) (v : Option Item) : SameState p (p.setItem pos v) := by
  rw [setItem]
  split
  · exact .refl p
  · exact .refl p

theorem sameState_destroyContained (p : Player) (pos : Pos) : SameState p (p.destroyContained pos) := by
  rw [destroyContained]
  split
  next => exact .refl p
  next => exact sameState_setItem p pos none

theorem getItemByPos_destroyContained (hbag : bag ≠ INVENTORY_SLOT_BAG_0) (slot : Nat) (h : pos'.bag ≠ bag) :
    (p.destroyContained ⟨bag, slot⟩).getItemByPos pos' = p.getItemByPos pos' := by
  rw [destroyContained]
  split
  next => rfl
  next hitem =>
  rw [getItemByPos_clear hitem, if_neg]
  rintro (rfl | hin)
  · exact h rfl
  · exact hbag hin.1

/-- The slots of a bag are emptied, and no others are. -/
theorem destroyContents_spec (hbag : bag ≠ INVENTORY_SLOT_BAG_0) (slots : List Nat) : ∀ p : Player,
    SameState p (slots.foldl (fun p i => p.destroyContained ⟨bag, i⟩) p) ∧ ∀ pos' : Pos, pos'.bag ≠ bag →
      (slots.foldl (fun p i => p.destroyContained ⟨bag, i⟩) p).getItemByPos pos' = p.getItemByPos pos' := by
  induction slots with
  | nil => exact fun p => ⟨.refl p, fun _ _ => rfl⟩
  | cons i slots ih =>
    intro p
    obtain ⟨hstate, hitems⟩ := ih (p.destroyContained ⟨bag, i⟩)
    refine ⟨(sameState_destroyContained p _).trans hstate, fun pos' hpos' => ?_⟩
    rw [List.foldl_cons, hitems pos' hpos', getItemByPos_destroyContained hbag i hpos']

/-- What is destroyed is gone, and if it was a bag, so is what was in it. -/
theorem destroyItem_spec (h : p.getItemByPos pos = some item) : SameState p (p.destroyItem pos) ∧ ∀ pos' : Pos,
    (p.destroyItem pos).getItemByPos pos' = if pos' = pos ∨ pos'.Inside pos then none else p.getItemByPos pos' := by
  rw [destroyItem, h]
  dsimp only
  split
  next hfull =>
    have hbagPos : isBagPos pos = true := by
      rw [isNotEmptyBag, h] at hfull
      simp only [Bool.and_eq_true] at hfull
      exact hfull.1.2
    rw [isBagPos, Bool.and_eq_true, decide_eq_true_iff] at hbagPos
    have hslot : pos.slot ≠ INVENTORY_SLOT_BAG_0 := fun he => by
      have hslot := hbagPos.2
      rw [he] at hslot
      cases hslot
    obtain ⟨hstate, hitems⟩ := destroyContents_spec hslot (List.range MAX_BAG_SIZE) p
    refine ⟨hstate.trans (sameState_setItem _ _ _), fun pos' => ?_⟩
    have hself : pos.bag ≠ pos.slot := fun he => hslot (he ▸ hbagPos.1)
    rw [getItemByPos_clear ((hitems pos hself).trans h)]
    split
    next => rfl
    next hother =>
    have hne : pos'.bag ≠ pos.slot := fun he => hother (.inr ⟨hbagPos.1, he⟩)
    exact hitems pos' hne
  next => exact ⟨sameState_setItem _ _ _, getItemByPos_clear h⟩

/-- Whether something may be unequipped depends on itself, and for a bag on what is in it. -/
theorem canUnequipItem_congr {p' : Player} (hstate : SameState p p') (hitem : p'.getItemByPos pos = p.getItemByPos pos)
    (hcontents : ∀ j, p'.getItemByPos ⟨pos.slot, j⟩ = p.getItemByPos ⟨pos.slot, j⟩) :
    p'.canUnequipItem pos = p.canUnequipItem pos := by
  have hfull : p'.isNotEmptyBag pos = p.isNotEmptyBag pos := by
    simp only [isNotEmptyBag, hitem, hcontents]
  rw [canUnequipItem, canUnequipItem, hitem, hfull, hstate.1, hstate.2.1, hstate.2.2]

end Player

end AtlasWow.Storage
