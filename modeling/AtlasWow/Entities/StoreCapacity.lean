/-
How much room `CanStoreItem` finds. Once a slot of a bag was asked for, the
slots with the same number are skipped in all other bags as well, though only
the one was looked at before: the room there is not found
(`canStoreItem_ok_iff`).
-/
import AtlasWow.Entities.StoreRoom

namespace AtlasWow.Storage

namespace Player

section Capacity

variable (p : Player) (pProto : ItemTemplate) (pItem : Option Item) (swap : Bool) (bag slot : Nat)

/-- All slots of the player and of all bags. -/
def storagePlaces : List Pos :=
  ownPlaces EQUIPMENT_SLOT_START BANK_SLOT_BAG_END ++ (ownPlaces KEYRING_SLOT_START CURRENCYTOKEN_SLOT_END ++
    (p.bagPlaces INVENTORY_SLOT_BAG_START INVENTORY_SLOT_BAG_END ++ p.bagPlaces BANK_SLOT_BAG_START BANK_SLOT_BAG_END))

/-- Slots for keys and for currency tokens where a free one is looked for. -/
def keyringTakes (i : Nat) : Bool :=
  if pProto.isKey then
    (KEYRING_SLOT_START ≤ i && i < KEYRING_SLOT_END) ||
      (bag = INVENTORY_SLOT_BAG_0 && CURRENCYTOKEN_SLOT_START ≤ i && i < CURRENCYTOKEN_SLOT_END)
  else pProto.isCurrencyToken && CURRENCYTOKEN_SLOT_START ≤ i && i < CURRENCYTOKEN_SLOT_END

/-- The slots where room is looked for: the one asked for, the backpack, keyring and currency tokens, and in the bag asked for and
the equipped ones that take the item the slots with other numbers than the one asked for. -/
def reaches (pos : Pos) : Bool :=
  (bag ≠ NULL_BAG && slot ≠ NULL_SLOT && pos = ⟨bag, slot⟩) ||
    if pos.bag = INVENTORY_SLOT_BAG_0 then
      (INVENTORY_SLOT_ITEM_START ≤ pos.slot && pos.slot < INVENTORY_SLOT_ITEM_END) ||
        (KEYRING_SLOT_START ≤ pos.slot && pos.slot < CURRENCYTOKEN_SLOT_END &&
          ((p.itemBesides pItem pos).isSome || keyringTakes pProto bag pos.slot))
    else
      p.bagTakes pProto pItem pos.bag && pos.slot ≠ slot &&
        (pos.bag = bag || (INVENTORY_SLOT_BAG_START ≤ pos.bag && pos.bag < INVENTORY_SLOT_BAG_END))

/-- The room in the slots where it is looked for. -/
def reachableCapacity : Nat :=
  ((p.storagePlaces.filter (p.reaches pProto pItem bag slot)).map (p.room pProto pItem swap ⟨bag, slot⟩)).sum

/-- The room in the backpack and the equipped bags that take the item. -/
def freeCapacity : Nat :=
  ((ownPlaces INVENTORY_SLOT_ITEM_START INVENTORY_SLOT_ITEM_END ++
    (p.bagPlaces INVENTORY_SLOT_BAG_START INVENTORY_SLOT_BAG_END).filter fun pos => p.bagTakes pProto pItem pos.bag).map
      (p.room pProto pItem false ⟨NULL_BAG, NULL_SLOT⟩)).sum

/-- Nothing was asked for, or a bag or a slot that takes the item. -/
def Permitted : Prop :=
  (bag = NULL_BAG → slot = NULL_SLOT) ∧ (bag ≠ NULL_BAG ∧ slot ≠ NULL_SLOT → p.SlotGiven pProto pItem swap ⟨bag, slot⟩) ∧
    (bag ≠ NULL_BAG ∧ bag ≠ INVENTORY_SLOT_BAG_0 → p.bagTakes pProto pItem bag = true)

end Capacity

variable {p : Player} {pProto : ItemTemplate} {pItem : Option Item} {bag slot noSimilarCount count : Nat} {swap merge : Bool} {pos : Pos}

/-- What the search comes to. -/
theorem search_spec (hcount : 0 < count) (p : Player) (bag slot : Nat) (pProto : ItemTemplate) (noSimilarCount : Nat)
    (pItem : Option Item) (swap : Bool) :
    (Fill.Done (p.room pProto pItem swap ⟨bag, slot⟩) count (p.seen pProto pItem bag slot swap)
        (p.search bag slot [] pProto count noSimilarCount pItem swap).dest ∧
      ((p.search bag slot [] pProto count noSimilarCount pItem swap).result = .ok ↔ noSimilarCount = 0)) ∨
    ((p.search bag slot [] pProto count noSimilarCount pItem swap).result ≠ .ok ∧
      (p.Refused pProto pItem bag slot swap ∨
        ∃ f : Fill Pos, f.Full (p.room pProto pItem swap ⟨bag, slot⟩) count (p.seen pProto pItem bag slot swap))) := by
  have hstart : Fill.Full (p.room pProto pItem swap ⟨bag, slot⟩) count ∅ ⟨[], count⟩ :=
    ⟨List.nodup_nil, fun _ h => (nomatch h), fun _ h => h.elim, Nat.zero_add count, hcount⟩
  have houtcome := @visits_searchAll p pProto pItem bag slot noSimilarCount count swap ∅ ⟨[], count⟩ hstart
  rw [Set.empty_union] at houtcome
  rw [search]
  cases hall : p.searchAll pProto pItem bag slot noSimilarCount swap ⟨[], count⟩ with
  | ok f =>
    rw [hall] at houtcome
    exact .inr ⟨InventoryResult.noConfusion, .inr ⟨f, houtcome⟩⟩
  | error r =>
    rw [hall] at houtcome
    rcases houtcome with ⟨f, hzero, hdone, rfl⟩ | ⟨hrefused, hr⟩
    · refine .inl ?_
      simp only [StoreResult.finish]
      split
      next hnone => exact ⟨hdone, fun _ => hnone, fun _ => rfl⟩
      next hsome => exact ⟨hdone, fun h => (nomatch h), fun h => absurd h hsome⟩
    · exact .inr ⟨hr, .inl hrefused⟩

/-! ## What is looked at -/

/-- A free slot is looked at by the searches for free slots. -/
theorem needSpace_free (h : p.itemBesides pItem pos = none) : (p.needSpace pProto pItem merge pos).isSome = !merge := by
  rw [needSpace, h]
  cases merge <;> rfl

/-- A slot with a stack that has room is looked at by the searches for stacks, which are made. -/
theorem needSpace_stack {item : Item} (h : p.itemBesides pItem pos = some item) (hcounts : 0 < item.count)
    (hmerge : item.canBeMergedPartlyWith pProto = .ok) :
    (∀ merge, (p.needSpace pProto pItem merge pos).isSome = merge) ∧ pProto.stackable ≠ 1 := by
  constructor
  · intro merge
    rw [needSpace, h]
    simp only [hmerge, if_true]
    cases merge <;> rfl
  · intro hsingle
    have hlt := (Item.lt_of_canBeMerged hmerge).2.2
    rw [ItemTemplate.getMaxStackSize, hsingle] at hlt
    simp at hlt
    omega

variable {slotBegin slotEnd i skipBag : Nat} {nonSpecialized : Bool}

theorem mem_slotsSeen (hfull : p.isFullBag pItem = false) (hbag : pos.bag = INVENTORY_SLOT_BAG_0)
    (hne : pos ≠ ⟨bag, slot⟩) : pos ∈ p.slotsSeen pProto pItem bag slot slotBegin slotEnd merge ↔
      (slotBegin ≤ pos.slot ∧ pos.slot < slotEnd) ∧ (p.needSpace pProto pItem merge pos).isSome := by
  have hother : ¬(INVENTORY_SLOT_BAG_0 = bag ∧ pos.slot = slot) := by
    rintro ⟨rfl, rfl⟩
    obtain ⟨b, s⟩ := pos
    exact hne (hbag ▸ rfl)
  simp only [slotsSeen, Set.mem_ofPred_eq, hfull, mem_ownPlaces, hbag, hother, true_and, not_false_iff]

theorem not_mem_slotsSeen (hbag : pos.bag ≠ INVENTORY_SLOT_BAG_0) :
    pos ∉ p.slotsSeen pProto pItem bag slot slotBegin slotEnd merge :=
  fun h => hbag (mem_ownPlaces.1 h.2.1).1

theorem mem_bagSeen (hfull : p.isFullBag pItem = false) :
    pos ∈ p.bagSeen pProto pItem slot i merge nonSpecialized skipBag ↔
      pos.bag = i ∧ pos.bag ≠ skipBag ∧ nonSpecialized = p.isGeneralBag pos.bag ∧ p.bagTakes pProto pItem pos.bag = true ∧
        ((∃ pBag, p.getBagByPos pos.bag = some pBag ∧ pos.slot < pBag.getBagSize) ∧ pos.slot ≠ slot) ∧
        (p.needSpace pProto pItem merge pos).isSome := by
  constructor
  · rintro ⟨⟨_, hskip, htakes, hkind⟩, rfl, hlt, hne, hspace⟩
    exact ⟨rfl, hskip, hkind, htakes, ⟨hlt, hne⟩, hspace⟩
  · rintro ⟨rfl, hskip, hkind, htakes, ⟨hlt, hne⟩, hspace⟩
    exact ⟨⟨hfull, hskip, htakes, hkind⟩, rfl, hlt, hne, hspace⟩

/-- Own slots are in no bag. -/
theorem not_mem_bagSeen (hbag : pos.bag = INVENTORY_SLOT_BAG_0) :
    pos ∉ p.bagSeen pProto pItem slot i merge nonSpecialized skipBag := by
  rintro ⟨⟨_, _, htakes, _⟩, hi, _⟩
  rw [← hi, hbag] at htakes
  cases htakes

/-- Only an item of some family goes into a bag for a kind. -/
theorem bagFamily_ne_zero {i : Nat} (htakes : p.bagTakes pProto pItem i = true) (hspecial : p.isGeneralBag i = false) :
    pProto.bagFamily ≠ 0 := by
  intro hzero
  rw [bagTakes, Option.any_eq_true] at htakes
  obtain ⟨pBag, hbag, htakes⟩ := htakes
  rw [isGeneralBag, hbag, Option.any_some, Item.isGeneral] at hspecial
  have hcan := (Bool.and_eq_true _ _ ▸ htakes : _ ∧ _).2
  have hnone : ∀ mask : Option UInt32, (mask.any fun mask => pProto.bagFamily &&& mask ≠ 0) = false := by
    intro mask
    cases mask with
    | none => rfl
    | some mask => simp [hzero]
  rw [itemCanGoIntoBag, hnone, hnone, Bool.or_false] at hcan
  split at hcan
  next hclass => simp [hclass, hcan] at hspecial
  next => simp at hcan

theorem keys_have_family (h : pProto.isKey = true ∨ pProto.isCurrencyToken = true) : pProto.bagFamily ≠ 0 := by
  intro hzero
  rw [ItemTemplate.isKey, ItemTemplate.isCurrencyToken, hzero] at h
  exact absurd h (by decide)

theorem keyringTakes_iff : keyringTakes pProto bag i = true ↔
    (pProto.isKey = true ∧ ((KEYRING_SLOT_START ≤ i ∧ i < KEYRING_SLOT_END) ∨
      (bag = INVENTORY_SLOT_BAG_0 ∧ CURRENCYTOKEN_SLOT_START ≤ i ∧ i < CURRENCYTOKEN_SLOT_END))) ∨
    (¬pProto.isKey = true ∧ pProto.isCurrencyToken = true ∧ CURRENCYTOKEN_SLOT_START ≤ i ∧ i < CURRENCYTOKEN_SLOT_END) := by
  rw [keyringTakes]
  split
  next hkey => simp [hkey, and_assoc]
  next hkey => simp [hkey, and_assoc]

/-- Something that is looked at has room if there is room. -/
theorem needSpace_cases (hcounts : ∀ q item, p.getItemByPos q = some item → 0 < item.count) (hne : pos ≠ ⟨bag, slot⟩)
    (hroom : 0 < p.room pProto pItem swap ⟨bag, slot⟩ pos) :
    (p.itemBesides pItem pos = none ∧ ∀ merge, (p.needSpace pProto pItem merge pos).isSome = !merge) ∨
      ((p.itemBesides pItem pos).isSome ∧ pProto.stackable ≠ 1 ∧ ∀ merge, (p.needSpace pProto pItem merge pos).isSome = merge) := by
  cases hbesides : p.itemBesides pItem pos with
  | none => exact .inl ⟨rfl, fun merge => needSpace_free hbesides⟩
  | some item =>
    rw [room, if_neg fun h => hne h.2, hbesides] at hroom
    simp only at hroom
    split at hroom
    next hmerge =>
      have hitem := (Option.filter_eq_some_iff.1 hbesides).1
      exact .inr ⟨rfl, (needSpace_stack hbesides (hcounts _ _ hitem) hmerge).2,
        (needSpace_stack hbesides (hcounts _ _ hitem) hmerge).1⟩
    next => exact absurd hroom (lt_irrefl 0)

/-- Among its own slots a player looks for room in the backpack, and in the keyring and the currency tokens where the item may go. -/
theorem mem_seen_own (hfull : p.isFullBag pItem = false) (hcounts : ∀ q item, p.getItemByPos q = some item → 0 < item.count)
    (hbag : pos.bag = INVENTORY_SLOT_BAG_0) (hne : pos ≠ ⟨bag, slot⟩) (hroom : 0 < p.room pProto pItem swap ⟨bag, slot⟩ pos) :
    pos ∈ p.seen pProto pItem bag slot swap ↔ (INVENTORY_SLOT_ITEM_START ≤ pos.slot ∧ pos.slot < INVENTORY_SLOT_ITEM_END) ∨
      ((KEYRING_SLOT_START ≤ pos.slot ∧ pos.slot < CURRENCYTOKEN_SLOT_END) ∧
        ((p.itemBesides pItem pos).isSome = true ∨ keyringTakes pProto bag pos.slot = true)) := by
  have hfamily := @keys_have_family pProto
  simp only [seen, specificBagSeen, stacksSeen, specialBagsSeen, freeSlotsSeen, bagsSeen, Set.mem_ofPred_eq,
    mem_slotsSeen hfull hbag hne, not_mem_bagSeen hbag, hne, and_false, false_or, or_false]
  rcases needSpace_cases hcounts hne hroom with ⟨hbesides, hspace⟩ | ⟨hbesides, hstack, hspace⟩
  · simp only [hspace, hbesides, keyringTakes_iff, Bool.not_true, Bool.not_false, Bool.false_eq_true, and_false, or_false, false_or,
      and_true, Option.isSome_none]
    by_cases hkey : pProto.isKey = true
    · simp only [hkey, hfamily (.inl hkey), ne_eq, not_true, not_false_iff, true_and, false_and, or_false, false_or]
      unfold getMaxKeyringSize KEYRING_SLOT_START KEYRING_SLOT_END CURRENCYTOKEN_SLOT_START CURRENCYTOKEN_SLOT_END NULL_BAG
        INVENTORY_SLOT_BAG_0
      omega
    by_cases htoken : pProto.isCurrencyToken = true
    · simp only [hkey, htoken, hfamily (.inr htoken), ne_eq, not_false_iff, Bool.false_eq_true, true_and, false_and, false_or]
      unfold KEYRING_SLOT_START CURRENCYTOKEN_SLOT_START CURRENCYTOKEN_SLOT_END
      omega
    · simp only [hkey, htoken, Bool.false_eq_true, false_and, and_false, false_or, or_false]
      omega
  · simp only [hspace, hbesides, hstack, Bool.false_eq_true, and_false, or_false, and_true, true_or, ne_eq, not_false_iff, true_and]
    omega

/-- The searches in the bag that was asked for and in the equipped ones, of both kinds, together. -/
theorem seen_bagged_iff {b : Nat} {family takes content : Prop} {general : Bool} (hbag : b ≠ INVENTORY_SLOT_BAG_0)
    (hnull : takes → b ≠ NULL_BAG) (hfamily : takes → general = false → family) :
    (bag ≠ NULL_BAG ∧ ¬bag = INVENTORY_SLOT_BAG_0 ∧
        ((b = bag ∧ b ≠ NULL_BAG ∧ false = general ∧ takes ∧ content) ∨
          (b = bag ∧ b ≠ NULL_BAG ∧ true = general ∧ takes ∧ content))) ∨
      (family ∧ (INVENTORY_SLOT_BAG_START ≤ b ∧ b < INVENTORY_SLOT_BAG_END) ∧ b ≠ bag ∧ false = general ∧ takes ∧ content) ∨
      ((INVENTORY_SLOT_BAG_START ≤ b ∧ b < INVENTORY_SLOT_BAG_END) ∧ b ≠ bag ∧ true = general ∧ takes ∧ content) ↔
    takes ∧ content ∧ (b = bag ∨ (INVENTORY_SLOT_BAG_START ≤ b ∧ b < INVENTORY_SLOT_BAG_END)) := by
  by_cases hsame : b = bag
  · subst hsame
    cases general <;> simp only [hbag, ne_eq, not_true, not_false_iff, reduceCtorEq, false_and, and_false, true_and, or_false, false_or,
      true_or, and_true] <;> tauto
  · cases general <;> simp only [hsame, ne_eq, not_false_iff, reduceCtorEq, false_and, and_false, true_and, or_false, false_or] <;> tauto

/-- In bags room is looked for where the item may go, but not in the slot with the number that was asked for. -/
theorem mem_seen_bagged (hfull : p.isFullBag pItem = false) (hcounts : ∀ q item, p.getItemByPos q = some item → 0 < item.count)
    (hbag : pos.bag ≠ INVENTORY_SLOT_BAG_0) (hne : pos ≠ ⟨bag, slot⟩) (hroom : 0 < p.room pProto pItem swap ⟨bag, slot⟩ pos) :
    pos ∈ p.seen pProto pItem bag slot swap ↔ p.bagTakes pProto pItem pos.bag = true ∧
      ((∃ pBag, p.getBagByPos pos.bag = some pBag ∧ pos.slot < pBag.getBagSize) ∧ pos.slot ≠ slot) ∧
      (pos.bag = bag ∨ (INVENTORY_SLOT_BAG_START ≤ pos.bag ∧ pos.bag < INVENTORY_SLOT_BAG_END)) := by
  have hnull : p.bagTakes pProto pItem pos.bag = true → pos.bag ≠ NULL_BAG := by
    intro htakes he
    rw [he] at htakes
    cases htakes
  have hfamily := @bagFamily_ne_zero p pProto pItem pos.bag
  simp only [seen, specificBagSeen, stacksSeen, specialBagsSeen, freeSlotsSeen, bagsSeen, Set.mem_ofPred_eq,
    not_mem_slotsSeen hbag, mem_bagSeen hfull, hne, and_false, false_or, or_false]
  rcases needSpace_cases hcounts hne hroom with ⟨hbesides, hspace⟩ | ⟨hbesides, hstack, hspace⟩
  · simp only [hspace, Bool.not_true, Bool.not_false, Bool.false_eq_true, and_false, or_false, false_or, and_true, true_and]
    exact seen_bagged_iff hbag hnull hfamily
  have hmany : (pProto.stackable ≠ 1) = True := eq_true hstack
  simp only [hspace, hmany, Bool.false_eq_true, and_false, or_false, and_true, true_and]
  exact seen_bagged_iff hbag hnull hfamily

/-! ## All places -/

/-- A position is one of the player's own slots, or in one of the bags. -/
theorem mem_storagePlaces : pos ∈ p.storagePlaces ↔ (pos.bag = INVENTORY_SLOT_BAG_0 ∧ isOwnSlot pos.slot = true) ∨
    ∃ pBag, p.getBagByPos pos.bag = some pBag ∧ pos.slot < pBag.getBagSize := by
  have hslot : isOwnSlot pos.slot = true ↔ (EQUIPMENT_SLOT_START ≤ pos.slot ∧ pos.slot < BANK_SLOT_BAG_END) ∨
      (KEYRING_SLOT_START ≤ pos.slot ∧ pos.slot < CURRENCYTOKEN_SLOT_END) := by
    simp [isOwnSlot, EQUIPMENT_SLOT_START]
  have hbag : ∀ {pBag}, p.getBagByPos pos.bag = some pBag → (INVENTORY_SLOT_BAG_START ≤ pos.bag ∧ pos.bag < INVENTORY_SLOT_BAG_END) ∨
      (BANK_SLOT_BAG_START ≤ pos.bag ∧ pos.bag < BANK_SLOT_BAG_END) := by
    intro pBag h
    rw [getBagByPos] at h
    split at h
    next h' => simpa [isBagSlot] using h'
    next => cases h
  simp only [storagePlaces, List.mem_append, mem_ownPlaces, mem_bagPlaces, hslot]
  constructor
  · rintro (h | h | h | h)
    · exact .inl ⟨h.1, .inl h.2⟩
    · exact .inl ⟨h.1, .inr h.2⟩
    · exact .inr h.2
    · exact .inr h.2
  · rintro (⟨h, h' | h'⟩ | ⟨pBag, h, hlt⟩)
    · exact .inl ⟨h, h'⟩
    · exact .inr (.inl ⟨h, h'⟩)
    · rcases hbag h with hrange | hrange
      · exact .inr (.inr (.inl ⟨hrange, pBag, h, hlt⟩))
      · exact .inr (.inr (.inr ⟨hrange, pBag, h, hlt⟩))

theorem nodup_storagePlaces (p : Player) : p.storagePlaces.Nodup := by
  unfold storagePlaces
  refine (nodup_ownPlaces _ _).append ((nodup_ownPlaces _ _).append ((nodup_bagPlaces p _ _).append (nodup_bagPlaces p _ _) ?_) ?_) ?_
  all_goals
    intro q hq hq'
    simp only [List.mem_append, mem_ownPlaces, mem_bagPlaces, EQUIPMENT_SLOT_START, KEYRING_SLOT_START, CURRENCYTOKEN_SLOT_END,
      INVENTORY_SLOT_BAG_START, INVENTORY_SLOT_BAG_END, BANK_SLOT_BAG_START, BANK_SLOT_BAG_END, INVENTORY_SLOT_BAG_0] at hq hq'
    omega

/-- A slot that takes an item is there. -/
theorem SlotGiven.mem_storagePlaces (h : p.SlotGiven pProto pItem swap pos) : pos ∈ p.storagePlaces := by
  have hfits : p.fitsSlot pos pProto = true → pos ∈ p.storagePlaces := by
    intro hfits
    rw [Player.mem_storagePlaces]
    rw [fitsSlot] at hfits
    split at hfits
    next hbag =>
      refine .inl ⟨hbag, ?_⟩
      split at hfits
      next => cases hfits
      next =>
      split at hfits
      next => cases hfits
      next =>
      simp only [Bool.not_eq_true', Bool.or_eq_false_iff, Bool.and_eq_false_imp, decide_eq_true_iff, decide_eq_false_iff_not] at hfits
      simp only [isOwnSlot, Bool.or_eq_true, Bool.and_eq_true, decide_eq_true_iff]
      unfold BUYBACK_SLOT_START BUYBACK_SLOT_END PLAYER_SLOT_END at hfits
      unfold BANK_SLOT_BAG_END KEYRING_SLOT_START CURRENCYTOKEN_SLOT_END
      omega
    next =>
    split at hfits
    next => cases hfits
    next pBag hpBag =>
    rw [Bool.and_eq_true, decide_eq_true_iff] at hfits
    exact .inr ⟨pBag, hpBag, hfits.1⟩
  obtain ⟨_, h⟩ := h
  cases hbesides : p.itemBesides pItem pos with
  | none =>
    rw [hbesides] at h
    exact hfits h
  | some pItem2 =>
    have hitem := (Option.filter_eq_some_iff.1 hbesides).1
    rw [Player.mem_storagePlaces]
    rcases getItemByPos_cases hitem with ⟨hbag, hown, _⟩ | ⟨hbag, _⟩
    · exact .inl ⟨hbag, hown⟩
    · exact .inr (getBagByPos_of_getItemByPos hitem hbag)

/-- The searches leave out the slot that was asked for. -/
theorem requested_not_mem_slotsSeen : (⟨bag, slot⟩ : Pos) ∉ p.slotsSeen pProto pItem bag slot slotBegin slotEnd merge :=
  fun h => h.2.2.1 ⟨(mem_ownPlaces.1 h.2.1).1.symm, rfl⟩

theorem requested_not_mem_bagSeen : (⟨bag, slot⟩ : Pos) ∉ p.bagSeen pProto pItem slot i merge nonSpecialized skipBag :=
  fun h => h.2.2.2.1 rfl

theorem requested_mem_seen_iff : (⟨bag, slot⟩ : Pos) ∈ p.seen pProto pItem bag slot swap ↔
    (bag ≠ NULL_BAG ∧ slot ≠ NULL_SLOT) ∧ p.SlotGiven pProto pItem swap ⟨bag, slot⟩ := by
  simp only [seen, specificBagSeen, stacksSeen, specialBagsSeen, freeSlotsSeen, bagsSeen, Set.mem_ofPred_eq,
    requested_not_mem_slotsSeen, requested_not_mem_bagSeen, and_false, or_false, and_true]

theorem requested_reaches_iff (hnull : bag = NULL_BAG → slot = NULL_SLOT) :
    p.reaches pProto pItem bag slot ⟨bag, slot⟩ = true ↔ bag ≠ NULL_BAG ∧ slot ≠ NULL_SLOT := by
  by_cases hasked : bag ≠ NULL_BAG ∧ slot ≠ NULL_SLOT
  · simp [reaches, hasked]
  have hslot : slot = NULL_SLOT := by
    by_contra hslot
    exact hasked ⟨fun hbag => hslot (hnull hbag), hslot⟩
  subst hslot
  simp [reaches, NULL_SLOT, INVENTORY_SLOT_ITEM_END, CURRENCYTOKEN_SLOT_END]

/-- Room is looked for in the slots that are reached, and nowhere else. -/
theorem mem_seen_iff (hfull : p.isFullBag pItem = false) (hcounts : ∀ q item, p.getItemByPos q = some item → 0 < item.count)
    (hpermitted : p.Permitted pProto pItem swap bag slot) (hroom : 0 < p.room pProto pItem swap ⟨bag, slot⟩ pos) :
    pos ∈ p.seen pProto pItem bag slot swap ↔ pos ∈ p.storagePlaces ∧ p.reaches pProto pItem bag slot pos = true := by
  by_cases hne : pos = ⟨bag, slot⟩
  · subst hne
    rw [requested_mem_seen_iff, requested_reaches_iff hpermitted.1]
    exact ⟨fun h => ⟨h.2.mem_storagePlaces, h.1⟩, fun h => ⟨h.2, hpermitted.2.1 h.2⟩⟩
  rw [mem_storagePlaces]
  by_cases hbag : pos.bag = INVENTORY_SLOT_BAG_0
  · rw [mem_seen_own hfull hcounts hbag hne hroom]
    have hno : p.getBagByPos INVENTORY_SLOT_BAG_0 = none := rfl
    simp only [reaches, hno, hbag, hne, isOwnSlot, reduceCtorEq, false_and, exists_false, or_false, true_and, decide_false,
      Bool.and_false, Bool.false_or, if_true, Bool.or_eq_true, Bool.and_eq_true, decide_eq_true_iff]
    unfold BANK_SLOT_BAG_END INVENTORY_SLOT_ITEM_START INVENTORY_SLOT_ITEM_END
    refine ⟨fun h => ⟨?_, ?_⟩, fun h => ?_⟩
    · rcases h with h | h
      · exact .inl (by omega)
      · exact .inr h.1
    · exact h
    · exact h.2
  · rw [mem_seen_bagged hfull hcounts hbag hne hroom]
    simp only [reaches, hbag, hne, false_and, false_or, decide_false, Bool.and_false, Bool.false_or, if_false, Bool.or_eq_true,
      Bool.and_eq_true, decide_eq_true_iff]
    tauto

/-! ## The room that is found -/

/-- An item that no rule forbids to carry is stored if and only if the slots where room is looked for have enough of it. -/
theorem search_ok_iff (hcount : 0 < count) (hfull : p.isFullBag pItem = false)
    (hcounts : ∀ q item, p.getItemByPos q = some item → 0 < item.count) (hpermitted : p.Permitted pProto pItem swap bag slot) :
    (p.search bag slot [] pProto count 0 pItem swap).result = .ok ↔ count ≤ p.reachableCapacity pProto pItem swap bag slot := by
  rw [reachableCapacity]
  rcases search_spec hcount p bag slot pProto 0 pItem swap with ⟨hdone, hok⟩ | ⟨hnot, hwhy⟩
  · refine ⟨fun _ => hdone.le fun x hx hroom => List.mem_filter.2 ?_, fun _ => hok.2 rfl⟩
    exact (mem_seen_iff hfull hcounts hpermitted hroom).1 hx
  refine ⟨fun hok => absurd hok hnot, fun hle => ?_⟩
  rcases hwhy with hrefused | ⟨f, hf⟩
  · rcases hrefused with ⟨hasked, hno⟩ | hbad | ⟨hbag, hown, hno⟩
    · exact absurd (hpermitted.2.1 hasked) hno
    · rw [hfull] at hbad
      cases hbad
    · exact absurd ⟨hfull, hbag, hpermitted.2.2 ⟨hbag, hown⟩⟩ hno
  · refine absurd hle (not_le.2 (hf.lt ((nodup_storagePlaces p).filter _) fun x hx hroom => ?_))
    exact (mem_seen_iff hfull hcounts hpermitted hroom).2 (List.mem_filter.1 hx)

/-- `CanStoreItem` finds what room there is exactly if there is enough of it outside of the slots that it skips. -/
theorem canStoreItem_ok_iff (p : Player) (pProto : ItemTemplate) (pItem : Option Item) (isBindedNotWith : Item → Bool)
    (bag slot count : Nat) (swap : Bool) (hcount : 0 < count)
    (hcounts : ∀ q item, p.getItemByPos q = some item → 0 < item.count)
    (hloot : pItem.any (·.lootGenerated) = false) (hbound : pItem.any isBindedNotWith = false) (hfull : p.isFullBag pItem = false)
    (hpermitted : p.Permitted pProto pItem swap bag slot) :
    (count ≤ p.freeCapacity pProto pItem →
        (p.canStoreItem bag slot [] (some pProto) count pItem isBindedNotWith none swap).result = .ok) ↔
      (count ≤ p.freeCapacity pProto pItem → count ≤ p.reachableCapacity pProto pItem swap bag slot) := by
  have hsearch := search_ok_iff hcount hfull hcounts hpermitted
  rw [canStoreItem]
  simp only [hloot, hbound, Bool.false_eq_true, if_false]
  exact forall_congr' fun _ => hsearch

end Player

/-! ## A slot that is skipped -/

def potion : ItemTemplate := ⟨1, 0, 0, 0, 0, 20, 0⟩
def stone : ItemTemplate := ⟨2, 0, 0, 0, 0, 1, 0⟩
def smallBag : ItemTemplate := ⟨3, ITEM_CLASS_CONTAINER, ITEM_SUBCLASS_CONTAINER, INVTYPE_BAG, 0, 1, 4⟩

/-- Stones fill the backpack and two bags, but for the third slots of the bags: there are fifteen potions in one, and the other is
free. -/
def twoBags : Player where
  items := fun i =>
    if i = 19 ∨ i = 20 then some ⟨i, smallBag, 1, false, false⟩
    else if INVENTORY_SLOT_ITEM_START ≤ i ∧ i < INVENTORY_SLOT_ITEM_END then some ⟨i, stone, 1, false, false⟩
    else none
  bagItems := fun bag slot =>
    if slot = 2 then if bag = 19 then some ⟨100, potion, 15, false, false⟩ else none
    else some ⟨1000 * bag + slot, stone, 1, false, false⟩
  isCharmed := false
  isInCombat := false
  inArenaMatch := false

theorem twoBags_counts (q : Pos) (item : Item) (h : twoBags.getItemByPos q = some item) : 0 < item.count := by
  rcases Player.getItemByPos_cases h with ⟨_, _, hitem⟩ | ⟨_, _, b, _, _, _, hitem⟩
  · simp only [twoBags] at hitem
    split_ifs at hitem <;> cases hitem <;> exact Nat.one_pos
  · simp only [twoBags] at hitem
    split_ifs at hitem <;> cases hitem <;> exact Nat.succ_pos _

theorem twoBags_permitted : twoBags.Permitted potion none false 19 2 :=
  ⟨fun h => absurd h (by decide), fun _ => ⟨by decide, rfl⟩, fun _ => by decide⟩

/-- Five potions go to the others. -/
theorem canStoreItem_twoBags : (twoBags.canStoreItem 19 2 [] (some potion) 5 none (fun _ => false) none false).result = .ok :=
  (Player.canStoreItem_ok_iff twoBags potion none (fun _ => false) 19 2 5 false (by decide) twoBags_counts rfl rfl (by decide)
    twoBags_permitted).2 (fun _ => by decide) (by decide)

/-- There is room for ten potions, which is found if no place is asked for. If they shall go to the others, the third slot of the other
bag is skipped. -/
theorem canStoreItem_skips_slot : twoBags.Permitted potion none false 19 2 ∧ 10 ≤ twoBags.freeCapacity potion none ∧
    twoBags.canStoreItem NULL_BAG NULL_SLOT [] (some potion) 10 none (fun _ => false) none false =
      ⟨.ok, [(⟨19, 2⟩, 5), (⟨20, 2⟩, 5)], none⟩ ∧
    twoBags.canStoreItem 19 2 [] (some potion) 10 none (fun _ => false) none false = ⟨.inventoryFull, [(⟨19, 2⟩, 5)], some 5⟩ := by
  refine ⟨twoBags_permitted, by decide, by decide, by decide⟩

end AtlasWow.Storage
