/-
`StoreItem` puts an item where `CanStoreItem` found room for it: a part in
each slot, in a new stack or on top of the one that is there
(`storeItem_spec`).
-/
import AtlasWow.Entities.StoreCapacity

namespace AtlasWow.Storage

/-- `CloneItem`: a new item of the same template. -/
def Item.cloneItem (item : Item) (guid count : Nat) : Option Item :=
  if count < 1 then none
  else some ⟨guid, item.template, min count item.template.getMaxStackSize, false, false⟩

namespace Player

/-- `RemoveItem`. What is in a bag is taken out with it. -/
def removeItem (p : Player) (pos : Pos) : Player :=
  match p.getItemByPos pos with
  | none => p
  | some _ => p.setItem pos none

/-- An item comes into a slot with what is in it, or into the slot of a bag. Where there is no bag it comes into a slot of the player. -/
def putItem (p : Player) (pos : Pos) (item : Item) (contents : Nat → Option Item) : Player :=
  match if pos.bag = INVENTORY_SLOT_BAG_0 then none else p.getBagByPos pos.bag with
  | none =>
    { p with
      items := Function.update p.items pos.slot (some item)
      bagItems := Function.update p.bagItems pos.slot contents }
  | some pBag => if item.guid = pBag.guid then p else p.setItem pos (some item)

/-- `_StoreItem`. With `clone` a new item is stored, with that guid. -/
def storeItemAt (p : Player) (pos : Pos) (pItem : Item) (contents : Nat → Option Item) (count : Nat) (clone : Option Nat) : Player :=
  match p.getItemByPos pos with
  | none =>
    match clone with
    | none => p.putItem pos { pItem with count := count } contents
    | some guid =>
      match pItem.cloneItem guid count with
      | none => p
      | some item => p.putItem pos item fun _ => none
  | some pItem2 => p.setCount pos ((pItem2.count + count) % 2 ^ 32)

/-- The last part of the item is itself. The guids from `nextGuid` on are not in use. -/
def storeItem (pItem : Item) (contents : Nat → Option Item) : List (Pos × Nat) → Nat → Player → Player
  | [], _, p => p
  | [(pos, count)], _, p => p.storeItemAt pos pItem contents count none
  | (pos, count) :: itr :: dest, nextGuid, p =>
    storeItem pItem contents (itr :: dest) (nextGuid + 1) (p.storeItemAt pos pItem contents count (some nextGuid))

variable {p p' : Player} {pos : Pos} {pItem : Item} {contents : Nat → Option Item} {count nextGuid : Nat} {clone : Option Nat}

/-! ## One slot -/

/-- A slot of the player or of a bag, which is not the item itself or a new one. -/
def Place (p : Player) (pItem : Item) (nextGuid : Nat) (pos : Pos) : Prop :=
  (pos.bag = INVENTORY_SLOT_BAG_0 ∧ isOwnSlot pos.slot = true) ∨
    ∃ pBag, p.getBagByPos pos.bag = some pBag ∧ pos.slot < pBag.getBagSize ∧ pBag.guid ≠ pItem.guid ∧ pBag.guid < nextGuid

/-- A place that can take so many more units of an item. -/
structure Takes (p : Player) (pItem : Item) (nextGuid : Nat) (e : Pos × Nat) : Prop where
  place : p.Place pItem nextGuid e.1
  pos : 0 < e.2
  entry : ∀ item, p.getItemByPos e.1 = some item → item.getEntry = pItem.getEntry
  room : p.units e.1 + e.2 ≤ pItem.template.getMaxStackSize

/-- What is stored in one slot: on top of what is there, or anew, in which case a bag keeps what is in it. -/
structure Stored (p : Player) (pItem : Item) (contents : Nat → Option Item) (e : Pos × Nat) (p' : Player) : Prop where
  stack : ∀ item, p.getItemByPos e.1 = some item → p'.getItemByPos e.1 = some { item with count := item.count + e.2 }
  new : p.getItemByPos e.1 = none → ∃ item, p'.getItemByPos e.1 = some item ∧ item.template = pItem.template ∧ item.count = e.2
  others : ∀ q, q ≠ e.1 → p'.getItemByPos q = p.getItemByPos q ∨
    (q.Inside e.1 ∧ p.getItemByPos e.1 = none ∧ p'.getItemByPos q = contents q.slot)

theorem bag_ne_own (h : p.getBagByPos pos.bag = some pItem) : pos.bag ≠ INVENTORY_SLOT_BAG_0 := by
  intro hown
  rw [hown] at h
  cases h

/-- Nothing is in a bag that is not there. -/
theorem getItemByPos_inside {q : Pos} (hin : q.Inside pos) (hown : isOwnSlot pos.slot = true) (hnone : p.getItemByPos pos = none) :
    p.getBagByPos q.bag = none ∧ p.getItemByPos q = none := by
  have hne : q.bag ≠ INVENTORY_SLOT_BAG_0 := fun he => by
    rw [← hin.2, he] at hown
    cases hown
  have hbag : p.getBagByPos q.bag = none := by
    obtain ⟨bag, slot⟩ := pos
    have hzero : bag = INVENTORY_SLOT_BAG_0 := hin.1
    subst hzero
    rw [getBagByPos_eq, hin.2, hnone]
    exact ite_self _
  refine ⟨hbag, ?_⟩
  obtain ⟨bag, slot⟩ := q
  rw [getItemByPos_bagged hne, hbag]

/-- An item that comes into an empty slot. -/
theorem putItem_spec {item : Item} (hplace : p.Place pItem nextGuid pos) (hguid : item.guid = pItem.guid ∨ nextGuid ≤ item.guid)
    (hnone : p.getItemByPos pos = none) : (p.putItem pos item contents).getItemByPos pos = some item ∧
      ∀ q, q ≠ pos → (p.putItem pos item contents).getItemByPos q = p.getItemByPos q ∨
        (q.Inside pos ∧ (p.putItem pos item contents).getItemByPos q = contents q.slot) := by
  rcases hplace with ⟨hbag, hown⟩ | ⟨pBag, hpBag, hlt, hself, hold⟩
  · obtain ⟨bag, slot⟩ := pos
    simp only at hbag hown
    subst hbag
    have hput : p.putItem ⟨INVENTORY_SLOT_BAG_0, slot⟩ item contents =
        { p with items := Function.update p.items slot (some item), bagItems := Function.update p.bagItems slot contents } := rfl
    rw [hput]
    refine ⟨?_, fun q hq => ?_⟩
    · rw [getItemByPos_own hown]
      exact Function.update_self ..
    · obtain ⟨bag', slot'⟩ := q
      by_cases hbag' : bag' = INVENTORY_SLOT_BAG_0
      · subst hbag'
        refine .inl ?_
        have hne : slot' ≠ slot := fun he => hq (by rw [he])
        by_cases hown' : isOwnSlot slot' = true
        · rw [getItemByPos_own hown', getItemByPos_own hown']
          exact Function.update_of_ne hne ..
        · rw [getItemByPos_unowned hown', getItemByPos_unowned hown']
      rw [getItemByPos_bagged hbag']
      by_cases he : bag' = slot
      · have hin : Pos.Inside ⟨bag', slot'⟩ ⟨INVENTORY_SLOT_BAG_0, slot⟩ := ⟨rfl, he⟩
        split
        next => exact .inl (getItemByPos_inside hin hown hnone).2.symm
        next =>
        split
        next =>
          refine .inr ⟨hin, ?_⟩
          rw [he]
          exact congrFun (Function.update_self ..) slot'
        next => exact .inl (getItemByPos_inside hin hown hnone).2.symm
      refine .inl ?_
      rw [getItemByPos_bagged hbag', getBagByPos, getBagByPos]
      simp only [Function.update_of_ne he]
  · have hbag := bag_ne_own hpBag
    have hput : p.putItem pos item contents = p.setItem pos (some item) := by
      rw [putItem, if_neg hbag, hpBag]
      refine if_neg fun he => ?_
      rcases hguid with hguid | hguid
      · exact hself (he ▸ hguid)
      · omega
    rw [hput]
    refine ⟨?_, fun q hq => .inl ?_⟩
    · rw [getItemByPos_setItem_bagged hbag ⟨pBag, hpBag, hlt⟩, if_pos rfl]
    · rw [getItemByPos_setItem_bagged hbag ⟨pBag, hpBag, hlt⟩, if_neg hq]

theorem Place.own (h : p.Place pItem nextGuid pos) (hbag : pos.bag = INVENTORY_SLOT_BAG_0) : isOwnSlot pos.slot = true := by
  rcases h with ⟨_, hown⟩ | ⟨pBag, hpBag, _⟩
  · exact hown
  · exact absurd hbag (bag_ne_own hpBag)

/-- One slot takes a part of the item. -/
theorem storeItemAt_spec {e : Pos × Nat} (hmax : pItem.template.getMaxStackSize < 2 ^ 32)
    (hclone : ∀ guid, clone = some guid → nextGuid ≤ guid) (h : p.Takes pItem nextGuid e) :
    p.Stored pItem contents e (p.storeItemAt e.1 pItem contents e.2 clone) := by
  have hroom := h.room
  have hpos := h.pos
  unfold storeItemAt
  cases hitem : p.getItemByPos e.1 with
  | none =>
    simp only
    rw [units, hitem, Option.elim_none] at hroom
    cases clone with
    | none =>
      have hput := @putItem_spec p e.1 pItem contents nextGuid { pItem with count := e.2 } h.place (.inl rfl) hitem
      refine ⟨fun item he => ?_, fun _ => ⟨_, hput.1, rfl, rfl⟩, fun q hq => ?_⟩
      · cases hitem.symm.trans he
      · exact (hput.2 q hq).imp_right fun hin => ⟨hin.1, hitem, hin.2⟩
    | some guid =>
      have hone : ¬e.2 < 1 := by omega
      have hnew : pItem.cloneItem guid e.2 = some ⟨guid, pItem.template, e.2, false, false⟩ := by
        unfold Item.cloneItem
        rw [if_neg hone, Nat.min_eq_left (by omega)]
      simp only [hnew]
      have hput := @putItem_spec p e.1 pItem (fun _ => none) nextGuid ⟨guid, pItem.template, e.2, false, false⟩ h.place
        (.inr (hclone guid rfl)) hitem
      refine ⟨fun item he => ?_, fun _ => ⟨_, hput.1, rfl, rfl⟩, fun q hq => .inl ?_⟩
      · cases hitem.symm.trans he
      · -- a new bag is empty
        rcases hput.2 q hq with hsame | ⟨hin, hempty⟩
        · exact hsame
        · exact hempty.trans (getItemByPos_inside hin (h.place.own hin.1) hitem).2.symm
  | some item =>
    simp only
    rw [units, hitem, Option.elim_some] at hroom
    rw [Nat.mod_eq_of_lt (by omega)]
    refine ⟨fun item' he => ?_, fun he => ?_, fun q hq => .inl ?_⟩
    · cases hitem.symm.trans he
      rw [getItemByPos_setCount hitem, if_pos rfl]
    · cases hitem.symm.trans he
    · rw [getItemByPos_setCount hitem, if_neg hq]

/-! ## All slots -/

variable {e : Pos × Nat}

/-- The bags that a slot takes nothing into stay. -/
theorem Stored.getBagByPos (h : p.Stored pItem contents e p') (hplace : p.Place pItem nextGuid e.1) {bag : Nat} {pBag : Item}
    (hpBag : p.getBagByPos bag = some pBag) : ∃ count, p'.getBagByPos bag = some { pBag with count := count } := by
  rw [getBagByPos_eq] at hpBag ⊢
  split at hpBag
  next hslot =>
    obtain ⟨hitem, hisBag⟩ := Option.filter_eq_some_iff.1 hpBag
    rw [if_pos hslot]
    have hkeep : ∀ count, Option.filter Item.isBag (some { pBag with count := count }) = some { pBag with count := count } :=
      fun count => Option.filter_eq_some_iff.2 ⟨rfl, hisBag⟩
    by_cases he : (⟨INVENTORY_SLOT_BAG_0, bag⟩ : Pos) = e.1
    · refine ⟨pBag.count + e.2, ?_⟩
      rw [he] at hitem ⊢
      rw [h.stack pBag hitem, hkeep]
    refine ⟨pBag.count, ?_⟩
    rcases h.others _ he with hsame | ⟨hin, _⟩
    · rw [hsame, hitem]
      exact hkeep pBag.count
    have hown := hplace.own hin.1
    rw [← hin.2] at hown
    cases hown
  next => cases hpBag

/-- Other slots can take as much as before. -/
theorem Stored.takes {e' : Pos × Nat} (h : p.Stored pItem contents e p') (hplace : p.Place pItem nextGuid e.1) (hne : e'.1 ≠ e.1)
    (htakes : p.Takes pItem nextGuid e') : p'.getItemByPos e'.1 = p.getItemByPos e'.1 ∧ p'.Takes pItem nextGuid e' := by
  have hsame : p'.getItemByPos e'.1 = p.getItemByPos e'.1 := by
    rcases h.others _ hne with hsame | ⟨hin, hnone, _⟩
    · exact hsame
    -- the slots of a bag that only now comes into its slot were no places
    have hgone := (getItemByPos_inside hin (hplace.own hin.1) hnone).1
    rcases htakes.place with ⟨hbag, _⟩ | ⟨pBag, hpBag, _⟩
    · have hown := hplace.own hin.1
      rw [← hin.2, hbag] at hown
      cases hown
    · cases hgone.symm.trans hpBag
  refine ⟨hsame, ?_, htakes.pos, fun item hitem => htakes.entry item (hsame.symm.trans hitem), ?_⟩
  · rcases htakes.place with hown | ⟨pBag, hpBag, hlt, hself, hold⟩
    · exact .inl hown
    · obtain ⟨count, hpBag'⟩ := h.getBagByPos hplace hpBag
      exact .inr ⟨_, hpBag', hlt, hself, hold⟩
  · rw [units, hsame]
    exact htakes.room

/-- The units that a slot holds after all. -/
theorem Stored.units (h : p.Stored pItem contents e p') (hentry : ∀ item, p.getItemByPos e.1 = some item →
    item.getEntry = pItem.getEntry) : ∃ item, p'.getItemByPos e.1 = some item ∧ item.getEntry = pItem.getEntry ∧
      item.count = p.units e.1 + e.2 := by
  cases hitem : p.getItemByPos e.1 with
  | none =>
    obtain ⟨item, hitem', htemplate, hcount⟩ := h.new hitem
    refine ⟨item, hitem', congrArg ItemTemplate.itemId htemplate, ?_⟩
    rw [Player.units, hitem, Option.elim_none, hcount, Nat.zero_add]
  | some item =>
    refine ⟨_, h.stack item hitem, hentry item hitem, ?_⟩
    rw [Player.units, hitem, Option.elim_some]

theorem storeItem_cons (pItem : Item) (contents : Nat → Option Item) (e : Pos × Nat) (dest : List (Pos × Nat)) (nextGuid : Nat)
    (p : Player) : storeItem pItem contents (e :: dest) nextGuid p = storeItem pItem contents dest (nextGuid + 1)
      (p.storeItemAt e.1 pItem contents e.2 (if dest.isEmpty then none else some nextGuid)) := by
  cases dest <;> rfl

theorem Takes.mono {nextGuid' : Nat} (h : p.Takes pItem nextGuid e) (hle : nextGuid ≤ nextGuid') :
    p.Takes pItem nextGuid' e :=
  ⟨h.place.imp_right fun ⟨pBag, hpBag, hlt, hself, hold⟩ => ⟨pBag, hpBag, hlt, hself, hold.trans_le hle⟩, h.pos, h.entry, h.room⟩

/-- Each slot of the list gets its part, and other slots keep what they have, but for those of a bag that comes into its slot. -/
theorem storeItem_spec (hmax : pItem.template.getMaxStackSize < 2 ^ 32) (contents : Nat → Option Item) (dest : List (Pos × Nat)) :
    ∀ (nextGuid : Nat) (p : Player), (dest.map Prod.fst).Nodup → (∀ e ∈ dest, p.Takes pItem nextGuid e) →
      (∀ e ∈ dest, ∃ item, (storeItem pItem contents dest nextGuid p).getItemByPos e.1 = some item ∧
        item.getEntry = pItem.getEntry ∧ item.count = p.units e.1 + e.2) ∧
      ∀ q, q ∉ dest.map Prod.fst → (storeItem pItem contents dest nextGuid p).getItemByPos q = p.getItemByPos q ∨
        ((∃ e ∈ dest, q.Inside e.1) ∧ p.getItemByPos q = none ∧
          (storeItem pItem contents dest nextGuid p).getItemByPos q = contents q.slot) := by
  induction dest with
  | nil => exact fun _ _ _ _ => ⟨fun _ he => (nomatch he), fun _ _ => .inl rfl⟩
  | cons e dest ih =>
    intro nextGuid p hnodup htakes
    obtain ⟨hnew, hnodup⟩ := List.nodup_cons.1 hnodup
    obtain ⟨hfirst, hrest⟩ := List.forall_mem_cons.1 htakes
    have hclone : ∀ guid, (if dest.isEmpty then none else some nextGuid) = some guid → nextGuid ≤ guid := by
      intro guid hguid
      split at hguid
      next => cases hguid
      next => exact (Option.some.inj hguid).le
    have hstored := @storeItemAt_spec p pItem contents nextGuid _ e hmax hclone hfirst
    have hkept : ∀ e' ∈ dest, _ := fun e' he' => hstored.takes hfirst.place (fun he => hnew (he ▸ List.mem_map_of_mem he')) (hrest e' he')
    rw [storeItem_cons]
    obtain ⟨hparts, hothers⟩ := ih (nextGuid + 1) _ hnodup fun e' he' => (hkept e' he').2.mono (Nat.le_succ nextGuid)
    obtain ⟨item, hitem, hentry, hunits⟩ := hstored.units hfirst.entry
    refine ⟨List.forall_mem_cons.2 ⟨?_, fun e' he' => ?_⟩, fun q hq => ?_⟩
    · -- the slots after the first one leave it as it is
      rcases hothers e.1 hnew with hsame | ⟨_, hnone, _⟩
      · exact ⟨item, hsame.trans hitem, hentry, hunits⟩
      · cases hnone.symm.trans hitem
    · obtain ⟨item', hitem', hentry', hunits'⟩ := hparts e' he'
      refine ⟨item', hitem', hentry', ?_⟩
      rw [hunits', Player.units, Player.units, (hkept e' he').1]
    · rw [List.map_cons, List.mem_cons, not_or] at hq
      rcases hothers q hq.2, hstored.others q hq.1 with ⟨hlater | ⟨⟨e', he', hin⟩, hnone, hcontents⟩, hnow | ⟨hin', hempty, hcontents'⟩⟩
      · exact .inl (hlater.trans hnow)
      · exact .inr ⟨⟨e, List.mem_cons_self, hin'⟩, (getItemByPos_inside hin' (hfirst.place.own hin'.1) hempty).2,
          hlater.trans hcontents'⟩
      · exact .inr ⟨⟨e', List.mem_cons_of_mem e he', hin⟩, hnow.symm.trans hnone, hcontents⟩
      · exact .inr ⟨⟨e, List.mem_cons_self, hin'⟩, (getItemByPos_inside hin' (hfirst.place.own hin'.1) hempty).2, hcontents⟩

end Player

end AtlasWow.Storage
