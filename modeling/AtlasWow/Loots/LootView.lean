/-
The loot window: `operator<<(ByteBuffer&, LootView const&)` of `Loot.cpp` numbers
the items it shows by itself, `Loot::LootItemInSlot` finds the item of a number
by itself. They agree on every loot that comes from `FillLoot` or from the
storage of a container, in whatever state its items are (`view_agrees`): the
lists of the players stay as they were filled (`Arranged`).

Who has the round robin is a field of the view here; the display id of an item
is a parameter.
-/
import AtlasWow.Lib.LittleEndian
import AtlasWow.Loots.LootItemStorage
import AtlasWow.Loots.LootRuns

namespace AtlasWow.Loots

inductive PermissionTypes where
  | all | group | master | restricted | roundRobin | owner | none
  deriving DecidableEq, Repr

inductive LootSlotType where
  | allowLoot | rollOngoing | master | locked | owner
  deriving DecidableEq, Repr

def LootSlotType.toUInt8 : LootSlotType → UInt8
  | .allowLoot => 0
  | .rollOngoing => 1
  | .master => 2
  | .locked => 3
  | .owner => 4

structure LootView where
  loot : Loot
  viewer : Looter
  permission : PermissionTypes
  roundRobinPlayer : Option Nat

namespace LootView

/-- What is written of one item: its slot, the item by the list it is in, and the slot type. -/
structure Record where
  slot : UInt8
  found : Loot.Slot
  slotType : LootSlotType

/-- The elements of a list that are shown, by position. -/
def shown {α : Type} (l : List α) (record : Nat → α → Option Record) : List Record :=
  (List.range l.length).filterMap fun i => l[i]?.bind (record i)

/-- The slot type of a blocked item; for master loot and restricted, blocked is not under the threshold. -/
def blockedType (lv : LootView) : Option LootSlotType :=
  match lv.permission with
  | .group => some .rollOngoing
  | .master => if lv.viewer.group.any (·.masterLooterGuid = lv.viewer.guid) then some .master else some .locked
  | .restricted => some .locked
  | _ => none

/-- The slot type of an item that is in nobody's list, unless it is not displayed. -/
def ordinaryType (lv : LootView) (it : LootItem) : Option LootSlotType :=
  match lv.permission with
  | .group | .master | .restricted =>
    if it.isBlocked then lv.blockedType
    else
      match it.rollWinnerGUID with
      | some winner => if winner = lv.viewer.guid then some .owner else none
      | none =>
        -- no round robin owner, or he has released the loot, or it is the viewer
        if lv.roundRobinPlayer.all (lv.viewer.guid = ·) || !it.isUnderthreshold then some .allowLoot else none
  | .roundRobin => if lv.roundRobinPlayer.all (lv.viewer.guid = ·) then some .allowLoot else none
  | .all => some .allowLoot
  | .owner => some .owner
  | .none => none

/-- `slotType`. -/
def slotType (lv : LootView) : LootSlotType := if lv.permission = .owner then .owner else .allowLoot

/-- The slot type of a conditional item, or of a quest item that follows the loot rules. -/
def ruledType (lv : LootView) (it : LootItem) : LootSlotType :=
  match lv.permission with
  | .master => .master
  | .restricted => if it.isBlocked then .locked else lv.slotType
  | .group | .roundRobin => if !it.isBlocked then .allowLoot else .rollOngoing
  | _ => lv.slotType

variable (templates : Nat → Option ItemTemplate)

def ordinaryRecord (lv : LootView) (i : Nat) (it : LootItem) : Option Record :=
  if !it.isLooted && !it.freeforall && it.conditions.isEmpty && it.allowedForPlayer templates lv.viewer then
    (lv.ordinaryType it).map fun slotType => { slot := .ofNat i, found := .plain i it, slotType := slotType }
  else none

/-- The record of an entry of a list, unless the entry or its item is looted. -/
def entryRecord (items : List LootItem) (e : NotNormalLootItem) (record : LootItem → Record) : Option Record :=
  items[e.index]?.bind fun it => if !e.isLooted && !it.isLooted then some (record it) else none

def questRecord (lv : LootView) (pos : Nat) (qi : NotNormalLootItem) : Option Record :=
  entryRecord lv.loot.questItems qi fun it =>
    { slot := .ofNat (lv.loot.items.length + pos)
      found := .quest pos qi.index it
      slotType := if it.followLootRules then lv.ruledType it else lv.slotType }

def ffaRecord (lv : LootView) (pos : Nat) (fi : NotNormalLootItem) : Option Record :=
  entryRecord lv.loot.items fi fun it =>
    { slot := .ofNat fi.index, found := .ffa pos fi.index it, slotType := lv.slotType }

def conditionalRecord (lv : LootView) (pos : Nat) (ci : NotNormalLootItem) : Option Record :=
  entryRecord lv.loot.items ci fun it =>
    { slot := .ofNat ci.index, found := .conditional pos ci.index it, slotType := lv.ruledType it }

/-- The viewer's list of a map. -/
def listOf (lv : LootView) (map : NotNormalLootItemMap) : List NotNormalLootItem :=
  (map.find? lv.viewer.guid).getD []

/-- The item records, in the order in which they are written. -/
def records (lv : LootView) : List Record :=
  if lv.permission = .none then []
  else
    shown lv.loot.items (lv.ordinaryRecord templates) ++
      shown (lv.listOf lv.loot.playerQuestItems) lv.questRecord ++
      shown (lv.listOf lv.loot.playerFFAItems) lv.ffaRecord ++
      shown (lv.listOf lv.loot.playerNonQuestNonFFAConditionalItems) lv.conditionalRecord

variable (displayInfoID : Nat → Nat)

/-- `operator<<(ByteBuffer&, LootItem const&)`, between the slot and the slot type. -/
def Record.write (r : Record) : List UInt8 :=
  [r.slot] ++ leBytes 4 r.found.item.itemid ++ leBytes 4 r.found.item.count.toNat ++
    leBytes 4 (displayInfoID r.found.item.itemid) ++ leBytes 4 r.found.item.randomSuffix ++
    leBytes 4 (r.found.item.randomPropertyId % 2 ^ 32).toNat ++ [r.slotType.toUInt8]

/-- The gold, the number of items, which is put in when all of them are written, and the items. -/
def write (lv : LootView) : List UInt8 :=
  if lv.permission = .none then leBytes 4 0 ++ [0]
  else
    let b := leBytes 4 lv.loot.gold
    let count_pos := b.length
    let written := (lv.records templates).foldl (fun (written : List UInt8 × UInt8) r =>
      (written.1 ++ r.write displayInfoID, written.2 + 1)) (b ++ [0], 0)
    written.1.set count_pos written.2

/-! The packet -/

variable {templates : Nat → Option ItemTemplate} {displayInfoID : Nat → Nat} {lv : LootView}

theorem foldl_write (rs : List Record) : ∀ (b : List UInt8) (n : Nat),
    rs.foldl (fun (written : List UInt8 × UInt8) r => (written.1 ++ r.write displayInfoID, written.2 + 1)) (b, UInt8.ofNat n) =
      (b ++ rs.flatMap (·.write displayInfoID), UInt8.ofNat (n + rs.length)) := by
  induction rs with
  | nil =>
    intro b n
    rw [List.flatMap_nil, List.append_nil]
    rfl
  | cons r rs ih =>
    intro b n
    have hone : UInt8.ofNat n + 1 = UInt8.ofNat (n + 1) := UInt8.ofNat_add n 1 |>.symm
    rw [List.foldl_cons, hone, ih, List.flatMap_cons, List.append_assoc, List.length_cons, Nat.add_right_comm, Nat.add_assoc]

/-- The gold that the window is told. -/
def goldShown (lv : LootView) : Nat := if lv.permission = .none then 0 else lv.loot.gold

theorem write_eq (lv : LootView) :
    lv.write templates displayInfoID = leBytes 4 lv.goldShown ++
      UInt8.ofNat (lv.records templates).length :: (lv.records templates).flatMap (·.write displayInfoID) := by
  unfold write goldShown
  split
  next hnone =>
    rw [records, if_pos hnone]
    rfl
  next =>
  extract_lets b count_pos written
  have hwritten : written = (b ++ [0] ++ (lv.records templates).flatMap (·.write displayInfoID),
      UInt8.ofNat (0 + (lv.records templates).length)) := foldl_write _ _ 0
  rw [hwritten, Nat.zero_add, List.append_assoc, List.set_append_right _ _ (Nat.le_refl _), Nat.sub_self]
  rfl

/-! The slots -/

theorem mem_shown {α : Type} {l : List α} {record : Nat → α → Option Record} {r : Record} :
    r ∈ shown l record ↔ ∃ i a, l[i]? = some a ∧ record i a = some r := by
  rw [shown, List.mem_filterMap]
  constructor
  · intro h
    obtain ⟨i, -, h⟩ := h
    obtain ⟨a, ha, hr⟩ := Option.bind_eq_some_iff.1 h
    exact ⟨i, a, ha, hr⟩
  · intro h
    obtain ⟨i, a, ha, hr⟩ := h
    exact ⟨i, List.mem_range.2 (List.getElem?_eq_some_iff.1 ha).1, Option.bind_eq_some_iff.2 ⟨a, ha, hr⟩⟩

end LootView

namespace Loot

/-- The position in its list, and which list it is. -/
def Slot.pos : Slot → Nat
  | .quest pos _ _ => pos
  | .ffa pos _ _ => pos
  | .conditional pos _ _ => pos
  | .plain index _ => index

def Slot.kind : Slot → Nat
  | .plain .. => 0
  | .quest .. => 1
  | .ffa .. => 2
  | .conditional .. => 3

end Loot

namespace LootView

open Loot

variable {templates : Nat → Option ItemTemplate} {lv : LootView} {r : Record}

/-- A part of the window: what it shows is of one kind, and each at the position it is from. -/
theorem nodup_shown {α : Type} {l : List α} {record : Nat → α → Option Record} {kind : Nat}
    (h : ∀ i a r, record i a = some r → r.found.pos = i ∧ r.found.kind = kind) :
    ((shown l record).map (·.found)).Nodup ∧ ∀ slot ∈ (shown l record).map (·.found), slot.kind = kind := by
  refine ⟨?_, fun slot hslot => ?_⟩
  · rw [shown, List.map_filterMap]
    refine List.Nodup.filterMap (fun i j slot hi hj => ?_) List.nodup_range
    have hslot {i : Nat} (hi : slot ∈ (l[i]?.bind (record i)).map (·.found)) : slot.pos = i := by
      obtain ⟨r, hr, rfl⟩ := Option.map_eq_some_iff.1 hi
      obtain ⟨a, -, hr⟩ := Option.bind_eq_some_iff.1 hr
      exact (h i a r hr).1
    rw [← hslot hi, hslot hj]
  · obtain ⟨r, hr, rfl⟩ := List.mem_map.1 hslot
    obtain ⟨i, a, -, hr⟩ := mem_shown.1 hr
    exact (h i a r hr).2

theorem ordinaryRecord_eq {i : Nat} {it : LootItem} (h : lv.ordinaryRecord templates i it = some r) :
    r.slot = .ofNat i ∧ r.found = .plain i it ∧ it.isLooted = false ∧ it.freeforall = false ∧
      it.conditions.isEmpty = true := by
  unfold ordinaryRecord at h
  split at h
  next hshown =>
    obtain ⟨slotType, -, rfl⟩ := Option.map_eq_some_iff.1 h
    simp only [Bool.and_eq_true, Bool.not_eq_true'] at hshown
    obtain ⟨⟨⟨hlooted, hffa⟩, hconditions⟩, -⟩ := hshown
    exact ⟨rfl, rfl, hlooted, hffa, hconditions⟩
  next => cases h

theorem entryRecord_eq {items : List LootItem} {e : NotNormalLootItem} {record : LootItem → Record}
    (h : entryRecord items e record = some r) :
    ∃ it, items[e.index]? = some it ∧ e.isLooted = false ∧ it.isLooted = false ∧ record it = r := by
  obtain ⟨it, hit, h⟩ := Option.bind_eq_some_iff.1 h
  split at h
  next hshown =>
    cases h
    simp only [Bool.and_eq_true, Bool.not_eq_true'] at hshown
    exact ⟨it, hit, hshown.1, hshown.2, rfl⟩
  next => cases h

/-- A record that is written, and what it is written for. -/
inductive Shows (lv : LootView) : Record → Prop
  | plain (i : Nat) (it : LootItem) (slotType : LootSlotType) (hit : lv.loot.items[i]? = some it)
      (hlooted : it.isLooted = false) (hffa : it.freeforall = false) (hconditions : it.conditions.isEmpty = true) :
      Shows lv { slot := .ofNat i, found := .plain i it, slotType := slotType }
  | quest (pos : Nat) (e : NotNormalLootItem) (it : LootItem) (slotType : LootSlotType)
      (he : (lv.listOf lv.loot.playerQuestItems)[pos]? = some e) (hit : lv.loot.questItems[e.index]? = some it)
      (hentry : e.isLooted = false) (hlooted : it.isLooted = false) :
      Shows lv { slot := .ofNat (lv.loot.items.length + pos), found := .quest pos e.index it, slotType := slotType }
  | ffa (pos : Nat) (e : NotNormalLootItem) (it : LootItem) (slotType : LootSlotType)
      (he : (lv.listOf lv.loot.playerFFAItems)[pos]? = some e) (hit : lv.loot.items[e.index]? = some it)
      (hentry : e.isLooted = false) (hlooted : it.isLooted = false) :
      Shows lv { slot := .ofNat e.index, found := .ffa pos e.index it, slotType := slotType }
  | conditional (pos : Nat) (e : NotNormalLootItem) (it : LootItem) (slotType : LootSlotType)
      (he : (lv.listOf lv.loot.playerNonQuestNonFFAConditionalItems)[pos]? = some e)
      (hit : lv.loot.items[e.index]? = some it) (hentry : e.isLooted = false) (hlooted : it.isLooted = false) :
      Shows lv { slot := .ofNat e.index, found := .conditional pos e.index it, slotType := slotType }

/-- The four parts of the window. -/
theorem mem_records (h : r ∈ lv.records templates) : lv.Shows r := by
  unfold records at h
  split at h
  next => cases h
  next =>
  rcases List.mem_append.1 h with h | h
  · rcases List.mem_append.1 h with h | h
    · rcases List.mem_append.1 h with h | h
      · obtain ⟨i, it, hit, h⟩ := mem_shown.1 h
        obtain ⟨hslot, hfound, hlooted, hffa, hconditions⟩ := ordinaryRecord_eq h
        obtain ⟨slot, found, slotType⟩ := r
        cases hslot
        cases hfound
        exact .plain i it slotType hit hlooted hffa hconditions
      · obtain ⟨pos, e, he, h⟩ := mem_shown.1 h
        obtain ⟨it, hit, hentry, hlooted, rfl⟩ := entryRecord_eq h
        exact .quest pos e it _ he hit hentry hlooted
    · obtain ⟨pos, e, he, h⟩ := mem_shown.1 h
      obtain ⟨it, hit, hentry, hlooted, rfl⟩ := entryRecord_eq h
      exact .ffa pos e it _ he hit hentry hlooted
  · obtain ⟨pos, e, he, h⟩ := mem_shown.1 h
    obtain ⟨it, hit, hentry, hlooted, rfl⟩ := entryRecord_eq h
    exact .conditional pos e it _ he hit hentry hlooted

/-- The four parts have no item of a list in common. -/
theorem nodup_found : ((lv.records templates).map (·.found)).Nodup := by
  unfold records
  split
  next => exact List.nodup_nil
  next =>
  have hplain := nodup_shown (l := lv.loot.items) fun i it r (h : lv.ordinaryRecord templates i it = some r) => by
    rw [(ordinaryRecord_eq h).2.1]
    exact ⟨rfl, rfl⟩
  have hquest := nodup_shown (l := lv.listOf lv.loot.playerQuestItems) fun i e r (h : lv.questRecord i e = some r) => by
    obtain ⟨it, -, -, -, rfl⟩ := entryRecord_eq h
    exact ⟨rfl, rfl⟩
  have hffa := nodup_shown (l := lv.listOf lv.loot.playerFFAItems) fun i e r (h : lv.ffaRecord i e = some r) => by
    obtain ⟨it, -, -, -, rfl⟩ := entryRecord_eq h
    exact ⟨rfl, rfl⟩
  have hconditional := nodup_shown (l := lv.listOf lv.loot.playerNonQuestNonFFAConditionalItems)
    fun i e r (h : lv.conditionalRecord i e = some r) => by
      obtain ⟨it, -, -, -, rfl⟩ := entryRecord_eq h
      exact ⟨rfl, rfl⟩
  simp only [List.map_append, List.nodup_append, List.mem_append]
  refine ⟨⟨⟨hplain.1, hquest.1, fun a ha b hb heq => ?_⟩, hffa.1, fun a ha b hb heq => ?_⟩,
    hconditional.1, fun a ha b hb heq => ?_⟩
  · have hkind := (hplain.2 a ha).symm.trans (heq ▸ hquest.2 b hb)
    cases hkind
  · have hkind := hffa.2 b hb
    rcases ha with ha | ha
    · cases hkind.symm.trans (heq ▸ hplain.2 a ha)
    · cases hkind.symm.trans (heq ▸ hquest.2 a ha)
  · have hkind := hconditional.2 b hb
    rcases ha with (ha | ha) | ha
    · cases hkind.symm.trans (heq ▸ hplain.2 a ha)
    · cases hkind.symm.trans (heq ▸ hquest.2 a ha)
    · cases hkind.symm.trans (heq ▸ hffa.2 a ha)

end LootView

namespace Loot

variable {templates : Nat → Option ItemTemplate} {loot loot' : Loot}

/-- The lists of the players are as they were filled: an entry for each of some items of one kind. -/
structure Arranged (loot : Loot) : Prop where
  room : loot.items.length ≤ MAX_NR_LOOT_ITEMS
  quest : ∀ guid l, loot.playerQuestItems.find? guid = some l →
    l.length ≤ MAX_NR_LOOT_ITEMS ∧ ∀ e ∈ l, ∃ it, loot.questItems[e.index]? = some it
  ffa : ∀ guid l, loot.playerFFAItems.find? guid = some l →
    (l.map (·.index)).Nodup ∧ ∀ e ∈ l, ∃ it, loot.items[e.index]? = some it ∧ it.freeforall = true
  conditional : ∀ guid l, loot.playerNonQuestNonFFAConditionalItems.find? guid = some l →
    (l.map (·.index)).Nodup ∧ ∀ e ∈ l, ∃ it, loot.items[e.index]? = some it ∧ isConditional it = true

end Loot

namespace LootView

open Loot

variable {templates : Nat → Option ItemTemplate} {lv : LootView}

theorem of_listOf {map : NotNormalLootItemMap} {pos : Nat} {e : NotNormalLootItem} (h : (lv.listOf map)[pos]? = some e) :
    ∃ l, map.find? lv.viewer.guid = some l ∧ l[pos]? = some e := by
  unfold listOf at h
  cases hl : map.find? lv.viewer.guid with
  | none =>
    rw [hl] at h
    cases h
  | some l =>
    rw [hl] at h
    exact ⟨l, rfl, h⟩

/-- The slot that is written, as a number: it is one of those for which there is an item or an entry of the quest list. -/
theorem Shows.slot {r : Record} (h : lv.Shows r) (harranged : lv.loot.Arranged) :
    lv.loot.lootItemInSlot r.slot.toNat lv.viewer.guid = some r.found ∧ r.found.item.isLooted = false ∧
      r.slot.toNat < 2 * MAX_NR_LOOT_ITEMS := by
  have hroom := harranged.room
  unfold MAX_NR_LOOT_ITEMS at hroom ⊢
  have htoNat {n : Nat} (hn : n < 32) : (UInt8.ofNat n).toNat = n := UInt8.toNat_ofNat_of_lt' (Nat.lt_trans hn (by decide))
  cases h with
  | plain i it slotType hit hlooted hffa hconditions =>
    have hlt : i < lv.loot.items.length := (List.getElem?_eq_some_iff.1 hit).1
    rw [htoNat (by omega)]
    refine ⟨?_, hlooted, by omega⟩
    simp [lootItemInSlot, Nat.not_le.2 hlt, hit, hffa, hconditions, hlooted]
  | quest pos e it slotType he hit hentry hlooted =>
    obtain ⟨l, hl, he⟩ := of_listOf he
    have hlength := (harranged.quest _ l hl).1
    unfold MAX_NR_LOOT_ITEMS at hlength
    have hlt : pos < l.length := (List.getElem?_eq_some_iff.1 he).1
    rw [htoNat (by omega)]
    refine ⟨?_, hlooted, by omega⟩
    simp [lootItemInSlot, hl, he, hentry, hit]
  | ffa pos e it slotType he hit hentry hlooted =>
    obtain ⟨l, hl, he⟩ := of_listOf he
    have hlt : e.index < lv.loot.items.length := (List.getElem?_eq_some_iff.1 hit).1
    obtain ⟨hnodup, hitems⟩ := harranged.ffa _ l hl
    obtain ⟨it', hit', hffa⟩ := hitems e (List.mem_of_getElem? he)
    rw [hit] at hit'
    cases hit'
    rw [htoNat (by omega)]
    refine ⟨?_, hlooted, by omega⟩
    simp [lootItemInSlot, Nat.not_le.2 hlt, hit, hffa, entryOf_eq hl hnodup he, hentry]
  | conditional pos e it slotType he hit hentry hlooted =>
    obtain ⟨l, hl, he⟩ := of_listOf he
    have hlt : e.index < lv.loot.items.length := (List.getElem?_eq_some_iff.1 hit).1
    obtain ⟨hnodup, hitems⟩ := harranged.conditional _ l hl
    obtain ⟨it', hit', hconditional⟩ := hitems e (List.mem_of_getElem? he)
    rw [hit] at hit'
    cases hit'
    simp only [isConditional, Bool.and_eq_true, Bool.not_eq_true'] at hconditional
    rw [htoNat (by omega)]
    refine ⟨?_, hlooted, by omega⟩
    simp [lootItemInSlot, Nat.not_le.2 hlt, hit, hconditional.1, hconditional.2, entryOf_eq hl hnodup he, hentry]

/-- What the window shows can be taken: the count byte is the number of records, their slots are distinct, and the item that
is found at a slot is the one that is shown. -/
structure Agrees (templates : Nat → Option ItemTemplate) (displayInfoID : Nat → Nat) (lv : LootView) : Prop where
  packet : ∃ itemsShown : UInt8, itemsShown.toNat = (lv.records templates).length ∧
    lv.write templates displayInfoID =
      leBytes 4 lv.goldShown ++ itemsShown :: (lv.records templates).flatMap (·.write displayInfoID)
  slots : ((lv.records templates).map (·.slot)).Nodup
  found : ∀ r ∈ lv.records templates,
    lv.loot.lootItemInSlot r.slot.toNat lv.viewer.guid = some r.found ∧ r.found.item.isLooted = false

theorem agrees_of_arranged (displayInfoID : Nat → Nat) (h : lv.loot.Arranged) : lv.Agrees templates displayInfoID := by
  have hslot (r : Record) (hr : r ∈ lv.records templates) := (mem_records hr).slot h
  -- a slot is found in one place, and every place is shown once
  have hnodup : ((lv.records templates).map fun r => r.slot.toNat).Nodup := by
    have hfound : ((lv.records templates).map fun r => r.slot.toNat).map (lv.loot.lootItemInSlot · lv.viewer.guid) =
        ((lv.records templates).map (·.found)).map some := by
      rw [List.map_map, List.map_map]
      exact List.map_congr_left fun r hr => (hslot r hr).1
    refine List.Nodup.of_map (lv.loot.lootItemInSlot · lv.viewer.guid) ?_
    rw [hfound]
    exact nodup_found.map (Option.some_injective _)
  have hlength : (lv.records templates).length ≤ 2 * MAX_NR_LOOT_ITEMS := by
    have hsub : (lv.records templates).map (fun r => r.slot.toNat) ⊆ List.range (2 * MAX_NR_LOOT_ITEMS) := by
      intro n hn
      obtain ⟨r, hr, rfl⟩ := List.mem_map.1 hn
      exact List.mem_range.2 (hslot r hr).2.2
    have hle := (List.subperm_of_subset hnodup hsub).length_le
    rwa [List.length_map, List.length_range] at hle
  refine ⟨⟨UInt8.ofNat (lv.records templates).length, UInt8.toNat_ofNat_of_lt' ?_, write_eq lv⟩, ?_, fun r hr => ?_⟩
  · exact Nat.lt_of_le_of_lt hlength (by decide)
  · exact List.Nodup.of_map UInt8.toNat (by rwa [List.map_map])
  · exact ⟨(hslot r hr).1, (hslot r hr).2.1⟩

end LootView

namespace Loot

variable {templates : Nat → Option ItemTemplate} {loot loot' : Loot}

/-! Every loot is arranged -/

/-- An item without what a take, a roll or the threshold marks on it. -/
def unmarked (it : LootItem) : LootItem :=
  { it with isLooted := false, isBlocked := false, isUnderthreshold := false, isCounted := false, rollWinnerGUID := none }

/-- The entries of the players, looted or not. -/
def SameLists (map map' : NotNormalLootItemMap) : Prop :=
  ∀ guid, (map'.find? guid).map (·.map (·.index)) = (map.find? guid).map (·.map (·.index))

/-- The same loot, in any looted, blocked or under-threshold state. -/
structure SameItems (loot loot' : Loot) : Prop where
  items : loot'.items.map unmarked = loot.items.map unmarked
  questItems : loot'.questItems.map unmarked = loot.questItems.map unmarked
  quest : SameLists loot.playerQuestItems loot'.playerQuestItems
  ffa : SameLists loot.playerFFAItems loot'.playerFFAItems
  conditional : SameLists loot.playerNonQuestNonFFAConditionalItems loot'.playerNonQuestNonFFAConditionalItems

theorem SameItems.refl (loot : Loot) : SameItems loot loot :=
  ⟨rfl, rfl, fun _ => rfl, fun _ => rfl, fun _ => rfl⟩

theorem SameLists.list {map map' : NotNormalLootItemMap} {guid : Nat} {l' : List NotNormalLootItem} (h : SameLists map map')
    (hl' : map'.find? guid = some l') : ∃ l, map.find? guid = some l ∧ l'.map (·.index) = l.map (·.index) := by
  have hguid := h guid
  rw [hl', Option.map_some] at hguid
  obtain ⟨l, hl, hindex⟩ := Option.map_eq_some_iff.1 hguid.symm
  exact ⟨l, hl, hindex.symm⟩

/-- What a list of entries is for does not depend on the marks. -/
theorem listed_same {p : LootItem → Bool} (hp : ∀ it, p (unmarked it) = p it) {items items' : List LootItem}
    {l l' : List NotNormalLootItem} (hitems : items'.map unmarked = items.map unmarked)
    (hindex : l'.map (·.index) = l.map (·.index)) (h : ∀ e ∈ l, ∃ it, items[e.index]? = some it ∧ p it = true) :
    ∀ e ∈ l', ∃ it, items'[e.index]? = some it ∧ p it = true := by
  intro e' he'
  have hmem : e'.index ∈ l.map (·.index) := hindex ▸ List.mem_map_of_mem he'
  obtain ⟨e, he, heq⟩ := List.mem_map.1 hmem
  obtain ⟨it, hit, hit_p⟩ := h e he
  have hmap : (items'.map unmarked)[e'.index]? = some (unmarked it) := by
    rw [hitems, List.getElem?_map, ← heq, hit, Option.map_some]
  rw [List.getElem?_map] at hmap
  obtain ⟨it', hit', heq'⟩ := Option.map_eq_some_iff.1 hmap
  exact ⟨it', hit', by rw [← hp it', heq', hp it, hit_p]⟩

theorem Arranged.same (h : loot.Arranged) (hsame : SameItems loot loot') : loot'.Arranged := by
  have hlength : loot'.items.length = loot.items.length := by
    rw [← List.length_map unmarked, hsame.items, List.length_map]
  refine ⟨hlength ▸ h.room, fun guid l hl => ?_, fun guid l hl => ?_, fun guid l hl => ?_⟩
  · obtain ⟨l₀, hl₀, hindex⟩ := hsame.quest.list hl
    obtain ⟨hroom, hitems⟩ := h.quest guid l₀ hl₀
    have hlength : l.length = l₀.length := by rw [← List.length_map (·.index), hindex, List.length_map]
    refine ⟨hlength ▸ hroom, fun e he => ?_⟩
    obtain ⟨it, hit, -⟩ := listed_same (p := fun _ => true) (fun _ => rfl) hsame.questItems hindex
      (fun e he => (hitems e he).imp fun it hit => ⟨hit, rfl⟩) e he
    exact ⟨it, hit⟩
  · obtain ⟨l₀, hl₀, hindex⟩ := hsame.ffa.list hl
    obtain ⟨hnodup, hitems⟩ := h.ffa guid l₀ hl₀
    exact ⟨hindex ▸ hnodup, listed_same (fun _ => rfl) hsame.items hindex hitems⟩
  · obtain ⟨l₀, hl₀, hindex⟩ := hsame.conditional.list hl
    obtain ⟨hnodup, hitems⟩ := h.conditional guid l₀ hl₀
    exact ⟨hindex ▸ hnodup, listed_same (fun _ => rfl) hsame.items hindex hitems⟩

theorem map_unmarked_modify {mark : LootItem → LootItem} (h : ∀ it, unmarked (mark it) = unmarked it) (items : List LootItem)
    (index : Nat) : (items.modify index mark).map unmarked = items.map unmarked := by
  refine List.ext_getElem? fun i => ?_
  rw [List.getElem?_map, List.getElem?_map, List.getElem?_modify]
  cases items[i]? with
  | none => rfl
  | some it => by_cases hi : index = i <;> simp [hi, h]

theorem sameLists_takeEntry (map : NotNormalLootItemMap) (guid pos : Nat) : SameLists map (takeEntry map guid pos) := by
  intro k
  unfold takeEntry
  split
  next l hl =>
    rw [OMap.find?_insert]
    split
    next heq =>
      rw [heq, hl, Option.map_some, Option.map_some, Option.some_inj]
      refine List.ext_getElem? fun i => ?_
      rw [List.getElem?_map, List.getElem?_map, List.getElem?_modify]
      cases l[i]? with
      | none => rfl
      | some e => by_cases hi : pos = i <;> simp [hi]
    next => rfl
  next => rfl

/-- A take marks the item, and an entry. -/
theorem sameItems_take (loot : Loot) (guid : Nat) (slot : Slot) : SameItems loot (loot.take guid slot) := by
  have hmark (it : LootItem) : unmarked (if it.freeforall then it else { it with isLooted := true }) = unmarked it := by
    split <;> rfl
  cases slot with
  | quest pos index it =>
    exact ⟨rfl, map_unmarked_modify hmark .., sameLists_takeEntry _ _ _, fun _ => rfl, fun _ => rfl⟩
  | ffa pos index it =>
    exact ⟨map_unmarked_modify hmark .., rfl, fun _ => rfl, sameLists_takeEntry _ _ _, fun _ => rfl⟩
  | conditional pos index it =>
    exact ⟨map_unmarked_modify hmark .., rfl, fun _ => rfl, fun _ => rfl, sameLists_takeEntry _ _ _⟩
  | plain index it => exact ⟨map_unmarked_modify hmark .., rfl, fun _ => rfl, fun _ => rfl, fun _ => rfl⟩

theorem sameItems_storeLootItem (loot : Loot) (player : Looter) (lootSlot : Nat) (canStore : Bool) :
    SameItems loot (loot.storeLootItem templates player lootSlot canStore) := by
  unfold storeLootItem
  split
  next slot _ =>
    split
    next => exact sameItems_take loot player.guid slot
    next => exact .refl loot
  next => exact .refl loot

theorem sameItems_handle (loot : Loot) (event : Event) : SameItems loot (loot.handle templates event) := by
  cases event with
  | store player lootSlot canStore => exact sameItems_storeLootItem loot player lootSlot canStore
  | takeMoney => exact ⟨rfl, rfl, fun _ => rfl, fun _ => rfl, fun _ => rfl⟩
  | roll lootSlot blocked winner =>
    have hmark (it : LootItem) : unmarked (setRoll blocked winner it) = unmarked it := rfl
    unfold Loot.handle
    dsimp only
    split
    next => exact ⟨map_unmarked_modify hmark .., rfl, fun _ => rfl, fun _ => rfl, fun _ => rfl⟩
    next => exact ⟨rfl, map_unmarked_modify hmark .., fun _ => rfl, fun _ => rfl, fun _ => rfl⟩

/-! The fill -/

variable {owner player : Looter} {members : List Member}

theorem arranged_empty (gold : Nat) : (empty gold).Arranged := ⟨Nat.zero_le _, nofun, nofun, nofun⟩

/-- What drops comes after what is there. -/
theorem Arranged.grow (h : loot.Arranged) {items questItems : List LootItem} (hroom : items.length ≤ MAX_NR_LOOT_ITEMS)
    (hitems : loot.items <+: items) (hquest : loot.questItems <+: questItems) (unlootedCount : UInt8) :
    Arranged { loot with items := items, questItems := questItems, unlootedCount := unlootedCount } := by
  have hget {l l' : List LootItem} {i : Nat} {it : LootItem} (hl : l <+: l') (hit : l[i]? = some it) : l'[i]? = some it := by
    obtain ⟨rest, rfl⟩ := hl
    rw [List.getElem?_append_left (List.getElem?_eq_some_iff.1 hit).1, hit]
  refine ⟨hroom, fun guid l hl => ?_, fun guid l hl => ?_, fun guid l hl => ?_⟩
  · obtain ⟨hlength, hentries⟩ := h.quest guid l hl
    exact ⟨hlength, fun e he => (hentries e he).imp fun it hit => hget hquest hit⟩
  · obtain ⟨hnodup, hentries⟩ := h.ffa guid l hl
    exact ⟨hnodup, fun e he => (hentries e he).imp fun it hit => ⟨hget hitems hit.1, hit.2⟩⟩
  · obtain ⟨hnodup, hentries⟩ := h.conditional guid l hl
    exact ⟨hnodup, fun e he => (hentries e he).imp fun it hit => ⟨hget hitems hit.1, hit.2⟩⟩

theorem Arranged.addStacks {proto : ItemTemplate} {drop : Drop} (n : Nat) : ∀ (i count : Nat) (loot : Loot),
    loot.Arranged → (addStacks templates owner members proto drop n i count loot).Arranged := by
  induction n with
  | zero => exact fun _ _ _ h => h
  | succ n ih =>
    intro i count loot h
    unfold Loot.addStacks
    extract_lets lootItems limit random base generatedLoot loot₁ loot₂
    split
    next hlimit =>
      refine ih _ _ _ ?_
      have hloot₁ : loot₁.Arranged := by
        unfold loot₁
        split
        next => exact h.grow h.room (List.prefix_refl _) (List.prefix_append _ _) loot.unlootedCount
        next hquest =>
        have hlimit : loot.items.length < MAX_NR_LOOT_ITEMS := by simpa [lootItems, limit, hquest] using hlimit
        refine h.grow ?_ (List.prefix_append _ _) (List.prefix_refl _) loot.unlootedCount
        rw [List.length_append, List.length_singleton]
        exact hlimit
      unfold loot₂
      split
      next => exact hloot₁
      next =>
      split
      next => exact hloot₁.grow hloot₁.room (List.prefix_refl _) (List.prefix_refl _) _
      next => exact hloot₁
    next => exact h

theorem Arranged.addItem {drop : Drop} (h : loot.Arranged) : (loot.addItem templates owner members drop).Arranged := by
  unfold Loot.addItem
  split
  next => exact h
  next => exact h.addStacks _ _ _ _

theorem Arranged.fillQuestLoot (h : loot.Arranged) : (loot.fillQuestLoot templates player).Arranged := by
  unfold Loot.fillQuestLoot
  extract_lets listed blocks
  split
  next => exact h
  next =>
  -- the items that are blocked are the same ones
  have hsame : SameItems loot { loot with
      questItems := loot.questItems.mapIdx fun i it =>
        if listed.contains i then { it with isBlocked := it.isBlocked || blocks } else it
      unlootedCount := loot.unlootedCount + UInt8.ofNat (listed.countP fun i => loot.questItems[i]?.any countsQuestItem) } := by
    refine ⟨rfl, ?_, fun _ => rfl, fun _ => rfl, fun _ => rfl⟩
    refine List.ext_getElem? fun i => ?_
    rw [List.getElem?_map, List.getElem?_map, List.getElem?_mapIdx]
    cases loot.questItems[i]? with
    | none => rfl
    | some it => by_cases hi : listed.contains i = true <;> simp only [Option.map_some, hi, if_true] <;> rfl
  have harranged := h.same hsame
  refine ⟨harranged.room, fun guid l hl => ?_, harranged.ffa, harranged.conditional⟩
  rw [OMap.find?_insert] at hl
  split at hl
  next =>
    cases hl
    have hlength : listed.length ≤ MAX_NR_LOOT_ITEMS := (List.length_take_le _ _).trans (Nat.sub_le _ _)
    refine ⟨by rwa [entries, List.length_map], fun e he => ?_⟩
    obtain ⟨it, hit, -⟩ := mem_positions.1 (List.mem_of_mem_take (mem_entries he))
    exact ⟨_, by rw [List.getElem?_mapIdx, hit, Option.map_some]⟩
  next => exact harranged.quest guid l hl

/-- A list of some positions of items. -/
theorem entries_positions {lists p : LootItem → Bool} {items : List LootItem} (hp : ∀ it, lists it = true → p it = true) :
    ((entries (positions lists items)).map (·.index)).Nodup ∧
      ∀ e ∈ entries (positions lists items), ∃ it, items[e.index]? = some it ∧ p it = true := by
  refine ⟨by rw [map_index_entries]; exact nodup_positions, fun e he => ?_⟩
  obtain ⟨it, hit, hlists⟩ := mem_positions.1 (mem_entries he)
  exact ⟨it, hit, hp it hlists⟩

theorem Arranged.fillFFALoot (h : loot.Arranged) : (loot.fillFFALoot templates player).Arranged := by
  unfold Loot.fillFFALoot
  extract_lets listed
  split
  next => exact h
  next =>
  refine ⟨h.room, h.quest, fun guid l hl => ?_, h.conditional⟩
  rw [OMap.find?_insert] at hl
  split at hl
  next =>
    cases hl
    refine entries_positions fun it hlists => ?_
    simp only [listsFFAItem, Bool.and_eq_true] at hlists
    exact hlists.1.2
  next => exact h.ffa guid l hl

theorem Arranged.fillConditional (h : loot.Arranged) :
    (loot.fillNonQuestNonFFAConditionalLoot templates player).Arranged := by
  unfold Loot.fillNonQuestNonFFAConditionalLoot
  extract_lets lists listed
  split
  next => exact h
  next =>
  have hitems : (loot.items.map fun it => if lists it then { it with isCounted := true } else it).map unmarked =
      loot.items.map unmarked := by
    rw [List.map_map]
    refine List.map_congr_left fun it _ => ?_
    dsimp only [Function.comp]
    split <;> rfl
  have hsame : SameItems loot { loot with
      items := loot.items.map fun it => if lists it then { it with isCounted := true } else it
      unlootedCount := loot.unlootedCount + UInt8.ofNat (loot.items.countP fun it => lists it && !it.isCounted) } :=
    ⟨hitems, rfl, fun _ => rfl, fun _ => rfl, fun _ => rfl⟩
  have harranged := h.same hsame
  refine ⟨harranged.room, harranged.quest, harranged.ffa, fun guid l hl => ?_⟩
  rw [OMap.find?_insert] at hl
  split at hl
  next =>
    cases hl
    have hlisted := @entries_positions lists isConditional loot.items fun it hlists => by
      simp only [lists, listsConditionalItem, Bool.and_eq_true] at hlists
      simp only [isConditional, Bool.and_eq_true]
      exact ⟨hlists.1.1.2, hlists.2⟩
    exact ⟨hlisted.1, listed_same (fun _ => rfl) hitems rfl hlisted.2⟩
  next => exact harranged.conditional guid l hl

theorem Arranged.fillNotNormalLootFor (h : loot.Arranged) (presentAtLooting : Bool) (canStore : Nat → Bool) :
    (loot.fillNotNormalLootFor templates player presentAtLooting canStore).Arranged := by
  have hlists : (loot.fillLists templates player).Arranged := by
    unfold fillLists
    extract_lets quested ffad
    have hquested : quested.Arranged := by
      unfold quested
      split
      next => exact h.fillQuestLoot
      next => exact h
    have hffad : ffad.Arranged := by
      unfold ffad
      split
      next => exact hquested.fillFFALoot
      next => exact hquested
    split
    next => exact hffad.fillConditional
    next => exact hffad
  unfold Loot.fillNotNormalLootFor
  extract_lets filled
  split
  next =>
    unfold autoStore
    generalize List.range (filled.getMaxSlotInLootFor player.guid) = slots
    have harranged : filled.Arranged := hlists
    generalize filled = loot at harranged
    induction slots generalizing loot with
    | nil => exact harranged
    | cons i slots ih =>
      rw [List.foldl_cons]
      refine ih _ ?_
      split
      next => exact harranged.same (sameItems_storeLootItem loot player i (canStore i))
      next => exact harranged
  next => exact hlists

theorem Arranged.fillLoot (h : loot.Arranged) (personal : Bool) (drops : List Drop) (canStore : Nat → Nat → Bool) :
    (loot.fillLoot templates owner members personal drops canStore).Arranged := by
  unfold Loot.fillLoot
  extract_lets dropped filled
  have hdropped : dropped.Arranged := by
    unfold dropped
    induction drops generalizing loot with
    | nil => exact h
    | cons drop drops ih => exact ih h.addItem
  have hfilled : filled.Arranged := by
    unfold filled
    generalize dropped = loot at hdropped
    induction filledFor owner members personal generalizing loot with
    | nil => exact hdropped
    | cons p ps ih => exact ih _ (hdropped.fillNotNormalLootFor p.2 (canStore p.1.guid))
  split
  next group _ =>
    split
    next => exact hfilled
    next =>
    refine hfilled.same ⟨?_, rfl, fun _ => rfl, fun _ => rfl, fun _ => rfl⟩
    unfold markUnderthreshold
    rw [List.map_map]
    refine List.map_congr_left fun it _ => ?_
    dsimp only [Function.comp]
    split <;> rfl
  next => exact hfilled

/-- The loots that there are: what a container has stored, which is no more than was in the loot, what is filled, once or again,
and what is made of it. -/
inductive Filled (templates : Nat → Option ItemTemplate) : Loot → Prop
  | empty (gold : Nat) : Filled templates (empty gold)
  | stored (env : Env) (s : Storage) (loot : Loot)
      (hroom : ∀ container, s.stored = some container → container.lootItems.length ≤ MAX_NR_LOOT_ITEMS)
      (h : s.loadStoredLoot env (.empty 0) = some loot) : Filled templates loot
  | fill (loot : Loot) (owner : Looter) (members : List Member) (personal : Bool) (drops : List Drop)
      (canStore : Nat → Nat → Bool) (h : Filled templates loot) :
      Filled templates (loot.fillLoot templates owner members personal drops canStore)
  | handle (loot : Loot) (event : Event) (h : Filled templates loot) : Filled templates (loot.handle templates event)

theorem Filled.arranged (h : Filled templates loot) : loot.Arranged := by
  induction h with
  | empty gold => exact arranged_empty gold
  | stored env s loot hroom h =>
    obtain ⟨container, hcontainer, rfl⟩ := Option.map_eq_some_iff.1 h
    have hempty := arranged_empty container.money
    extract_lets filled
    split
    next => exact hempty
    next =>
    refine hempty.grow ?_ List.nil_prefix List.nil_prefix _
    rw [List.length_append, List.length_map]
    exact (Nat.zero_add _).trans_le (hroom container hcontainer)
  | fill loot owner members personal drops canStore _ ih => exact ih.fillLoot personal drops canStore
  | handle loot event _ ih => exact ih.same (sameItems_handle loot event)

end Loot

open Loot

/-- Every view of a loot, whatever is marked in it, shows what can be taken. -/
theorem view_agrees {templates : Nat → Option ItemTemplate} {loot : Loot} {lv : LootView} (h : Filled templates loot)
    (hsame : SameItems loot lv.loot) (displayInfoID : Nat → Nat) : lv.Agrees templates displayInfoID :=
  LootView.agrees_of_arranged displayInfoID (h.arranged.same hsame)

/-- The chest of a group, after the second player has taken the ordinary item and a roll for the conditional one has begun. -/
def chestView : LootView :=
  { loot := ((chest chestDrops 50).handle chestTemplates (.store (chestLooter 2) 0 true)).handle chestTemplates
      (.roll 2 true none)
    viewer := chestLooter 1
    permission := .group
    roundRobinPlayer := some 2 }

theorem view_agrees_chest : chestView.Agrees chestTemplates fun itemid => itemid :=
  have hchest : Filled chestTemplates (chest chestDrops 50) := .fill _ _ _ _ _ _ (.empty 50)
  have htaken := Filled.handle _ (.store (chestLooter 2) 0 true) hchest
  view_agrees (htaken.handle _ (.roll 2 true none)) (.refl chestView.loot) fun itemid => itemid

example : (chestView.records chestTemplates).map (fun r => (r.slot, r.slotType)) =
    [(3, .allowLoot), (1, .allowLoot), (2, .rollOngoing)] := by decide

end AtlasWow.Loots
