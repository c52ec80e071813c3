/-
Items that are put up for auction are neither lost nor doubled: a sale moves
units from an inventory to an auction, and the end of an auction moves its item
into a mail or deletes it.

What an item weighs is left open (`weigh`): with the units of an entry for a
weight nothing is lost, and with one for a guid nothing is there twice.
-/
import AtlasWow.AuctionHouse.AuctionPending

namespace AtlasWow.AuctionHouse.World

variable {r : Rules} {env : Env} {w w' v : World}

/-! ## Weights -/

/-- The units of an entry. -/
def units (entry : Nat) (_ : Nat) (item : Item) : Nat := if item.entry = entry then item.count else 0

/-- The items with a guid. -/
def copies (guid : Nat) (k : Nat) (_ : Item) : Nat := if k = guid then 1 else 0

def listWeight (f : Nat → Item → Nat) (l : List (Nat × Item)) : Nat := (l.map fun x => f x.1 x.2).sum

theorem listWeight_append (f : Nat → Item → Nat) (l : List (Nat × Item)) (guid : Nat) (item : Item) :
    listWeight f (l ++ [(guid, item)]) = listWeight f l + f guid item := by simp [listWeight]

/-- What all items weigh: in inventories, auctions and mails, and those that were discarded. -/
def weigh (f : Nat → Item → Nat) (w : World) : Nat :=
  w.inventories.total (fun _ items => items.total f) + w.mAitems.total f + listWeight f w.mailedItems +
    listWeight f w.ledger.discarded

/-- What a player has of an entry, in his inventory and in his auctions. -/
def unitsOf (player entry : Nat) (w : World) : Nat :=
  ((w.inventories.find? player).map (·.total (units entry))).getD 0 +
    w.auctions.total fun _ a => if a.owner = player ∧ a.itemEntry = entry then a.itemCount else 0

/-- What is taken from the stacks of an inventory is no longer there. -/
theorem total_takeStacks (entry : Nat) : ∀ (listed : List Stack) (items : OMap Nat Item),
    (listed.map (·.guid)).Nodup → (∀ s ∈ listed, items.find? s.guid = some s.item ∧ s.count ≤ s.item.count) →
    (takeStacks listed items).total (units entry) +
      (listed.map fun s => if s.item.entry = entry then s.count else 0).sum = items.total (units entry)
  | [], items, _, _ => by simp [takeStacks]
  | s :: rest, items, hnodup, hfound => by
    obtain ⟨hs, hcount⟩ := hfound s List.mem_cons_self
    obtain ⟨hnotMem, hnodup⟩ := List.nodup_cons.1 hnodup
    have hne : ∀ t ∈ rest, t.guid ≠ s.guid := fun t ht heq => hnotMem (List.mem_map.2 ⟨t, ht, heq⟩)
    have htotal := OMap.total_erase hs (units entry)
    rw [takeStacks, hs, List.map_cons, List.sum_cons]
    dsimp only
    split
    next hall =>
      have ih := total_takeStacks entry rest (items.erase s.guid) hnodup fun t ht => by
        rw [OMap.find?_erase_of_ne (hne t ht)]
        exact hfound t (List.mem_cons_of_mem _ ht)
      rw [htotal, ← ih, units, hall]
      omega
    next =>
    have ih := total_takeStacks entry rest (items.insert s.guid { s.item with count := s.item.count - s.count }) hnodup
      fun t ht => by
        rw [OMap.find?_insert_of_ne (hne t ht)]
        exact hfound t (List.mem_cons_of_mem _ ht)
    rw [OMap.total_insert] at ih
    rw [htotal, ← Nat.add_assoc, Nat.add_right_comm, ih, units, units]
    dsimp only
    split <;> omega

/-- No guid comes in with the parts that stay. -/
theorem copies_takeStacks (guid : Nat) : ∀ (listed : List Stack) (items : OMap Nat Item),
    (takeStacks listed items).total (copies guid) ≤ items.total (copies guid)
  | [], items => Nat.le_refl _
  | s :: rest, items => by
    refine (copies_takeStacks guid rest _).trans ?_
    split
    next => exact Nat.le_refl _
    next item hitem =>
    have htotal := OMap.total_erase hitem (copies guid)
    split
    next => omega
    next =>
    rw [OMap.total_insert]
    exact Nat.le_of_eq htotal.symm

/-! ## Steps that leave the items where they are -/

/-- What an auction says of its item, and whose it is. -/
def stock (a : AuctionEntry) : Nat × Nat × Nat × Nat := (a.owner, a.itemGUIDLow, a.itemEntry, a.itemCount)

structure SameItems (w w' : World) : Prop where
  auctions : w'.auctions.mapValues (fun _ => stock) = w.auctions.mapValues fun _ => stock
  mAitems : w'.mAitems = w.mAitems
  auctionId : w'.auctionId = w.auctionId
  itemGuid : w'.itemGuid = w.itemGuid
  mailed : w'.mailedItems = w.mailedItems
  discarded : w'.ledger.discarded = w.ledger.discarded
  inventories : w'.inventories = w.inventories

theorem SameItems.of_onlyMoney (h : OnlyMoney w w') : SameItems w w' :=
  ⟨by rw [h.auctions], h.mAitems, h.auctionId, h.itemGuid, h.mailed, h.discarded, h.inventories⟩

theorem SameItems.trans {w'' : World} (h : SameItems w w') (h' : SameItems w' w'') : SameItems w w'' where
  auctions := h'.auctions.trans h.auctions
  mAitems := h'.mAitems.trans h.mAitems
  auctionId := h'.auctionId.trans h.auctionId
  itemGuid := h'.itemGuid.trans h.itemGuid
  mailed := h'.mailed.trans h.mailed
  discarded := h'.discarded.trans h.discarded
  inventories := h'.inventories.trans h.inventories

theorem SameItems.of_rewritten {ids : List Nat} (h : Rewritten ids w w') : SameItems w w' := by
  refine ⟨OMap.ext fun id => ?_, by rw [h.eq], by rw [h.eq], by rw [h.eq], by rw [h.eq]; rfl, by rw [h.eq], by rw [h.eq]; rfl⟩
  rw [OMap.find?_mapValues, OMap.find?_mapValues]
  have hstock : ∀ x : Option AuctionEntry, x.map stock = (x.map AuctionEntry.goods).map stock := fun x => by
    rw [Option.map_map]
    rfl
  rw [hstock, h.goods, ← hstock]

variable {id guid itemGuid : Nat} {a : AuctionEntry} {item : Item} {p : Player} {items : OMap Nat Item}

theorem SameItems.of_bid {bidder price : Nat} {table : OMap Nat AuctionEntry}
    (hlive : w.auctions.find? id = some a) (hw : OnlyMoney w v)
    (heq : w' = { v with auctions := v.auctions.insert id { a with bidder := bidder, bid := price }, table := table }) :
    SameItems w w' := by
  subst heq
  refine (SameItems.of_onlyMoney hw).trans ⟨?_, rfl, rfl, rfl, rfl, rfl, rfl⟩
  show (v.auctions.insert id { a with bidder := bidder, bid := price }).mapValues (fun _ => stock) = _
  rw [OMap.mapValues_insert]
  exact OMap.insert_find? (by rw [OMap.find?_mapValues, hw.auctions, hlive]; rfl)

theorem sameItems_updatePending (r : Rules) (env : Env) (player : Nat) (w : World) : SameItems w (w.updatePendingAuctions r env player) := by
  rcases updatePending_cases r env player w with heq | hqueue
  · rw [heq]
    exact .of_onlyMoney (.refl w)
  obtain ⟨ids, n, -, heq | hprocess⟩ := hqueue
  · rw [heq]
    exact ⟨rfl, rfl, rfl, rfl, rfl, rfl, rfl⟩
  · obtain ⟨v, hv, hmoney⟩ := hprocess
    have hw : SameItems w (w.touch ids) := ⟨rfl, rfl, rfl, rfl, rfl, rfl, rfl⟩
    have hv' : SameItems v { v with pendingAuctionMap := v.pendingAuctionMap.erase player } :=
      ⟨rfl, rfl, rfl, rfl, rfl, rfl, rfl⟩
    exact ((hw.trans (.of_rewritten hv)).trans hv').trans (.of_onlyMoney hmoney)

/-- An auction is still there, or another stands under its id that says the same of its item. -/
theorem SameItems.live (h : SameItems w w') (hlive : w'.auctions.find? id = some a) :
    ∃ b, w.auctions.find? id = some b ∧ stock b = stock a := by
  have hfind : (w'.auctions.mapValues fun _ => stock).find? id = (w.auctions.mapValues fun _ => stock).find? id := by
    rw [h.auctions]
  rw [OMap.find?_mapValues, OMap.find?_mapValues, hlive, Option.map_some, eq_comm, Option.map_eq_some_iff] at hfind
  exact hfind

theorem SameItems.symm (h : SameItems w w') : SameItems w' w :=
  ⟨h.auctions.symm, h.mAitems.symm, h.auctionId.symm, h.itemGuid.symm, h.mailed.symm, h.discarded.symm, h.inventories.symm⟩

theorem SameItems.weigh_eq (h : SameItems w w') (f : Nat → Item → Nat) : w'.weigh f = w.weigh f := by
  rw [weigh, weigh, h.inventories, h.mAitems, h.mailed, h.discarded]

/-! ## The invariant -/

/-- The auctions and their items: each has its own. -/
structure Stored (w : World) : Prop where
  registered : ∀ id a, w.auctions.find? id = some a → id < w.auctionId ∧
    ∃ item, w.mAitems.find? a.itemGUIDLow = some item ∧ item.entry = a.itemEntry ∧ item.count = a.itemCount
  one : ∀ id id' a a', w.auctions.find? id = some a → w.auctions.find? id' = some a' → a.itemGUIDLow = a'.itemGUIDLow → id = id'
  auctioned : ∀ guid item, w.mAitems.find? guid = some item → ∃ id a, w.auctions.find? id = some a ∧ a.itemGUIDLow = guid
  unique : ∀ guid, w.weigh (copies guid) ≤ if guid < w.itemGuid then 1 else 0

namespace Stored

theorem sameItems (h : w.Stored) (hw : SameItems w w') : w'.Stored where
  registered id a hlive := by
    obtain ⟨b, hb, heq⟩ := hw.live hlive
    obtain ⟨hlt, item, hitem, hentry, hcount⟩ := h.registered id b hb
    simp only [stock, Prod.mk.injEq] at heq
    obtain ⟨-, hguid, hentry', hcount'⟩ := heq
    rw [hw.auctionId, hw.mAitems]
    exact ⟨hlt, item, hguid ▸ hitem, hentry.trans hentry', hcount.trans hcount'⟩
  one id id' a a' ha ha' heq := by
    obtain ⟨b, hb, hstock⟩ := hw.live ha
    obtain ⟨b', hb', hstock'⟩ := hw.live ha'
    simp only [stock, Prod.mk.injEq] at hstock hstock'
    exact h.one id id' b b' hb hb' (hstock.2.1.trans (heq.trans hstock'.2.1.symm))
  auctioned guid item hitem := by
    obtain ⟨id, a, ha, hguid⟩ := h.auctioned guid item (hw.mAitems ▸ hitem)
    obtain ⟨b, hb, hstock⟩ := hw.symm.live ha
    simp only [stock, Prod.mk.injEq] at hstock
    exact ⟨id, b, hb, hstock.2.1.trans hguid⟩
  unique guid := by
    rw [hw.weigh_eq, hw.itemGuid]
    exact h.unique guid

end Stored

/-- The item of an auction that ends leaves the map for a mail, or for good. -/
theorem Ended.weigh_eq (h : Ended id guid w w') (hitem : w.mAitems.find? guid = some item)
    (f : Nat → Item → Nat) : w'.weigh f = w.weigh f := by
  have htotal := OMap.total_erase hitem f
  rw [weigh, weigh, h.inventories, h.mAitems]
  rcases h.item item hitem with hmail | hdiscard
  · rw [hmail.1, hmail.2, listWeight_append]
    omega
  · rw [hdiscard.1, hdiscard.2, listWeight_append]
    omega

namespace Stored

theorem ended (h : w.Stored) {id : Nat} {a : AuctionEntry} (hlive : w.auctions.find? id = some a)
    (hw : Ended id a.itemGUIDLow w w') : w'.Stored := by
  obtain ⟨-, item, hitem, -⟩ := h.registered id a hlive
  have hback : ∀ {id' a'}, w'.auctions.find? id' = some a' → w.auctions.find? id' = some a' ∧ a'.itemGUIDLow ≠ a.itemGUIDLow := by
    intro id' a' ha'
    rw [hw.auctions, OMap.find?_erase] at ha'
    split at ha'
    next => cases ha'
    next hne => exact ⟨ha', fun heq => hne (h.one id' id a' a ha' hlive heq)⟩
  refine ⟨fun id' a' ha' => ?_, fun id₁ id₂ a₁ a₂ h₁ h₂ => h.one id₁ id₂ a₁ a₂ (hback h₁).1 (hback h₂).1,
    fun guid it hit => ?_, fun guid => ?_⟩
  · obtain ⟨hlive', hne⟩ := hback ha'
    rw [hw.auctionId, hw.mAitems, OMap.find?_erase_of_ne hne]
    exact h.registered id' a' hlive'
  · rw [hw.mAitems, OMap.find?_erase] at hit
    split at hit
    next => cases hit
    next hne =>
    obtain ⟨id', a', ha', hguid⟩ := h.auctioned guid it hit
    refine ⟨id', a', ?_, hguid⟩
    rw [hw.auctions, OMap.find?_erase_of_ne, ha']
    intro heq
    subst heq
    obtain rfl : a = a' := Option.some.inj (hlive.symm.trans ha')
    exact hne hguid.symm
  · rw [hw.weigh_eq hitem, hw.itemGuid]
    exact h.unique guid

end Stored

/-! ## Taking an item from a mail -/

theorem listWeight_set {m m' : AuctionMail} {guid : Nat} {item : Item} (f : Nat → Item → Nat)
    (hm : m.item = some (guid, item)) (hm' : m'.item = none) : ∀ {l : List AuctionMail} {i : Nat}, l[i]? = some m →
    listWeight f ((l.set i m').filterMap AuctionMail.item) + f guid item = listWeight f (l.filterMap AuctionMail.item)
  | [], _, h => by cases h
  | b :: l, 0, h => by
    cases h
    rw [List.set_cons_zero, List.filterMap_cons_none hm', List.filterMap_cons_some hm]
    simp [listWeight, Nat.add_comm]
  | b :: l, i + 1, h => by
    have ih := listWeight_set f hm hm' (l := l) (i := i) h
    rw [List.set_cons_succ]
    cases hb : b.item with
    | none => rw [List.filterMap_cons_none hb, List.filterMap_cons_none hb, ih]
    | some x =>
      rw [List.filterMap_cons_some hb, List.filterMap_cons_some hb]
      simp only [listWeight, List.map_cons, List.sum_cons] at ih ⊢
      omega

theorem find?_inventories (player : Nat) (w : World) : w.inventories.find? player = (w.players.find? player).map (·.items) :=
  OMap.find?_mapValues _ _ _

/-- The weight of one inventory, and the others. -/
theorem total_inventories {player : Nat} (h : w.players.find? player = some p) (f : Nat → Item → Nat) :
    w.inventories.total (fun _ items => items.total f) =
      p.items.total f + (w.inventories.erase player).total fun _ items => items.total f :=
  OMap.total_erase (by rw [find?_inventories, h]; rfl) _

theorem weigh_takeItem {player mail : Nat} {m : AuctionMail}
    (hm : w.mails[mail]? = some m) (hp : w.players.find? player = some p) (hitem : m.item = some (guid, item))
    (hnone : p.items.find? guid = none) (f : Nat → Item → Nat) : weigh f { w with
      mails := w.mails.set mail { m with item := none }
      players := w.players.insert player { p with items := p.items.insert guid item } } = w.weigh f := by
  have hmails := listWeight_set f hitem (rfl : AuctionMail.item { m with item := none } = none) hm
  have hold := total_inventories hp f
  have hnew : ((w.players.insert player { p with items := p.items.insert guid item }).mapValues fun _ p => p.items).total
      (fun _ items => items.total f) =
      (p.items.insert guid item).total f + (w.inventories.erase player).total fun _ items => items.total f := by
    rw [OMap.mapValues_insert, OMap.total_insert]
    rfl
  have hitems := OMap.total_insert_new hnone item f
  show ((w.players.insert player { p with items := p.items.insert guid item }).mapValues fun _ p => p.items).total
      (fun _ items => items.total f) + w.mAitems.total f +
      listWeight f ((w.mails.set mail { m with item := none }).filterMap AuctionMail.item) +
      listWeight f w.ledger.discarded = _
  rw [weigh, hnew, hold, hitems, mailedItems, ← hmails]
  omega

theorem Stored.takeItem (h : w.Stored) (player mail : Nat) : (w.handleMailTakeItem player mail).Stored ∧
    ∀ f, (w.handleMailTakeItem player mail).weigh f = w.weigh f := by
  unfold handleMailTakeItem
  split
  next m p hm hp =>
    have hm : w.mails[mail]? = some m := (Option.filter_eq_some_iff.1 hm).1
    split
    next => exact ⟨h, fun _ => rfl⟩
    next guid item hitem =>
    have hnone : p.items.find? guid = none := by
      cases hfound : p.items.find? guid with
      | none => rfl
      | some other =>
        -- the same guid in the inventory and in the mail
        have hcopies := h.unique guid
        have hmails := listWeight_set (copies guid) hitem (rfl : AuctionMail.item { m with item := none } = none) hm
        have hitems := OMap.total_erase hfound (copies guid)
        have hone : ∀ it : Item, copies guid guid it = 1 := fun _ => if_pos rfl
        rw [weigh, total_inventories hp, hitems, mailedItems, ← hmails, hone, hone] at hcopies
        split at hcopies <;> omega
    have hweigh := weigh_takeItem hm hp hitem hnone
    exact ⟨⟨h.registered, h.one, h.auctioned, fun g => by rw [hweigh]; exact h.unique g⟩, hweigh⟩
  next => exact ⟨h, fun _ => rfl⟩

/-! ## Sales -/

/-- The item comes in, and what it was made of goes. -/
theorem weigh_withAuction (item : Item) (items : OMap Nat Item) (n : Nat)
    (hp : w.players.find? a.owner = some p) (hnone : w.mAitems.find? a.itemGUIDLow = none) (f : Nat → Item → Nat) :
    (w.withAuction a item items p n).weigh f + p.items.total f = w.weigh f + f a.itemGUIDLow item + items.total f := by
  have hnew : (w.withAuction a item items p n).inventories.total (fun _ items => items.total f) =
      items.total f + (w.inventories.erase a.owner).total fun _ items => items.total f := by
    show ((w.players.insert a.owner { p with items := items }).mapValues fun _ p => p.items).total _ = _
    rw [OMap.mapValues_insert, OMap.total_insert]
    rfl
  have hitems : (w.withAuction a item items p n).mAitems.total f = f a.itemGUIDLow item + w.mAitems.total f :=
    OMap.total_insert_new hnone item f
  have hmails : (w.withAuction a item items p n).mailedItems = w.mailedItems := rfl
  have hdiscarded : (w.withAuction a item items p n).ledger.discarded = w.ledger.discarded := rfl
  rw [weigh, weigh, hnew, hitems, hmails, hdiscarded, total_inventories hp]
  omega

theorem Goods.guid_lt {seller : Nat} (h : w.Stored)
    (hp : w.players.find? seller = some p) (hg : Goods w p guid item items itemGuid) :
    guid < itemGuid ∧ w.mAitems.find? guid = none := by
  cases hg with
  | whole hitem hnone =>
    refine ⟨?_, hnone⟩
    have hcopies := h.unique guid
    have hone : copies guid guid item = 1 := if_pos rfl
    rw [weigh, total_inventories hp, OMap.total_erase hitem, hone] at hcopies
    by_contra hlt
    rw [if_neg hlt] at hcopies
    omega
  | parts =>
    refine ⟨Nat.lt_succ_self _, ?_⟩
    cases hfound : w.mAitems.find? w.itemGuid with
    | none => rfl
    | some other =>
      have hcopies := h.unique w.itemGuid
      have hone : copies w.itemGuid w.itemGuid other = 1 := if_pos rfl
      rw [weigh, OMap.total_erase hfound, hone, if_neg (lt_irrefl _)] at hcopies
      omega

theorem unitsOf_withAuction (n : Nat) {entry : Nat}
    (hp : w.players.find? a.owner = some p) (hfresh : w.auctions.find? w.auctionId = none) (hnew : NewAuction a.owner item a)
    (hunits : p.items.total (units entry) = units entry a.itemGUIDLow item + items.total (units entry)) (player : Nat) :
    (w.withAuction a item items p n).unitsOf player entry = w.unitsOf player entry := by
  have hinventories : (w.withAuction a item items p n).inventories = w.inventories.insert a.owner items :=
    OMap.mapValues_insert ..
  have hauctions := OMap.total_insert_new hfresh a fun _ a => if a.owner = player ∧ a.itemEntry = entry then a.itemCount else 0
  have hauctions' : (w.withAuction a item items p n).auctions = w.auctions.insert w.auctionId a := rfl
  rw [unitsOf, unitsOf, hinventories, hauctions', hauctions, OMap.find?_insert]
  by_cases hplayer : player = a.owner
  · rw [if_pos hplayer, hplayer, find?_inventories, hp, Option.map_some, Option.map_some, Option.getD_some, Option.map_some,
      Option.getD_some, hunits, units, hnew.entry, hnew.count]
    simp only [true_and]
    omega
  · rw [if_neg hplayer, if_neg fun h => hplayer h.1.symm]
    omega

/-- The units of a player's inventory that are put up for auction are those of the new item. -/
theorem Goods.units_eq (hg : Goods w p guid item items itemGuid) (entry : Nat) :
    p.items.total (units entry) = units entry guid item + items.total (units entry) := by
  cases hg with
  | whole hitem => exact OMap.total_erase hitem _
  | @parts listed _ hnodup hfound hcount =>
    have htotal := total_takeStacks entry listed p.items hnodup fun s hs => ⟨(hfound s hs).1, (hfound s hs).2.1⟩
    have hsum : (listed.map fun s => if s.item.entry = entry then s.count else 0).sum = units entry w.itemGuid item := by
      unfold units
      by_cases he : item.entry = entry
      · rw [if_pos he, ← hcount]
        exact congrArg List.sum (List.map_congr_left fun s hs => if_pos ((hfound s hs).2.2.trans he))
      rw [if_neg he, List.sum_eq_zero]
      intro x hx
      obtain ⟨s, hs, rfl⟩ := List.mem_map.1 hx
      exact if_neg fun heq => he ((hfound s hs).2.2.symm.trans heq)
    omega

theorem Goods.copies_le (hg : Goods w p guid item items itemGuid) (k : Nat) :
    w.itemGuid ≤ itemGuid ∧ items.total (copies k) + copies k guid item ≤
      p.items.total (copies k) + if k < w.itemGuid then 0 else if k < itemGuid then 1 else 0 := by
  cases hg with
  | whole hitem =>
    have htotal := OMap.total_erase hitem (copies k)
    refine ⟨Nat.le_refl _, ?_⟩
    split <;> omega
  | @parts listed =>
    have hle := copies_takeStacks k listed p.items
    have hone : copies k w.itemGuid item ≤ if k < w.itemGuid then 0 else if k < w.itemGuid + 1 then 1 else 0 := by
      unfold copies
      split
      next heq => rw [if_neg (by omega), if_pos (by omega)]
      next => exact Nat.zero_le _
    exact ⟨Nat.le_succ _, Nat.add_le_add hle hone⟩

namespace Stored

theorem nextId (h : w.Stored) {auctionId : Nat} {ledger : Ledger} (hid : w.auctionId ≤ auctionId)
    (hguid : w.itemGuid ≤ itemGuid) (hledger : ledger.discarded = w.ledger.discarded) :
    Stored { w with itemGuid := itemGuid, auctionId := auctionId, ledger := ledger } where
  registered id a hlive := ⟨Nat.lt_of_lt_of_le (h.registered id a hlive).1 hid, (h.registered id a hlive).2⟩
  one := h.one
  auctioned := h.auctioned
  unique guid := by
    have hweigh : weigh (copies guid) { w with itemGuid := itemGuid, auctionId := auctionId, ledger := ledger } =
      w.weigh (copies guid) := by
        show _ + listWeight _ ledger.discarded = _
        rw [hledger]
        rfl
    have := h.unique guid
    rw [hweigh]
    show _ ≤ if guid < itemGuid then 1 else 0
    split at this <;> split <;> omega

theorem created (h : w.Stored) {n : Nat}
    (hp : w.players.find? a.owner = some p) (hnew : NewAuction a.owner item a) (hg : Goods w p a.itemGUIDLow item items itemGuid) :
    Stored (withAuction a item items p n { w with itemGuid := itemGuid }) := by
  obtain ⟨hlt, hnone⟩ := hg.guid_lt h hp
  have hcase : ∀ {id b}, (w.auctions.insert w.auctionId a).find? id = some b →
      (id = w.auctionId ∧ b = a) ∨ (w.auctions.find? id = some b ∧ b.itemGUIDLow ≠ a.itemGUIDLow) := by
    intro id b hb
    rw [OMap.find?_insert] at hb
    split at hb
    next heq => exact .inl ⟨heq, (Option.some.inj hb).symm⟩
    next =>
    refine .inr ⟨hb, fun heq => ?_⟩
    obtain ⟨-, it, hit, -⟩ := h.registered id b hb
    rw [heq, hnone] at hit
    cases hit
  refine ⟨fun id b hb => ?_, fun id id' b b' hb hb' heq => ?_, fun guid it hit => ?_, fun guid => ?_⟩
  · show id < w.auctionId + 1 ∧ ∃ it, (w.mAitems.insert a.itemGUIDLow item).find? b.itemGUIDLow = some it ∧ _
    rcases hcase hb with hb | hb
    · obtain ⟨rfl, rfl⟩ := hb
      exact ⟨Nat.lt_succ_self _, item, OMap.find?_insert_self .., hnew.entry.symm, hnew.count.symm⟩
    obtain ⟨hb, hne⟩ := hb
    rw [OMap.find?_insert_of_ne hne]
    exact ⟨Nat.lt_succ_of_lt (h.registered id b hb).1, (h.registered id b hb).2⟩
  · rcases hcase hb with hb | hb <;> rcases hcase hb' with hb' | hb'
    · exact hb.1.trans hb'.1.symm
    · exact absurd (heq.symm.trans (congrArg _ hb.2)) hb'.2
    · exact absurd (heq.trans (congrArg _ hb'.2)) hb.2
    · exact h.one id id' b b' hb.1 hb'.1 heq
  · have hit : (w.mAitems.insert a.itemGUIDLow item).find? guid = some it := hit
    show ∃ id b, (w.auctions.insert w.auctionId a).find? id = some b ∧ b.itemGUIDLow = guid
    rw [OMap.find?_insert] at hit
    split at hit
    next heq => exact ⟨w.auctionId, a, OMap.find?_insert_self .., heq.symm⟩
    next =>
    obtain ⟨id, b, hb, hguid⟩ := h.auctioned guid it hit
    refine ⟨id, b, ?_, hguid⟩
    rw [OMap.find?_insert_of_ne (Nat.ne_of_lt (h.registered id b hb).1), hb]
  · have hweigh := weigh_withAuction (w := { w with itemGuid := itemGuid }) item items n hp hnone (copies guid)
    have hcopies := (hg.copies_le guid).2
    have hle := (hg.copies_le guid).1
    have hold := h.unique guid
    have hsame : weigh (copies guid) { w with itemGuid := itemGuid } = w.weigh (copies guid) := rfl
    rw [hsame] at hweigh
    show _ ≤ if guid < itemGuid then 1 else 0
    by_cases hguid : guid < itemGuid
    · rw [if_pos hguid] at hcopies ⊢
      split at hold <;> split at hcopies <;> omega
    · rw [if_neg hguid] at hcopies ⊢
      split at hold <;> split at hcopies <;> omega

/-- A sale, refused or not, leaves every item what it weighs in units. -/
theorem sell (h : w.Stored) {seller : Nat} {req : SellRequest} (hs : w.handleAuctionSellItem r env seller req = some w') :
    w'.Stored ∧ (∀ entry, w'.weigh (units entry) = w.weigh (units entry)) ∧
      ∀ player entry, w'.unitsOf player entry = w.unitsOf player entry := by
  rcases sell_cases hs with rfl | hsale
  · exact ⟨h, fun _ => rfl, fun _ _ => rfl⟩
  obtain ⟨p, a, item, items, itemGuid, hp, hnew, hg, hcreate⟩ := hsale
  have howner := hnew.owner
  subst howner
  rcases createAuction_cases (w := { w with itemGuid := itemGuid }) (p := p) hp hcreate with heq | hcreated
  · subst heq
    exact ⟨h.nextId (Nat.le_succ _) (hg.copies_le 0).1 rfl, fun _ => rfl, fun _ _ => rfl⟩
  obtain ⟨hnone, n, rfl⟩ := hcreated
  refine ⟨h.created hp hnew hg, fun entry => ?_, fun player entry => ?_⟩
  · have hweigh := weigh_withAuction (w := { w with itemGuid := itemGuid }) item items n hp hnone (units entry)
    have hunits := hg.units_eq entry
    have hsame : weigh (units entry) { w with itemGuid := itemGuid } = w.weigh (units entry) := rfl
    rw [hsame] at hweigh
    exact Nat.add_right_cancel (hweigh.trans (by omega))
  · have hfresh : w.auctions.find? w.auctionId = none := by
      cases hfound : w.auctions.find? w.auctionId with
      | none => rfl
      | some b => exact absurd (h.registered _ b hfound).1 (lt_irrefl _)
    exact unitsOf_withAuction (w := { w with itemGuid := itemGuid }) n hp hfresh hnew (hg.units_eq entry) player

theorem outcome (h : w.Stored) {event : Event} (hs : Outcome event w w') :
    w'.Stored ∧ ∀ f, w'.weigh f = w.weigh f := by
  cases hs with
  | money hw => exact ⟨h.sameItems (.of_onlyMoney hw), (SameItems.of_onlyMoney hw).weigh_eq⟩
  | bid id a bidder price v hlive hw heq =>
    have hsame := SameItems.of_bid hlive hw heq
    exact ⟨h.sameItems hsame, hsame.weigh_eq⟩
  | ended id a hlive _ hw =>
    obtain ⟨-, item, hitem, -⟩ := h.registered id a hlive
    exact ⟨h.ended hlive hw, hw.weigh_eq hitem⟩

theorem step (h : w.Stored) {event : Event} (hs : World.step r event w = some w') :
    w'.Stored ∧ ∀ entry, w'.weigh (units entry) = w.weigh (units entry) := by
  cases event with
  | sell env seller req => exact ⟨(h.sell hs).1, (h.sell hs).2.1⟩
  | placeBid env player house id price =>
    cases hs
    exact (h.outcome (outcome_placeBid ..)).imp_right fun hweigh _ => hweigh _
  | removeItem env player house id =>
    cases hs
    exact (h.outcome (outcome_removeItem ..)).imp_right fun hweigh _ => hweigh _
  | update env id =>
    cases hs
    exact (h.outcome (outcome_update ..)).imp_right fun hweigh _ => hweigh _
  | updatePending env player =>
    cases hs
    have hsame := sameItems_updatePending r env player w
    exact ⟨h.sameItems hsame, fun _ => hsame.weigh_eq _⟩
  | takeMoney player mail =>
    cases hs
    have hsame := SameItems.of_onlyMoney (onlyMoney_mailTakeMoney player mail w)
    exact ⟨h.sameItems hsame, fun _ => hsame.weigh_eq _⟩
  | takeItem player mail =>
    cases hs
    exact (h.takeItem player mail).imp_right fun hweigh _ => hweigh _

end Stored

theorem SameItems.stays (h : SameItems w w') (hlive : w.auctions.find? id = some a) : w'.auctions.find? id ≠ none := by
  obtain ⟨b, hb, -⟩ := h.symm.live hlive
  rw [hb]
  exact Option.some_ne_none b

/-- An auction that is no longer there has ended. -/
theorem ended_of_gone {event : Event} (hs : step r event w = some w')
    (hlive : w.auctions.find? id = some a) (hgone : w'.auctions.find? id = none) : Ended id a.itemGUIDLow w w' := by
  have houtcome : Outcome event w w' → Ended id a.itemGUIDLow w w' := by
    intro ho
    cases ho with
    | money hw => exact absurd hgone ((SameItems.of_onlyMoney hw).stays hlive)
    | bid i b bidder price v hlive' hw heq =>
      exact absurd hgone ((SameItems.of_bid hlive' hw heq).stays hlive)
    | ended i b hlive' _ hw =>
      rw [hw.auctions, OMap.find?_erase] at hgone
      split at hgone
      next heq =>
        subst heq
        obtain rfl : a = b := Option.some.inj (hlive.symm.trans hlive')
        exact hw
      next =>
      rw [hlive] at hgone
      cases hgone
  cases event with
  | sell env seller req =>
    exfalso
    rcases sell_cases hs with rfl | hsale
    · rw [hlive] at hgone
      cases hgone
    obtain ⟨p, b, item, items, itemGuid, hp, hnew, -, hcreate⟩ := hsale
    rcases createAuction_cases (p := p) (by rw [hnew.owner]; exact hp) hcreate with heq | hcreated
    · have hsame : w'.auctions = w.auctions := by rw [heq]; rfl
      rw [hsame, hlive] at hgone
      cases hgone
    obtain ⟨-, n, heq⟩ := hcreated
    have hmore : w'.auctions = w.auctions.insert w.auctionId b := by rw [heq]; rfl
    rw [hmore, OMap.find?_insert] at hgone
    split at hgone
    · cases hgone
    · rw [hlive] at hgone
      cases hgone
  | placeBid env player house i price =>
    cases hs
    exact houtcome (outcome_placeBid ..)
  | removeItem env player house i =>
    cases hs
    exact houtcome (outcome_removeItem ..)
  | update env i =>
    cases hs
    exact houtcome (outcome_update ..)
  | updatePending env player =>
    cases hs
    exact absurd hgone ((sameItems_updatePending r env player w).stays hlive)
  | takeMoney player mail =>
    cases hs
    exact absurd hgone ((SameItems.of_onlyMoney (onlyMoney_mailTakeMoney player mail w)).stays hlive)
  | takeItem player mail =>
    cases hs
    have hsame : (w.handleMailTakeItem player mail).auctions = w.auctions := by
      unfold handleMailTakeItem
      split
      next => split <;> rfl
      next => rfl
    rw [hsame, hlive] at hgone
    cases hgone

/-- Every guid is in one inventory at most, and has been drawn. -/
def UniqueGuids (players : OMap Nat Player) (itemGuid : Nat) : Prop :=
  ∀ guid, (start players itemGuid).weigh (copies guid) ≤ if guid < itemGuid then 1 else 0

theorem stored_start {players : OMap Nat Player} (h : UniqueGuids players itemGuid) :
    (start players itemGuid).Stored where
  registered id a hlive := by cases hlive
  one id id' a a' hlive := by cases hlive
  auctioned guid item hitem := by cases hitem
  unique := h

/-- In every state reached: an item is registered if and only if one auction refers to it; no sale, carried out or refused,
changes what any player has of an entry in his inventory and his auctions; an auction that ends sends its item into one mail or
deletes it with its record; and nothing was lost or doubled. -/
theorem reaches_items {players : OMap Nat Player} {itemGuid : Nat} (hstart : UniqueGuids players itemGuid)
    (hr : Reaches (step r) (fun _ _ => True) (start players itemGuid) w) :
    (∀ guid, (∃ item, w.mAitems.find? guid = some item) ↔
      ∃! id, ∃ a, w.auctions.find? id = some a ∧ a.itemGUIDLow = guid) ∧
    (∀ env seller req w', step r (.sell env seller req) w = some w' →
      ∀ player entry, w'.unitsOf player entry = w.unitsOf player entry) ∧
    (∀ event w', step r event w = some w' → ∀ id a, w.auctions.find? id = some a → w'.auctions.find? id = none →
      ∃ item, w.mAitems.find? a.itemGUIDLow = some item ∧ w'.mAitems.find? a.itemGUIDLow = none ∧
        ((w'.mailedItems = w.mailedItems ++ [(a.itemGUIDLow, item)] ∧ w'.ledger.discarded = w.ledger.discarded) ∨
        (w'.mailedItems = w.mailedItems ∧ w'.ledger.discarded = w.ledger.discarded ++ [(a.itemGUIDLow, item)]))) ∧
    (∀ entry, w.weigh (units entry) = (start players itemGuid).weigh (units entry)) ∧
    ∀ guid, w.weigh (copies guid) ≤ 1 := by
  have h : w.Stored ∧ ∀ entry, w.weigh (units entry) = (start players itemGuid).weigh (units entry) :=
    hr.invariant (fun w => w.Stored ∧ ∀ entry, w.weigh (units entry) = (start players itemGuid).weigh (units entry))
      (fun _ _ _ ha _ hs => ⟨(ha.1.step hs).1, fun entry => ((ha.1.step hs).2 entry).trans (ha.2 entry)⟩)
      ⟨stored_start hstart, fun _ => rfl⟩
  obtain ⟨h, hunits⟩ := h
  refine ⟨fun guid => ⟨fun hitem => ?_, fun hlive => ?_⟩, fun env seller req w' hs => (h.sell hs).2.2,
    fun event w' hs id a hlive hgone => ?_, hunits, fun guid => (h.unique guid).trans (by split <;> omega)⟩
  · obtain ⟨item, hitem⟩ := hitem
    obtain ⟨id, a, hlive, hguid⟩ := h.auctioned guid item hitem
    refine ⟨id, ⟨a, hlive, hguid⟩, fun id' hlive' => ?_⟩
    obtain ⟨a', hlive', hguid'⟩ := hlive'
    exact h.one id' id a' a hlive' hlive (hguid'.trans hguid.symm)
  · obtain ⟨id, hlive, -⟩ := hlive
    obtain ⟨a, hlive, hguid⟩ := hlive
    obtain ⟨-, item, hitem, -⟩ := h.registered id a hlive
    exact ⟨item, hguid ▸ hitem⟩
  · have hended := ended_of_gone hs hlive hgone
    obtain ⟨-, item, hitem, -⟩ := h.registered id a hlive
    refine ⟨item, hitem, ?_, hended.item item hitem⟩
    rw [hended.mAitems]
    exact OMap.find?_erase_self _ _

theorem uniqueGuids_somePlayers : UniqueGuids somePlayers 20 := by
  intro guid
  have hweigh : (start somePlayers 20).weigh (copies guid) = if 10 = guid then 1 else 0 := rfl
  rw [hweigh]
  split <;> split <;> omega

/-- Three of a stack of five are sold and bought: two are left to the seller, the three are in a mail. -/
theorem reaches_items_sale : ∃ w, Reaches (step plainRules) (fun _ _ => True) (start somePlayers 20) w ∧
    w.mailedItems = [(20, ⟨7, 3, by decide⟩)] ∧ w.unitsOf 1 7 = 2 ∧ w.weigh (units 7) = 5 := by
  have hrun : (runSteps (step plainRules) [.sell (everybody 0) 1 (someRequest 3), .placeBid (everybody 0) 2 .neutral 1 2000]
      (start somePlayers 20)).any (fun w => w.mailedItems = [(20, ⟨7, 3, by decide⟩)] && w.unitsOf 1 7 = 2) = true := by
    decide +kernel
  obtain ⟨w, hw, hany⟩ := (Option.any_eq_true _ _).1 hrun
  obtain ⟨hmailed, hunits⟩ := Bool.and_eq_true_iff.1 hany
  have hr : Reaches (step plainRules) (fun _ _ => True) (start somePlayers 20) w := .of_runSteps hw
  exact ⟨w, hr, of_decide_eq_true hmailed, of_decide_eq_true hunits, (reaches_items uniqueGuids_somePlayers hr).2.2.2.1 7⟩

end AtlasWow.AuctionHouse.World
