/-
What one step does to the auctions, the queues and the items: payments and
mails without items leave all of them alone (`OnlyMoney`), and an auction that
ends takes its item with it, into a mail or out of the world (`Ended`).
-/
import AtlasWow.AuctionHouse.AuctionHouse

namespace AtlasWow.AuctionHouse.World

variable {r : Rules} {env : Env} {w w' w'' : World}

/-- The items in the mails. -/
def mailedItems (w : World) : List (Nat × Item) := w.mails.filterMap AuctionMail.item

def inventories (w : World) : OMap Nat (OMap Nat Item) := w.players.mapValues fun _ p => p.items

/-- Nothing has changed but purses, mails without items, and the ledger of the money. -/
structure OnlyMoney (w w' : World) : Prop where
  auctions : w'.auctions = w.auctions
  mAitems : w'.mAitems = w.mAitems
  pending : w'.pendingAuctionMap = w.pendingAuctionMap
  table : w'.table = w.table
  auctionId : w'.auctionId = w.auctionId
  itemGuid : w'.itemGuid = w.itemGuid
  touched : w'.ledger.touched = w.ledger.touched
  discarded : w'.ledger.discarded = w.ledger.discarded
  mailed : w'.mailedItems = w.mailedItems
  inventories : w'.inventories = w.inventories

theorem OnlyMoney.refl (w : World) : OnlyMoney w w := ⟨rfl, rfl, rfl, rfl, rfl, rfl, rfl, rfl, rfl, rfl⟩

theorem OnlyMoney.trans (h : OnlyMoney w w') (h' : OnlyMoney w' w'') : OnlyMoney w w'' where
  auctions := h'.auctions.trans h.auctions
  mAitems := h'.mAitems.trans h.mAitems
  pending := h'.pending.trans h.pending
  table := h'.table.trans h.table
  auctionId := h'.auctionId.trans h.auctionId
  itemGuid := h'.itemGuid.trans h.itemGuid
  touched := h'.touched.trans h.touched
  discarded := h'.discarded.trans h.discarded
  mailed := h'.mailed.trans h.mailed
  inventories := h'.inventories.trans h.inventories

variable {p : Player} {id player guid : Nat} {auction : AuctionEntry} {item : Item} {mail : AuctionMail}
  {f : AuctionEntry → AuctionEntry} {items : OMap Nat Item}

/-- A player's record with other money. -/
theorem mapValues_items {players : OMap Nat Player} (h : players.find? player = some p)
    (money : Nat) : (players.insert player { p with money := money }).mapValues (fun _ p => p.items) =
      players.mapValues fun _ p => p.items := by
  refine OMap.ext fun k => ?_
  rw [OMap.find?_mapValues, OMap.find?_mapValues, OMap.find?_insert]
  split
  next hk => rw [hk, h, Option.map_some, Option.map_some]
  next => rfl

theorem onlyMoney_modify (player : Nat) (amount : Int) (w : World) : OnlyMoney w (w.modifyPlayerMoney player amount) := by
  unfold modifyPlayerMoney
  split
  next => exact .refl w
  next p hp =>
  split
  next => exact .refl w
  next money _ => exact ⟨rfl, rfl, rfl, rfl, rfl, rfl, rfl, rfl, rfl, mapValues_items hp money⟩

theorem onlyMoney_mail (h : mail.item = none) (w : World) : OnlyMoney w (w.sendMail mail) := by
  refine ⟨rfl, rfl, rfl, rfl, rfl, rfl, rfl, rfl, ?_, rfl⟩
  show (w.mails ++ [mail]).filterMap AuctionMail.item = w.mails.filterMap AuctionMail.item
  rw [List.filterMap_append, List.filterMap_cons_none h, List.filterMap_nil, List.append_nil]

theorem onlyMoney_ite {c : Prop} [Decidable c] {v : World} (h : c → OnlyMoney w v) : OnlyMoney w (if c then v else w) := by
  split
  next hc => exact h hc
  next => exact .refl w

theorem onlyMoney_payBid (player price : Nat) (w : World) : OnlyMoney w (w.payBid player price) :=
  (onlyMoney_modify player _ w).trans ⟨rfl, rfl, rfl, rfl, rfl, rfl, rfl, rfl, rfl, rfl⟩

theorem onlyMoney_payFee (player fee : Nat) (w : World) : OnlyMoney w (w.payFee player fee) :=
  (onlyMoney_modify player _ w).trans ⟨rfl, rfl, rfl, rfl, rfl, rfl, rfl, rfl, rfl, rfl⟩

theorem onlyMoney_noteSale (auction : AuctionEntry) (w : World) : OnlyMoney w (w.noteSale r auction) :=
  ⟨rfl, rfl, rfl, rfl, rfl, rfl, rfl, rfl, rfl, rfl⟩

theorem onlyMoney_noteForfeit (id : Nat) (w : World) : OnlyMoney w (w.noteForfeit id) :=
  ⟨rfl, rfl, rfl, rfl, rfl, rfl, rfl, rfl, rfl, rfl⟩

theorem onlyMoney_salePending (id : Nat) (auction : AuctionEntry) (w : World) :
    OnlyMoney w (w.sendAuctionSalePendingMail r env id auction) := onlyMoney_ite fun _ => onlyMoney_mail rfl w

theorem onlyMoney_successful (id : Nat) (auction : AuctionEntry) (w : World) :
    OnlyMoney w (w.sendAuctionSuccessfulMail r env id auction) := onlyMoney_ite fun _ => onlyMoney_mail rfl w

theorem onlyMoney_outbidded (id : Nat) (auction : AuctionEntry) (w : World) :
    OnlyMoney w (w.sendAuctionOutbiddedMail r env id auction) := onlyMoney_ite fun _ => onlyMoney_mail rfl w

theorem onlyMoney_cancelled (id : Nat) (auction : AuctionEntry) (w : World) :
    OnlyMoney w (w.sendAuctionCancelledToBidderMail env id auction) := onlyMoney_ite fun _ => onlyMoney_mail rfl w

/-! ## Auctions that end -/

/-- An auction has ended: it, its row and its item are no longer there, and the item is in one mail, or discarded. -/
structure Ended (id guid : Nat) (w w' : World) : Prop where
  auctions : w'.auctions = w.auctions.erase id
  mAitems : w'.mAitems = w.mAitems.erase guid
  pending : w'.pendingAuctionMap = w.pendingAuctionMap
  table : w'.table = w.table.erase id
  auctionId : w'.auctionId = w.auctionId
  itemGuid : w'.itemGuid = w.itemGuid
  touched : w'.ledger.touched = w.ledger.touched
  inventories : w'.inventories = w.inventories
  item : ∀ item, w.mAitems.find? guid = some item →
    (w'.mailedItems = w.mailedItems ++ [(guid, item)] ∧ w'.ledger.discarded = w.ledger.discarded) ∨
    (w'.mailedItems = w.mailedItems ∧ w'.ledger.discarded = w.ledger.discarded ++ [(guid, item)])

theorem Ended.of_onlyMoney (h : OnlyMoney w w') (h' : Ended id guid w' w'') : Ended id guid w w'' where
  auctions := h'.auctions.trans (by rw [h.auctions])
  mAitems := h'.mAitems.trans (by rw [h.mAitems])
  pending := h'.pending.trans h.pending
  table := h'.table.trans (by rw [h.table])
  auctionId := h'.auctionId.trans h.auctionId
  itemGuid := h'.itemGuid.trans h.itemGuid
  touched := h'.touched.trans h.touched
  inventories := h'.inventories.trans h.inventories
  item := fun item hitem => by
    have := h'.item item (h.mAitems ▸ hitem)
    rwa [h.mailed, h.discarded] at this

theorem Ended.then_onlyMoney (h : Ended id guid w w') (h' : OnlyMoney w' w'') : Ended id guid w w'' where
  auctions := h'.auctions.trans h.auctions
  mAitems := h'.mAitems.trans h.mAitems
  pending := h'.pending.trans h.pending
  table := h'.table.trans h.table
  auctionId := h'.auctionId.trans h.auctionId
  itemGuid := h'.itemGuid.trans h.itemGuid
  touched := h'.touched.trans h.touched
  inventories := h'.inventories.trans h.inventories
  item := fun item hitem => by rw [h'.mailed, h'.discarded]; exact h.item item hitem

theorem removeAItem_eq {guid : Nat} {item : Item} (h : w.mAitems.find? guid = some item) :
    w.removeAItem guid false = { w with mAitems := w.mAitems.erase guid } := by
  unfold removeAItem
  rw [h]
  rfl

/-- The item is mailed, and then taken out of the map. -/
theorem ended_mailed
    (hitem : w.mAitems.find? auction.itemGUIDLow = some item) (hmail : mail.item = some (auction.itemGUIDLow, item)) :
    Ended id auction.itemGUIDLow w ((w.sendMail mail).removeAuction id auction) := by
  have heq : (w.sendMail mail).removeAuction id auction = { w.sendMail mail with
      table := w.table.erase id, mAitems := w.mAitems.erase auction.itemGUIDLow, auctions := w.auctions.erase id } := by
    unfold removeAuction
    rw [@removeAItem_eq _ _ item (by exact hitem)]
    rfl
  rw [heq]
  refine ⟨rfl, rfl, rfl, rfl, rfl, rfl, rfl, rfl, fun item' hitem' => .inl ⟨?_, rfl⟩⟩
  obtain rfl : item = item' := Option.some.inj (hitem.symm.trans hitem')
  show (w.mails ++ [mail]).filterMap AuctionMail.item = _
  rw [List.filterMap_append, List.filterMap_cons_some hmail, List.filterMap_nil]
  rfl

/-- The item is deleted with its record. -/
theorem ended_discarded (hitem : w.mAitems.find? auction.itemGUIDLow = some item) :
    Ended id auction.itemGUIDLow w ((w.removeAItem auction.itemGUIDLow true).removeAuction id auction) := by
  have hremove : w.removeAItem auction.itemGUIDLow true = { w with
      mAitems := w.mAitems.erase auction.itemGUIDLow
      ledger := { w.ledger with discarded := w.ledger.discarded ++ [(auction.itemGUIDLow, item)] } } := by
    unfold removeAItem
    rw [hitem]
    rfl
  have heq : (w.removeAItem auction.itemGUIDLow true).removeAuction id auction = { w with
      mAitems := w.mAitems.erase auction.itemGUIDLow
      table := w.table.erase id
      auctions := w.auctions.erase id
      ledger := { w.ledger with discarded := w.ledger.discarded ++ [(auction.itemGUIDLow, item)] } } := by
    rw [hremove, removeAuction, removeAItem]
    rw [show ({ w with mAitems := w.mAitems.erase auction.itemGUIDLow, table := w.table.erase id, ledger := { w.ledger with
      discarded := w.ledger.discarded ++ [(auction.itemGUIDLow, item)] } } : World).mAitems.find? auction.itemGUIDLow = none from
      OMap.find?_erase_self _ _]
  rw [heq]
  refine ⟨rfl, rfl, rfl, rfl, rfl, rfl, rfl, rfl, fun item' hitem' => .inr ⟨rfl, ?_⟩⟩
  obtain rfl : item = item' := Option.some.inj (hitem.symm.trans hitem')
  rfl

/-- There is no item to send. -/
theorem ended_missing (hitem : w.mAitems.find? auction.itemGUIDLow = none) :
    Ended id auction.itemGUIDLow w (w.removeAuction id auction) := by
  have heq : w.removeAuction id auction = { w with table := w.table.erase id, auctions := w.auctions.erase id } := by
    unfold removeAuction removeAItem
    simp only [hitem]
  rw [heq]
  refine ⟨rfl, (OMap.erase_of_none hitem).symm, rfl, rfl, rfl, rfl, rfl, rfl, fun item hitem' => ?_⟩
  rw [hitem] at hitem'
  cases hitem'

theorem ended_won (id : Nat) (auction : AuctionEntry) (w : World) :
    Ended id auction.itemGUIDLow w ((w.sendAuctionWonMail env id auction).removeAuction id auction) := by
  unfold sendAuctionWonMail
  cases hitem : w.mAitems.find? auction.itemGUIDLow with
  | none => exact ended_missing hitem
  | some item =>
    dsimp only
    split
    next => exact ended_mailed hitem rfl
    next => exact ended_discarded hitem

theorem ended_expired (id : Nat) (auction : AuctionEntry) (w : World) :
    Ended id auction.itemGUIDLow w ((w.sendAuctionExpiredMail env id auction).removeAuction id auction) := by
  unfold sendAuctionExpiredMail
  cases hitem : w.mAitems.find? auction.itemGUIDLow with
  | none => exact ended_missing hitem
  | some item =>
    dsimp only
    split
    next => exact ended_mailed hitem rfl
    next => exact ended_discarded hitem

theorem ended_buyOut (player id : Nat) (auction : AuctionEntry) (w : World) :
    Ended id auction.itemGUIDLow w (w.buyOut r env player id auction) := by
  unfold buyOut
  extract_lets v₀ v sold v₁ v₂ v₃
  have hv : OnlyMoney w v := by
    unfold v
    split
    next => exact onlyMoney_payBid ..
    next => exact (onlyMoney_payBid ..).trans (onlyMoney_ite fun _ => onlyMoney_outbidded id auction v₀)
  have hmails : OnlyMoney v v₂ := (onlyMoney_salePending id sold v).trans (onlyMoney_successful id sold v₁)
  have hended : Ended id auction.itemGUIDLow v₂ (v₃.removeAuction id sold) := ended_won id sold v₂
  exact (hended.of_onlyMoney (hv.trans hmails)).then_onlyMoney (onlyMoney_noteSale sold _)

/-- Whether an event ends an auction, if nothing else refuses it. -/
def Event.ends (event : Event) (id : Nat) (auction : AuctionEntry) : Bool :=
  match event with
  | .placeBid _ _ house i price => i.toNat = id && auction.house = house && !auction.isBid price.toNat
  | .removeItem _ player house i => i = id && auction.house = house && auction.owner = player
  | .update env i => i = id && auction.expire_time ≤ env.now + 60
  | _ => false

/-- What the bids, the requests to cancel and the rounds of the periodic job do. -/
inductive Outcome (event : Event) (w w' : World) : Prop
  | money (h : OnlyMoney w w')
  | bid (id : Nat) (auction : AuctionEntry) (bidder price : Nat) (v : World) (hlive : w.auctions.find? id = some auction)
      (h : OnlyMoney w v) (heq : w' = { v with
        auctions := v.auctions.insert id { auction with bidder := bidder, bid := price }
        table := (v.table.find? id).elim v.table fun row => v.table.insert id { row with bidder := bidder, bid := price } })
  | ended (id : Nat) (auction : AuctionEntry) (hlive : w.auctions.find? id = some auction)
      (hends : event.ends id auction = true) (h : Ended id auction.itemGUIDLow w w')

theorem getAuction_some {house : House} (h : w.getAuction house id = some auction) :
    w.auctions.find? id = some auction ∧ auction.house = house := by
  obtain ⟨hlive, hhouse⟩ := Option.filter_eq_some_iff.1 h
  exact ⟨hlive, of_decide_eq_true hhouse⟩

theorem outcome_placeBid (env : Env) (player : Nat) (house : House) (id price : UInt32) (w : World) :
    Outcome (.placeBid env player house id price) w (w.handleAuctionPlaceBid r env player house id price) := by
  unfold handleAuctionPlaceBid
  extract_lets i p
  split
  next => exact .money (.refl w)
  split
  next => exact .money (.refl w)
  next auction hauction =>
  obtain ⟨hlive, hhouse⟩ := getAuction_some hauction
  split
  next => exact .money (.refl w)
  split
  next => exact .money (.refl w)
  split
  next => exact .money (.refl w)
  split
  next => exact .money (.refl w)
  split
  next hbid =>
    refine .bid i auction player p _ hlive ?_ rfl
    split
    next =>
      split
      next => exact onlyMoney_payBid ..
      next => exact (onlyMoney_outbidded i auction w).trans (onlyMoney_payBid ..)
    next => exact onlyMoney_payBid ..
  next hbuyout =>
  refine .ended i auction hlive ?_ ?_
  · rw [Bool.not_eq_true] at hbuyout
    simp [Event.ends, hhouse, i, p, hbuyout]
  · exact ended_buyOut player i auction w

theorem outcome_removeItem (env : Env) (player : Nat) (house : House) (id : Nat) (w : World) :
    Outcome (.removeItem env player house id) w (w.handleAuctionRemoveItem r env player house id) := by
  unfold handleAuctionRemoveItem
  split
  next => exact .money (.refl w)
  next auction hauction =>
  obtain ⟨hauction, howner⟩ := Option.filter_eq_some_iff.1 hauction
  obtain ⟨hlive, hhouse⟩ := getAuction_some hauction
  split
  next => exact .money (.refl w)
  next item hitem =>
  extract_lets cut v v'
  split
  next => exact .money (.refl w)
  next =>
  refine .ended id auction hlive ?_ ?_
  · simp [Event.ends, hhouse, of_decide_eq_true howner]
  · have hv : OnlyMoney w v :=
      onlyMoney_ite fun _ => (onlyMoney_cancelled id auction w).trans (onlyMoney_payFee player cut _)
    have hended : Ended id auction.itemGUIDLow v (v'.removeAuction id auction) := ended_mailed (hv.mAitems ▸ hitem) rfl
    exact (hended.of_onlyMoney hv).then_onlyMoney (onlyMoney_noteForfeit id _)

theorem outcome_update (env : Env) (id : Nat) (w : World) :
    Outcome (.update env id) w (w.updateAuction r env id) := by
  unfold updateAuction
  split
  next => exact .money (.refl w)
  next auction hlive =>
  split
  next => exact .money (.refl w)
  next hdue =>
  have hends : Event.ends (.update env id) id auction = true := by simp [Event.ends]; omega
  split
  next => exact .ended id auction hlive hends ((ended_expired id auction w).then_onlyMoney (onlyMoney_noteForfeit id _))
  next =>
  refine .ended id auction hlive hends ?_
  exact ((ended_won id auction _).of_onlyMoney (onlyMoney_successful id auction w)).then_onlyMoney
    (onlyMoney_noteSale auction _)

theorem onlyMoney_takeMoney {mail : Nat} {m : AuctionMail} (hm : w.mails[mail]? = some m)
    (hp : w.players.find? player = some p) (amount : Int) : OnlyMoney w (w.takeMoney player mail m p amount) := by
  unfold takeMoney
  split
  next => exact .refl w
  next money _ => exact ⟨rfl, rfl, rfl, rfl, rfl, rfl, rfl, rfl, List.filterMap_set hm rfl, mapValues_items hp money⟩

theorem onlyMoney_mailTakeMoney (player mail : Nat) (w : World) : OnlyMoney w (w.handleMailTakeMoney player mail) := by
  unfold handleMailTakeMoney
  split
  next m p hm hp => exact onlyMoney_takeMoney (Option.filter_eq_some_iff.1 hm).1 hp _
  next => exact .refl w

/-! ## Writing entries -/

/-- The deposits or the times of some entries have been written, to their rows too, and nothing else. -/
structure Rewritten (ids : List Nat) (w w' : World) : Prop where
  eq : w' = { w with auctions := w'.auctions, table := w'.table }
  goods : ∀ id, (w'.auctions.find? id).map AuctionEntry.goods = (w.auctions.find? id).map AuctionEntry.goods
  rows : ∀ id, id ∈ w'.table.keys ↔ id ∈ w.table.keys ∨ id ∈ ids

theorem Rewritten.nil (w : World) : Rewritten [] w w := ⟨rfl, fun _ => rfl, fun id => by simp⟩

/-- What a write leaves as it was. -/
theorem map_writeEntry {β : Type} (g : AuctionEntry → β) (hf : ∀ a, g (f a) = g a)
    (id id' : Nat) (w : World) : ((w.writeEntry env id f).auctions.find? id').map g = (w.auctions.find? id').map g := by
  unfold writeEntry readEntry
  cases hlive : w.auctions.find? id with
  | none => rfl
  | some a =>
    show ((w.auctions.insert id (f a)).find? id').map g = _
    rw [OMap.find?_insert]
    split
    next hid => rw [hid, hlive, Option.map_some, Option.map_some, hf]
    next => rfl

theorem rewritten_writeEntry (hf : ∀ a, (f a).goods = a.goods) (id : Nat) (w : World) :
    Rewritten [id] w (w.writeEntry env id f) := by
  refine ⟨rfl, fun id' => map_writeEntry _ hf id id' w, fun id' => ?_⟩
  · show id' ∈ (w.table.insert id _).keys ↔ _
    rw [OMap.mem_keys_insert, List.mem_singleton, or_comm]

theorem Rewritten.cons {ids : List Nat} (h : Rewritten [id] w w') (h' : Rewritten ids w' w'') :
    Rewritten (id :: ids) w w'' := by
  refine ⟨?_, fun i => (h'.goods i).trans (h.goods i), fun i => ?_⟩
  · rw [h'.eq, h.eq]
  · rw [h'.rows, h.rows, List.mem_singleton, List.mem_cons, or_assoc]

/-- Entries written one after the other, each in its own way. -/
theorem rewritten_foldl (env : Env) {α : Type} {f : α → AuctionEntry → AuctionEntry} (hf : ∀ x a, (f x a).goods = a.goods)
    (id : α → Nat) : ∀ (l : List α) (w : World), Rewritten (l.map id) w (l.foldl (fun w x => w.writeEntry env (id x) (f x)) w)
  | [], w => .nil w
  | x :: l, w => (rewritten_writeEntry (hf x) (id x) w).cons (rewritten_foldl env hf id l _)

theorem map_depositShares (share : Nat) : ∀ (depositremain : Nat) (ids : List Nat),
    (depositShares share depositremain ids).map Prod.fst = ids
  | _, [] => rfl
  | _, [_] => rfl
  | depositremain, id :: id' :: ids => congrArg (id :: ·) (map_depositShares share (depositremain - share) (id' :: ids))

/-! ## Selling -/

theorem findStacks_some {l : List (Nat × UInt32)} {itemEntry : Nat} {listed : List Stack}
    (h : w.findStacks r env items itemEntry l = some listed) :
    (∀ s ∈ listed, items.find? s.guid = some s.item ∧ s.count ≤ s.item.count ∧ w.mAitems.find? s.guid = none) ∧
    ∃ entry, (itemEntry ≠ 0 → entry = itemEntry) ∧ ∀ s ∈ listed, s.item.entry = entry := by
  induction l generalizing itemEntry listed with
  | nil =>
    cases h
    exact ⟨by simp, itemEntry, fun _ => rfl, by simp⟩
  | cons x l ih =>
    obtain ⟨guid, count⟩ := x
    unfold findStacks at h
    split at h
    next => cases h
    next item hitem =>
    extract_lets itemEntry' at h
    split at h
    next => cases h
    next hchecks =>
    obtain ⟨rest, hrest, rfl⟩ := Option.map_eq_some_iff.1 h
    simp only [Bool.or_eq_true, decide_eq_true_eq, not_or, Bool.not_eq_true, Option.isSome_eq_false_iff,
      Option.isNone_iff_eq_none, not_not, Nat.not_lt] at hchecks
    obtain ⟨⟨⟨⟨⟨⟨hnone, -⟩, -⟩, -⟩, -⟩, hcount⟩, hentry⟩ := hchecks
    obtain ⟨hfound, entry, heq, hall⟩ := ih hrest
    refine ⟨?_, item.entry, fun hne => ?_, ?_⟩
    · intro s hs
      rcases List.mem_cons.1 hs with rfl | hs
      · exact ⟨hitem, hcount, hnone⟩
      · exact hfound s hs
    · exact hentry.symm.trans (if_neg hne)
    · intro s hs
      rcases List.mem_cons.1 hs with rfl | hs
      · rfl
      · rw [hall s hs, heq (hentry ▸ item.hentry), hentry]

/-- What is put up for sale: a whole stack, or a new item made of parts of the inventory. -/
inductive Goods (w : World) (p : Player) : (guid : Nat) → Item → OMap Nat Item → (itemGuid : Nat) → Prop
  | whole {guid : Nat} {item : Item} (hitem : p.items.find? guid = some item) (hnone : w.mAitems.find? guid = none) :
    Goods w p guid item (p.items.erase guid) w.itemGuid
  | parts {listed : List Stack} {item : Item} (hnodup : (listed.map (·.guid)).Nodup)
      (hfound : ∀ s ∈ listed, p.items.find? s.guid = some s.item ∧ s.count ≤ s.item.count ∧ s.item.entry = item.entry)
      (hcount : (listed.map (·.count)).sum = item.count) :
    Goods w p w.itemGuid item (takeStacks listed p.items) (w.itemGuid + 1)

/-- A new auction of an item. -/
structure NewAuction (seller : Nat) (item : Item) (a : AuctionEntry) : Prop where
  owner : a.owner = seller
  entry : a.itemEntry = item.entry
  count : a.itemCount = item.count
  bid : a.bid = 0
  bidder : a.bidder = 0
  buyout : a.buyout < 2 ^ 31

theorem sell_cases {seller : Nat} {req : SellRequest} (h : w.handleAuctionSellItem r env seller req = some w') :
    w' = w ∨ ∃ p a item items itemGuid, w.players.find? seller = some p ∧ NewAuction seller item a ∧
      Goods w p a.itemGUIDLow item items itemGuid ∧
      { w with itemGuid := itemGuid }.createAuction r env a item items = some w' := by
  unfold handleAuctionSellItem at h
  split at h
  next => exact .inl (Option.some.inj h).symm
  next p hp =>
  split at h
  next => exact .inl (Option.some.inj h).symm
  next listed hlisted =>
  split at hlisted
  next hformed =>
    obtain ⟨hfound, entry, -, hentry⟩ := findStacks_some hlisted
    extract_lets finalCount at h
    split at h
    next => exact .inl (Option.some.inj h).symm
    next first rest =>
    extract_lets etime deposit aEntry at h
    split at h
    next => exact .inl (Option.some.inj h).symm
    next hchecks =>
    simp only [not_or, not_not, not_exists, not_and, Nat.not_lt] at hchecks
    obtain ⟨hpos, hnodup, hmax, -⟩ := hchecks
    have hbuyout : req.buyout.toNat < 2 ^ 31 := by
      simp only [SellRequest.wellFormed, Bool.and_eq_true, decide_eq_true_eq] at hformed
      have hle : req.buyout.toNat ≤ MAX_MONEY_AMOUNT.toNat := hformed.1.2
      exact Nat.lt_of_le_of_lt hle (by decide)
    obtain ⟨hitem, -, hnone⟩ := hfound first List.mem_cons_self
    split at h
    next => exact .inr ⟨p, _, _, _, _, hp, ⟨rfl, rfl, rfl, rfl, rfl, hbuyout⟩, .whole hitem hnone, h⟩
    split at h
    next => cases h
    next =>
    refine .inr ⟨p, _, _, _, _, hp, ⟨rfl, rfl, rfl, rfl, rfl, hbuyout⟩, .parts hnodup (fun s hs => ?_) ?_, h⟩
    · obtain ⟨hs₁, hs₂, -⟩ := hfound s hs
      exact ⟨hs₁, hs₂, (hentry s hs).trans (hentry first List.mem_cons_self).symm⟩
    · exact (min_eq_left (hmax first List.mem_cons_self)).symm
  next => cases hlisted

/-- A sale that is refused for want of money, once an id has been drawn for it. -/
def refusedSale (seller : Nat) (w : World) : World :=
  { w with auctionId := w.auctionId + 1 }.touch (w.pendingAuctions seller)

/-- A world with one auction more, whose item was its seller's. -/
def withAuction (a : AuctionEntry) (item : Item) (items : OMap Nat Item) (p : Player) (n : Nat) (w : World) : World :=
  { w.refusedSale a.owner with
    pendingAuctionMap := w.pendingAuctionMap.insert a.owner (w.pendingAuctions a.owner ++ [w.auctionId], n)
    mAitems := w.mAitems.insert a.itemGUIDLow item
    auctions := w.auctions.insert w.auctionId a
    table := w.table.insert w.auctionId a
    players := w.players.insert a.owner { p with items := items } }

theorem createAuction_cases {a : AuctionEntry}
    (hp : w.players.find? a.owner = some p) (h : w.createAuction r env a item items = some w') :
    w' = w.refusedSale a.owner ∨ w.mAitems.find? a.itemGUIDLow = none ∧ ∃ n, w' = w.withAuction a item items p n := by
  unfold createAuction at h
  split at h
  next => cases h
  extract_lets id v at h
  split at h
  next => exact .inl (Option.some.inj h).symm
  next u hu =>
  have hqueue : ∃ n, u = { v with
      pendingAuctionMap := w.pendingAuctionMap.insert a.owner (w.pendingAuctions a.owner ++ [w.auctionId], n) } := by
    unfold pendingAuctionAdd at hu
    split at hu
    next hnone =>
      have hnone : w.pendingAuctionMap.find? a.owner = none := hnone
      refine ⟨0, ?_⟩
      rw [← Option.some.inj hu, pendingAuctions, hnone]
      rfl
    next ids n hsome =>
    have hsome : w.pendingAuctionMap.find? a.owner = some (ids, n) := hsome
    split at hu
    next =>
      refine ⟨n, ?_⟩
      rw [← Option.some.inj hu, pendingAuctions, hsome]
      rfl
    next => cases hu
  obtain ⟨n, rfl⟩ := hqueue
  split at h
  next => cases h
  next hnone =>
  rw [Option.not_isSome_iff_eq_none] at hnone
  refine .inr ⟨hnone, n, ?_⟩
  rw [← Option.some.inj h]
  have hv : v.players.find? a.owner = some p := hp
  simp only [hv]
  rfl

/-! ## The queues -/

/-- A round of the job: nothing, another look later, or the end of a queue. -/
theorem updatePending_cases (r : Rules) (env : Env) (player : Nat) (w : World) :
    w.updatePendingAuctions r env player = w ∨ ∃ ids n, w.pendingAuctionMap.find? player = some (ids, n) ∧
      (w.updatePendingAuctions r env player =
          { w with pendingAuctionMap := w.pendingAuctionMap.insert player (ids, ids.length) } ∨
        ∃ v, Rewritten ids (w.touch ids) v ∧
          OnlyMoney { v with pendingAuctionMap := v.pendingAuctionMap.erase player } (w.updatePendingAuctions r env player)) := by
  unfold updatePendingAuctions
  cases hqueue : w.pendingAuctionMap.find? player with
  | none => exact .inl rfl
  | some queue =>
    obtain ⟨ids, n⟩ := queue
    refine .inr ⟨ids, n, rfl, ?_⟩
    dsimp only
    split
    next =>
      split
      next =>
        refine .inr ?_
        unfold pendingAuctionProcess
        extract_lets totaldeposit shares money v u
        have hv : Rewritten (shares.map Prod.fst) (w.touch ids) v :=
          rewritten_foldl env (f := fun (s : Nat × Nat) a => { a with deposit := s.2 }) (fun _ _ => rfl) Prod.fst shares _
        rw [show shares.map Prod.fst = ids from map_depositShares _ _ _] at hv
        exact ⟨v, hv, (onlyMoney_modify player _ _).trans ⟨rfl, rfl, rfl, rfl, rfl, rfl, rfl, rfl, rfl, rfl⟩⟩
      next => exact .inl rfl
    next =>
    have hv := rewritten_foldl env (f := fun (_ : Nat) a => { a with expire_time := env.now }) (fun _ _ => rfl) id
      ids (w.touch ids)
    rw [List.map_id] at hv
    exact .inr ⟨_, hv, .refl _⟩

end AtlasWow.AuctionHouse.World
