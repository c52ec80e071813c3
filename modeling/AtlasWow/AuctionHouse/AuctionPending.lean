/-
The queues of pending auctions point to live auctions of their players, in
every run in which no auction ends while it is in a queue.
-/
import AtlasWow.AuctionHouse.AuctionSteps

namespace AtlasWow.AuctionHouse.World

variable {r : Rules} {env : Env} {w w' v : World}

def isPending (id : Nat) (w : World) : Bool := w.pendingAuctionMap.entries.any fun e => e.2.1.contains id

/-- No auction in a queue is bought out, cancelled or expires. -/
def quiet (event : Event) (w : World) : Bool := w.auctions.entries.all fun e => !event.ends e.1 e.2 || !w.isPending e.1

def Quiet (event : Event) (w : World) : Prop := quiet event w = true

instance (event : Event) (w : World) : Decidable (Quiet event w) := inferInstanceAs (Decidable (_ = true))

structure Listed (w : World) : Prop where
  fresh : ∀ id a, w.auctions.find? id = some a → id < w.auctionId
  nodup : ∀ player ids n, w.pendingAuctionMap.find? player = some (ids, n) → ids.Nodup
  live : ∀ player ids n, w.pendingAuctionMap.find? player = some (ids, n) →
    ∀ id ∈ ids, ∃ a, w.auctions.find? id = some a ∧ a.owner = player
  rows : ∀ id, id ∈ w.table.keys ↔ id ∈ w.auctions.keys
  touched : w.ledger.touched = []

variable {id : Nat} {ids : List Nat}

theorem isPending_of_mem {player n : Nat} (h : w.pendingAuctionMap.find? player = some (ids, n))
    (hid : id ∈ ids) : w.isPending id = true :=
  List.any_eq_true.2 ⟨(player, ids, n), OMap.mem_entries.2 h, List.contains_iff_mem.2 hid⟩

theorem Quiet.notMem {event : Event} (h : Quiet event w) {a : AuctionEntry} (hlive : w.auctions.find? id = some a)
    (hends : event.ends id a = true) {player n : Nat}
    (hqueue : w.pendingAuctionMap.find? player = some (ids, n)) : id ∉ ids := by
  intro hid
  have hentry := List.all_eq_true.1 h (id, a) (OMap.mem_entries.2 hlive)
  rw [hends, isPending_of_mem hqueue hid] at hentry
  cases hentry

theorem isPending_iff : w.isPending id = true ↔
    ∃ player ids n, w.pendingAuctionMap.find? player = some (ids, n) ∧ id ∈ ids := by
  constructor
  · intro h
    obtain ⟨e, he, hid⟩ := List.any_eq_true.1 h
    exact ⟨e.1, e.2.1, e.2.2, OMap.mem_entries.1 he, List.contains_iff_mem.1 hid⟩
  · intro h
    obtain ⟨player, ids, n, hqueue, hid⟩ := h
    exact isPending_of_mem hqueue hid

/-- Reading entries that are there leaves no trace. -/
theorem touch_live (h : ∀ id ∈ ids, ∃ a, w.auctions.find? id = some a) : w.touch ids = w := by
  have hnil : ids.filter (fun id => (w.auctions.find? id).isNone) = [] := by
    rw [List.filter_eq_nil_iff]
    intro id hid
    obtain ⟨a, ha⟩ := h id hid
    simp [ha]
  unfold touch
  rw [hnil, List.append_nil]

namespace Listed

theorem start (players : OMap Nat Player) (itemGuid : Nat) : Listed (World.start players itemGuid) where
  fresh id a h := by cases h
  nodup player ids n h := by cases h
  live player ids n h := by cases h
  rows id := Iff.rfl
  touched := rfl

section

variable (h : w.Listed)

include h

theorem onlyMoney (hw : OnlyMoney w w') : w'.Listed where
  fresh id a hlive := hw.auctionId ▸ h.fresh id a (hw.auctions ▸ hlive)
  nodup player ids n hqueue := h.nodup player ids n (hw.pending ▸ hqueue)
  live player ids n hqueue id hid := by
    rw [hw.auctions]
    exact h.live player ids n (hw.pending ▸ hqueue) id hid
  rows id := by
    rw [hw.table, hw.auctions]
    exact h.rows id
  touched := hw.touched.trans h.touched

theorem bid {id bidder price : Nat} {a : AuctionEntry} (hlive : w.auctions.find? id = some a) : Listed { w with
      auctions := w.auctions.insert id { a with bidder := bidder, bid := price }
      table := (w.table.find? id).elim w.table fun row => w.table.insert id { row with bidder := bidder, bid := price } } where
  fresh i a' hi := by
    have hi : (w.auctions.insert id { a with bidder := bidder, bid := price }).find? i = some a' := hi
    rw [OMap.find?_insert] at hi
    split at hi
    next heq => exact heq ▸ h.fresh id a hlive
    next => exact h.fresh i a' hi
  nodup := h.nodup
  live player ids n hqueue i hi := by
    obtain ⟨a', ha', howner⟩ := h.live player ids n hqueue i hi
    show ∃ b, (w.auctions.insert id { a with bidder := bidder, bid := price }).find? i = some b ∧ b.owner = player
    rw [OMap.find?_insert]
    split
    next heq =>
      subst heq
      obtain rfl : a = a' := Option.some.inj (hlive.symm.trans ha')
      exact ⟨_, rfl, howner⟩
    next => exact ⟨a', ha', howner⟩
  rows i := by
    have hid : id ∈ w.auctions.keys := OMap.mem_keys.2 ⟨a, hlive⟩
    obtain ⟨row, hrow⟩ := OMap.mem_keys.1 ((h.rows id).2 hid)
    show i ∈ ((w.table.find? id).elim w.table _).keys ↔ i ∈ (w.auctions.insert id _).keys
    rw [hrow, OMap.keys_insert hid, Option.elim_some, OMap.keys_insert (OMap.mem_keys.2 ⟨row, hrow⟩)]
    exact h.rows i
  touched := h.touched

theorem ended {event : Event} (hok : Quiet event w) {id guid : Nat} {a : AuctionEntry}
    (hlive : w.auctions.find? id = some a) (hends : event.ends id a = true) (hw : Ended id guid w w') : w'.Listed where
  fresh i a' hi := by
    rw [hw.auctions, OMap.find?_erase] at hi
    split at hi
    next => cases hi
    next => exact hw.auctionId ▸ h.fresh i a' hi
  nodup player ids n hqueue := h.nodup player ids n (hw.pending ▸ hqueue)
  live player ids n hqueue i hi := by
    rw [hw.pending] at hqueue
    have hne : i ≠ id := fun heq => hok.notMem hlive hends hqueue (heq ▸ hi)
    rw [hw.auctions, OMap.find?_erase_of_ne hne]
    exact h.live player ids n hqueue i hi
  rows i := by
    rw [hw.table, hw.auctions, OMap.erase, OMap.erase, OMap.mem_keys_filter, OMap.mem_keys_filter, h.rows]
  touched := hw.touched.trans h.touched

theorem live_pendingAuctions (player : Nat) :
    ∀ id ∈ w.pendingAuctions player, ∃ a, w.auctions.find? id = some a ∧ a.owner = player := by
  unfold pendingAuctions
  cases hqueue : w.pendingAuctionMap.find? player with
  | none => simp
  | some queue => exact h.live player queue.1 queue.2 hqueue

theorem nodup_pendingAuctions (player : Nat) : (w.pendingAuctions player).Nodup := by
  unfold pendingAuctions
  cases hqueue : w.pendingAuctionMap.find? player with
  | none => exact List.nodup_nil
  | some queue => exact h.nodup player queue.1 queue.2 hqueue

theorem refusedSale_eq (seller : Nat) : w.refusedSale seller = { w with auctionId := w.auctionId + 1 } :=
  touch_live fun id hid => (h.live_pendingAuctions seller id hid).imp fun _ ha => ha.1

theorem nextId {itemGuid auctionId : Nat} (hle : w.auctionId ≤ auctionId) :
    Listed { w with itemGuid := itemGuid, auctionId := auctionId } :=
  ⟨fun id a hlive => Nat.lt_of_lt_of_le (h.fresh id a hlive) hle, h.nodup, h.live, h.rows, h.touched⟩

/-- An auction more, at the end of its seller's queue. -/
theorem created {a : AuctionEntry} {n : Nat} {mAitems : OMap Nat Item} {players : OMap Nat Player} : Listed { w with
      auctionId := w.auctionId + 1
      pendingAuctionMap := w.pendingAuctionMap.insert a.owner (w.pendingAuctions a.owner ++ [w.auctionId], n)
      mAitems := mAitems
      auctions := w.auctions.insert w.auctionId a
      table := w.table.insert w.auctionId a
      players := players } := by
  have hfresh : ∀ id b, w.auctions.find? id = some b → id ≠ w.auctionId := fun id b hb => Nat.ne_of_lt (h.fresh id b hb)
  refine ⟨fun id b hb => ?_, fun player ids m hqueue => ?_, fun player ids m hqueue id hid => ?_, fun id => ?_, h.touched⟩
  · have hb : (w.auctions.insert w.auctionId a).find? id = some b := hb
    show id < w.auctionId + 1
    rw [OMap.find?_insert] at hb
    split at hb
    next heq => omega
    next => exact Nat.lt_succ_of_lt (h.fresh id b hb)
  · have hqueue : (w.pendingAuctionMap.insert a.owner (w.pendingAuctions a.owner ++ [w.auctionId], n)).find? player =
      some (ids, m) := hqueue
    rw [OMap.find?_insert] at hqueue
    split at hqueue
    next =>
      cases hqueue
      refine List.nodup_append.2 ⟨h.nodup_pendingAuctions a.owner, List.nodup_singleton _, fun x hx y hy => ?_⟩
      obtain ⟨b, hb, -⟩ := h.live_pendingAuctions a.owner x hx
      rw [List.mem_singleton.1 hy]
      exact hfresh x b hb
    next => exact h.nodup player ids m hqueue
  · have hqueue : (w.pendingAuctionMap.insert a.owner (w.pendingAuctions a.owner ++ [w.auctionId], n)).find? player =
      some (ids, m) := hqueue
    show ∃ b, (w.auctions.insert w.auctionId a).find? id = some b ∧ b.owner = player
    rw [OMap.find?_insert] at hqueue
    have hold : (∃ b, w.auctions.find? id = some b ∧ b.owner = player) →
        ∃ b, (w.auctions.insert w.auctionId a).find? id = some b ∧ b.owner = player := fun hb => by
      obtain ⟨b, hb, howner⟩ := hb
      exact ⟨b, by rw [OMap.find?_insert_of_ne (hfresh id b hb), hb], howner⟩
    split at hqueue
    next heq =>
      cases hqueue
      rcases List.mem_append.1 hid with hid | hid
      · exact hold (heq ▸ h.live_pendingAuctions a.owner id hid)
      · rw [List.mem_singleton.1 hid]
        exact ⟨a, OMap.find?_insert_self .., heq.symm⟩
    next => exact hold (h.live player ids m hqueue id hid)
  · show id ∈ (w.table.insert w.auctionId a).keys ↔ id ∈ (w.auctions.insert w.auctionId a).keys
    rw [OMap.mem_keys_insert, OMap.mem_keys_insert, h.rows]

theorem sell {seller : Nat} {req : SellRequest} (hs : w.handleAuctionSellItem r env seller req = some w') :
    w'.Listed := by
  rcases sell_cases hs with rfl | hsale
  · exact h
  obtain ⟨p, a, item, items, itemGuid, hp, hnew, -, hcreate⟩ := hsale
  have hv : Listed { w with itemGuid := itemGuid } := h.nextId (Nat.le_refl _)
  rcases createAuction_cases (p := p) (by rw [hnew.owner]; exact hp) hcreate with heq | hcreated
  · rw [heq, hv.refusedSale_eq]
    exact hv.nextId (Nat.le_succ _)
  obtain ⟨-, n, heq⟩ := hcreated
  rw [heq, withAuction, hv.refusedSale_eq]
  exact hv.created

theorem rewritten (hids : ∀ id ∈ ids, id ∈ w.auctions.keys) (hw : Rewritten ids w w') : w'.Listed := by
  have hback : ∀ id a', w'.auctions.find? id = some a' → ∃ a, w.auctions.find? id = some a ∧ a.owner = a'.owner := by
    intro id a' ha'
    have hgoods := hw.goods id
    rw [ha', Option.map_some, eq_comm, Option.map_eq_some_iff] at hgoods
    obtain ⟨a, ha, heq⟩ := hgoods
    exact ⟨a, ha, (congrArg AuctionEntry.owner heq : a.goods.owner = a'.goods.owner)⟩
  have hforth : ∀ id a, w.auctions.find? id = some a → ∃ a', w'.auctions.find? id = some a' ∧ a'.owner = a.owner := by
    intro id a ha
    have hgoods := hw.goods id
    rw [ha, Option.map_some, Option.map_eq_some_iff] at hgoods
    obtain ⟨a', ha', heq⟩ := hgoods
    exact ⟨a', ha', (congrArg AuctionEntry.owner heq : a'.goods.owner = a.goods.owner)⟩
  have hkeys : ∀ id, id ∈ w'.auctions.keys ↔ id ∈ w.auctions.keys := fun id => by
    rw [OMap.mem_keys, OMap.mem_keys]
    exact ⟨fun hx => (hback id _ hx.choose_spec).imp fun _ ha => ha.1, fun hx => (hforth id _ hx.choose_spec).imp fun _ ha => ha.1⟩
  have hpending : w'.pendingAuctionMap = w.pendingAuctionMap := by rw [hw.eq]
  refine ⟨fun id a' ha' => ?_, fun player ids n hqueue => h.nodup player ids n (hpending ▸ hqueue),
    fun player ids n hqueue id hid => ?_, fun id => ?_, by rw [hw.eq]; exact h.touched⟩
  · obtain ⟨a, ha, -⟩ := hback id a' ha'
    rw [hw.eq]
    exact h.fresh id a ha
  · obtain ⟨a, ha, howner⟩ := h.live player ids n (hpending ▸ hqueue) id hid
    obtain ⟨a', ha', howner'⟩ := hforth id a ha
    exact ⟨a', ha', howner'.trans howner⟩
  · rw [hw.rows, hkeys, h.rows]
    exact or_iff_left_of_imp (hids id)

theorem erasePending (player : Nat) : Listed { w with pendingAuctionMap := w.pendingAuctionMap.erase player } := by
  have hfind : ∀ {p q}, (w.pendingAuctionMap.erase player).find? p = some q → w.pendingAuctionMap.find? p = some q := by
    intro p q hq
    rw [OMap.find?_erase] at hq
    split at hq
    next => cases hq
    next => exact hq
  exact ⟨h.fresh, fun p ids n hq => h.nodup p ids n (hfind hq), fun p ids n hq => h.live p ids n (hfind hq), h.rows, h.touched⟩

theorem updatePending (player : Nat) : (w.updatePendingAuctions r env player).Listed := by
  rcases updatePending_cases r env player w with heq | hqueue
  · rwa [heq]
  obtain ⟨ids, n, hqueue, heq | hprocess⟩ := hqueue
  · rw [heq]
    have hfind : ∀ {p ids' m}, (w.pendingAuctionMap.insert player (ids, ids.length)).find? p = some (ids', m) →
        ∃ m, w.pendingAuctionMap.find? p = some (ids', m) := by
      intro p ids' m hq
      rw [OMap.find?_insert] at hq
      split at hq
      next hp =>
        cases hq
        exact ⟨n, hp ▸ hqueue⟩
      next => exact ⟨m, hq⟩
    exact ⟨h.fresh, fun p ids' m hq => h.nodup p ids' _ (hfind hq).choose_spec,
      fun p ids' m hq => h.live p ids' _ (hfind hq).choose_spec, h.rows, h.touched⟩
  · obtain ⟨v, hv, hmoney⟩ := hprocess
    have hlive := h.live player ids n hqueue
    rw [touch_live fun id hid => (hlive id hid).imp fun _ ha => ha.1] at hv
    have hlisted : v.Listed := h.rewritten (fun id hid => OMap.mem_keys.2 ((hlive id hid).imp fun _ ha => ha.1)) hv
    exact (hlisted.erasePending player).onlyMoney hmoney

theorem outcome {event : Event} (hok : Quiet event w) (hs : Outcome event w w') : w'.Listed := by
  cases hs with
  | money hw => exact h.onlyMoney hw
  | bid id a bidder price v hlive hw heq =>
    rw [heq]
    exact (h.onlyMoney hw).bid (hw.auctions ▸ hlive)
  | ended id a hlive hends hw => exact h.ended hok hlive hends hw

theorem step {event : Event} (hok : Quiet event w) (hs : World.step r event w = some w') : w'.Listed := by
  cases event with
  | sell env seller req => exact h.sell hs
  | placeBid env player house id price =>
    cases hs
    exact h.outcome hok (outcome_placeBid ..)
  | removeItem env player house id =>
    cases hs
    exact h.outcome hok (outcome_removeItem ..)
  | update env id =>
    cases hs
    exact h.outcome hok (outcome_update ..)
  | updatePending env player =>
    cases hs
    exact h.updatePending player
  | takeMoney player mail =>
    cases hs
    exact h.onlyMoney (onlyMoney_mailTakeMoney ..)
  | takeItem player mail =>
    cases hs
    unfold handleMailTakeItem
    split
    next => split <;> exact ⟨h.fresh, h.nodup, h.live, h.rows, h.touched⟩
    next => exact h

end

end Listed

/-- Whatever is in a queue is a live auction of its player, in no other queue and there once; no deleted entry has been read
or written, and the rows are those of the live auctions. In every run in which no auction ends while it is in a queue. -/
theorem reaches_pending (r : Rules) (players : OMap Nat Player) (itemGuid : Nat)
    (hr : Reaches (step r) Quiet (start players itemGuid) w) :
    (∀ player ids n, w.pendingAuctionMap.find? player = some (ids, n) →
      ids.Nodup ∧ ∀ id ∈ ids, ∃ a, w.auctions.find? id = some a ∧ a.owner = player) ∧
    w.ledger.touched = [] ∧ ∀ id, id ∈ w.table.keys ↔ id ∈ w.auctions.keys := by
  have h : w.Listed := hr.invariant Listed (fun _ _ _ h hok hs => h.step hok hs) (.start players itemGuid)
  exact ⟨fun player ids n hqueue => ⟨h.nodup player ids n hqueue, h.live player ids n hqueue⟩, h.touched, h.rows⟩

/-- Stacks of twenty, a deposit of five for each unit, and a cut of five in the hundred. -/
def plainRules : Rules where
  getMaxStackSize := fun _ => 20
  conjured := fun _ => false
  getAuctionDeposit := fun _ _ _ count => .ofNat (5 * count)
  getAuctionCut := fun _ bid => .ofNat (bid / 20)
  getAuctionOutBid := fun bid => .ofNat (bid / 20 + 1)
  auctionTime := .ofNat

/-- Everybody is online. -/
def everybody (now : Nat) : Env where
  now := now
  connected := fun _ => true
  hasMailbox := fun _ => true
  ownCharacter := false
  canBeTraded := fun _ => true
  isNotEmptyBag := fun _ => false
  duration := fun _ => 0
  stale := fun _ => ⟨.neutral, 0, 0, 0, 0, 0, 0, 0, 0, 0, 0, 0, 0⟩

/-- Player 1 has five of something, and player 2 has money. -/
def somePlayers : OMap Nat Player :=
  (OMap.empty.insert 1 ⟨1000, .insert .empty 10 ⟨7, 5, by decide⟩⟩).insert 2 ⟨5000, .empty⟩

/-- Some of a stack, for twelve hours. -/
def someRequest (count : UInt32) : SellRequest := ⟨.neutral, 7, [(10, count)], 100, 2000, 720⟩

/-- A sale that waits out its queue before it is bought, and another that is still in its queue. -/
theorem reaches_pending_sale : ∃ w n, Reaches (step plainRules) Quiet (start somePlayers 20) w ∧
    w.pendingAuctionMap.find? 1 = some ([2], n) ∧ w.mails.length = 3 ∧
    ∀ id ∈ [2], ∃ a, w.auctions.find? id = some a ∧ a.owner = 1 := by
  have hrun : (runSteps (allowed (step plainRules) Quiet) [.sell (everybody 0) 1 (someRequest 3), .updatePending (everybody 0) 1,
      .updatePending (everybody 0) 1, .placeBid (everybody 0) 2 .neutral 1 2000, .sell (everybody 0) 1 (someRequest 2)]
      (start somePlayers 20)).any (fun w => w.pendingAuctionMap.find? 1 = some ([2], 0) && w.mails.length = 3) = true := by
    decide +kernel
  obtain ⟨w, hw, hany⟩ := (Option.any_eq_true _ _).1 hrun
  rw [Bool.and_eq_true, decide_eq_true_eq, decide_eq_true_eq] at hany
  have hr : Reaches (step plainRules) Quiet (start somePlayers 20) w := .of_allowed (.of_runSteps hw)
  exact ⟨w, 0, hr, hany.1, hany.2, ((reaches_pending plainRules somePlayers 20 hr).1 1 [2] 0 hany.1).2⟩

/-- A cancelled auction stays in its queue: when the queue is processed it is read, and written back to the database. -/
theorem pending_after_cancel : ∃ w, Reaches (step plainRules) (fun _ _ => True) (start somePlayers 20) w ∧
    w.pendingAuctionMap.find? 1 = some ([1], 1) ∧ w.auctions.find? 1 = none ∧
    (w.updatePendingAuctions plainRules (everybody 0) 1).ledger.touched = [1] ∧
    1 ∈ (w.updatePendingAuctions plainRules (everybody 0) 1).table.keys := by
  have hrun : (runSteps (step plainRules) [.sell (everybody 0) 1 (someRequest 3), .removeItem (everybody 0) 1 .neutral 1,
      .updatePending (everybody 0) 1] (start somePlayers 20)).any (fun w =>
        w.pendingAuctionMap.find? 1 = some ([1], 1) && (w.auctions.find? 1).isNone &&
        (w.updatePendingAuctions plainRules (everybody 0) 1).ledger.touched = [1] &&
        (w.updatePendingAuctions plainRules (everybody 0) 1).table.keys.contains 1) = true := by decide +kernel
  obtain ⟨w, hw, hany⟩ := (Option.any_eq_true _ _).1 hrun
  rw [Bool.and_eq_true, Bool.and_eq_true, Bool.and_eq_true, Option.isNone_iff_eq_none, decide_eq_true_eq, decide_eq_true_eq,
    List.contains_iff_mem] at hany
  exact ⟨w, .of_runSteps hw, hany.1.1.1, hany.1.1.2, hany.1.2, hany.2⟩

end AtlasWow.AuctionHouse.World
