/-
The auction house (`AuctionHouseMgr.cpp`, `AuctionHouseHandler.cpp`): the live
auctions, the items in them, the mails that end them, and the queues of
auctions whose deposit is still to be charged.

A pointer to an `AuctionEntry` is the id of its auction; the entries of the
three houses stand in one map, as their ids are of one sequence. A queue may
hold a pointer to an entry that has been deleted: what reading it yields is
left open (`Env.stale`). Beside the state stands a ledger that no handler reads.
-/
import AtlasWow.Lib.Machine
import AtlasWow.Lib.Totals
import AtlasWow.Entities.PlayerMoney
import AtlasWow.Entities.Item

namespace AtlasWow.AuctionHouse

def MAX_AUCTION_ITEMS : Nat := 160
def MIN_AUCTION_TIME : Nat := 12 * 60 * 60

/-- The `AuctionHouseObject` an auction is in. -/
inductive House where
  | alliance
  | horde
  | neutral
  deriving DecidableEq

structure AuctionEntry where
  house : House
  itemGUIDLow : Nat
  itemEntry : Nat
  itemCount : Nat
  owner : Nat
  startbid : Nat
  bid : Nat
  buyout : Nat
  expire_time : Nat
  bidder : Nat
  deposit : Nat
  etime : Nat
  auctionHouseEntry : Nat

/-- An entry but for the fields the pending queue writes. -/
def AuctionEntry.goods (auction : AuctionEntry) : AuctionEntry := { auction with deposit := 0, expire_time := 0 }

/-- Whether a price is no buyout. -/
def AuctionEntry.isBid (auction : AuctionEntry) (price : Nat) : Bool := price < auction.buyout || auction.buyout = 0

/-- What the stores and the settings say: item templates, and amounts the source computes with fractions. -/
structure Rules where
  getMaxStackSize (entry : Nat) : Nat
  conjured (entry : Nat) : Bool
  getAuctionDeposit (auctionHouseEntry etime entry count : Nat) : UInt32
  getAuctionCut (auctionHouseEntry bid : Nat) : UInt32
  getAuctionOutBid (bid : Nat) : UInt32
  auctionTime (etime : Nat) : UInt32

/-- What the rest of the server answers during one step. -/
structure Env where
  now : Nat
  connected : Nat → Bool
  /-- Connected or known to the character cache, and not one of the auction bot's. -/
  hasMailbox : Nat → Bool
  /-- Whether the owner of the auction is another character of the bidder. -/
  ownCharacter : Bool
  canBeTraded : Nat → Bool
  isNotEmptyBag : Nat → Bool
  duration : Nat → Nat
  /-- What is read through a pointer to a deleted entry. -/
  stale : Nat → AuctionEntry

/-- A stack of a sell request, found in the inventory. -/
structure Stack where
  guid : Nat
  count : Nat
  item : Item

structure SellRequest where
  house : House
  auctionHouseEntry : Nat
  items : List (Nat × UInt32)
  bid : UInt32
  buyout : UInt32
  etime : UInt32

/-- `etime *= MINUTE`. -/
def SellRequest.seconds (req : SellRequest) : Nat := uint32 (req.etime.toNat * 60)

inductive MailAuctionAnswers where
  | outbidded
  | won
  | successful
  | expired
  | cancelledToBidder
  | canceled
  | salePending
  deriving DecidableEq

/-- A mail of the auction house: the auction, the numbers of its body, and what is in it. -/
structure AuctionMail where
  receiver : Nat
  response : MailAuctionAnswers
  auctionId : Nat
  lowGuid : Nat
  bid : Nat
  deposit : Nat
  cut : Nat
  money : Nat
  taken : Bool
  item : Option (Nat × Item)

structure Player where
  money : Nat
  items : OMap Nat Item

/-- What has happened so far. -/
structure Ledger where
  /-- The money each player has paid in bids. -/
  placed : Nat → Nat
  /-- The deposit that was taken for each auction. -/
  charged : Nat → Nat
  /-- Auctions whose queue was processed while their seller had the whole of its deposit. -/
  paid : List Nat
  cuts : Nat
  forfeited : Nat
  fees : Nat
  /-- Deleted entries that were read or written. -/
  touched : List Nat
  /-- Items that were deleted with their records. -/
  discarded : List (Nat × Item)

structure World where
  auctions : OMap Nat AuctionEntry
  mAitems : OMap Nat Item
  pendingAuctionMap : OMap Nat (List Nat × Nat)
  /-- The rows of `auctionhouse`. -/
  table : OMap Nat AuctionEntry
  auctionId : Nat
  itemGuid : Nat
  players : OMap Nat Player
  mails : List AuctionMail
  ledger : Ledger

namespace World

def getAuction (house : House) (id : Nat) (w : World) : Option AuctionEntry :=
  (w.auctions.find? id).filter (·.house = house)

def hasEnoughMoney (player price : Nat) (w : World) : Bool := (w.players.find? player).any (price ≤ ·.money)

def modifyPlayerMoney (player : Nat) (amount : Int) (w : World) : World :=
  match w.players.find? player with
  | none => w
  | some p =>
    match modifyMoney amount p.money with
    | none => w
    | some money => { w with players := w.players.insert player { p with money := money } }

/-- `player->ModifyMoney(-int32(price))`. -/
def pay (player price : Nat) (w : World) : World := w.modifyPlayerMoney player (int32 (-int32 price))

/-- What reading an entry yields. -/
def readEntry (env : Env) (id : Nat) (w : World) : AuctionEntry := (w.auctions.find? id).getD (env.stale id)

/-- Write an entry, to its row too. A deleted entry takes the write and stays deleted, its row comes back. -/
def writeEntry (env : Env) (id : Nat) (f : AuctionEntry → AuctionEntry) (w : World) : World :=
  let entry := f (w.readEntry env id)
  { w with
    auctions := if (w.auctions.find? id).isSome then w.auctions.insert id entry else w.auctions
    table := w.table.insert id entry }

/-- Entries are read or written: the deleted ones among them are noted. -/
def touch (ids : List Nat) (w : World) : World :=
  { w with ledger := { w.ledger with touched := w.ledger.touched ++ ids.filter fun id => (w.auctions.find? id).isNone } }

/-! ## The end of an auction -/

def sendMail (mail : AuctionMail) (w : World) : World := { w with mails := w.mails ++ [mail] }

def removeAItem (id : Nat) (deleteItem : Bool) (w : World) : World :=
  match w.mAitems.find? id with
  | none => w
  | some item => { w with
    mAitems := w.mAitems.erase id
    ledger := { w.ledger with discarded := if deleteItem then w.ledger.discarded ++ [(id, item)] else w.ledger.discarded } }

def sendAuctionWonMail (env : Env) (id : Nat) (auction : AuctionEntry) (w : World) : World :=
  match w.mAitems.find? auction.itemGUIDLow with
  | none => w
  | some item =>
    if env.hasMailbox auction.bidder then
      w.sendMail ⟨auction.bidder, .won, id, auction.owner, auction.bid, 0, 0, 0, false, some (auction.itemGUIDLow, item)⟩
    else w.removeAItem auction.itemGUIDLow true

def sendAuctionSalePendingMail (r : Rules) (env : Env) (id : Nat) (auction : AuctionEntry) (w : World) : World :=
  if env.hasMailbox auction.owner then
    w.sendMail ⟨auction.owner, .salePending, id, auction.bidder, auction.bid, auction.deposit,
      (r.getAuctionCut auction.auctionHouseEntry auction.bid).toNat, 0, false, none⟩
  else w

def sendAuctionSuccessfulMail (r : Rules) (env : Env) (id : Nat) (auction : AuctionEntry) (w : World) : World :=
  let cut := (r.getAuctionCut auction.auctionHouseEntry auction.bid).toNat
  let profit := uint32 (auction.bid + auction.deposit - cut)
  if env.hasMailbox auction.owner then
    w.sendMail ⟨auction.owner, .successful, id, auction.bidder, auction.bid, auction.deposit, cut, profit, false, none⟩
  else w

def sendAuctionExpiredMail (env : Env) (id : Nat) (auction : AuctionEntry) (w : World) : World :=
  match w.mAitems.find? auction.itemGUIDLow with
  | none => w
  | some item =>
    if env.hasMailbox auction.owner then
      w.sendMail ⟨auction.owner, .expired, id, 0, 0, auction.deposit, 0, 0, false, some (auction.itemGUIDLow, item)⟩
    else w.removeAItem auction.itemGUIDLow true

def sendAuctionOutbiddedMail (r : Rules) (env : Env) (id : Nat) (auction : AuctionEntry) (w : World) : World :=
  if env.hasMailbox auction.bidder then
    w.sendMail ⟨auction.bidder, .outbidded, id, auction.owner, auction.bid, auction.deposit,
      (r.getAuctionCut auction.auctionHouseEntry auction.bid).toNat, auction.bid, false, none⟩
  else w

def sendAuctionCancelledToBidderMail (env : Env) (id : Nat) (auction : AuctionEntry) (w : World) : World :=
  if env.hasMailbox auction.bidder then
    w.sendMail ⟨auction.bidder, .cancelledToBidder, id, auction.owner, auction.bid, auction.deposit, 0, auction.bid, false, none⟩
  else w

/-- `DeleteFromDB`, `RemoveAItem` and `RemoveAuction`, which every end of an auction comes to. -/
def removeAuction (id : Nat) (auction : AuctionEntry) (w : World) : World :=
  let w := { w with table := w.table.erase id }.removeAItem auction.itemGUIDLow false
  { w with auctions := w.auctions.erase id }

end World

/-! ## Selling -/

/-- The part of `HandleAuctionSellItem` that looks at the request alone. -/
def SellRequest.wellFormed (req : SellRequest) : Bool :=
  req.items.length ≤ MAX_AUCTION_ITEMS &&
    req.items.all (fun s => s.1 ≠ 0 && s.2 ≠ 0 && s.2 ≤ 1000) && req.bid ≠ 0 && req.etime ≠ 0 &&
    req.bid ≤ MAX_MONEY_AMOUNT && req.buyout ≤ MAX_MONEY_AMOUNT &&
    [1, 2, 4].any (fun k => req.seconds = k * MIN_AUCTION_TIME)

namespace World

/-- The first loop over the listed stacks: every one is found and may be sold, and all are of one entry. -/
def findStacks (r : Rules) (env : Env) (items : OMap Nat Item) (w : World) : Nat → List (Nat × UInt32) → Option (List Stack)
  | _, [] => some []
  | itemEntry, (guid, count) :: rest =>
    match items.find? guid with
    | none => none
    | some item =>
      let itemEntry := if itemEntry = 0 then item.entry else itemEntry
      if (w.mAitems.find? guid).isSome || !env.canBeTraded guid || env.isNotEmptyBag guid || r.conjured item.entry ||
          env.duration guid ≠ 0 || item.count < count.toNat || itemEntry ≠ item.entry then none
      else (w.findStacks r env items itemEntry rest).map (⟨guid, count.toNat, item⟩ :: ·)

/-- The stacks of an auction leave the inventory, or become smaller. -/
def takeStacks : List Stack → OMap Nat Item → OMap Nat Item
  | [], items => items
  | stack :: rest, items =>
    takeStacks rest (match items.find? stack.guid with
      | none => items
      | some item =>
        if item.count = stack.count then items.erase stack.guid
        else items.insert stack.guid { item with count := item.count - stack.count })

/-- The auctions of a player whose deposit is still to be charged. -/
def pendingAuctions (player : Nat) (w : World) : List Nat := ((w.pendingAuctionMap.find? player).map (·.1)).getD []

/-- The deposit of a queue and a new auction; the item is the new one's throughout. -/
def depositWith (r : Rules) (env : Env) (thisAH : List Nat) (aEntry : AuctionEntry) (item : Item) (w : World) : Nat :=
  uint32 (((thisAH.map (w.readEntry env)).map fun e =>
    (r.getAuctionDeposit e.auctionHouseEntry e.etime item.entry e.itemCount).toNat).sum +
      (r.getAuctionDeposit aEntry.auctionHouseEntry aEntry.etime item.entry aEntry.itemCount).toNat)

/-- `PendingAuctionAdd`, `none` if the player cannot pay. -/
def pendingAuctionAdd (r : Rules) (env : Env) (player id : Nat) (aEntry : AuctionEntry) (item : Item) (w : World) :
    Option World :=
  match w.pendingAuctionMap.find? player with
  | none => some { w with pendingAuctionMap := w.pendingAuctionMap.insert player ([id], 0) }
  | some (thisAH, count) =>
    if w.hasEnoughMoney player (w.depositWith r env thisAH aEntry item) then
      some { w with pendingAuctionMap := w.pendingAuctionMap.insert player (thisAH ++ [id], count) }
    else none

/-- The new auction and its item, and what is left of the seller's inventory. `none`: the server stops. -/
def createAuction (r : Rules) (env : Env) (aEntry : AuctionEntry) (item : Item) (items : OMap Nat Item) (w : World) :
    Option World :=
  if 0xFFFFFFFE ≤ w.auctionId then none
  else
    let id := w.auctionId
    let w := { w with auctionId := id + 1 }.touch (w.pendingAuctions aEntry.owner)
    match w.pendingAuctionAdd r env aEntry.owner id aEntry item with
    | none => some w
    | some w =>
      -- the assertion of `AddAItem`
      if (w.mAitems.find? aEntry.itemGUIDLow).isSome then none
      else
        some { w with
          mAitems := w.mAitems.insert aEntry.itemGUIDLow item
          auctions := w.auctions.insert id aEntry
          table := w.table.insert id aEntry
          players := (w.players.find? aEntry.owner).elim w.players fun p => w.players.insert aEntry.owner { p with items := items } }

def handleAuctionSellItem (r : Rules) (env : Env) (seller : Nat) (req : SellRequest) (w : World) : Option World :=
  match w.players.find? seller with
  | none => some w
  | some player =>
    match (if req.wellFormed then w.findStacks r env player.items 0 req.items else none) with
    | none => some w
    | some listed =>
      let finalCount := (listed.map (·.count)).sum
      match listed with
      | [] => some w
      | first :: rest =>
        let etime := req.seconds
        let deposit := (r.getAuctionDeposit req.auctionHouseEntry etime first.item.entry finalCount).toNat
        if finalCount = 0 ∨ ¬(listed.map (·.guid)).Nodup ∨ (∃ s ∈ listed, r.getMaxStackSize s.item.entry < finalCount) ∨
            player.money < deposit then some w
        else
          let aEntry (guid : Nat) (item : Item) : AuctionEntry :=
            { house := req.house, itemGUIDLow := guid, itemEntry := item.entry, itemCount := item.count, owner := seller
              startbid := req.bid.toNat, bid := 0, buyout := req.buyout.toNat, bidder := 0, deposit := deposit
              expire_time := env.now + (r.auctionTime etime).toNat, etime := etime
              auctionHouseEntry := req.auctionHouseEntry }
          if rest = [] ∧ first.item.count = first.count then
            w.createAuction r env (aEntry first.guid first.item) first.item (player.items.erase first.guid)
          else if 0xFFFFFFFE ≤ w.itemGuid then none
          else
            let newItem : Item := { first.item with count := min finalCount (r.getMaxStackSize first.item.entry) }
            { w with itemGuid := w.itemGuid + 1 }.createAuction r env (aEntry w.itemGuid newItem) newItem
              (takeStacks listed player.items)

/-! ## Bidding and cancelling -/

def payBid (player price : Nat) (w : World) : World :=
  let w := w.pay player price
  { w with ledger := { w.ledger with placed := Function.update w.ledger.placed player (w.ledger.placed player + price) } }

def placeBid (r : Rules) (env : Env) (player id price : Nat) (auction : AuctionEntry) (w : World) : World :=
  let w :=
    if auction.bidder > 0 then
      if auction.bidder = player then w.payBid player (uint32 (price - auction.bid))
      else (w.sendAuctionOutbiddedMail r env id auction).payBid player price
    else w.payBid player price
  { w with
    auctions := w.auctions.insert id { auction with bidder := player, bid := price }
    -- `CHAR_UPD_AUCTION_BID`
    table := (w.table.find? id).elim w.table fun row => w.table.insert id { row with bidder := player, bid := price } }

/-- The cut of an auction that is sold. -/
def noteSale (r : Rules) (auction : AuctionEntry) (w : World) : World :=
  { w with ledger := { w.ledger with
    cuts := w.ledger.cuts + (r.getAuctionCut auction.auctionHouseEntry auction.bid).toNat } }

def buyOut (r : Rules) (env : Env) (player id : Nat) (auction : AuctionEntry) (w : World) : World :=
  let w :=
    if player = auction.bidder then w.payBid player (uint32 (auction.buyout - auction.bid))
    else
      let w := w.payBid player auction.buyout
      if auction.bidder ≠ 0 then w.sendAuctionOutbiddedMail r env id auction else w
  let auction := { auction with bidder := player, bid := auction.buyout }
  let w := w.sendAuctionSalePendingMail r env id auction
  let w := w.sendAuctionSuccessfulMail r env id auction
  let w := w.sendAuctionWonMail env id auction
  (w.removeAuction id auction).noteSale r auction

def handleAuctionPlaceBid (r : Rules) (env : Env) (player : Nat) (house : House) (id price : UInt32) (w : World) : World :=
  let id := id.toNat
  let price := price.toNat
  if id = 0 ∨ price = 0 then w
  else
    match w.getAuction house id with
    | none => w
    | some auction =>
      if auction.owner = player ∨ env.ownCharacter then w
      else if price ≤ auction.bid ∨ price < auction.startbid then w
      else if auction.isBid price ∧ price < uint32 (auction.bid + (r.getAuctionOutBid auction.bid).toNat) then w
      else if ¬w.hasEnoughMoney player price then w
      else if auction.isBid price then w.placeBid r env player id price auction
      else w.buyOut r env player id auction

/-- A deposit that is kept. -/
def noteForfeit (id : Nat) (w : World) : World :=
  { w with ledger := { w.ledger with forfeited := w.ledger.forfeited + w.ledger.charged id } }

def payFee (player fee : Nat) (w : World) : World :=
  let w := w.pay player fee
  { w with ledger := { w.ledger with fees := w.ledger.fees + fee } }

def handleAuctionRemoveItem (r : Rules) (env : Env) (player : Nat) (house : House) (id : Nat) (w : World) : World :=
  match (w.getAuction house id).filter (·.owner = player) with
  | none => w
  | some auction =>
    match w.mAitems.find? auction.itemGUIDLow with
    | none => w
    | some item =>
      let cut := (r.getAuctionCut auction.auctionHouseEntry auction.bid).toNat
      if auction.bidder > 0 ∧ ¬w.hasEnoughMoney player cut then w
      else
        let w := if auction.bidder > 0 then (w.sendAuctionCancelledToBidderMail env id auction).payFee player cut else w
        let w := w.sendMail ⟨player, .canceled, id, 0, 0, auction.deposit, 0, 0, false, some (auction.itemGUIDLow, item)⟩
        (w.removeAuction id auction).noteForfeit id

/-! ## The periodic jobs -/

/-- One round of `AuctionHouseObject::Update`. -/
def updateAuction (r : Rules) (env : Env) (id : Nat) (w : World) : World :=
  match w.auctions.find? id with
  | none => w
  | some auction =>
    if env.now + 60 < auction.expire_time then w
    else if auction.bidder = 0 ∧ auction.bid = 0 then
      ((w.sendAuctionExpiredMail env id auction).removeAuction id auction).noteForfeit id
    else
      let w := w.sendAuctionSuccessfulMail r env id auction
      let w := w.sendAuctionWonMail env id auction
      (w.removeAuction id auction).noteSale r auction

/-- The deposit of a whole queue, which its first auction's item decides. -/
def totalDeposit (r : Rules) (env : Env) (thisAH : List Nat) (w : World) : Nat :=
  match thisAH.head? with
  | none => 0
  | some front =>
    let entry := w.readEntry env front
    match w.mAitems.find? entry.itemGUIDLow with
    | none => 0
    | some item =>
      let totalItems := uint32 ((thisAH.map fun id => (w.readEntry env id).itemCount).sum : Nat)
      (r.getAuctionDeposit entry.auctionHouseEntry entry.etime item.entry totalItems).toNat

/-- The same share for every auction but the last, which has the remainder. -/
def depositShares (share : Nat) : (depositremain : Nat) → List Nat → List (Nat × Nat)
  | _, [] => []
  | depositremain, [id] => [(id, depositremain)]
  | depositremain, id :: rest => (id, share) :: depositShares share (depositremain - share) rest

/-- The deposits that were taken, from what was. -/
def noteCharged : List (Nat × Nat) → Nat → (Nat → Nat) → Nat → Nat
  | [], _, charged => charged
  | (id, share) :: rest, taken, charged =>
    noteCharged rest (taken - min share taken) (Function.update charged id (min share taken))

def purse (player : Nat) (w : World) : Nat := ((w.players.find? player).map (·.money)).getD 0

def pendingAuctionProcess (r : Rules) (env : Env) (player : Nat) (thisAH : List Nat) (w : World) : World :=
  let totaldeposit := w.totalDeposit r env thisAH
  let shares := depositShares (totaldeposit / thisAH.length) totaldeposit thisAH
  let money := w.purse player
  let w := shares.foldl (fun w s => w.writeEntry env s.1 ({ · with deposit := s.2 })) (w.touch thisAH)
  let w := { w with pendingAuctionMap := w.pendingAuctionMap.erase player }.pay player totaldeposit
  { w with ledger := { w.ledger with
    charged := noteCharged shares (money - w.purse player) w.ledger.charged
    paid := if totaldeposit ≤ money then w.ledger.paid ++ thisAH else w.ledger.paid } }

/-- One round of `UpdatePendingAuctions`. -/
def updatePendingAuctions (r : Rules) (env : Env) (player : Nat) (w : World) : World :=
  match w.pendingAuctionMap.find? player with
  | none => w
  | some (thisAH, count) =>
    if env.connected player then
      if thisAH.length = count then w.pendingAuctionProcess r env player thisAH
      else { w with pendingAuctionMap := w.pendingAuctionMap.insert player (thisAH, thisAH.length) }
    else
      let w := thisAH.foldl (fun w id => w.writeEntry env id ({ · with expire_time := env.now })) (w.touch thisAH)
      { w with pendingAuctionMap := w.pendingAuctionMap.erase player }

/-! ## The mails -/

def takeMoney (player mail : Nat) (m : AuctionMail) (p : Player) (amount : Int) (w : World) : World :=
  match modifyMoney amount p.money with
  | none => w
  | some money => { w with
    mails := w.mails.set mail { m with taken := true }
    players := w.players.insert player { p with money := money } }

def handleMailTakeMoney (player mail : Nat) (w : World) : World :=
  match w.mails[mail]?.filter fun m => m.receiver = player && !m.taken, w.players.find? player with
  | some m, some p => w.takeMoney player mail m p (int32 m.money)
  | _, _ => w

def handleMailTakeItem (player mail : Nat) (w : World) : World :=
  match w.mails[mail]?.filter (·.receiver = player), w.players.find? player with
  | some m, some p =>
    match m.item with
    | none => w
    | some (guid, item) => { w with
      mails := w.mails.set mail { m with item := none }
      players := w.players.insert player { p with items := p.items.insert guid item } }
  | _, _ => w

inductive Event where
  | sell (env : Env) (seller : Nat) (req : SellRequest)
  | placeBid (env : Env) (player : Nat) (house : House) (id price : UInt32)
  | removeItem (env : Env) (player : Nat) (house : House) (id : Nat)
  | update (env : Env) (id : Nat)
  | updatePending (env : Env) (player : Nat)
  | takeMoney (player mail : Nat)
  | takeItem (player mail : Nat)

/-- One packet, or one round of one of the two jobs. -/
def step (r : Rules) (event : Event) (w : World) : Option World :=
  match event with
  | .sell env seller req => w.handleAuctionSellItem r env seller req
  | .placeBid env player house id price => some (w.handleAuctionPlaceBid r env player house id price)
  | .removeItem env player house id => some (w.handleAuctionRemoveItem r env player house id)
  | .update env id => some (w.updateAuction r env id)
  | .updatePending env player => some (w.updatePendingAuctions r env player)
  | .takeMoney player mail => some (w.handleMailTakeMoney player mail)
  | .takeItem player mail => some (w.handleMailTakeItem player mail)

/-- No auction yet. -/
def start (players : OMap Nat Player) (itemGuid : Nat) : World where
  auctions := .empty
  mAitems := .empty
  pendingAuctionMap := .empty
  table := .empty
  auctionId := 1
  itemGuid := itemGuid
  players := players
  mails := []
  ledger := ⟨fun _ => 0, fun _ => 0, [], 0, 0, 0, [], []⟩

end World

end AtlasWow.AuctionHouse
