/-
The books of a running auction house stay sound: money only leaves purses,
auctions and mails as a cut, a fee or a deposit that is kept, in every run in
which no auction ends in its queue, none is sold before its deposit has been
taken in full, and no amount is more than a signed number can say.
-/
import AtlasWow.AuctionHouse.AuctionBooks
import AtlasWow.AuctionHouse.AuctionPending
import Mathlib.Algebra.Order.BigOperators.Group.List
import Mathlib.Algebra.Order.Ring.Nat

namespace AtlasWow.AuctionHouse

namespace World

variable {r : Rules} {env : Env} {w w' : World} {total : Nat}

def books (w : World) : Books where
  purses := w.players.mapValues fun _ p => p.money
  auctions := w.auctions
  mails := w.mails
  auctionId := w.auctionId
  queued := w.isPending
  placed := w.ledger.placed
  charged := w.ledger.charged
  paid := w.ledger.paid
  cuts := w.ledger.cuts
  forfeited := w.ledger.forfeited
  fees := w.ledger.fees

/-! ## Payments and mails -/

theorem find?_purses {player money : Nat} (h : w.books.purses.find? player = some money) :
    ∃ p, w.players.find? player = some p ∧ p.money = money :=
  Option.map_eq_some_iff.1 ((OMap.find?_mapValues w.players (fun _ p => p.money) player).symm.trans h)

theorem modifyPlayerMoney_eq {player money : Nat} {amount : Int} {p : Player} (hp : w.players.find? player = some p)
    (hmoney : modifyMoney amount p.money = some money) :
    w.modifyPlayerMoney player amount = { w with players := w.players.insert player { p with money := money } } := by
  unfold modifyPlayerMoney
  simp only [hp, hmoney]

theorem books_purse {player : Nat} (p : Player) (money : Nat) :
    books { w with players := w.players.insert player { p with money := money } } =
      { w.books with purses := w.books.purses.insert player money } := by
  show ({ w.books with purses := _ } : Books) = _
  rw [OMap.mapValues_insert]
  rfl

theorem books_pay {player price money : Nat} (hmoney : w.books.purses.find? player = some money) (hprice : price < 2 ^ 31)
    (hlt : money < 2 ^ 31) : (w.pay player price).books = { w.books with purses := w.books.purses.insert player (money - price) } := by
  obtain ⟨p, hp, rfl⟩ := find?_purses hmoney
  have hpay : w.pay player price = { w with players := w.players.insert player { p with money := p.money - price } } :=
    modifyPlayerMoney_eq hp (modifyMoney_pay hprice hlt)
  rw [hpay, books_purse]

theorem books_payBid {player price money : Nat} (hmoney : w.books.purses.find? player = some money) (hle : price ≤ money)
    (hlt : money < 2 ^ 31) : (w.payBid player price).books = { w.books with
      purses := w.books.purses.insert player (money - price)
      placed := Function.update w.books.placed player (w.books.placed player + price) } := by
  have hbooks : (w.payBid player price).books = { (w.pay player price).books with
      placed := Function.update (w.pay player price).books.placed player
        ((w.pay player price).books.placed player + price) } := rfl
  rw [hbooks, books_pay hmoney (by omega) hlt]

theorem books_payFee {player fee money : Nat} (hmoney : w.books.purses.find? player = some money) (hle : fee ≤ money)
    (hlt : money < 2 ^ 31) : (w.payFee player fee).books = { w.books with
      purses := w.books.purses.insert player (money - fee)
      fees := w.books.fees + fee } := by
  have hbooks : (w.payFee player fee).books =
    { (w.pay player fee).books with fees := (w.pay player fee).books.fees + fee } := rfl
  rw [hbooks, books_pay hmoney (by omega) hlt]

theorem books_removeAItem (guid : Nat) (deleteItem : Bool) (w : World) : (w.removeAItem guid deleteItem).books = w.books := by
  unfold removeAItem
  split <;> rfl

theorem books_removeAuction (id : Nat) (a : AuctionEntry) (w : World) :
    (w.removeAuction id a).books = { w.books with auctions := w.books.auctions.erase id } := by
  have hbooks : (w.removeAuction id a).books =
    { ({ w with table := w.table.erase id }.removeAItem a.itemGUIDLow false).books with
      auctions := ({ w with table := w.table.erase id }.removeAItem a.itemGUIDLow false).books.auctions.erase id } := rfl
  rw [hbooks, books_removeAItem]
  rfl

theorem idle_singleton {m : AuctionMail} (hmoney : m.money = 0) (hresponse : m.response ≠ .successful) :
    ∀ k ∈ [m], AuctionMail.Idle k := by
  intro k hk
  rw [List.mem_singleton.1 hk]
  exact ⟨hmoney, hresponse⟩

/-- A mail to a winner or to a seller whose auction has expired brings no money. -/
theorem books_won (env : Env) (id : Nat) (a : AuctionEntry) (w : World) : ∃ new, (∀ m ∈ new, AuctionMail.Idle m) ∧
    (w.sendAuctionWonMail env id a).books = { w.books with mails := w.books.mails ++ new } := by
  unfold sendAuctionWonMail
  split
  next => exact ⟨[], by simp, by rw [List.append_nil]⟩
  next item _ =>
  split
  next => exact ⟨[_], idle_singleton rfl (by simp), rfl⟩
  next => exact ⟨[], by simp, by rw [books_removeAItem, List.append_nil]⟩

theorem books_expired (env : Env) (id : Nat) (a : AuctionEntry) (w : World) : ∃ new, (∀ m ∈ new, AuctionMail.Idle m) ∧
    (w.sendAuctionExpiredMail env id a).books = { w.books with mails := w.books.mails ++ new } := by
  unfold sendAuctionExpiredMail
  split
  next => exact ⟨[], by simp, by rw [List.append_nil]⟩
  next item _ =>
  split
  next => exact ⟨[_], idle_singleton rfl (by simp), rfl⟩
  next => exact ⟨[], by simp, by rw [books_removeAItem, List.append_nil]⟩

theorem books_salePending (r : Rules) (env : Env) (id : Nat) (a : AuctionEntry) (w : World) : ∃ new, (∀ m ∈ new, AuctionMail.Idle m) ∧
    (w.sendAuctionSalePendingMail r env id a).books = { w.books with mails := w.books.mails ++ new } := by
  unfold sendAuctionSalePendingMail
  split
  next => exact ⟨[_], idle_singleton rfl (by simp), rfl⟩
  next => exact ⟨[], by simp, by rw [List.append_nil]⟩

theorem books_successful {id : Nat} {a : AuctionEntry} (howner : env.hasMailbox a.owner = true)
    (hcut : (r.getAuctionCut a.auctionHouseEntry a.bid).toNat ≤ a.bid + a.deposit) (hlt : a.bid + a.deposit < 2 ^ 32) (w : World) :
    (w.sendAuctionSuccessfulMail r env id a).books = { w.books with
      mails := w.books.mails ++ [soldMail id (r.getAuctionCut a.auctionHouseEntry a.bid).toNat a] } := by
  have hprofit : uint32 (a.bid + a.deposit - (r.getAuctionCut a.auctionHouseEntry a.bid).toNat) =
      a.bid + a.deposit - (r.getAuctionCut a.auctionHouseEntry a.bid).toNat := by
    rw [uint32_eq]
    omega
  unfold sendAuctionSuccessfulMail
  dsimp only
  rw [if_pos howner, hprofit]
  rfl

/-! ## Bids -/

theorem refund_same {a : AuctionEntry} {price : Nat} (hle : a.bid ≤ price) :
    Books.Refund a a.bidder price (price - a.bid) [] where
  total := by show price - a.bid + a.bid = price + 0; omega
  each p := by
    show _ = _ + 0
    by_cases hp : a.bidder = p
    · rw [if_pos hp.symm, if_pos hp, if_pos hp]
      omega
    · rw [if_neg fun h => hp h.symm, if_neg hp, if_neg hp]
  unsold := by simp

theorem refund_first {a : AuctionEntry} (player price : Nat) (hbid : a.bid = 0) : Books.Refund a player price price [] where
  total := by rw [hbid]; rfl
  each p := by
    rw [hbid, ite_self, Nat.add_zero]
    show _ = _ + 0
    rw [Nat.add_zero]
    exact if_congr eq_comm rfl rfl
  unsold := by simp

theorem refund_other {a : AuctionEntry} {player : Nat} (price : Nat) (id cut : Nat) :
    Books.Refund a player price price [⟨a.bidder, .outbidded, id, a.owner, a.bid, a.deposit, cut, a.bid, false, none⟩] where
  total := rfl
  each p := by
    show _ = _ + ((if a.bidder = p ∧ _ then a.bid else 0) + 0)
    rw [if_congr (eq_comm (a := p)) rfl rfl]
    simp
  unsold := by simp

/-- A bid has been paid for, and the bidder before has his money back. -/
def PaidBid (a : AuctionEntry) (player price money : Nat) (w v : World) : Prop :=
  ∃ due new, Books.Refund a player price due new ∧ due ≤ money ∧ v.books = { w.books with
    purses := w.books.purses.insert player (money - due)
    mails := w.books.mails ++ new
    placed := Function.update w.books.placed player (w.books.placed player + due) }

variable {a : AuctionEntry} {id player price money i share taken n : Nat} {v : World} {auctions : OMap Nat AuctionEntry}
  {house : House} {charged : Nat → Nat} {ids : List Nat}

theorem paid_same (hmoney : w.books.purses.find? a.bidder = some money) (hle : price ≤ money) (hlt : money < 2 ^ 31)
    (hbid : a.bid ≤ price) : PaidBid a a.bidder price money w (w.payBid a.bidder (uint32 (price - a.bid))) := by
  have hdue : uint32 (price - a.bid) = price - a.bid := by
    rw [uint32_eq]
    omega
  refine ⟨price - a.bid, [], refund_same hbid, by omega, ?_⟩
  rw [hdue, books_payBid hmoney (by omega) hlt, List.append_nil]

theorem paid_first (hmoney : w.books.purses.find? player = some money) (hle : price ≤ money) (hlt : money < 2 ^ 31)
    (hbid : a.bid = 0) : PaidBid a player price money w (w.payBid player price) := by
  refine ⟨price, [], refund_first player price hbid, hle, ?_⟩
  rw [books_payBid hmoney hle hlt, List.append_nil]

theorem books_outbidded (r : Rules) (id : Nat) (w : World) (hmail : env.hasMailbox a.bidder = true) :
    (w.sendAuctionOutbiddedMail r env id a).books = { w.books with mails := w.books.mails ++ [⟨a.bidder, .outbidded, id, a.owner,
      a.bid, a.deposit, (r.getAuctionCut a.auctionHouseEntry a.bid).toNat, a.bid, false, none⟩] } := by
  unfold sendAuctionOutbiddedMail
  rw [if_pos hmail]
  rfl

/-- First the mail, and then the payment. -/
theorem paid_other (hmoney : w.books.purses.find? player = some money) (hle : price ≤ money) (hlt : money < 2 ^ 31)
    (hmail : env.hasMailbox a.bidder = true) :
    PaidBid a player price money w ((w.sendAuctionOutbiddedMail r env id a).payBid player price) := by
  have hout := books_outbidded r id w hmail
  refine ⟨price, _, refund_other price id (r.getAuctionCut a.auctionHouseEntry a.bid).toNat, hle, ?_⟩
  rw [books_payBid (w := w.sendAuctionOutbiddedMail r env id a) (by rw [hout]; exact hmoney) hle hlt, hout]

/-- First the payment, and then the mail. -/
theorem paid_other' (hmoney : w.books.purses.find? player = some money) (hle : price ≤ money) (hlt : money < 2 ^ 31)
    (hmail : env.hasMailbox a.bidder = true) :
    PaidBid a player price money w ((w.payBid player price).sendAuctionOutbiddedMail r env id a) := by
  refine ⟨price, _, refund_other price id (r.getAuctionCut a.auctionHouseEntry a.bid).toNat, hle, ?_⟩
  rw [books_outbidded r id _ hmail, books_payBid hmoney hle hlt]

theorem sound_placeBid (h : Books.Sound total w.books) (hlive : w.auctions.find? id = some a)
    (hmoney : w.books.purses.find? player = some money) (hle : price ≤ money) (hbid : a.bid ≤ price)
    (hprice : a.isBid price = true) (hmail : a.bidder ≠ 0 → env.hasMailbox a.bidder = true) :
    w.books.Next total (w.placeBid r env player id price a).books := by
  have hlt := (h.purses player money hmoney).2
  obtain ⟨v, hpaid, hv⟩ : ∃ v, PaidBid a player price money w v ∧ (w.placeBid r env player id price a).books =
      { v.books with auctions := v.books.auctions.insert id { a with bidder := player, bid := price } } := by
    refine ⟨if a.bidder > 0 then
        if a.bidder = player then w.payBid player (uint32 (price - a.bid))
        else (w.sendAuctionOutbiddedMail r env id a).payBid player price
      else w.payBid player price, ?_, rfl⟩
    split
    next hpos =>
      split
      next heq => exact heq ▸ paid_same (heq ▸ hmoney) hle hlt hbid
      next => exact paid_other hmoney hle hlt (hmail (by omega))
    next hzero => exact paid_first hmoney hle hlt ((h.stakes id a hlive).none (by omega))
  obtain ⟨due, new, hrefund, hdue, hbooks⟩ := hpaid
  have hnext : a.buyout = 0 ∨ price ≤ a.buyout := by
    simp only [AuctionEntry.isBid, Bool.or_eq_true, decide_eq_true_eq] at hprice
    omega
  rw [hv, hbooks]
  exact ⟨h.bid hlive hmoney hdue (by omega) hnext hrefund, Nat.le_refl _⟩

/-- The mails and the closing of an auction that is sold. -/
theorem sound_sale (h : Books.Sound total w.books) (hlive : w.auctions.find? id = some a) (hpaid : id ∈ w.ledger.paid)
    (hmail : env.hasMailbox a.owner = true) (hcut : (r.getAuctionCut a.auctionHouseEntry a.bid).toNat ≤ a.bid + a.deposit)
    {before : List AuctionMail} (hbefore : ∀ m ∈ before, AuctionMail.Idle m)
    (hv : v.books = { w.books with auctions := auctions, mails := w.books.mails ++ before })
    (hauctions : auctions.erase id = w.auctions.erase id) :
    w.books.Next total ((((v.sendAuctionSuccessfulMail r env id a).sendAuctionWonMail env id a).removeAuction id a).noteSale r a).books := by
  have hstake := h.stakes id a hlive
  have hdeposit := (h.paid id a hlive hpaid).2
  have hlt : a.bid + a.deposit < 2 ^ 32 := by
    have := hstake.bid
    omega
  obtain ⟨after, hafter, hwon⟩ := books_won env id a (v.sendAuctionSuccessfulMail r env id a)
  have hnote : ∀ u : World, (u.noteSale r a).books = { u.books with cuts := u.books.cuts +
    (r.getAuctionCut a.auctionHouseEntry a.bid).toNat } := fun _ => rfl
  rw [hnote, books_removeAuction, hwon, books_successful hmail hcut hlt, hv]
  have hsale := h.sale hlive hpaid hcut hbefore hafter
  have hmails : ∀ sold : AuctionMail, w.books.mails ++ (before ++ sold :: after) = w.books.mails ++ before ++ [sold] ++ after := by
    intro sold
    rw [List.append_assoc, List.append_assoc]
    rfl
  rw [hmails] at hsale
  show w.books.Next total { w.books with auctions := auctions.erase id, mails := _, cuts := _ }
  rw [hauctions]
  refine ⟨hsale, ?_⟩
  show _ ≤ w.books.cuts + _ + w.books.forfeited + w.books.fees
  omega

theorem sound_buyOut (h : Books.Sound total w.books) (hlive : w.auctions.find? id = some a)
    (hmoney : w.books.purses.find? player = some money) (hle : a.buyout ≤ money) (hbuyout : a.buyout ≠ 0)
    (hpaid : id ∈ w.ledger.paid) (hmail : a.bidder ≠ 0 → env.hasMailbox a.bidder = true) (howner : env.hasMailbox a.owner = true)
    (hcut : (r.getAuctionCut a.auctionHouseEntry a.buyout).toNat ≤ a.buyout + a.deposit) :
    w.books.Next total (w.buyOut r env player id a).books := by
  have hlt := (h.purses player money hmoney).2
  have hstake := h.stakes id a hlive
  have hbid : a.bid ≤ a.buyout := hstake.le.resolve_left hbuyout
  obtain ⟨v, hpaidBid, hv⟩ : ∃ v, PaidBid a player a.buyout money w v ∧ w.buyOut r env player id a =
      ((((v.sendAuctionSalePendingMail r env id { a with bidder := player, bid := a.buyout }).sendAuctionSuccessfulMail r env id
        { a with bidder := player, bid := a.buyout }).sendAuctionWonMail env id
        { a with bidder := player, bid := a.buyout }).removeAuction id
        { a with bidder := player, bid := a.buyout }).noteSale r { a with bidder := player, bid := a.buyout } := by
    refine ⟨if player = a.bidder then w.payBid player (uint32 (a.buyout - a.bid))
      else if a.bidder ≠ 0 then (w.payBid player a.buyout).sendAuctionOutbiddedMail r env id a else w.payBid player a.buyout,
      ?_, rfl⟩
    split
    next heq => exact heq ▸ paid_same (heq ▸ hmoney) hle hlt hbid
    next =>
    split
    next hne => exact paid_other' hmoney hle hlt (hmail hne)
    next hzero => exact paid_first hmoney hle hlt (hstake.none (not_not.1 hzero))
  obtain ⟨due, new, hrefund, hdue, hbooks⟩ := hpaidBid
  -- the bid is entered into the books, where it stands until the auction is closed
  let sold := { a with bidder := player, bid := a.buyout }
  let u : World := { v with auctions := v.auctions.insert id sold }
  have hledger : v.ledger.paid = w.ledger.paid := congrArg Books.paid hbooks
  have hu : Books.Sound total u.books := by
    have hsound := h.bid hlive hmoney hdue hstake.buyout (.inr (Nat.le_refl _)) hrefund
    have heq : u.books = { v.books with auctions := v.books.auctions.insert id sold } := rfl
    rw [heq, hbooks]
    exact hsound
  obtain ⟨before, hbefore, hpending⟩ := books_salePending r env id sold v
  rw [hv]
  obtain ⟨hsold, hkept⟩ := sound_sale (w := u) hu (OMap.find?_insert_self ..) (hledger ▸ hpaid) howner hcut hbefore hpending
    (OMap.erase_insert v.auctions id sold).symm
  refine ⟨hsold, Nat.le_trans (Nat.le_of_eq ?_) hkept⟩
  show _ = v.books.cuts + v.books.forfeited + v.books.fees
  rw [hbooks]

/-! ## The condition -/

/-- The price an auction is sold for, if an event that ends it sells it. -/
def Event.salePrice (event : Event) (a : AuctionEntry) : Option Nat :=
  match event with
  | .placeBid .. => some a.buyout
  | .update .. => if a.bidder = 0 ∧ a.bid = 0 then none else some a.bid
  | _ => none

/-- No character has been deleted. -/
def everybodyExists (event : Event) (w : World) : Bool :=
  match event with
  | .placeBid env .. | .removeItem env .. | .update env _ => w.players.keys.all env.hasMailbox
  | _ => true

/-- Whatever is sold has been paid for, and is worth its cut. -/
def sellsPaid (r : Rules) (event : Event) (w : World) : Bool :=
  w.auctions.entries.all fun e => !event.ends e.1 e.2 || (Event.salePrice event e.2).all fun price =>
    w.ledger.paid.contains e.1 && (r.getAuctionCut e.2.auctionHouseEntry price).toNat ≤ price + e.2.deposit

/-- Deposits that are charged, and money that is taken from a mail, are no more than a signed number can say. -/
def smallAmounts (r : Rules) (event : Event) (w : World) : Bool :=
  match event with
  | .updatePending env player => (w.pendingAuctionMap.find? player).all fun queue =>
    !(env.connected player && queue.1.length = queue.2) || w.totalDeposit r env queue.1 < 2 ^ 31
  | .takeMoney _ mail => w.mails[mail]?.all (·.money < 2 ^ 31)
  | _ => true

def Fair (r : Rules) (event : Event) (w : World) : Prop :=
  (quiet event w && everybodyExists event w && sellsPaid r event w && smallAmounts r event w) = true

instance (event : Event) (w : World) : Decidable (Fair r event w) := inferInstanceAs (Decidable (_ = true))

theorem Fair.parts {event : Event} (h : Fair r event w) :
    Quiet event w ∧ everybodyExists event w = true ∧ sellsPaid r event w = true ∧ smallAmounts r event w = true := by
  simp only [Fair, Bool.and_eq_true] at h
  exact ⟨h.1.1.1, h.1.1.2, h.1.2, h.2⟩

variable {event : Event} {shares : List (Nat × Nat)}

theorem Fair.sale (h : Fair r event w) (hlive : w.auctions.find? id = some a) (hends : event.ends id a = true)
    (hprice : Event.salePrice event a = some price) :
    id ∈ w.ledger.paid ∧ (r.getAuctionCut a.auctionHouseEntry price).toNat ≤ price + a.deposit := by
  have hentry := List.all_eq_true.1 h.parts.2.2.1 (id, a) (OMap.mem_entries.2 hlive)
  rw [hends, hprice] at hentry
  simpa using hentry

theorem mailbox_of_purse (h : everybodyExists event w = true)
    (hpurse : ∃ money, w.books.purses.find? player = some money) : match event with
    | .placeBid env .. | .removeItem env .. | .update env _ => env.hasMailbox player = true
    | _ => True := by
  obtain ⟨money, hmoney⟩ := hpurse
  obtain ⟨p, hp, -⟩ := find?_purses hmoney
  have hkey : player ∈ w.players.keys := OMap.mem_keys.2 ⟨p, hp⟩
  cases event with
  | placeBid | removeItem | update => exact List.all_eq_true.1 h player hkey
  | _ => trivial

/-! ## The steps -/

theorem purse_of_hasEnoughMoney (h : w.hasEnoughMoney player price = true) :
    ∃ money, w.books.purses.find? player = some money ∧ price ≤ money := by
  obtain ⟨p, hp, hle⟩ := (Option.any_eq_true _ _).1 h
  refine ⟨p.money, ?_, of_decide_eq_true hle⟩
  show (w.players.mapValues fun _ p => p.money).find? player = _
  rw [OMap.find?_mapValues, hp]
  rfl

theorem sound_handlePlaceBid (h : Books.Sound total w.books) {i p : UInt32}
    (hok : Fair r (.placeBid env player house i p) w) :
    w.books.Next total (w.handleAuctionPlaceBid r env player house i p).books := by
  unfold handleAuctionPlaceBid
  extract_lets id price
  split
  next => exact h.next
  split
  next => exact h.next
  next a hauction =>
  obtain ⟨hlive, hhouse⟩ := getAuction_some hauction
  have hstake := h.stakes id a hlive
  split
  next => exact h.next
  split
  next => exact h.next
  next hmore =>
  split
  next => exact h.next
  split
  next => exact h.next
  next hmoney =>
  obtain ⟨money, hmoney, hle⟩ := purse_of_hasEnoughMoney (not_not.1 hmoney)
  have hbidder : a.bidder ≠ 0 → env.hasMailbox a.bidder = true := fun hne =>
    mailbox_of_purse hok.parts.2.1 (hstake.bidder hne)
  split
  next hbid => exact sound_placeBid h hlive hmoney hle (by omega) hbid hbidder
  next hbuyout =>
  have hends : Event.ends (.placeBid env player house i p) id a = true := by
    rw [Bool.not_eq_true] at hbuyout
    simp [Event.ends, hhouse, id, price, hbuyout]
  obtain ⟨hpaid, hcut⟩ := hok.sale hlive hends rfl
  simp only [AuctionEntry.isBid, Bool.or_eq_true, decide_eq_true_eq, not_or, Nat.not_lt] at hbuyout
  exact sound_buyOut h hlive hmoney (by omega) hbuyout.2 hpaid hbidder
    (mailbox_of_purse hok.parts.2.1 hstake.owner) hcut

theorem kept_forfeited {k : Nat} :
    w.books.cuts + w.books.forfeited + w.books.fees ≤ w.books.cuts + (w.books.forfeited + k) + w.books.fees := by
  omega

theorem sound_removeItem (h : Books.Sound total w.books) (hok : Fair r (.removeItem env player house id) w) :
    w.books.Next total (w.handleAuctionRemoveItem r env player house id).books := by
  unfold handleAuctionRemoveItem
  split
  next => exact h.next
  next a hauction =>
  obtain ⟨hauction, -⟩ := Option.filter_eq_some_iff.1 hauction
  obtain ⟨hlive, hhouse⟩ := getAuction_some hauction
  have hstake := h.stakes id a hlive
  split
  next => exact h.next
  next item hitem =>
  extract_lets cut v v'
  split
  next => exact h.next
  next hmoney =>
  have hnote : ∀ u : World, (u.noteForfeit id).books =
    { u.books with forfeited := u.books.forfeited + u.books.charged id } := fun _ => rfl
  have hv' : v'.books = { v.books with mails := v.books.mails ++ [⟨player, .canceled, id, 0, 0, a.deposit, 0, 0, false,
    some (a.itemGUIDLow, item)⟩] } := rfl
  have hidle := idle_singleton (m := ⟨player, .canceled, id, 0, 0, a.deposit, 0, 0, false, some (a.itemGUIDLow, item)⟩)
    rfl (by simp)
  rw [hnote, books_removeAuction, hv']
  by_cases hbidder : a.bidder > 0
  · have henough : w.hasEnoughMoney player cut = true := by simpa [hbidder] using hmoney
    obtain ⟨money, hmoney, hle⟩ := purse_of_hasEnoughMoney henough
    have hmail : env.hasMailbox a.bidder = true := mailbox_of_purse hok.parts.2.1 (hstake.bidder (by omega))
    have hv : v.books = { w.books with
        purses := w.books.purses.insert player (money - cut)
        mails := w.books.mails ++ [⟨a.bidder, .cancelledToBidder, id, a.owner, a.bid, a.deposit, 0, a.bid, false, none⟩]
        fees := w.books.fees + cut } := by
      have hsent : (w.sendAuctionCancelledToBidderMail env id a).books = { w.books with mails := w.books.mails ++
          [⟨a.bidder, .cancelledToBidder, id, a.owner, a.bid, a.deposit, 0, a.bid, false, none⟩] } := by
        unfold sendAuctionCancelledToBidderMail
        rw [if_pos hmail]
        rfl
      have hcase : v = (w.sendAuctionCancelledToBidderMail env id a).payFee player cut := if_pos hbidder
      rw [hcase, books_payFee (w := w.sendAuctionCancelledToBidderMail env id a) (by rw [hsent]; exact hmoney) hle
        (h.purses player money hmoney).2, hsent]
    rw [hv]
    have hcancel := (h.fee hmoney hle).cancel ⟨a.bidder, .cancelledToBidder, id, a.owner, a.bid, a.deposit, 0, a.bid,
      false, none⟩ hlive ⟨rfl, rfl, rfl, rfl⟩ hidle
    rw [List.append_cons] at hcancel
    refine ⟨hcancel, ?_⟩
    show _ ≤ w.books.cuts + (w.books.forfeited + _) + (w.books.fees + cut)
    omega
  · have hv : v = w := if_neg hbidder
    rw [hv]
    exact ⟨h.expire hlive (hstake.none (by omega)) hidle, kept_forfeited⟩

theorem sound_update (h : Books.Sound total w.books) (hok : Fair r (.update env id) w) :
    w.books.Next total (w.updateAuction r env id).books := by
  unfold updateAuction
  split
  next => exact h.next
  next a hlive =>
  have hstake := h.stakes id a hlive
  split
  next => exact h.next
  next hdue =>
  have hends : Event.ends (.update env id) id a = true := by simp [Event.ends]; omega
  split
  next hunsold =>
    obtain ⟨new, hnew, hexpired⟩ := books_expired env id a w
    have hnote : ∀ u : World, (u.noteForfeit id).books =
      { u.books with forfeited := u.books.forfeited + u.books.charged id } := fun _ => rfl
    rw [hnote, books_removeAuction, hexpired]
    exact ⟨h.expire hlive hunsold.2 hnew, kept_forfeited⟩
  next hsold =>
  obtain ⟨hpaid, hcut⟩ := hok.sale hlive hends (if_neg hsold)
  have hnil : ∀ m ∈ ([] : List AuctionMail), m.Idle := by simp
  exact sound_sale h hlive hpaid (mailbox_of_purse hok.parts.2.1 hstake.owner) hcut hnil
    (by rw [List.append_nil]; rfl) rfl

theorem mem_pendingAuctions (h : id ∈ w.pendingAuctions player) : w.isPending id = true := by
  unfold pendingAuctions at h
  cases hqueue : w.pendingAuctionMap.find? player with
  | none =>
    rw [hqueue] at h
    cases h
  | some queue =>
    rw [hqueue] at h
    exact isPending_of_mem (n := queue.2) hqueue h

theorem sound_sell (h : Books.Sound total w.books) {seller : Nat} {req : SellRequest}
    (hs : w.handleAuctionSellItem r env seller req = some w') : w.books.Next total w'.books := by
  rcases sell_cases hs with rfl | hsale
  · exact h.next
  obtain ⟨p, a, item, items, itemGuid, hp, hnew, -, hcreate⟩ := hsale
  have howner := hnew.owner
  subst howner
  rcases createAuction_cases (w := { w with itemGuid := itemGuid }) (p := p) hp hcreate with rfl | hcreated
  · exact ⟨h.nextId, Nat.le_refl _⟩
  obtain ⟨-, n, rfl⟩ := hcreated
  have hpurse : w.books.purses.find? a.owner = some p.money := by
    show (w.players.mapValues fun _ p => p.money).find? a.owner = _
    rw [OMap.find?_mapValues, hp]
    rfl
  have hstake : Books.Stake w.books.purses a := by
    refine ⟨?_, hnew.buyout, .inr ?_, fun _ => hnew.bid, fun hne => absurd hnew.bidder hne, ⟨_, hpurse⟩⟩ <;> rw [hnew.bid]
    · exact Nat.two_pow_pos 31
    · exact Nat.zero_le _
  have hbooks : (withAuction a item items p n { w with itemGuid := itemGuid }).books = { w.books with
      auctions := w.books.auctions.insert w.books.auctionId a
      auctionId := w.books.auctionId + 1
      queued := (withAuction a item items p n { w with itemGuid := itemGuid }).isPending } := by
    have hpurses : (w.players.insert a.owner { p with items := items }).mapValues (fun _ p => p.money) = w.books.purses := by
      rw [OMap.mapValues_insert]
      exact OMap.insert_find? hpurse
    show ({ w.books with
      purses := (w.players.insert a.owner { p with items := items }).mapValues fun _ p => p.money
      auctions := _, auctionId := _, queued := _ } : Books) = _
    rw [hpurses]
    rfl
  rw [hbooks]
  refine ⟨h.open hstake hnew.bid fun id hid => ?_, Nat.le_refl _⟩
  obtain ⟨player, ids, m, hqueue, hid⟩ := isPending_iff.1 hid
  have hqueue : (w.pendingAuctionMap.insert a.owner (w.pendingAuctions a.owner ++ [w.auctionId], n)).find? player =
    some (ids, m) := hqueue
  rw [OMap.find?_insert] at hqueue
  split at hqueue
  next =>
    cases hqueue
    rcases List.mem_append.1 hid with hid | hid
    · exact .inl (mem_pendingAuctions hid)
    · exact .inr (List.mem_singleton.1 hid)
  next => exact .inl (isPending_of_mem hqueue hid)

theorem sound_takeMoney (h : Books.Sound total w.books) {mail : Nat} (hok : Fair r (.takeMoney player mail) w) :
    w.books.Next total (w.handleMailTakeMoney player mail).books := by
  unfold handleMailTakeMoney
  split
  next m p hm hp =>
    obtain ⟨hm, hfilter⟩ := Option.filter_eq_some_iff.1 hm
    have htaken : m.taken = false := by simpa using (Bool.and_eq_true_iff.1 hfilter).2
    have hsmall : m.money < 2 ^ 31 := by
      have := hok.parts.2.2.2
      simp only [smallAmounts, hm, Option.all_some, decide_eq_true_eq] at this
      exact this
    have hpurse : w.books.purses.find? player = some p.money := by
      show (w.players.mapValues fun _ p => p.money).find? player = _
      rw [OMap.find?_mapValues, hp]
      rfl
    have hamount : int32 (m.money : Int) = (m.money : Int) := int32_small (by omega) (by omega)
    rw [hamount]
    unfold takeMoney
    split
    next => exact h.next
    next money hmoney =>
    obtain ⟨rfl, hlt⟩ := modifyMoney_receive hsmall hmoney (h.purses player _ hpurse).2
    have hbooks : books { w with
        mails := w.mails.set mail { m with taken := true }
        players := w.players.insert player { p with money := p.money + m.money } } = { w.books with
          purses := w.books.purses.insert player (p.money + m.money)
          mails := w.books.mails.set mail { m with taken := true } } := by
      show ({ w.books with purses := _, mails := _ } : Books) = _
      rw [OMap.mapValues_insert]
      rfl
    rw [hbooks]
    exact ⟨h.setMail hm rfl hpurse hlt (by rw [AuctionMail.content, AuctionMail.content, htaken]; rfl), Nat.le_refl _⟩
  next => exact h.next

/-- An item that is taken is no money, and its mail stays. -/
theorem sound_takeItem (h : Books.Sound total w.books) (player mail : Nat) :
    w.books.Next total (w.handleMailTakeItem player mail).books := by
  unfold handleMailTakeItem
  split
  next m p hm hp =>
    obtain ⟨hm, -⟩ := Option.filter_eq_some_iff.1 hm
    split
    next => exact h.next
    next guid item _ =>
    have hpurse : w.books.purses.find? player = some p.money := by
      show (w.players.mapValues fun _ p => p.money).find? player = _
      rw [OMap.find?_mapValues, hp]
      rfl
    have hbooks : books { w with
        mails := w.mails.set mail { m with item := none }
        players := w.players.insert player { p with items := p.items.insert guid item } } = { w.books with
          purses := w.books.purses.insert player p.money
          mails := w.books.mails.set mail { m with item := none } } := by
      show ({ w.books with purses := _, mails := _ } : Books) = _
      rw [OMap.mapValues_insert]
      rfl
    rw [hbooks]
    exact ⟨h.setMail hm rfl hpurse (h.purses player _ hpurse).2 rfl, Nat.le_refl _⟩
  next => exact h.next

/-! ## The queues -/

theorem sum_depositShares (share : Nat) : ∀ (depositremain : Nat) (ids : List Nat), ids ≠ [] →
    share * ids.length ≤ depositremain → ((depositShares share depositremain ids).map Prod.snd).sum = depositremain
  | depositremain, [_], _, _ => by simp [depositShares]
  | depositremain, id :: id' :: ids, _, hle => by
    rw [List.length_cons, Nat.mul_succ] at hle
    have ih := sum_depositShares share (depositremain - share) (id' :: ids) (by simp) (by omega)
    rw [depositShares, List.map_cons, List.sum_cons, ih]
    · omega
    · intro h
      cases h

theorem noteCharged_other (hid : id ∉ shares.map Prod.fst) (taken : Nat) (charged : Nat → Nat) :
    noteCharged shares taken charged id = charged id := by
  induction shares generalizing taken charged with
  | nil => rfl
  | cons s shares ih =>
    rw [List.map_cons, List.mem_cons, not_or] at hid
    rw [noteCharged, ih hid.2, Function.update_of_ne hid.1]

/-- Whoever can pay for all of them pays for each. -/
theorem noteCharged_share
    (hnodup : (shares.map Prod.fst).Nodup) (hsum : (shares.map Prod.snd).sum ≤ taken) (hmem : (id, share) ∈ shares) :
    noteCharged shares taken charged id = share := by
  induction shares generalizing taken charged with
  | nil => cases hmem
  | cons s shares ih =>
    obtain ⟨hnotMem, hnodup⟩ := List.nodup_cons.1 hnodup
    rw [List.map_cons, List.sum_cons] at hsum
    rw [noteCharged]
    rcases List.mem_cons.1 hmem with rfl | hmem
    · rw [noteCharged_other hnotMem, Function.update_self]
      exact min_eq_left (by omega)
    · exact ih hnodup (by omega) hmem

/-- What was taken is what stands beside the auctions. -/
theorem total_noteCharged (hnodup : (shares.map Prod.fst).Nodup)
    (hlive : ∀ s ∈ shares, charged s.1 = 0 ∧ ∃ a, auctions.find? s.1 = some a) (hle : taken ≤ (shares.map Prod.snd).sum) :
    (auctions.total fun id a => a.bid + noteCharged shares taken charged id) =
      (auctions.total fun id a => a.bid + charged id) + taken := by
  induction shares generalizing taken charged with
  | nil =>
    obtain rfl : taken = 0 := Nat.le_zero.1 hle
    rfl
  | cons s shares ih =>
    obtain ⟨hnotMem, hnodup⟩ := List.nodup_cons.1 hnodup
    obtain ⟨hzero, a, ha⟩ := hlive s List.mem_cons_self
    rw [List.map_cons, List.sum_cons] at hle
    have hfirst := OMap.total_update ha (fun _ a => a.bid) charged (min s.2 taken)
    have hrest := @ih (taken - min s.2 taken) (Function.update charged s.1 (min s.2 taken)) hnodup
      (fun t ht => by
        have hne : t.1 ≠ s.1 := fun heq => hnotMem (List.mem_map.2 ⟨t, ht, heq⟩)
        rw [Function.update_of_ne hne]
        exact hlive t (List.mem_cons_of_mem _ ht)) (by omega)
    rw [noteCharged, hrest]
    omega

theorem find?_writeEntry_of_ne {f : AuctionEntry → AuctionEntry} (hne : i ≠ id) (w : World) :
    (w.writeEntry env id f).auctions.find? i = w.auctions.find? i := by
  unfold writeEntry
  dsimp only
  split
  next => exact OMap.find?_insert_of_ne hne
  next => rfl

theorem find?_foldl_of_notMem {α : Type} {f : α → AuctionEntry → AuctionEntry} {g : α → Nat} {l : List α} (hid : id ∉ l.map g)
    (w : World) : (l.foldl (fun w x => w.writeEntry env (g x) (f x)) w).auctions.find? id = w.auctions.find? id := by
  induction l generalizing w with
  | nil => rfl
  | cons x l ih =>
    rw [List.map_cons, List.mem_cons, not_or] at hid
    rw [List.foldl_cons, ih hid.2, find?_writeEntry_of_ne hid.1]

/-- Every entry has the deposit that was written for it. -/
theorem deposit_foldl (hnodup : (shares.map Prod.fst).Nodup) (hmem : (id, share) ∈ shares)
    (hlive : (shares.foldl (fun w s => w.writeEntry env s.1 ({ · with deposit := s.2 })) v).auctions.find? id = some a) :
    a.deposit = share := by
  induction shares generalizing v with
  | nil => cases hmem
  | cons s shares ih =>
    obtain ⟨hnotMem, hnodup⟩ := List.nodup_cons.1 hnodup
    rw [List.foldl_cons] at hlive
    rcases List.mem_cons.1 hmem with rfl | hmem
    · rw [find?_foldl_of_notMem (g := Prod.fst) (f := fun (s : Nat × Nat) a => { a with deposit := s.2 }) hnotMem] at hlive
      unfold writeEntry readEntry at hlive
      cases hfound : v.auctions.find? id with
      | none => simp [hfound] at hlive
      | some a' =>
        simp only [hfound, Option.isSome_some, if_true, Option.getD_some, OMap.find?_insert_self, Option.some.injEq] at hlive
        rw [← hlive]
    · exact ih hnodup hmem hlive

theorem live_of_queue (h : w.Listed) (hqueue : w.pendingAuctionMap.find? player = some (ids, n))
    (hi : isPending i { w with pendingAuctionMap := w.pendingAuctionMap.erase player } = true) :
    w.isPending i = true ∧ i ∉ ids := by
  obtain ⟨player', ids', n', hqueue', hmem⟩ := isPending_iff.1 hi
  have hqueue' : (w.pendingAuctionMap.erase player).find? player' = some (ids', n') := hqueue'
  rw [OMap.find?_erase] at hqueue'
  split at hqueue'
  next => cases hqueue'
  next hne =>
  refine ⟨isPending_of_mem hqueue' hmem, fun hmem' => hne ?_⟩
  -- an auction is in the queue of its owner only
  obtain ⟨a, ha, howner⟩ := h.live player ids n hqueue i hmem'
  obtain ⟨a', ha', howner'⟩ := h.live player' ids' n' hqueue' i hmem
  obtain rfl : a = a' := Option.some.inj (ha.symm.trans ha')
  exact howner'.symm.trans howner

theorem ledger_modify (player : Nat) (amount : Int) (w : World) : (w.modifyPlayerMoney player amount).ledger = w.ledger := by
  unfold modifyPlayerMoney
  split
  next => rfl
  next => split <;> rfl

/-- Nobody's purse pays nothing. -/
theorem modify_none (h : w.books.purses.find? player = none) (amount : Int) :
    w.modifyPlayerMoney player amount = w := by
  have hnone : w.players.find? player = none := by
    have hmap : (w.players.mapValues fun _ p => p.money).find? player = none := h
    rwa [OMap.find?_mapValues, Option.map_eq_none_iff] at hmap
  unfold modifyPlayerMoney
  rw [hnone]

theorem sound_process (h : Books.Sound total w.books) (hlisted : w.Listed)
    (hqueue : w.pendingAuctionMap.find? player = some (ids, n)) (hsmall : w.totalDeposit r env ids < 2 ^ 31) :
    w.books.Next total (w.pendingAuctionProcess r env player ids).books := by
  have hlive := hlisted.live player ids n hqueue
  have hnodup := hlisted.nodup player ids n hqueue
  unfold pendingAuctionProcess
  rw [touch_live fun id hid => (hlive id hid).imp fun _ ha => ha.1]
  extract_lets totaldeposit shares money v u
  have hids : shares.map Prod.fst = ids := map_depositShares _ _ _
  have hv : Rewritten (shares.map Prod.fst) w v :=
    rewritten_foldl env (f := fun (s : Nat × Nat) a => { a with deposit := s.2 }) (fun _ _ => rfl) Prod.fst shares w
  rw [hids] at hv
  have hbooks : books { v with pendingAuctionMap := v.pendingAuctionMap.erase player } = { w.books with
      auctions := v.auctions
      queued := isPending (w := { w with pendingAuctionMap := w.pendingAuctionMap.erase player }) } := by
    rw [hv.eq]
    rfl
  have hqueued := fun i => live_of_queue hlisted hqueue (i := i)
  have hledger : u.ledger = w.ledger := (ledger_modify ..).trans (by rw [hv.eq])
  have hfinal : ∀ charged paid, books { u with ledger := { u.ledger with charged := charged, paid := paid } } =
    { u.books with charged := charged, paid := paid } := fun _ _ => rfl
  rw [hfinal, hledger]
  cases hpurse : w.books.purses.find? player with
  | none =>
    -- an owner has a purse, so the queue is empty
    obtain rfl : ids = [] := by
      cases ids with
      | nil => rfl
      | cons id ids =>
        obtain ⟨a, ha, howner⟩ := hlive id List.mem_cons_self
        obtain ⟨money, hmoney⟩ := (h.stakes id a ha).owner
        rw [howner, hpurse] at hmoney
        cases hmoney
    have hu : u = { v with pendingAuctionMap := v.pendingAuctionMap.erase player } := modify_none (by rw [hbooks]; exact hpurse) _
    rw [hu, hbooks, List.append_nil, ite_self]
    exact ⟨h.unqueue hv.goods (fun _ => rfl) fun i hi => (hqueued i hi).1, Nat.le_refl _⟩
  | some m =>
    have hm := (h.purses player m hpurse).2
    have hmoney : money = m := by
      obtain ⟨p, hp, rfl⟩ := find?_purses hpurse
      show ((w.players.find? player).map (·.money)).getD 0 = p.money
      rw [hp]
      rfl
    have hu : u.books = { w.books with
        purses := w.books.purses.insert player (m - totaldeposit)
        auctions := v.auctions
        queued := isPending (w := { w with pendingAuctionMap := w.pendingAuctionMap.erase player }) } := by
      have hpay := books_pay (w := { v with pendingAuctionMap := v.pendingAuctionMap.erase player }) (by rw [hbooks]; exact hpurse)
        hsmall hm
      rw [hbooks] at hpay
      exact hpay
    have hleft : u.purse player = m - totaldeposit := by
      have hfind : u.books.purses.find? player = some (m - totaldeposit) := by
        rw [hu]
        exact OMap.find?_insert_self ..
      obtain ⟨p, hp, hpm⟩ := find?_purses hfind
      show ((u.players.find? player).map (·.money)).getD 0 = _
      rw [hp, ← hpm]
      rfl
    have hsum : (shares.map Prod.snd).sum = totaldeposit := by
      by_cases hnil : ids = []
      · subst hnil
        rfl
      · exact sum_depositShares _ _ _ hnil (Nat.div_mul_le_self _ _)
    rw [hleft, hmoney, hu]
    generalize htaken : m - (m - totaldeposit) = taken
    rw [show m - totaldeposit = m - taken by omega]
    refine ⟨h.charge ids hpurse (by omega) (fun id hid => ?_) hv.goods (fun id hid => ⟨?_, ?_⟩) ?_ (fun id hid => ?_) hqueued,
      Nat.le_refl _⟩
    · obtain ⟨a, ha, -⟩ := hlive id hid
      exact ⟨isPending_of_mem hqueue hid, h.live id a ha, a, ha⟩
    · exact find?_foldl_of_notMem (f := fun (s : Nat × Nat) a => { a with deposit := s.2 }) (hids ▸ hid) w
    · exact noteCharged_other (hids ▸ hid) taken w.ledger.charged
    · refine total_noteCharged (hids ▸ hnodup) (fun s hs => ?_) (by omega)
      have hid : s.1 ∈ ids := hids ▸ List.mem_map_of_mem hs
      exact ⟨(h.unpaid s.1 (.inr (isPending_of_mem hqueue hid))).1, (hlive s.1 hid).imp fun _ ha => ha.1⟩
    · split at hid
      next hpays =>
        refine (List.mem_append.1 hid).imp_right fun hid => ⟨hid, fun a ha => ?_⟩
        obtain ⟨s, hs, rfl⟩ := List.mem_map.1 (hids ▸ hid)
        have hdeposit : a.deposit = s.2 := deposit_foldl (hids ▸ hnodup) hs ha
        have hle : s.2 ≤ (shares.map Prod.snd).sum := List.single_le_sum (by simp) _ (List.mem_map_of_mem hs)
        refine ⟨?_, by omega⟩
        rw [hdeposit]
        exact noteCharged_share (hids ▸ hnodup) (by omega) hs
      next => exact .inl hid

theorem deposit_foldl_time (env : Env) (ids : List Nat) (i : Nat) (w : World) :
    ((ids.foldl (fun w id => w.writeEntry env id ({ · with expire_time := env.now })) w).auctions.find? i).map (·.deposit) =
      (w.auctions.find? i).map (·.deposit) := by
  induction ids generalizing w with
  | nil => rfl
  | cons id ids ih =>
    rw [List.foldl_cons, ih]
    exact map_writeEntry (f := fun a => { a with expire_time := env.now }) (fun a => a.deposit) (fun _ => rfl) id i w

theorem sound_updatePending (h : Books.Sound total w.books) (hlisted : w.Listed)
    (hok : Fair r (.updatePending env player) w) : w.books.Next total (w.updatePendingAuctions r env player).books := by
  unfold updatePendingAuctions
  cases hqueue : w.pendingAuctionMap.find? player with
  | none => exact h.next
  | some queue =>
    obtain ⟨ids, n⟩ := queue
    dsimp -zeta only
    split
    next hconnected =>
      split
      next hlength =>
        refine sound_process h hlisted hqueue ?_
        have hsmall := hok.parts.2.2.2
        simpa [smallAmounts, hqueue, hconnected, hlength] using hsmall
      next =>
      refine ⟨h.unqueue (A := w.auctions) (fun _ => rfl) (fun _ => rfl) fun i hi => ?_, Nat.le_refl _⟩
      obtain ⟨player', ids', m, hqueue', hmem⟩ := isPending_iff.1 hi
      have hqueue' : (w.pendingAuctionMap.insert player (ids, ids.length)).find? player' = some (ids', m) := hqueue'
      rw [OMap.find?_insert] at hqueue'
      split at hqueue'
      next =>
        cases hqueue'
        exact isPending_of_mem hqueue hmem
      next => exact isPending_of_mem hqueue' hmem
    next =>
    -- the seller is offline: his auctions expire at once, and nothing is charged
    have hlive := hlisted.live player ids n hqueue
    rw [touch_live fun id hid => (hlive id hid).imp fun _ ha => ha.1]
    extract_lets v
    have hv : Rewritten (ids.map id) w v :=
      rewritten_foldl env (f := fun (_ : Nat) a => { a with expire_time := env.now }) (fun _ _ => rfl) id ids w
    have hbooks : books { v with pendingAuctionMap := v.pendingAuctionMap.erase player } = { w.books with
        auctions := v.auctions
        queued := isPending (w := { w with pendingAuctionMap := w.pendingAuctionMap.erase player }) } := by
      rw [hv.eq]
      rfl
    rw [hbooks]
    exact ⟨h.unqueue hv.goods (fun i => deposit_foldl_time env ids i w) fun i hi => (live_of_queue hlisted hqueue hi).1,
      Nat.le_refl _⟩

theorem sound_step (h : Books.Sound total w.books) (hlisted : w.Listed) (hok : Fair r event w)
    (hs : step r event w = some w') : w.books.Next total w'.books := by
  cases event with
  | sell env seller req => exact sound_sell h hs
  | placeBid env player house id price =>
    cases hs
    exact sound_handlePlaceBid h hok
  | removeItem env player house id =>
    cases hs
    exact sound_removeItem h hok
  | update env id =>
    cases hs
    exact sound_update h hok
  | updatePending env player =>
    cases hs
    exact sound_updatePending h hlisted hok
  | takeMoney player mail =>
    cases hs
    exact sound_takeMoney h hok
  | takeItem player mail =>
    cases hs
    exact sound_takeItem h player mail

/-- The money that has left the purses, the auctions and the mails. -/
def kept (w : World) : Nat := w.ledger.cuts + w.ledger.forfeited + w.ledger.fees

/-! ## The runs -/

theorem sound_start {players : OMap Nat Player} (itemGuid : Nat)
    (hplayers : ∀ player p, players.find? player = some p → player ≠ 0 ∧ p.money ≤ MAX_MONEY_AMOUNT.toNat) :
    Books.Sound (players.total fun _ p => p.money) (start players itemGuid).books where
  purses player money hmoney := by
    obtain ⟨p, hp, rfl⟩ := find?_purses hmoney
    obtain ⟨hne, hle⟩ := hplayers player p hp
    have hmax : MAX_MONEY_AMOUNT.toNat = 2147483647 := rfl
    exact ⟨hne, by omega⟩
  stakes id a hlive := by cases hlive
  live id a hlive := by cases hlive
  paid id a hlive := by cases hlive
  unpaid id _ := ⟨rfl, List.not_mem_nil⟩
  total := OMap.total_mapValues players (fun _ p => p.money) fun _ money => money
  each player := rfl
  settled m hm := by cases hm
  once := List.nodup_nil

/-- Purses, auctions and mails together lose what is kept, and gain nothing; every bid is in its auction, with its bidder
again or with the seller; whoever was paid got the bid and the deposit that was taken from him, less the cut, and was paid
once for each auction. In every fair run. -/
theorem reaches_money (r : Rules) {players : OMap Nat Player} (itemGuid : Nat)
    (hplayers : ∀ player p, players.find? player = some p → player ≠ 0 ∧ p.money ≤ MAX_MONEY_AMOUNT.toNat)
    (hr : Reaches (step r) (Fair r) (start players itemGuid) w) :
    w.books.worth + w.kept = players.total (fun _ p => p.money) ∧
    (∀ event w', Fair r event w → step r event w = some w' → w'.books.worth ≤ w.books.worth) ∧
    (∀ player, w.ledger.placed player = w.books.held player + w.books.returned player + w.books.spent player) ∧
    (∀ m ∈ w.mails, m.response = .successful →
      m.money + m.cut = m.bid + m.deposit ∧ w.ledger.charged m.auctionId = m.deposit) ∧
    ((w.mails.filter (·.response = .successful)).map (·.auctionId)).Nodup := by
  have h : w.Listed ∧ Books.Sound (players.total fun _ p => p.money) w.books :=
    hr.invariant (fun w => w.Listed ∧ Books.Sound (players.total fun _ p => p.money) w.books)
      (fun _ _ _ h hok hs => ⟨h.1.step hok.parts.1 hs, (sound_step h.2 h.1 hok hs).1⟩)
      ⟨.start players itemGuid, sound_start itemGuid hplayers⟩
  have hsum : ∀ {v : World}, Books.Sound (players.total fun _ p => p.money) v.books →
      v.books.worth + v.kept = players.total fun _ p => p.money := fun {v} hv => by
    have htotal := hv.total
    have hkept : v.kept = v.books.cuts + v.books.forfeited + v.books.fees := rfl
    omega
  refine ⟨hsum h.2, fun event w' hok hs => ?_, h.2.each, fun m hm hresponse => ?_, h.2.once⟩
  · obtain ⟨hsound, hkept⟩ := sound_step h.2 h.1 hok hs
    have hnext := hsum hsound
    have hnow := hsum h.2
    have hkept : w.kept ≤ w'.kept := hkept
    omega
  · have hsettled := h.2.settled m hm hresponse
    exact ⟨hsettled.money, hsettled.charged⟩

/-- An auction whose deposit has been charged is bid on and bought out, and its seller takes the money. -/
theorem reaches_money_sale : ∃ w, Reaches (step plainRules) (Fair plainRules) (start somePlayers 20) w ∧
    w.ledger.cuts = 100 ∧ w.purse 1 = 2900 ∧ w.books.worth + w.kept = 6000 ∧
    w.ledger.placed 2 = w.books.held 2 + w.books.returned 2 + w.books.spent 2 := by
  have hrun : (runSteps (allowed (step plainRules) (Fair plainRules)) [.sell (everybody 0) 1 (someRequest 3),
      .updatePending (everybody 0) 1, .updatePending (everybody 0) 1, .placeBid (everybody 0) 2 .neutral 1 150,
      .placeBid (everybody 0) 2 .neutral 1 2000, .takeMoney 1 1] (start somePlayers 20)).any (fun w =>
        w.ledger.cuts = 100 && w.purse 1 = 2900) = true := by decide +kernel
  obtain ⟨w, hw, hany⟩ := (Option.any_eq_true _ _).1 hrun
  rw [Bool.and_eq_true, decide_eq_true_eq, decide_eq_true_eq] at hany
  have hplayers : ∀ player p, somePlayers.find? player = some p → player ≠ 0 ∧ p.money ≤ MAX_MONEY_AMOUNT.toNat := by
    intro player p hp
    have hmem : (player, p) ∈ somePlayers.entries := OMap.mem_entries.2 hp
    have hall : ∀ e ∈ somePlayers.entries, e.1 ≠ 0 ∧ e.2.money ≤ MAX_MONEY_AMOUNT.toNat := by decide
    exact hall _ hmem
  have hr : Reaches (step plainRules) (Fair plainRules) (start somePlayers 20) w := .of_allowed (.of_runSteps hw)
  have hmoney := reaches_money plainRules 20 hplayers hr
  have htotal : (somePlayers.total fun _ p => p.money) = 6000 := by decide
  exact ⟨w, hr, hany.1, hany.2, hmoney.1.trans htotal, hmoney.2.2.1 2⟩

/-- An auction that is bought out while it is in its queue: its seller gets a deposit back that he never paid, and there is
more money than before. -/
theorem money_from_nothing : ∃ w, Reaches (step plainRules) (fun _ _ => True) (start somePlayers 20) w ∧
    (start somePlayers 20).books.worth < w.books.worth ∧
    ∃ m ∈ w.mails, m.response = .successful ∧ m.deposit = 15 ∧ w.ledger.charged m.auctionId = 0 := by
  have hrun : (runSteps (step plainRules) [.sell (everybody 0) 1 ⟨.neutral, 7, [(10, 3)], 1, 10, 720⟩,
      .placeBid (everybody 0) 2 .neutral 1 10] (start somePlayers 20)).any (fun w =>
        (start somePlayers 20).books.worth < w.books.worth &&
        w.mails.any fun m => m.response = .successful && m.deposit = 15 && w.ledger.charged m.auctionId = 0) = true := by
    decide +kernel
  obtain ⟨w, hw, hany⟩ := (Option.any_eq_true _ _).1 hrun
  rw [Bool.and_eq_true, decide_eq_true_eq, List.any_eq_true] at hany
  obtain ⟨hworth, m, hm, hmail⟩ := hany
  rw [Bool.and_eq_true, Bool.and_eq_true, decide_eq_true_eq, decide_eq_true_eq, decide_eq_true_eq] at hmail
  exact ⟨w, .of_runSteps hw, hworth, m, hm, hmail.1.1, hmail.1.2, hmail.2⟩

end World

end AtlasWow.AuctionHouse
