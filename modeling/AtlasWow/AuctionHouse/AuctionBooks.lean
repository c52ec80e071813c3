/-
The books of the auction house: purses, the money that auctions hold, and the
money in mails, with what has been kept of it. Every entry in the books moves
money from one of these to another, so their sum is that of the first day
(`Sound.total`), and what a player has staked is held, back, or spent
(`Sound.each`).
-/
import AtlasWow.AuctionHouse.AuctionHouse

namespace AtlasWow.AuctionHouse

structure Books where
  purses : OMap Nat Nat
  auctions : OMap Nat AuctionEntry
  mails : List AuctionMail
  auctionId : Nat
  /-- Whether the deposit of an auction is still to be charged. -/
  queued : Nat → Bool
  placed : Nat → Nat
  charged : Nat → Nat
  paid : List Nat
  cuts : Nat
  forfeited : Nat
  fees : Nat

/-- The money in a mail, until it is taken. -/
def AuctionMail.content (m : AuctionMail) : Nat := if m.taken then 0 else m.money

/-- The money of a bid that a mail brought back to a player. -/
def AuctionMail.returns (player : Nat) (m : AuctionMail) : Nat :=
  if m.receiver = player ∧ (m.response = .outbidded ∨ m.response = .cancelledToBidder) then m.money else 0

/-- The money of a player's bid that a mail brought to a seller. -/
def AuctionMail.spends (player : Nat) (m : AuctionMail) : Nat :=
  if m.response = .successful ∧ m.lowGuid = player then m.bid else 0

/-- A mail that moves no money. -/
structure AuctionMail.Idle (m : AuctionMail) : Prop where
  money : m.money = 0
  response : m.response ≠ .successful

/-- The mail that pays a seller. -/
def soldMail (id cut : Nat) (a : AuctionEntry) : AuctionMail :=
  ⟨a.owner, .successful, id, a.bidder, a.bid, a.deposit, cut, a.bid + a.deposit - cut, false, none⟩

def mailTotal (f : AuctionMail → Nat) (mails : List AuctionMail) : Nat := (mails.map f).sum

theorem mailTotal_append (f : AuctionMail → Nat) (l l' : List AuctionMail) :
    mailTotal f (l ++ l') = mailTotal f l + mailTotal f l' := by rw [mailTotal, List.map_append, List.sum_append]; rfl

theorem mailTotal_zero {f : AuctionMail → Nat} {l : List AuctionMail} (h : ∀ m ∈ l, f m = 0) : mailTotal f l = 0 := by
  rw [mailTotal, List.sum_eq_zero]
  intro x hx
  obtain ⟨m, hm, rfl⟩ := List.mem_map.1 hx
  exact h m hm

namespace AuctionMail.Idle

variable {m : AuctionMail} {l : List AuctionMail}

theorem content_eq (h : m.Idle) : m.content = 0 := by rw [content, h.money, ite_self]
theorem returns_eq (h : m.Idle) (player : Nat) : m.returns player = 0 := by rw [returns, h.money, ite_self]
theorem spends_eq (h : m.Idle) (player : Nat) : m.spends player = 0 := if_neg fun hc => h.response hc.1

end AuctionMail.Idle

namespace Books

/-- All the money there is. -/
def worth (b : Books) : Nat :=
  b.purses.total (fun _ money => money) + mailTotal AuctionMail.content b.mails + b.auctions.total fun id a => a.bid + b.charged id

def held (player : Nat) (b : Books) : Nat := b.auctions.total fun _ a => if a.bidder = player then a.bid else 0
def returned (player : Nat) (b : Books) : Nat := mailTotal (AuctionMail.returns player) b.mails
def spent (player : Nat) (b : Books) : Nat := mailTotal (AuctionMail.spends player) b.mails

/-- What an auction says of the money in it. -/
structure Stake (purses : OMap Nat Nat) (a : AuctionEntry) : Prop where
  bid : a.bid < 2 ^ 31
  buyout : a.buyout < 2 ^ 31
  le : a.buyout = 0 ∨ a.bid ≤ a.buyout
  none : a.bidder = 0 → a.bid = 0
  bidder : a.bidder ≠ 0 → ∃ money, purses.find? a.bidder = some money
  owner : ∃ money, purses.find? a.owner = some money

/-- A mail that paid a seller: the bid and the deposit that was taken from him, less the cut. -/
structure Settled (charged : Nat → Nat) (auctionId : Nat) (auctions : OMap Nat AuctionEntry) (m : AuctionMail) : Prop where
  money : m.money + m.cut = m.bid + m.deposit
  charged : charged m.auctionId = m.deposit
  id : m.auctionId < auctionId
  gone : auctions.find? m.auctionId = none

structure Sound (total : Nat) (b : Books) : Prop where
  purses : ∀ player money, b.purses.find? player = some money → player ≠ 0 ∧ money < 2 ^ 31
  stakes : ∀ id a, b.auctions.find? id = some a → Stake b.purses a
  live : ∀ id a, b.auctions.find? id = some a → id < b.auctionId
  paid : ∀ id a, b.auctions.find? id = some a → id ∈ b.paid → b.charged id = a.deposit ∧ a.deposit < 2 ^ 31
  unpaid : ∀ id, b.auctionId ≤ id ∨ b.queued id = true → b.charged id = 0 ∧ id ∉ b.paid
  total : b.worth + b.cuts + b.forfeited + b.fees = total
  each : ∀ player, b.placed player = b.held player + b.returned player + b.spent player
  settled : ∀ m ∈ b.mails, m.response = .successful → Settled b.charged b.auctionId b.auctions m
  once : ((b.mails.filter (·.response = .successful)).map (·.auctionId)).Nodup

variable {b : Books} {total : Nat}

/-- The books stay sound, and what has been kept is not given back. -/
def Next (b : Books) (total : Nat) (b' : Books) : Prop :=
  Sound total b' ∧ b.cuts + b.forfeited + b.fees ≤ b'.cuts + b'.forfeited + b'.fees

theorem Sound.next (h : b.Sound total) : b.Next total b := ⟨h, Nat.le_refl _⟩

variable {purses : OMap Nat Nat} {a : AuctionEntry} {player money id : Nat} {new : List AuctionMail}
    {queued : Nat → Bool} {A : OMap Nat AuctionEntry}

theorem Stake.insert (h : Stake purses a) (player money : Nat) : Stake (purses.insert player money) a := by
  have hinsert : ∀ {k}, (∃ m, purses.find? k = some m) → ∃ m, (purses.insert player money).find? k = some m := by
    intro k hk
    rw [OMap.find?_insert]
    split
    · exact ⟨money, rfl⟩
    · exact hk
  exact ⟨h.bid, h.buyout, h.le, h.none, fun hne => hinsert (h.bidder hne), hinsert h.owner⟩

/-- A purse with what is within its limit. -/
theorem Sound.purses_insert (h : b.Sound total) {money' : Nat} (hmoney : b.purses.find? player = some money)
    (hlt : money' < 2 ^ 31) {p m : Nat} (hp : (b.purses.insert player money').find? p = some m) : p ≠ 0 ∧ m < 2 ^ 31 := by
  rw [OMap.find?_insert] at hp
  split at hp
  next heq =>
    cases hp
    exact ⟨heq ▸ (h.purses player money hmoney).1, hlt⟩
  next => exact h.purses p m hp

/-- What becomes of a purse. -/
theorem total_purse (h : purses.find? player = some money) (money' : Nat) :
    (purses.insert player money').total (fun _ money => money) + money = purses.total (fun _ money => money) + money' := by
  rw [OMap.total_insert, OMap.total_erase h]
  omega

theorem filter_unsold (h : ∀ m ∈ new, m.response ≠ .successful) : new.filter (·.response = .successful) = [] := by
  rw [List.filter_eq_nil_iff]
  intro m hm
  rw [decide_eq_true_eq]
  exact h m hm

/-! ## Bids -/

/-- What a bidder pays, and what goes back to the one before him. -/
structure Refund (a : AuctionEntry) (player price due : Nat) (new : List AuctionMail) : Prop where
  total : due + a.bid = price + mailTotal AuctionMail.content new
  each : ∀ p, (if p = player then due else 0) + (if a.bidder = p then a.bid else 0) =
    (if player = p then price else 0) + mailTotal (AuctionMail.returns p) new
  unsold : ∀ m ∈ new, m.response ≠ .successful

theorem spent_unsold (h : ∀ m ∈ new, m.response ≠ .successful) (player : Nat) :
    mailTotal (AuctionMail.spends player) new = 0 := mailTotal_zero fun m hm => if_neg fun hc => h m hm hc.1

theorem Sound.bid (h : b.Sound total) {price due : Nat}
    (hlive : b.auctions.find? id = some a) (hmoney : b.purses.find? player = some money) (hdue : due ≤ money)
    (hprice : price < 2 ^ 31) (hle : a.buyout = 0 ∨ price ≤ a.buyout) (hr : Refund a player price due new) :
    Sound total { b with
      purses := b.purses.insert player (money - due)
      auctions := b.auctions.insert id { a with bidder := player, bid := price }
      mails := b.mails ++ new
      placed := Function.update b.placed player (b.placed player + due) } := by
  have hstake := h.stakes id a hlive
  have hplayer := h.purses player money hmoney
  have hfind : ∀ {i a'}, (b.auctions.insert id { a with bidder := player, bid := price }).find? i = some a' →
      (i = id ∧ a' = { a with bidder := player, bid := price }) ∨ b.auctions.find? i = some a' := by
    intro i a' hi
    rw [OMap.find?_insert] at hi
    split at hi
    next heq => exact .inl ⟨heq, (Option.some.inj hi).symm⟩
    next => exact .inr hi
  refine ⟨fun p m hp => h.purses_insert hmoney (by omega) hp, fun i a' hi => ?_, fun i a' hi => ?_, fun i a' hi hpaid => ?_,
    h.unpaid, ?_, fun p => ?_, ?_, ?_⟩
  · rcases hfind hi with hi | hi
    · obtain ⟨-, rfl⟩ := hi
      have hown := hstake.insert player (money - due)
      exact ⟨hprice, hstake.buyout, hle, fun hzero => absurd hzero hplayer.1, fun _ => ⟨_, OMap.find?_insert_self ..⟩, hown.owner⟩
    · exact (h.stakes i a' hi).insert player (money - due)
  · rcases hfind hi with hi | hi
    · obtain ⟨rfl, -⟩ := hi
      exact h.live i a hlive
    · exact h.live i a' hi
  · rcases hfind hi with hi | hi
    · obtain ⟨rfl, rfl⟩ := hi
      exact h.paid i a hlive hpaid
    · exact h.paid i a' hi hpaid
  · have htotal := h.total
    have hpurse := total_purse hmoney (money - due)
    have hrefund := hr.total
    have hold := OMap.total_erase hlive fun i a => a.bid + b.charged i
    have hnew := OMap.total_insert b.auctions id { a with bidder := player, bid := price } fun i a => a.bid + b.charged i
    dsimp only at hold hnew
    simp only [worth, mailTotal_append] at htotal ⊢
    omega
  · have heach := h.each p
    have hrefund := hr.each p
    have hold := OMap.total_erase hlive fun _ a => if a.bidder = p then a.bid else 0
    have hnew := OMap.total_insert b.auctions id { a with bidder := player, bid := price } fun _ a =>
      if a.bidder = p then a.bid else 0
    have hspent := spent_unsold hr.unsold p
    have hplaced : Function.update b.placed player (b.placed player + due) p = b.placed p + if p = player then due else 0 := by
      rw [Function.update_apply]
      split
      next heq => rw [heq]
      next => rfl
    dsimp only at hold hnew
    simp only [held, returned, spent, mailTotal_append] at heach ⊢
    rw [hplaced]
    omega
  · intro m hm hresponse
    rcases List.mem_append.1 hm with hm | hm
    · obtain ⟨h₁, h₂, h₃, h₄⟩ := h.settled m hm hresponse
      refine ⟨h₁, h₂, h₃, ?_⟩
      show (b.auctions.insert id _).find? m.auctionId = none
      rw [OMap.find?_insert_of_ne fun heq => ?_, h₄]
      rw [heq, hlive] at h₄
      cases h₄
    · exact absurd hresponse (hr.unsold m hm)
  · show (((b.mails ++ new).filter (·.response = .successful)).map (·.auctionId)).Nodup
    rw [List.filter_append, filter_unsold hr.unsold, List.append_nil]
    exact h.once

/-! ## The end of an auction -/

/-- An auction is closed: what it held, its deposit with it, is in mails or kept. -/
theorem Sound.close (h : b.Sound total) {cuts forfeited fees : Nat} (hlive : b.auctions.find? id = some a)
    (htotal : mailTotal AuctionMail.content new + cuts + forfeited + fees =
      a.bid + b.charged id + b.cuts + b.forfeited + b.fees)
    (heach : ∀ p, (if a.bidder = p then a.bid else 0) =
      mailTotal (AuctionMail.returns p) new + mailTotal (AuctionMail.spends p) new)
    (hsettled : ∀ m ∈ new, m.response = .successful →
      m.money + m.cut = m.bid + m.deposit ∧ m.auctionId = id ∧ b.charged id = m.deposit)
    (honce : ((new.filter (·.response = .successful)).map (·.auctionId)).Sublist [id]) :
    Sound total { b with
      auctions := b.auctions.erase id
      mails := b.mails ++ new
      cuts := cuts
      forfeited := forfeited
      fees := fees } := by
  have hfind : ∀ {i a'}, (b.auctions.erase id).find? i = some a' → b.auctions.find? i = some a' := by
    intro i a' hi
    rw [OMap.find?_erase] at hi
    split at hi
    next => cases hi
    next => exact hi
  refine ⟨h.purses, fun i a' hi => h.stakes i a' (hfind hi), fun i a' hi => h.live i a' (hfind hi),
    fun i a' hi => h.paid i a' (hfind hi), h.unpaid, ?_, fun p => ?_, ?_, ?_⟩
  · have hall := h.total
    have hold := OMap.total_erase hlive fun i a => a.bid + b.charged i
    simp only [worth, mailTotal_append] at hall ⊢
    omega
  · have hall := h.each p
    have hclosed := heach p
    have hold := OMap.total_erase hlive fun _ a => if a.bidder = p then a.bid else 0
    simp only [held, returned, spent, mailTotal_append] at hall ⊢
    omega
  · intro m hm hresponse
    rcases List.mem_append.1 hm with hm | hm
    · obtain ⟨h₁, h₂, h₃, h₄⟩ := h.settled m hm hresponse
      refine ⟨h₁, h₂, h₃, ?_⟩
      show (b.auctions.erase id).find? m.auctionId = none
      rw [OMap.find?_erase, h₄, ite_self]
    · obtain ⟨hmoney, rfl, hcharged⟩ := hsettled m hm hresponse
      exact ⟨hmoney, hcharged, h.live _ a hlive, OMap.find?_erase_self _ _⟩
  · show (((b.mails ++ new).filter (·.response = .successful)).map (·.auctionId)).Nodup
    rw [List.filter_append, List.map_append]
    refine List.nodup_append.2 ⟨h.once, honce.nodup (List.nodup_singleton id), fun x hx y hy heq => ?_⟩
    -- an auction that has paid is not live any more
    obtain ⟨m, hm, rfl⟩ := List.mem_map.1 hx
    obtain ⟨hm, hresponse⟩ := List.mem_filter.1 hm
    have hgone := (h.settled m hm (of_decide_eq_true hresponse)).gone
    rw [heq, List.mem_singleton.1 (honce.subset hy), hlive] at hgone
    cases hgone

theorem Sound.sale (h : b.Sound total) {cut : Nat} {before after : List AuctionMail}
    (hlive : b.auctions.find? id = some a) (hpaid : id ∈ b.paid) (hcut : cut ≤ a.bid + a.deposit)
    (hbefore : ∀ m ∈ before, m.Idle) (hafter : ∀ m ∈ after, m.Idle) : Sound total { b with
      auctions := b.auctions.erase id
      mails := b.mails ++ (before ++ soldMail id cut a :: after)
      cuts := b.cuts + cut } := by
  have hcharged := (h.paid id a hlive hpaid).1
  have hmails : ∀ f : AuctionMail → Nat, (∀ m : AuctionMail, m.Idle → f m = 0) →
      mailTotal f (before ++ soldMail id cut a :: after) = f (soldMail id cut a) := by
    intro f hf
    have hlist : before ++ soldMail id cut a :: after = before ++ ([soldMail id cut a] ++ after) := rfl
    rw [hlist, mailTotal_append, mailTotal_append, mailTotal_zero fun m hm => hf m (hbefore m hm),
      mailTotal_zero fun m hm => hf m (hafter m hm)]
    simp [mailTotal]
  have hmem : ∀ m ∈ before ++ soldMail id cut a :: after, m.response = .successful → m = soldMail id cut a := by
    intro m hm hresponse
    rcases List.mem_append.1 hm with hm | hm
    · exact absurd hresponse (hbefore m hm).response
    rcases List.mem_cons.1 hm with rfl | hm
    · rfl
    · exact absurd hresponse (hafter m hm).response
  refine h.close hlive ?_ (fun p => ?_) (fun m hm hresponse => ?_) ?_
  · have hcontent : (soldMail id cut a).content = a.bid + a.deposit - cut := rfl
    rw [hmails _ fun m hm => hm.content_eq, hcontent, hcharged]
    omega
  · rw [hmails _ fun m hm => hm.returns_eq p, hmails _ fun m hm => hm.spends_eq p]
    simp [AuctionMail.returns, AuctionMail.spends, soldMail]
  · rw [hmem m hm hresponse]
    exact ⟨Nat.sub_add_cancel hcut, rfl, hcharged⟩
  · rw [List.filter_append, filter_unsold fun m hm => (hbefore m hm).response, List.nil_append]
    have hsold : (soldMail id cut a :: after).filter (·.response = .successful) =
      soldMail id cut a :: after.filter (·.response = .successful) := rfl
    rw [hsold, filter_unsold fun m hm => (hafter m hm).response]
    exact List.Sublist.refl _

/-- Nobody has bid: the deposit is kept. -/
theorem Sound.expire (h : b.Sound total)
    (hlive : b.auctions.find? id = some a) (hbid : a.bid = 0) (hnew : ∀ m ∈ new, m.Idle) : Sound total { b with
      auctions := b.auctions.erase id
      mails := b.mails ++ new
      forfeited := b.forfeited + b.charged id } := by
  refine h.close hlive ?_ (fun p => ?_) (fun m hm hresponse => absurd hresponse (hnew m hm).response) ?_
  · rw [mailTotal_zero fun m hm => (hnew m hm).content_eq, hbid]
    omega
  · rw [mailTotal_zero fun m hm => (hnew m hm).returns_eq p, mailTotal_zero fun m hm => (hnew m hm).spends_eq p, hbid, ite_self]
  · rw [filter_unsold fun m hm => (hnew m hm).response]
    exact List.nil_sublist _

/-- A fee out of a purse. -/
theorem Sound.fee (h : b.Sound total) {fee : Nat} (hmoney : b.purses.find? player = some money) (hfee : fee ≤ money) :
    Sound total { b with purses := b.purses.insert player (money - fee), fees := b.fees + fee } := by
  have hlt := (h.purses player money hmoney).2
  refine ⟨fun p m hp => h.purses_insert hmoney (by omega) hp, fun i a hi => (h.stakes i a hi).insert player _, h.live, h.paid,
    h.unpaid, ?_, h.each, h.settled, h.once⟩
  have hall := h.total
  have hpurse := total_purse hmoney (money - fee)
  simp only [worth] at hall ⊢
  omega

/-- The bidder has his money back, and the deposit is kept. -/
theorem Sound.cancel (h : b.Sound total) (back : AuctionMail)
    (hlive : b.auctions.find? id = some a) (hback : back.receiver = a.bidder ∧ back.response = .cancelledToBidder ∧
      back.money = a.bid ∧ back.taken = false) (hnew : ∀ m ∈ new, m.Idle) :
    Sound total { b with
      auctions := b.auctions.erase id
      mails := b.mails ++ back :: new
      forfeited := b.forfeited + b.charged id } := by
  obtain ⟨hreceiver, hresponse, hmoney, htaken⟩ := hback
  have hmails : ∀ f : AuctionMail → Nat, (∀ m : AuctionMail, m.Idle → f m = 0) → mailTotal f (back :: new) = f back := by
    intro f hf
    rw [show back :: new = [back] ++ new from rfl, mailTotal_append, mailTotal_zero fun m hm => hf m (hnew m hm)]
    simp [mailTotal]
  have hunsold : ∀ m ∈ back :: new, m.response ≠ .successful := by
    intro m hm
    rcases List.mem_cons.1 hm with rfl | hm
    · rw [hresponse]
      decide
    · exact (hnew m hm).response
  refine h.close hlive ?_ (fun p => ?_) (fun m hm hsold => absurd hsold (hunsold m hm)) ?_
  · rw [hmails _ fun m hm => hm.content_eq, AuctionMail.content, htaken, hmoney]
    simp only [Bool.false_eq_true, if_false]
    omega
  · rw [hmails _ fun m hm => hm.returns_eq p, spent_unsold hunsold, AuctionMail.returns, hreceiver, hresponse, hmoney]
    simp
  · rw [filter_unsold hunsold]
    exact List.nil_sublist _

/-! ## New auctions, deposits and mails that are opened -/

theorem Sound.nextId (h : b.Sound total) : Sound total { b with auctionId := b.auctionId + 1 } :=
  ⟨h.purses, h.stakes, fun id a hlive => Nat.lt_succ_of_lt (h.live id a hlive), h.paid,
    fun id hid => h.unpaid id (hid.imp_left Nat.le_of_succ_le), h.total, h.each,
    fun m hm hresponse => by
      obtain ⟨h₁, h₂, h₃, h₄⟩ := h.settled m hm hresponse
      exact ⟨h₁, h₂, Nat.lt_succ_of_lt h₃, h₄⟩, h.once⟩

theorem Sound.open (h : b.Sound total) (hstake : Stake b.purses a) (hbid : a.bid = 0)
    (hqueued : ∀ id, queued id = true → b.queued id = true ∨ id = b.auctionId) : Sound total { b with
      auctions := b.auctions.insert b.auctionId a
      auctionId := b.auctionId + 1
      queued := queued } := by
  have hfresh : b.auctions.find? b.auctionId = none := by
    cases hfound : b.auctions.find? b.auctionId with
    | none => rfl
    | some a' => exact absurd (h.live _ a' hfound) (lt_irrefl _)
  have hfind : ∀ {i a'}, (b.auctions.insert b.auctionId a).find? i = some a' →
      (i = b.auctionId ∧ a' = a) ∨ b.auctions.find? i = some a' := by
    intro i a' hi
    rw [OMap.find?_insert] at hi
    split at hi
    next heq => exact .inl ⟨heq, (Option.some.inj hi).symm⟩
    next => exact .inr hi
  have hnew := h.unpaid b.auctionId (.inl (Nat.le_refl _))
  refine ⟨h.purses, fun i a' hi => ?_, fun i a' hi => ?_, fun i a' hi hpaid => ?_, fun i hi => h.unpaid i ?_, ?_, fun p => ?_,
    fun m hm hresponse => ?_, h.once⟩
  · rcases hfind hi with hi | hi
    · exact hi.2 ▸ hstake
    · exact h.stakes i a' hi
  · show i < b.auctionId + 1
    rcases hfind hi with hi | hi
    · omega
    · exact Nat.lt_succ_of_lt (h.live i a' hi)
  · rcases hfind hi with hi | hi
    · exact absurd (hi.1 ▸ hpaid) hnew.2
    · exact h.paid i a' hi hpaid
  · rcases hi with hi | hi
    · exact .inl (Nat.le_of_succ_le hi)
    · exact (hqueued i hi).elim .inr fun heq => .inl (Nat.le_of_eq heq.symm)
  · have hall := h.total
    have htotal := OMap.total_insert_new hfresh a fun i a => a.bid + b.charged i
    simp only [worth] at hall ⊢
    rw [htotal, hbid, hnew.1]
    omega
  · have hall := h.each p
    have htotal := OMap.total_insert_new hfresh a fun _ a => if a.bidder = p then a.bid else 0
    simp only [held, returned, spent] at hall ⊢
    rw [htotal, hbid, ite_self]
    omega
  · obtain ⟨h₁, h₂, h₃, h₄⟩ := h.settled m hm hresponse
    refine ⟨h₁, h₂, Nat.lt_succ_of_lt h₃, ?_⟩
    rw [OMap.find?_insert_of_ne (Nat.ne_of_lt h₃), h₄]

/-- Auctions with other deposits or other times. -/
theorem live_of_goods (hA : ∀ id, (A.find? id).map AuctionEntry.goods = (b.auctions.find? id).map AuctionEntry.goods)
    (hlive : A.find? id = some a) : ∃ a', b.auctions.find? id = some a' ∧ a'.goods = a.goods := by
  have hgoods := hA id
  rw [hlive, Option.map_some, eq_comm, Option.map_eq_some_iff] at hgoods
  exact hgoods

theorem Stake.of_goods {a' : AuctionEntry} (h : Stake purses a) (heq : a.goods = a'.goods) : Stake purses a' := by
  have hbid : a.bid = a'.bid := (congrArg AuctionEntry.bid heq : a.goods.bid = (a'.goods).bid)
  have hbuyout : a.buyout = a'.buyout := (congrArg AuctionEntry.buyout heq : a.goods.buyout = (a'.goods).buyout)
  have hbidder : a.bidder = a'.bidder := (congrArg AuctionEntry.bidder heq : a.goods.bidder = (a'.goods).bidder)
  have howner : a.owner = a'.owner := (congrArg AuctionEntry.owner heq : a.goods.owner = (a'.goods).owner)
  obtain ⟨h₁, h₂, h₃, h₄, h₅, h₆⟩ := h
  rw [hbid] at h₁ h₃ h₄
  rw [hbuyout] at h₂ h₃
  rw [hbidder] at h₄ h₅
  rw [howner] at h₆
  exact ⟨h₁, h₂, h₃, h₄, h₅, h₆⟩

theorem total_of_goods (hA : ∀ id, (A.find? id).map AuctionEntry.goods = (b.auctions.find? id).map AuctionEntry.goods)
    (f : Nat → AuctionEntry → Nat) : A.total (fun id a => f id a.goods) = b.auctions.total fun id a => f id a.goods := by
  have heq : A.mapValues (fun _ => AuctionEntry.goods) = b.auctions.mapValues fun _ => AuctionEntry.goods :=
    OMap.ext fun id => by rw [OMap.find?_mapValues, OMap.find?_mapValues, hA id]
  rw [← OMap.total_mapValues A (fun _ => AuctionEntry.goods) f, heq, OMap.total_mapValues]

theorem Sound.each_of_goods (h : b.Sound total)
    (hA : ∀ id, (A.find? id).map AuctionEntry.goods = (b.auctions.find? id).map AuctionEntry.goods) (p : Nat) :
    b.placed p = A.total (fun _ a => if a.bidder = p then a.bid else 0) + b.returned p + b.spent p :=
  (h.each p).trans (congrArg (· + b.returned p + b.spent p)
    (total_of_goods hA fun _ a => if a.bidder = p then a.bid else 0).symm)

/-- The deposit of some auctions is taken from a purse. -/
theorem Sound.charge (h : b.Sound total) (ids : List Nat) {taken : Nat} {paid : List Nat}
    {charged : Nat → Nat} (hmoney : b.purses.find? player = some money) (htaken : taken ≤ money)
    (hids : ∀ id ∈ ids, b.queued id = true ∧ id < b.auctionId ∧ ∃ a, b.auctions.find? id = some a)
    (hA : ∀ id, (A.find? id).map AuctionEntry.goods = (b.auctions.find? id).map AuctionEntry.goods)
    (hother : ∀ id, id ∉ ids → A.find? id = b.auctions.find? id ∧ charged id = b.charged id)
    (hsum : (b.auctions.total fun id a => a.bid + charged id) = (b.auctions.total fun id a => a.bid + b.charged id) + taken)
    (hpaid : ∀ id ∈ paid, id ∈ b.paid ∨ id ∈ ids ∧ ∀ a, A.find? id = some a → charged id = a.deposit ∧ a.deposit < 2 ^ 31)
    (hqueued : ∀ id, queued id = true → b.queued id = true ∧ id ∉ ids) : Sound total { b with
      purses := b.purses.insert player (money - taken)
      auctions := A
      charged := charged
      paid := paid
      queued := queued } := by
  have hlt := (h.purses player money hmoney).2
  refine ⟨fun p m hp => h.purses_insert hmoney (by omega) hp, fun id a hlive => ?_, fun id a hlive => ?_,
    fun id a hlive hid => ?_, fun id hid => ?_, ?_, fun p => ?_, fun m hm hresponse => ?_, h.once⟩
  · obtain ⟨a', hlive', heq⟩ := live_of_goods hA hlive
    exact ((h.stakes id a' hlive').of_goods heq).insert player _
  · obtain ⟨a', hlive', -⟩ := live_of_goods hA hlive
    exact h.live id a' hlive'
  · rcases hpaid id hid with hold | hnew
    · -- what has been paid for is in no queue
      have hnotMem : id ∉ ids := fun hmem => (h.unpaid id (.inr (hids id hmem).1)).2 hold
      obtain ⟨hfind, hcharged⟩ := hother id hnotMem
      show charged id = a.deposit ∧ _
      rw [hcharged]
      exact h.paid id a (hfind ▸ hlive) hold
    · exact hnew.2 a hlive
  · have hnotMem : id ∉ ids := by
      rcases hid with hid | hid
      · exact fun hmem => absurd (hids id hmem).2.1 (Nat.not_lt.2 hid)
      · exact (hqueued id hid).2
    have hold := h.unpaid id (hid.imp_right fun hid => (hqueued id hid).1)
    refine ⟨(hother id hnotMem).2.trans hold.1, fun hmem => ?_⟩
    exact (hpaid id hmem).elim hold.2 fun hnew => hnotMem hnew.1
  · have hall := h.total
    have hpurse := total_purse hmoney (money - taken)
    have hauctions : A.total (fun id a => a.bid + charged id) = b.auctions.total fun id a => a.bid + charged id :=
      total_of_goods hA fun id a => a.bid + charged id
    simp only [worth] at hall ⊢
    rw [hauctions]
    omega
  · exact h.each_of_goods hA p
  · obtain ⟨h₁, h₂, h₃, h₄⟩ := h.settled m hm hresponse
    have hnotMem : m.auctionId ∉ ids := fun hmem => by
      obtain ⟨a, ha⟩ := (hids _ hmem).2.2
      rw [h₄] at ha
      cases ha
    obtain ⟨hfind, hcharged⟩ := hother _ hnotMem
    exact ⟨h₁, hcharged.trans h₂, h₃, hfind.trans h₄⟩

/-- Auctions with other times, and fewer of them queued. -/
theorem Sound.unqueue (h : b.Sound total)
    (hA : ∀ id, (A.find? id).map AuctionEntry.goods = (b.auctions.find? id).map AuctionEntry.goods)
    (hdeposit : ∀ id, (A.find? id).map (·.deposit) = (b.auctions.find? id).map (·.deposit))
    (hqueued : ∀ id, queued id = true → b.queued id = true) : Sound total { b with auctions := A, queued := queued } := by
  refine ⟨h.purses, fun id a hlive => ?_, fun id a hlive => ?_, fun id a hlive hpaid => ?_,
    fun id hid => h.unpaid id (hid.imp_right (hqueued id)), ?_, fun p => ?_, fun m hm hresponse => ?_, h.once⟩
  · obtain ⟨a', hlive', heq⟩ := live_of_goods hA hlive
    exact (h.stakes id a' hlive').of_goods heq
  · obtain ⟨a', hlive', -⟩ := live_of_goods hA hlive
    exact h.live id a' hlive'
  · obtain ⟨a', hlive', -⟩ := live_of_goods hA hlive
    have hdep := hdeposit id
    have hlive : A.find? id = some a := hlive
    rw [hlive, hlive', Option.map_some, Option.map_some, Option.some.injEq] at hdep
    rw [hdep]
    exact h.paid id a' hlive' hpaid
  · have hauctions : A.total (fun id a => a.bid + b.charged id) = b.auctions.total fun id a => a.bid + b.charged id :=
      total_of_goods hA fun id a => a.bid + b.charged id
    have hall := h.total
    simp only [worth] at hall ⊢
    rw [hauctions]
    exact hall
  · exact h.each_of_goods hA p
  · obtain ⟨h₁, h₂, h₃, h₄⟩ := h.settled m hm hresponse
    have hgone := hA m.auctionId
    rw [h₄, Option.map_none, Option.map_eq_none_iff] at hgone
    exact ⟨h₁, h₂, h₃, hgone⟩

/-- Something is taken from a mail: its money, which is in a purse then, or its item. -/
theorem Sound.setMail (h : b.Sound total) {i money' : Nat} {m m' : AuctionMail} (hm : b.mails[i]? = some m)
    (hsame : { m' with taken := m.taken, item := m.item } = m) (hmoney : b.purses.find? player = some money)
    (hlt : money' < 2 ^ 31) (hcontent : money' + m'.content = money + m.content) :
    Sound total { b with purses := b.purses.insert player money', mails := b.mails.set i m' } := by
  have htotal : ∀ f : AuctionMail → Nat, f m' = f m → mailTotal f (b.mails.set i m') = mailTotal f b.mails := by
    intro f hf
    have hset := List.sum_map_set (f := f) m' hm
    rw [hf] at hset
    exact Nat.add_right_cancel hset
  have hfield : ∀ {β : Type} (f : AuctionMail → β), f { m' with taken := m.taken, item := m.item } = f m' → f m' = f m :=
    fun f hf => hf.symm.trans (congrArg f hsame)
  have hresponse : m'.response = m.response := hfield AuctionMail.response rfl
  have hid : m'.auctionId = m.auctionId := hfield AuctionMail.auctionId rfl
  refine ⟨fun p k hp => h.purses_insert hmoney hlt hp, fun id a hlive => (h.stakes id a hlive).insert player _, h.live, h.paid,
    h.unpaid, ?_, fun p => ?_, fun k hk hsold => ?_, ?_⟩
  · have hall := h.total
    have hpurse := total_purse hmoney money'
    have hset := List.sum_map_set (f := AuctionMail.content) m' hm
    simp only [worth, mailTotal] at hall ⊢
    omega
  · have hall := h.each p
    simp only [held, returned, spent] at hall ⊢
    rw [htotal _ (hfield _ rfl), htotal _ (hfield _ rfl)]
    exact hall
  · rcases List.mem_or_eq_of_mem_set hk with hk | heq
    · exact h.settled k hk hsold
    · rw [heq] at hsold ⊢
      obtain ⟨h₁, h₂, h₃, h₄⟩ := h.settled m (List.mem_of_getElem? hm) (hresponse ▸ hsold)
      have hdeposit : m'.deposit = m.deposit := hfield AuctionMail.deposit rfl
      have hmoney : m'.money + m'.cut = m'.bid + m'.deposit := by
        rw [hfield AuctionMail.money rfl, hfield AuctionMail.cut rfl, hfield AuctionMail.bid rfl, hdeposit, h₁]
      rw [← hid] at h₂ h₃ h₄
      exact ⟨hmoney, h₂.trans hdeposit.symm, h₃, h₄⟩
  · have hids : ∀ l : List AuctionMail, (l.filter (·.response = .successful)).map (·.auctionId) =
        l.filterMap fun m => if m.response = .successful then some m.auctionId else none := by
      intro l
      induction l with
      | nil => rfl
      | cons x l ih =>
        rw [List.filter_cons, List.filterMap_cons]
        by_cases hx : x.response = .successful
        · simp [hx, ih]
        · simp [hx, ih]
    have hset : (b.mails.set i m').filterMap (fun m => if m.response = .successful then some m.auctionId else none) =
        b.mails.filterMap fun m => if m.response = .successful then some m.auctionId else none :=
      List.filterMap_set hm (by rw [hresponse, hid])
    show (((b.mails.set i m').filter (·.response = .successful)).map (·.auctionId)).Nodup
    rw [hids, hset, ← hids]
    exact h.once

end Books

end AtlasWow.AuctionHouse
