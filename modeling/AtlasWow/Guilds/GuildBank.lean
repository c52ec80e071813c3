/-
The daily limits of the guild bank: the counters of each member, the row
`CHAR_INS_GUILD_MEMBER_WITHDRAW` leaves in `guild_member_withdraw`, and the
withdrawals that are checked against them.

Beside the counters stands what each member has really taken since the last
reset, and which ranks he has held; nothing in the source reads these.
-/
import AtlasWow.Guilds.Guild
import AtlasWow.Entities.PlayerMoney
import AtlasWow.Lib.Machine

namespace AtlasWow

def GUILD_BANK_RIGHT_PUT_ITEM : UInt8 := 0x02
def GUILD_BANK_RIGHT_DEPOSIT_ITEM : UInt8 := GUILD_BANK_RIGHT_VIEW_TAB ||| GUILD_BANK_RIGHT_PUT_ITEM

abbrev Tab := Fin GUILD_BANK_MAX_TABS
/-- A tab, or the money. -/
abbrev Slot := Fin (GUILD_BANK_MAX_TABS + 1)
def Slot.money : Slot := Fin.last GUILD_BANK_MAX_TABS

def Member.getBankWithdrawValue (m : Member) (slot : Slot) : Int :=
  if m.isRank GR_GUILDMASTER then
    int32 (if slot = Slot.money then GUILD_WITHDRAW_MONEY_UNLIMITED else GUILD_WITHDRAW_SLOT_UNLIMITED).toNat
  else m.bankWithdraw slot

namespace Guild

/-- What a rank may take of a slot each day. -/
def rankPerDay (g : Guild) (rankId : UInt8) (slot : Slot) : Nat :=
  ((g.getRankInfo rankId).map fun rank =>
    if h : slot.val < GUILD_BANK_MAX_TABS then
      if slot.val < g.bankTabs then (rank.bankTabRightsAndSlots ⟨slot.val, h⟩).slots.toNat else 0
    else rank.bankMoneyPerDay.toNat).getD 0

def getRankBankMoneyPerDay (g : Guild) (rankId : UInt8) : Int := int32 (g.rankPerDay rankId Slot.money)
def getRankBankTabSlotsPerDay (g : Guild) (rankId : UInt8) (tab : Tab) : Int := int32 (g.rankPerDay rankId tab.castSucc)

def getRankBankTabRights (g : Guild) (rankId : UInt8) (tab : Tab) : UInt8 :=
  ((g.getRankInfo rankId).map fun rank => (rank.bankTabRightsAndSlots tab).rights).getD 0

def getMemberRemainingSlots (g : Guild) (member : Option Member) (tab : Tab) : Int :=
  match member with
  | none => 0
  | some m =>
    if m.rankId = GR_GUILDMASTER then int32 GUILD_WITHDRAW_SLOT_UNLIMITED.toNat
    else if g.getRankBankTabRights m.rankId tab &&& GUILD_BANK_RIGHT_VIEW_TAB ≠ 0 then
      max 0 (int32 (g.getRankBankTabSlotsPerDay m.rankId tab - m.getBankWithdrawValue tab.castSucc))
    else 0

def getMemberRemainingMoney (g : Guild) (m : Member) : Int :=
  if m.rankId = GR_GUILDMASTER then int32 GUILD_WITHDRAW_MONEY_UNLIMITED.toNat
  else if g.getRankRights m.rankId &&& (GR_RIGHT_WITHDRAW_REPAIR ||| GR_RIGHT_WITHDRAW_GOLD) ≠ 0 then
    max 0 (int32 (g.getRankBankMoneyPerDay m.rankId - m.getBankWithdrawValue Slot.money))
  else 0

def memberHasTabRights (g : Guild) (guid : ObjectGuid) (tab : Tab) (rights : UInt8) : Bool :=
  (g.getMember guid).any fun m =>
    m.isRank GR_GUILDMASTER || g.leaderGuid = guid || g.getRankBankTabRights m.rankId tab &&& rights = rights

/-- The counter of a member, more by an amount. -/
def addWithdraw (guid : ObjectGuid) (slot : Slot) (amount : Nat) (g : Guild) : Guild :=
  { g with members := g.members.mapValues fun k m =>
      if k = guid then { m with bankWithdraw := Function.update m.bankWithdraw slot (int32 (m.bankWithdraw slot + amount)) }
      else m }

/-- The counters as `Member::LoadFromDB` reads them; a member without a row has drawn nothing. -/
def loadWithdraw (rows : ObjectGuid → Option (Slot → Nat)) (g : Guild) : Guild :=
  { g with members := g.members.mapValues fun guid m =>
      { m with bankWithdraw := fun slot => int32 ((((rows guid).map (· slot)).getD 0 : Nat) : Int) } }

/-- `ResetValues` of every member. -/
def resetTimes (g : Guild) : Guild :=
  { g with members := g.members.mapValues fun _ m => { m with bankWithdraw := fun _ => 0 } }

end Guild

/-- Where an item is: in a tab of the bank, or with the player. -/
abbrev ItemPlace := Option Tab

structure GuildBank where
  guild : Guild
  /-- `guild_member_withdraw`. -/
  rows : ObjectGuid → Option (Slot → Nat)
  taken : ObjectGuid → Slot → Nat
  /-- The money a member has drawn since his row was first written. -/
  behind : ObjectGuid → Nat
  held : ObjectGuid → List UInt8

namespace GuildBank

inductive Event where
  /-- `HandleMemberWithdrawMoney`; `purse` is false if the player can carry no more. -/
  | withdrawMoney (guid : ObjectGuid) (amount : UInt32) (repair purse : Bool)
  /-- `_MoveItems` that finds its item and room for it, in an empty place or on a stack, or by exchanging two items. -/
  | moveItem (guid : ObjectGuid) (src dest : ItemPlace) (swap : Bool)
  /-- `ChangeRank`, by any of its callers. -/
  | changeRank (guid : ObjectGuid) (rankId : UInt8)
  | restart
  /-- `ResetTimes`. -/
  | reset

/-- The row after `CHAR_INS_GUILD_MEMBER_WITHDRAW`: all of it if there was none, all but the money otherwise. -/
def upsert (row : Option (Slot → Nat)) (values : Slot → Nat) : Slot → Nat :=
  match row with
  | none => values
  | some old => fun slot => if slot = Slot.money then old slot else values slot

/-- `UpdateBankWithdrawValue`. -/
def updateBankWithdrawValue (guid : ObjectGuid) (slot : Slot) (amount : Nat) (b : GuildBank) : GuildBank :=
  let guild := b.guild.addWithdraw guid slot amount
  { b with
    guild := guild
    rows := Function.update b.rows guid ((guild.getMember guid).map fun m =>
      upsert (b.rows guid) fun slot => uint32 (m.bankWithdraw slot))
    behind := if slot = Slot.money ∧ (b.rows guid).isSome then Function.update b.behind guid (b.behind guid + amount)
      else b.behind }

/-- Somebody has taken something. -/
def take (guid : ObjectGuid) (slot : Slot) (amount : Nat) (b : GuildBank) : GuildBank :=
  { b with taken := fun k s => if k = guid ∧ s = slot then b.taken k s + amount else b.taken k s }

/-- Whether `HandleMemberWithdrawMoney` pays. -/
def canWithdrawMoney (guid : ObjectGuid) (amount : UInt32) (repair purse : Bool) (b : GuildBank) : Bool :=
  amount.toUInt64 ≤ b.guild.bankMoney &&
    (b.guild.getMember guid).any (fun m => amount.toNat ≤ uint32 (b.guild.getMemberRemainingMoney m)) && (repair || purse)

def handleMemberWithdrawMoney (guid : ObjectGuid) (amount : UInt32) (repair purse : Bool) (b : GuildBank) : GuildBank :=
  let amount := min amount MAX_MONEY_AMOUNT
  if b.canWithdrawMoney guid amount repair purse then
    let b := (b.take guid Slot.money amount.toNat).updateBankWithdrawValue guid Slot.money amount.toNat
    { b with guild := { b.guild with bankMoney := b.guild.bankMoney - amount.toUInt64 } }
  else b

/-- `_UpdateMemberWithdrawSlots`. -/
def updateMemberWithdrawSlots (guid : ObjectGuid) (tab : Tab) (b : GuildBank) : GuildBank :=
  match b.guild.getMember guid with
  | none => b
  | some m =>
    if m.rankId ≠ GR_GUILDMASTER ∧ m.getBankWithdrawValue tab.castSucc < b.guild.getRankBankTabSlotsPerDay m.rankId tab then
      b.updateBankWithdrawValue guid tab.castSucc 1
    else b

/-- The tab an item leaves that goes to another place. -/
def leaves (src dest : ItemPlace) : Option Tab := if src = dest then none else src

def hasStoreRights (guid : ObjectGuid) (dest src : ItemPlace) (b : GuildBank) : Bool :=
  (leaves dest src).all fun tab => b.guild.memberHasTabRights guid tab GUILD_BANK_RIGHT_DEPOSIT_ITEM

def hasWithdrawRights (guid : ObjectGuid) (src dest : ItemPlace) (b : GuildBank) : Bool :=
  (leaves src dest).all fun tab => b.guild.getMemberRemainingSlots (b.guild.getMember guid) tab ≠ 0

/-- `RemoveItem`. -/
def removeItem (guid : ObjectGuid) (src dest : ItemPlace) (b : GuildBank) : GuildBank :=
  (leaves src dest).elim b fun tab => (b.take guid tab.castSucc 1).updateMemberWithdrawSlots guid tab

/-- The checks of `_MoveItems`, and of the exchange if it is one. -/
def mayMove (guid : ObjectGuid) (src dest : ItemPlace) (swap : Bool) (b : GuildBank) : Bool :=
  b.hasStoreRights guid dest src && b.hasWithdrawRights guid src dest &&
    (!swap || b.hasStoreRights guid src dest && b.hasWithdrawRights guid dest src)

def moveItems (guid : ObjectGuid) (src dest : ItemPlace) (swap : Bool) (b : GuildBank) : GuildBank :=
  if b.mayMove guid src dest swap then
    let b := b.removeItem guid src dest
    if swap then b.removeItem guid dest src else b
  else b

/-- A guild whose counters have just been reset. -/
def start (g : Guild) : GuildBank where
  guild := g.resetTimes
  rows := fun _ => none
  taken := fun _ _ => 0
  behind := fun _ => 0
  held := fun guid => ((g.getMember guid).map (·.rankId)).toList

def step (event : Event) (b : GuildBank) : Option GuildBank :=
  match event with
  | .withdrawMoney guid amount repair purse => some (b.handleMemberWithdrawMoney guid amount repair purse)
  | .moveItem guid src dest swap => some (b.moveItems guid src dest swap)
  | .changeRank guid rankId =>
    some { b with
      guild := b.guild.changeRank guid rankId
      held := Function.update b.held guid (rankId :: b.held guid) }
  | .restart => some { b with guild := b.guild.loadWithdraw b.rows }
  | .reset => some (start b.guild)

end GuildBank

end AtlasWow
