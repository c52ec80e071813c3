/-
`Guild` (`Guild.h`, `Guild.cpp`): the ranks, the members and the leader of a
guild, what each operation does to them, and `Validate`, which repairs what was
loaded from the tables.

Players are named by their guids where the source looks a member up by name.
-/
import AtlasWow.Entities.ObjectGuid
import AtlasWow.Lib.UnorderedMap

namespace AtlasWow

def GUILD_BANK_MAX_TABS : Nat := 6
def GUILD_RANKS_MIN_COUNT : UInt8 := 5
def GUILD_RANKS_MAX_COUNT : UInt8 := 10
def GUILD_WITHDRAW_MONEY_UNLIMITED : UInt32 := 0xFFFFFFFF
def GUILD_WITHDRAW_SLOT_UNLIMITED : UInt32 := 0xFFFFFFFF

def GR_GUILDMASTER : UInt8 := 0
def GR_OFFICER : UInt8 := 1

def GR_RIGHT_EMPTY : UInt32 := 0x00000040
def GR_RIGHT_GCHATLISTEN : UInt32 := GR_RIGHT_EMPTY ||| 0x00000001
def GR_RIGHT_GCHATSPEAK : UInt32 := GR_RIGHT_EMPTY ||| 0x00000002
def GR_RIGHT_INVITE : UInt32 := GR_RIGHT_EMPTY ||| 0x00000010
def GR_RIGHT_REMOVE : UInt32 := GR_RIGHT_EMPTY ||| 0x00000020
def GR_RIGHT_PROMOTE : UInt32 := GR_RIGHT_EMPTY ||| 0x00000080
def GR_RIGHT_DEMOTE : UInt32 := GR_RIGHT_EMPTY ||| 0x00000100
def GR_RIGHT_WITHDRAW_REPAIR : UInt32 := 0x00040000
def GR_RIGHT_WITHDRAW_GOLD : UInt32 := 0x00080000
def GR_RIGHT_ALL : UInt32 := 0x001DF1FF

def GUILD_BANK_RIGHT_VIEW_TAB : UInt8 := 0x01
def GUILD_BANK_RIGHT_FULL : UInt8 := 0xFF

structure GuildBankRightsAndSlots where
  rights : UInt8
  slots : UInt32
deriving DecidableEq

def GuildBankRightsAndSlots.guildMasterValues : GuildBankRightsAndSlots :=
  ⟨GUILD_BANK_RIGHT_FULL, GUILD_WITHDRAW_SLOT_UNLIMITED⟩

structure RankInfo where
  rankId : UInt8
  rights : UInt32
  bankMoneyPerDay : UInt32
  bankTabRightsAndSlots : Fin GUILD_BANK_MAX_TABS → GuildBankRightsAndSlots

/-- A rank as `_CreateRank` makes it. -/
def RankInfo.create (rankId : UInt8) (rights : UInt32) : RankInfo where
  rankId := rankId
  rights := rights
  bankMoneyPerDay := if rankId ≠ GR_GUILDMASTER then 0 else GUILD_WITHDRAW_MONEY_UNLIMITED
  bankTabRightsAndSlots := fun _ => if rankId = GR_GUILDMASTER then .guildMasterValues else ⟨0, 0⟩

structure Member where
  rankId : UInt8
  /-- What was withdrawn today: slots of each tab, and money at `GUILD_BANK_MAX_TABS`. -/
  bankWithdraw : Fin (GUILD_BANK_MAX_TABS + 1) → Int

def Member.isRank (m : Member) (rankId : UInt8) : Bool := m.rankId = rankId
def Member.isRankNotLower (m : Member) (rankId : UInt8) : Bool := m.rankId ≤ rankId

structure Guild where
  leaderGuid : ObjectGuid
  ranks : List RankInfo
  members : UMap ObjectGuid Member
  bankMoney : UInt64
  /-- `m_bankTabs.size()`. -/
  bankTabs : Nat

namespace Guild

def getRanksSize (g : Guild) : UInt8 := UInt8.ofNat g.ranks.length
def getLowestRankId (g : Guild) : UInt8 := UInt8.ofNat g.ranks.length - 1
def getRankInfo (g : Guild) (rankId : UInt8) : Option RankInfo :=
  if rankId < g.getRanksSize then g.ranks[rankId.toNat]? else none

def getMember (g : Guild) (guid : ObjectGuid) : Option Member := g.members.find? guid

def getRankRights (g : Guild) (rankId : UInt8) : UInt32 := ((g.getRankInfo rankId).map (·.rights)).getD 0

def hasRankRight (g : Guild) (player : ObjectGuid) (right : UInt32) : Bool :=
  (g.getMember player).any fun member => g.getRankRights member.rankId &&& right ≠ GR_RIGHT_EMPTY

def isLeader (g : Guild) (player : ObjectGuid) : Bool :=
  player = g.leaderGuid || (g.getMember player).any (·.isRank GR_GUILDMASTER)

/-! ## Ranks -/

/-- `Member::ChangeRank`. -/
def changeRank (guid : ObjectGuid) (newRank : UInt8) (g : Guild) : Guild :=
  { g with members := g.members.mapValues fun k m => if k = guid then { m with rankId := newRank } else m }

def setLeaderGUID (leader : ObjectGuid) (g : Guild) : Guild :=
  { g with leaderGuid := leader }.changeRank leader GR_GUILDMASTER

def createRank (rights : UInt32) (g : Guild) : Guild :=
  if GUILD_RANKS_MAX_COUNT ≤ g.getRanksSize then g
  else { g with ranks := g.ranks ++ [.create g.getRanksSize rights] }

def createDefaultGuildRanks (g : Guild) : Guild :=
  let chat := GR_RIGHT_GCHATLISTEN ||| GR_RIGHT_GCHATSPEAK
  [GR_RIGHT_ALL, GR_RIGHT_ALL, chat, chat, chat].foldl (fun g rights => g.createRank rights) g

def handleSetLeader (player name : ObjectGuid) (g : Guild) : Guild :=
  if !g.isLeader player then g
  else
    match g.getMember player, g.getMember name with
    | some _, some _ => (g.setLeaderGUID name).changeRank player GR_OFFICER
    | _, _ => g

def handleUpdateMemberRank (player name : ObjectGuid) (demote : Bool) (g : Guild) : Guild :=
  if !g.hasRankRight player (if demote then GR_RIGHT_DEMOTE else GR_RIGHT_PROMOTE) then g
  else
    match g.getMember name, g.getMember player with
    | some member, some memberMe =>
      -- nobody promotes himself
      if name = player then g
      else if demote then
        if member.isRankNotLower memberMe.rankId || g.getLowestRankId ≤ member.rankId then g
        else g.changeRank name (member.rankId + 1)
      else
        if member.isRankNotLower (memberMe.rankId + 1) then g
        else g.changeRank name (member.rankId - 1)
    | _, _ => g

def handleAddNewRank (player : ObjectGuid) (g : Guild) : Guild :=
  if GUILD_RANKS_MAX_COUNT ≤ g.getRanksSize then g
  else if g.isLeader player then g.createRank (GR_RIGHT_GCHATLISTEN ||| GR_RIGHT_GCHATSPEAK)
  else g

/-- The checks of `HandleRemoveRank`. -/
def canRemoveRank (player : ObjectGuid) (rankId : UInt8) (g : Guild) : Bool :=
  GUILD_RANKS_MIN_COUNT < g.getRanksSize && rankId < g.getRanksSize && g.isLeader player

def handleRemoveRank (player : ObjectGuid) (rankId : UInt8) (g : Guild) : Guild :=
  if g.canRemoveRank player rankId then { g with ranks := g.ranks.dropLast } else g

/-! ## Members -/

/-- Put a member into the table, once `AddMember` has made sure that he is in no guild. -/
def insertMember (pl : Placement ObjectGuid Member) (guid : ObjectGuid) (rankId : UInt8) (g : Guild) : Guild :=
  { g with members := g.members.insert pl guid ⟨rankId, fun _ => 0⟩ }

/-- The first of the others with the highest rank, in the order of the table. -/
def newLeader (guid : ObjectGuid) (g : Guild) : Option (ObjectGuid × Member) :=
  g.members.entries.foldl (fun newLeader i =>
    if i.1 = guid then newLeader
    else if newLeader.all fun l => i.2.rankId < l.2.rankId then some i
    else newLeader) none

/-- What `DeleteMember` does before it erases the member: a leader hands the guild over; `none` if there is nobody. -/
def handOver (guid : ObjectGuid) (g : Guild) : Option Guild :=
  if g.leaderGuid = guid then (g.newLeader guid).map fun l => g.setLeaderGUID l.1 else some g

def eraseMember (guid : ObjectGuid) (g : Guild) : Guild := { g with members := g.members.erase guid }

/-! ## Loading -/

/-- The ranks are neither too few nor too many, and each has its place as its id. -/
def ranksValid (g : Guild) : Bool :=
  GUILD_RANKS_MIN_COUNT ≤ g.getRanksSize && g.getRanksSize ≤ GUILD_RANKS_MAX_COUNT &&
    (List.range g.getRanksSize.toNat).all fun i => (g.ranks[i]?).any (·.rankId = UInt8.ofNat i)

def repairRanks (g : Guild) : Guild :=
  if g.ranksValid then g else { g with ranks := [] }.createDefaultGuildRanks

/-- Members whose rank does not exist get the lowest. -/
def repairMembers (g : Guild) : Guild :=
  { g with members := g.members.mapValues fun _ m =>
      if g.getRanksSize < m.rankId then { m with rankId := g.getLowestRankId } else m }

/-- The leader is a member and has the rank; `none` if the guild has no members. -/
def repairLeader (g : Guild) : Option Guild :=
  match g.getMember g.leaderGuid with
  | none => (g.handOver g.leaderGuid).map (·.eraseMember g.leaderGuid)
  | some leader => some (if leader.isRank GR_GUILDMASTER then g else g.setLeaderGUID g.leaderGuid)

def repairMasters (allowMultiple : Bool) (g : Guild) : Guild :=
  if allowMultiple then g
  else
    { g with members := g.members.mapValues fun k m =>
        if m.isRank GR_GUILDMASTER && k ≠ g.leaderGuid then { m with rankId := GR_OFFICER } else m }

/-- `Validate`, with the setting `Guild.AllowMultipleGuildMaster`; `none` if the guild is deleted. -/
def validate (allowMultiple : Bool) (g : Guild) : Option Guild :=
  (g.repairRanks.repairMembers.repairLeader).map (·.repairMasters allowMultiple)

end Guild

end AtlasWow
