/-
`Group` (`Group.h`, `Group.cpp`): the member slots of a group or raid, the
counters of its sub groups and its leader, and what its callers check before
they add, move or remove somebody (`GroupHandler.cpp`, `cs_group.cpp`,
`LFGMgr::MakeNewGroup`, the battlegrounds and battlefields).

`memberMgr` are the references of players who are in the game to the group; a
player who logs out loses his and keeps his slot.
-/
import AtlasWow.Entities.ObjectGuid
import AtlasWow.Lib.Machine
import AtlasWow.Lib.Tally

namespace AtlasWow

def MAXRAIDSIZE : Nat := 40
def MAX_RAID_SUBGROUPS : Nat := 8
/-- `MAXGROUPSIZE`: the size of a group that is no raid, and of a sub group. -/
def Group.MAXGROUPSIZE : Nat := 5

def GROUPTYPE_NORMAL : UInt8 := 0x00
def GROUPTYPE_BG : UInt8 := 0x01
def GROUPTYPE_RAID : UInt8 := 0x02
def GROUPTYPE_BGRAID : UInt8 := GROUPTYPE_BG ||| GROUPTYPE_RAID
def GROUPTYPE_LFG_RESTRICTED : UInt8 := 0x04
def GROUPTYPE_LFG : UInt8 := 0x08

def MEMBER_FLAG_ASSISTANT : UInt8 := 0x01

inductive RemoveMethod where
  | default | kick | leave | kickLfg
deriving DecidableEq

structure MemberSlot where
  guid : ObjectGuid
  group : UInt8
  flags : UInt8
  roles : UInt8
deriving DecidableEq

def MemberSlot.subGroup (slot : MemberSlot) : Nat := slot.group.toNat

structure Group where
  leaderGuid : ObjectGuid
  groupType : UInt8
  /-- The group is a battleground's or a battlefield's. -/
  bgGroup : Bool
  bfGroup : Bool
  memberSlots : List MemberSlot
  /-- The counters of a raid. -/
  subGroupsCounts : Option (List UInt8)
  memberMgr : List ObjectGuid
  /-- Players whose invite is to this group. -/
  invitees : List ObjectGuid

namespace Group

def isLFGGroup (g : Group) : Bool := g.groupType &&& GROUPTYPE_LFG ≠ 0
def isRaidGroup (g : Group) : Bool := g.groupType &&& GROUPTYPE_RAID ≠ 0

def isFull (g : Group) : Bool :=
  if g.isRaidGroup then MAXRAIDSIZE ≤ g.memberSlots.length else Group.MAXGROUPSIZE ≤ g.memberSlots.length

/-! ## Slots and counters -/

def getMemberSlot (g : Group) (guid : ObjectGuid) : Option MemberSlot := g.memberSlots.find? (·.guid = guid)

def isMember (g : Group) (guid : ObjectGuid) : Bool := (g.getMemberSlot guid).isSome

/-- Change the slot of a member. -/
def modifySlot (guid : ObjectGuid) (f : MemberSlot → MemberSlot) : List MemberSlot → List MemberSlot
  | [] => []
  | slot :: slots => if slot.guid = guid then f slot :: slots else slot :: modifySlot guid f slots

def subGroupCounterIncrease (g : Group) (subgroup : UInt8) : Group :=
  { g with subGroupsCounts := g.subGroupsCounts.map (·.modify subgroup.toNat (· + 1)) }

def subGroupCounterDecrease (g : Group) (subgroup : UInt8) : Group :=
  { g with subGroupsCounts := g.subGroupsCounts.map (·.modify subgroup.toNat (· - 1)) }

def initRaidSubGroupsCounter (g : Group) : Group :=
  { g with
    subGroupsCounts := some (g.memberSlots.foldl (fun counts slot => counts.modify slot.subGroup (· + 1))
      (List.replicate MAX_RAID_SUBGROUPS 0)) }

def hasFreeSlotSubGroup (g : Group) (subgroup : UInt8) : Bool :=
  g.subGroupsCounts.any fun counts => (counts[subgroup.toNat]?).any (·.toNat < Group.MAXGROUPSIZE)

/-! ## What is done to a group -/

/-- The player's reference to the group. -/
def linkMember (g : Group) (player : ObjectGuid) : Group :=
  { g with memberMgr := player :: g.memberMgr.filter (· ≠ player) }

def delinkMember (g : Group) (guid : ObjectGuid) : Group := { g with memberMgr := g.memberMgr.filter (· ≠ guid) }

/-- The first sub group that is not full; `none` if there is no place in the raid. -/
def freeSubGroup (g : Group) : Option UInt8 :=
  match g.subGroupsCounts with
  | none => some 0
  | some counts => (counts.findIdx? (·.toNat < Group.MAXGROUPSIZE)).map UInt8.ofNat

def addMember (player : ObjectGuid) (g : Group) : Group :=
  match g.freeSubGroup with
  | none => g
  | some subGroup =>
    let g : Group := { g with
      memberSlots := g.memberSlots ++ [⟨player, subGroup, 0, 0⟩]
      invitees := g.invitees.filter (· ≠ player) }
    (g.subGroupCounterIncrease subGroup).linkMember player

def create (leader : ObjectGuid) (bgGroup bfGroup lfg : Bool) : Group :=
  let groupType := if lfg then GROUPTYPE_LFG ||| GROUPTYPE_LFG_RESTRICTED else GROUPTYPE_NORMAL
  let g : Group := {
    leaderGuid := leader
    groupType := if bgGroup || bfGroup then GROUPTYPE_BGRAID else groupType
    bgGroup := bgGroup
    bfGroup := bfGroup
    memberSlots := []
    subGroupsCounts := none
    memberMgr := []
    invitees := [] }
  addMember leader (if g.isRaidGroup then g.initRaidSubGroupsCounter else g)

def convertToRaid (g : Group) : Group :=
  initRaidSubGroupsCounter { g with groupType := g.groupType ||| GROUPTYPE_RAID }

/-- Leadership does not go to players who are offline. -/
def changeLeader (connected : ObjectGuid → Bool) (newLeader : ObjectGuid) (g : Group) : Group :=
  match g.getMemberSlot newLeader with
  | none => g
  | some _ =>
    if !connected newLeader then g
    else
      { g with
        leaderGuid := newLeader
        memberSlots := modifySlot newLeader (fun slot => { slot with flags := slot.flags &&& ~~~MEMBER_FLAG_ASSISTANT })
          g.memberSlots }

/-- The first member who is in the game leads. -/
def pickLeader (connected : ObjectGuid → Bool) (g : Group) : Group :=
  match g.memberSlots.find? (connected ·.guid) with
  | none => g
  | some slot => g.changeLeader connected slot.guid

def changeMembersGroup (guid : ObjectGuid) (group : UInt8) (g : Group) : Group :=
  if !g.isRaidGroup then g
  else
    match g.getMemberSlot guid with
    | none => g
    | some slot =>
      if slot.group = group then g
      else
        let g : Group := { g with memberSlots := modifySlot guid (fun slot => { slot with group := group }) g.memberSlots }
        (g.subGroupCounterIncrease group).subGroupCounterDecrease slot.group

/-- How many members a group has when it may lose one: more than one or two. -/
def minMembers (g : Group) : Nat := if g.bgGroup || g.isLFGGroup || g.bfGroup then 1 else 2

/-- Erase the slot of a member and count him out. -/
def eraseSlot (guid : ObjectGuid) (g : Group) : Group :=
  match g.getMemberSlot guid with
  | none => g
  | some slot => { g.subGroupCounterDecrease slot.group with memberSlots := g.memberSlots.eraseP (·.guid = guid) }

/-- `RemoveMember`; `none` if the group is disbanded. `inDungeon` is whether the last player of a dungeon group stays in
its dungeon. -/
def removeMember (connected : ObjectGuid → Bool) (guid : ObjectGuid) (method : RemoveMethod) (inDungeon : Bool)
    (g : Group) : Option Group :=
  -- a vote decides
  if g.isLFGGroup && method = .kick then some g
  else if g.minMembers < g.memberSlots.length then
    let g := if connected guid || (!g.bgGroup && !g.bfGroup) then g.delinkMember guid else g
    let g := g.eraseSlot guid
    let g := if g.leaderGuid = guid then g.pickLeader connected else g
    if g.isLFGGroup && g.memberSlots.length = 1 && (!connected g.leaderGuid || !inDungeon) then none
    else if g.memberMgr.length < (if g.isLFGGroup || g.bgGroup then 1 else 2) then none
    else some g
  else none

end Group

/-! ## The callers -/

/-- A group, if there is one, and who is in the game. -/
structure GroupWorld where
  group : Option Group
  players : List ObjectGuid

namespace GroupWorld

def connected (w : GroupWorld) (guid : ObjectGuid) : Bool := guid ∈ w.players

inductive Event where
  /-- `Create`, by the callers of each kind; `lfg` is `ConvertToLFG` before it. -/
  | create (leader : ObjectGuid) (bgGroup bfGroup lfg : Bool)
  /-- `AddInvite`. -/
  | invite (player : ObjectGuid)
  /-- `HandleGroupAcceptOpcode`. -/
  | accept (player : ObjectGuid)
  /-- The command that puts a player into a group. -/
  | join (player : ObjectGuid)
  /-- `MakeNewGroup`, for a player of the proposal. -/
  | lfg (player : ObjectGuid)
  /-- A battleground or battlefield puts a player into its raid. -/
  | battleground (player : ObjectGuid)
  | remove (guid : ObjectGuid) (method : RemoveMethod) (inDungeon : Bool)
  /-- `HandleGroupChangeSubGroupOpcode`. -/
  | changeSubGroup (guid : ObjectGuid) (groupNr : UInt8)
  | convertToRaid
  | changeLeader (guid : ObjectGuid)
  | disband
  | login (guid : ObjectGuid)
  | logout (guid : ObjectGuid)

/-- `AddMember` for a player who is in the game. -/
def add (w : GroupWorld) (g : Group) (player : ObjectGuid) : GroupWorld :=
  if w.connected player then { w with group := some (g.addMember player) } else w

/-- What is done to the group there is, with the checks of the callers. -/
def onGroup (w : GroupWorld) (g : Group) : Event → GroupWorld
  | .invite player =>
    -- he is in no group and has no other invite
    if g.isMember player || !w.connected player then w
    else { w with group := some { g with invitees := player :: g.invitees.filter (· ≠ player) } }
  | .accept player =>
    if player ∉ g.invitees then w
    else
      let g := { g with invitees := g.invitees.filter (· ≠ player) }
      if g.leaderGuid = player || g.isFull then { w with group := some g } else w.add g player
  | .join player => if g.isMember player || g.isFull then w else w.add g player
  | .lfg player => if g.isMember player then w else w.add g player
  | .battleground player =>
    if !g.bgGroup && !g.bfGroup || !w.connected player then w
    else if g.isMember player then { w with group := some (g.linkMember player) }
    else w.add g player
  | .remove guid method inDungeon => { w with group := g.removeMember w.connected guid method inDungeon }
  | .changeSubGroup guid groupNr =>
    if MAX_RAID_SUBGROUPS ≤ groupNr.toNat || !g.hasFreeSlotSubGroup groupNr then w
    else { w with group := some (g.changeMembersGroup guid groupNr) }
  | .convertToRaid => { w with group := some g.convertToRaid }
  | .changeLeader guid => { w with group := some (g.changeLeader w.connected guid) }
  | .disband => { w with group := none }
  | .create .. | .login _ | .logout _ => w

def step (event : Event) (w : GroupWorld) : Option GroupWorld :=
  match event with
  | .login guid =>
    -- his reference, if he has a slot
    some { w with
      players := guid :: w.players
      group := w.group.map fun g => if g.isMember guid then g.linkMember guid else g }
  | .logout guid =>
    some { w with
      players := w.players.filter (· ≠ guid)
      group := w.group.map fun g => { g.delinkMember guid with invitees := g.invitees.filter (· ≠ guid) } }
  | .create leader bgGroup bfGroup lfg =>
    some (if w.group.isNone && w.connected leader then { w with group := some (Group.create leader bgGroup bfGroup lfg) }
      else w)
  | event => some ((w.group.map (w.onGroup · event)).getD w)

end GroupWorld

end AtlasWow
