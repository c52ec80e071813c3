/-
A custom chat channel (`Channel.cpp`) and its place in the `ChannelMgr`: who
is on it, who owns and moderates it, and who is banned.

The manager makes the channel at the first join and deletes it when a player
leaves it empty (`HandleJoinChannel`, `HandleLeaveChannel`,
`Player::CleanupChannels`); the other requests find it in the sender's list of
channels. Notices to the players and the writes to the `channels` table are
left out; what the constructor reads from that table is part of the join.
-/
import AtlasWow.Entities.ObjectGuid
import AtlasWow.Lib.Machine
import AtlasWow.Lib.OrderedMap

namespace AtlasWow.Chat

/-! ## Players -/

/-- A connected player: what a channel asks of him and of his session's permissions. -/
structure Player where
  guid : ObjectGuid
  name : String
  team : Nat := 0
  /-- `RBAC_PERM_CHANGE_CHANNEL_NOT_MODERATOR`. -/
  changeChannelNotModerator : Bool := false
  /-- `RBAC_PERM_TWO_SIDE_INTERACTION_CHANNEL`. -/
  twoSideInteractionChannel : Bool := false
  gmVisible : Bool := true
  deriving DecidableEq, Repr

/-- The connected players, by guid and by name. The handlers normalise a target's name before a channel sees it, and
`PlayerNameMap` is keyed by normalised names. -/
structure Connected where
  players : List Player
  guids : (players.map (·.guid)).Nodup
  names : (players.map (·.name)).Nodup
  present : ∀ player ∈ players, player.guid ≠ ObjectGuid.Empty

namespace Connected

def findConnectedPlayer (connected : Connected) (guid : ObjectGuid) : Option Player :=
  connected.players.find? (·.guid = guid)

def findConnectedPlayerByName (connected : Connected) (name : String) : Option Player :=
  connected.players.find? (·.name = name)

end Connected

/-! ## The channel -/

/-- `PlayerInfo`: of the bits of `flags` only these are ever set. -/
structure PlayerInfo where
  isOwner : Bool := false
  isModerator : Bool := false
  isMuted : Bool := false
  isInvisible : Bool := false
  deriving DecidableEq, Repr

structure Channel where
  announceEnabled : Bool := true
  ownershipEnabled : Bool := true
  isOwnerInvisible : Bool := false
  ownerGuid : ObjectGuid := ObjectGuid.Empty
  channelPassword : String := ""
  playersStore : OMap ObjectGuid PlayerInfo := .empty
  bannedStore : Finset ObjectGuid := ∅

/-- The row of the `channels` table that the constructor loads. -/
structure Saved where
  announce : Bool
  ownership : Bool
  password : String
  bannedList : List ObjectGuid

namespace Channel

/-- The constructor of a custom channel; a row is loaded if channels are preserved and it is there. -/
def create : Option Saved → Channel
  | none => {}
  | some saved =>
    { announceEnabled := saved.announce
      ownershipEnabled := saved.ownership
      channelPassword := saved.password
      bannedStore := (saved.bannedList.filter (· ≠ ObjectGuid.Empty)).toFinset }

def isOn (c : Channel) (who : ObjectGuid) : Bool := (c.playersStore.find? who).isSome
def isBanned (c : Channel) (guid : ObjectGuid) : Bool := guid ∈ c.bannedStore

/-- Writes to the entry of a player, if he has one. -/
def modify (c : Channel) (guid : ObjectGuid) (f : PlayerInfo → PlayerInfo) : Channel :=
  match c.playersStore.find? guid with
  | some info => { c with playersStore := c.playersStore.insert guid (f info) }
  | none => c

def giveOwner (info : PlayerInfo) : PlayerInfo := { info with isModerator := true, isOwner := true }
def takeOwner (info : PlayerInfo) : PlayerInfo := { info with isOwner := false }

/-- `SetOwner(ObjectGuid, bool)`. -/
def setOwner (c : Channel) (guid : ObjectGuid) : Channel :=
  let c := if c.ownerGuid ≠ ObjectGuid.Empty then c.modify c.ownerGuid takeOwner else c
  let c := { c with ownerGuid := guid }
  if guid ≠ ObjectGuid.Empty then c.modify guid giveOwner else c

/-- `JoinChannel`. -/
def joinChannel (c : Channel) (player : Player) (pass : String) : Channel :=
  if c.isOn player.guid then c
  else if c.isBanned player.guid then c
  else if c.channelPassword ≠ "" && pass ≠ c.channelPassword then c
  else
    let newChannel := c.playersStore.isEmpty
    let pinfo : PlayerInfo := { isInvisible := !player.gmVisible }
    let c := { c with playersStore := c.playersStore.insert player.guid pinfo }
    if c.ownershipEnabled && (newChannel || !pinfo.isInvisible) &&
        (c.ownerGuid = ObjectGuid.Empty || c.isOwnerInvisible) then
      let c := { c with isOwnerInvisible := pinfo.isInvisible }
      (c.setOwner player.guid).modify player.guid fun info => { info with isModerator := true }
    else c

/-- The first visible player, or the first one. -/
def nextOwner (c : Channel) : Option (ObjectGuid × PlayerInfo) :=
  (c.playersStore.entries.find? fun e => !e.2.isInvisible).or c.playersStore.entries.head?

/-- `LeaveChannel`. -/
def leaveChannel (c : Channel) (guid : ObjectGuid) : Channel :=
  match c.playersStore.find? guid with
  | none => c
  | some info =>
    let changeowner := info.isOwner
    let c := { c with playersStore := c.playersStore.erase guid }
    if changeowner && c.ownershipEnabled then
      match c.nextOwner with
      | none => c
      | some (newOwner, info) =>
        let c := (c.modify newOwner fun info => { info with isModerator := true }).setOwner newOwner
        if info.isInvisible then { c with isOwnerInvisible := true } else c
    else c

/-- `KickOrBan`. `none` where it writes to the actor's entry after it erased it. -/
def kickOrBan (c : Channel) (connected : Connected) (player : Player) (badname : String) (ban : Bool) : Option Channel :=
  match c.playersStore.find? player.guid with
  | none => some c
  | some info =>
    if !info.isModerator && !player.changeChannelNotModerator then some c
    else
      match connected.findConnectedPlayerByName badname with
      | none => some c
      | some bad =>
        if !c.isOn bad.guid then some c
        else
          let changeowner := c.ownerGuid = bad.guid
          if !player.changeChannelNotModerator && changeowner && player.guid ≠ c.ownerGuid then some c
          else
            let c := if ban then { c with bannedStore := insert bad.guid c.bannedStore } else c
            let c := { c with playersStore := c.playersStore.erase bad.guid }
            if changeowner && c.ownershipEnabled && !c.playersStore.isEmpty then
              -- `info` refers to the actor's entry: gone if he is the victim
              if c.isOn player.guid then
                some ((c.modify player.guid fun info => { info with isModerator := true }).setOwner player.guid)
              else none
            else some c

/-- `UnBan`. -/
def unBan (c : Channel) (connected : Connected) (player : Player) (badname : String) : Channel :=
  match c.playersStore.find? player.guid with
  | none => c
  | some info =>
    if !info.isModerator && !player.changeChannelNotModerator then c
    else
      match connected.findConnectedPlayerByName badname with
      | none => c
      | some bad => if c.isBanned bad.guid then { c with bannedStore := c.bannedStore.erase bad.guid } else c

/-- `Password`. -/
def password (c : Channel) (player : Player) (pass : String) : Channel :=
  match c.playersStore.find? player.guid with
  | none => c
  | some info =>
    if !info.isModerator && !player.changeChannelNotModerator then c else { c with channelPassword := pass }

/-- `Announce`. -/
def announce (c : Channel) (player : Player) : Channel :=
  match c.playersStore.find? player.guid with
  | none => c
  | some info =>
    if !info.isModerator && !player.changeChannelNotModerator then c
    else { c with announceEnabled := !c.announceEnabled }

/-- Two players see each other on a channel. -/
def sameSide (player newp : Player) : Bool :=
  player.team = newp.team || player.twoSideInteractionChannel && newp.twoSideInteractionChannel

/-- `SetModerator(ObjectGuid, bool)` and `SetMute(ObjectGuid, bool)`. -/
def setModerator (c : Channel) (guid : ObjectGuid) (set : Bool) : Channel :=
  c.modify guid fun info => { info with isModerator := set }
def setMute (c : Channel) (guid : ObjectGuid) (set : Bool) : Channel :=
  c.modify guid fun info => { info with isMuted := set }

/-- `SetMode`. -/
def setMode (c : Channel) (connected : Connected) (player : Player) (p2n : String) (mod set : Bool) : Channel :=
  match c.playersStore.find? player.guid with
  | none => c
  | some info =>
    if !info.isModerator && !player.changeChannelNotModerator then c
    else if player.guid = c.ownerGuid && p2n = player.name && mod then c
    else
      match connected.findConnectedPlayerByName p2n with
      | none => c
      | some newp =>
        if !c.isOn newp.guid || !sameSide player newp then c
        else if c.ownerGuid = newp.guid && c.ownerGuid ≠ player.guid then c
        else if mod then c.setModerator newp.guid set
        else c.setMute newp.guid set

/-- `SetInvisible`. -/
def setInvisible (c : Channel) (guid : ObjectGuid) (on : Bool) : Channel :=
  match c.playersStore.find? guid with
  | none => c
  | some info =>
    let c := { c with playersStore := c.playersStore.insert guid { info with isInvisible := on } }
    if c.ownerGuid = guid then { c with isOwnerInvisible := on } else c

/-- `SetOwner(Player const*, std::string const&)`. -/
def setOwnerByName (c : Channel) (connected : Connected) (player : Player) (newname : String) : Channel :=
  if !c.isOn player.guid then c
  else if !player.changeChannelNotModerator && player.guid ≠ c.ownerGuid then c
  else
    match connected.findConnectedPlayerByName newname with
    | none => c
    | some newp =>
      if !c.isOn newp.guid || !sameSide player newp then c
      else (c.modify newp.guid fun info => { info with isModerator := true }).setOwner newp.guid

end Channel

/-! ## Requests -/

inductive Request
  | join (pass : String) (saved : Option Saved)
  | leave
  | kickOrBan (badname : String) (ban : Bool)
  | unBan (badname : String)
  | password (pass : String)
  | announce
  | setMode (p2n : String) (mod set : Bool)
  | setInvisible (on : Bool)
  | setOwner (newname : String)

/-- A request of one of the players who are connected then. -/
structure Event where
  connected : Connected
  guid : ObjectGuid
  request : Request

/-- What a request does to a channel that is there. -/
def serve (connected : Connected) (player : Player) (c : Channel) : Request → Option (Option Channel)
  | .join pass _ => some (some (c.joinChannel player pass))
  | .leave =>
    let c := c.leaveChannel player.guid
    -- `ChannelMgr::LeftChannel`
    some (if c.playersStore.isEmpty then none else some c)
  | .kickOrBan badname ban => (c.kickOrBan connected player badname ban).map some
  | .unBan badname => some (some (c.unBan connected player badname))
  | .password pass => some (some (c.password player pass))
  | .announce => some (some (c.announce player))
  | .setMode p2n mod set => some (some (c.setMode connected player p2n mod set))
  | .setInvisible on => some (some (c.setInvisible player.guid on))
  | .setOwner newname => some (some (c.setOwnerByName connected player newname))

/-- One request, the channel being in the manager or not; `none` if the program breaks. -/
def step (e : Event) (channel : Option Channel) : Option (Option Channel) :=
  match e.connected.findConnectedPlayer e.guid with
  | none => some channel
  | some player =>
    match channel, e.request with
    | some c, request => serve e.connected player c request
    -- `ChannelMgr::GetJoinChannel`
    | none, .join pass saved => some (some ((Channel.create saved).joinChannel player pass))
    | none, _ => some none

end AtlasWow.Chat
