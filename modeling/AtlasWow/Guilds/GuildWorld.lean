/-
The guilds of a server and what each player knows of his own: `GuildMgr`, the
handlers of `GuildHandler.cpp`, the petitions, the commands of `cs_guild.cpp`
and the loading of the tables at a restart.

A player's guild id is `PLAYER_GUILDID`, which `SetInGuild` writes through to
the character cache; both are one field here. It is read where the tables of
the guilds are not: by every check that somebody is in no guild.
-/
import AtlasWow.Guilds.Guild
import AtlasWow.Lib.Machine
import AtlasWow.Lib.OrderedMap

namespace AtlasWow

structure GuildWorld where
  /-- `GuildStore`. -/
  guilds : OMap Nat Guild
  nextGuildId : Nat
  guildId : ObjectGuid → Nat
  guildIdInvited : ObjectGuid → Nat

/-- What the tables hold when the server starts: the guilds before `Validate`. The key of `guild_rank` is the guild and a
byte, and a character has one row in `guild_member`. -/
structure GuildTables where
  guilds : OMap Nat Guild
  nextGuildId : Nat
  next : 0 < nextGuildId
  ids : ∀ id g, guilds.find? id = some g → id ≠ 0 ∧ id < nextGuildId
  ranks : ∀ id g, guilds.find? id = some g → g.ranks.length ≤ 256
  unique : ∀ guid id id' g g', guilds.find? id = some g → guilds.find? id' = some g' →
    (g.getMember guid).isSome → (g'.getMember guid).isSome → id = id'

namespace GuildWorld

inductive Event where
  /-- `HandleTurnInPetitionOpcode` with the signatures, or the command that creates a guild (without). -/
  | create (leader : ObjectGuid) (signatures : List ObjectGuid)
  /-- `HandleGuildInviteOpcode`; `allied` is false if the invitee ignores the player or is of the other side. -/
  | invite (player invitee : ObjectGuid) (allied : Bool)
  | accept (player : ObjectGuid) (allied : Bool)
  | decline (player : ObjectGuid)
  | leave (player : ObjectGuid)
  /-- `HandleGuildRemoveOpcode`. -/
  | remove (player name : ObjectGuid)
  | setLeader (player name : ObjectGuid)
  | updateMemberRank (player name : ObjectGuid) (demote : Bool)
  | addNewRank (player : ObjectGuid)
  | removeRank (player : ObjectGuid) (rankId : UInt8)
  | disband (player : ObjectGuid)
  /-- The commands that put a character into a guild, take him out of his and delete a guild. Deleting a character and
  changing his faction take him out as well. -/
  | commandInvite (guid : ObjectGuid) (id : Nat)
  | commandUninvite (guid : ObjectGuid)
  | commandDelete (id : Nat)
  | restart (tables : GuildTables) (allowMultiple : Bool)

/-- `GetGuild`. -/
def getGuild (w : GuildWorld) (player : ObjectGuid) : Option Guild :=
  if w.guildId player = 0 then none else w.guilds.find? (w.guildId player)

/-- A guild after a change. -/
def setGuild (id : Nat) (g : Guild) (w : GuildWorld) : GuildWorld := { w with guilds := w.guilds.insert id g }

/-- `AddMember`: nobody joins whose guild id is set. -/
def addMember (pl : Placement ObjectGuid Member) (id : Nat) (guid : ObjectGuid) (rankId : Option UInt8) (w : GuildWorld) :
    GuildWorld :=
  match w.guilds.find? id with
  | none => w
  | some g =>
    if w.guildId guid ≠ 0 then w
    else
      { w.setGuild id (g.insertMember pl guid (rankId.getD g.getLowestRankId)) with
        guildId := Function.update w.guildId guid id
        guildIdInvited := Function.update w.guildIdInvited guid 0 }

def disbandGuild (id : Nat) (g : Guild) (w : GuildWorld) : GuildWorld :=
  { w with
    guilds := w.guilds.erase id
    guildId := fun guid => if (g.getMember guid).isSome then 0 else w.guildId guid }

def deleteMember (id : Nat) (g : Guild) (guid : ObjectGuid) (w : GuildWorld) : GuildWorld :=
  match g.handOver guid with
  | none => w.disbandGuild id g
  | some g => { w.setGuild id (g.eraseMember guid) with guildId := Function.update w.guildId guid 0 }

/-- `Create` and `AddGuild`; `none` when there are no ids left and the server stops. -/
def createGuild (pl : Placement ObjectGuid Member) (leader : ObjectGuid) (w : GuildWorld) : Option GuildWorld :=
  if 0xFFFFFFFE ≤ w.nextGuildId then none
  else
    let g := Guild.createDefaultGuildRanks ⟨leader, [], .empty, 0, 0⟩
    some (({ w with nextGuildId := w.nextGuildId + 1 }.setGuild w.nextGuildId g).addMember pl w.nextGuildId leader
      (some GR_GUILDMASTER))

def handleInviteMember (player invitee : ObjectGuid) (allied : Bool) (g : Guild) (w : GuildWorld) : GuildWorld :=
  if !allied || w.guildId invitee ≠ 0 || w.guildIdInvited invitee ≠ 0 || !g.hasRankRight player GR_RIGHT_INVITE then w
  else { w with guildIdInvited := Function.update w.guildIdInvited invitee (w.guildId player) }

def handleLeaveMember (player : ObjectGuid) (g : Guild) (w : GuildWorld) : GuildWorld :=
  if g.isLeader player then
    if 1 < g.members.size then w else w.disbandGuild (w.guildId player) g
  else w.deleteMember (w.guildId player) g player

def handleRemoveMember (player name : ObjectGuid) (g : Guild) (w : GuildWorld) : GuildWorld :=
  if !g.hasRankRight player GR_RIGHT_REMOVE then w
  else
    match g.getMember name, g.getMember player with
    | some member, some memberMe =>
      if member.isRank GR_GUILDMASTER || member.isRankNotLower memberMe.rankId then w
      else w.deleteMember (w.guildId player) g name
    | _, _ => w

/-- What is done to the guild of a player, by him. -/
def onGuild (g : Guild) (w : GuildWorld) : Event → GuildWorld
  | .invite player invitee allied => w.handleInviteMember player invitee allied g
  | .leave player => w.handleLeaveMember player g
  | .remove player name => w.handleRemoveMember player name g
  | .setLeader player name => w.setGuild (w.guildId player) (g.handleSetLeader player name)
  | .updateMemberRank player name demote => w.setGuild (w.guildId player) (g.handleUpdateMemberRank player name demote)
  | .addNewRank player => w.setGuild (w.guildId player) (g.handleAddNewRank player)
  | .removeRank player rankId => w.setGuild (w.guildId player) (g.handleRemoveRank player rankId)
  | .disband player => if g.isLeader player then w.disbandGuild (w.guildId player) g else w
  | .commandUninvite guid => w.deleteMember (w.guildId guid) g guid
  | _ => w

/-- Who acts, for what is done to his own guild. -/
def actor : Event → Option ObjectGuid
  | .invite player _ _ | .leave player | .remove player _ | .setLeader player _ | .updateMemberRank player _ _
  | .addNewRank player | .removeRank player _ | .disband player | .commandUninvite player => some player
  | _ => none

/-- A guild whose leader has no member row takes the row he has elsewhere. -/
def losesRow (guilds : OMap Nat Guild) (guid : ObjectGuid) : Bool :=
  guilds.entries.any fun e => e.2.leaderGuid = guid && (e.2.getMember guid).isNone

/-- `LoadGuilds`. Whoever logs in afterwards has the guild id of his row. -/
def load (tables : GuildTables) (allowMultiple : Bool) : GuildWorld where
  guilds := tables.guilds.filterMap fun _ g => g.validate allowMultiple
  nextGuildId := tables.nextGuildId
  guildId := fun guid =>
    if losesRow tables.guilds guid then 0
    else ((tables.guilds.entries.find? fun e => (e.2.getMember guid).isSome).map Prod.fst).getD 0
  guildIdInvited := fun _ => 0

def step (pl : Placement ObjectGuid Member) (event : Event) (w : GuildWorld) : Option GuildWorld :=
  match event with
  | .create leader signatures =>
    if w.guildId leader ≠ 0 then some w
    else (w.createGuild pl leader).map fun w' =>
      signatures.foldl (fun w guid => w.addMember pl (w'.guildId leader) guid none) w'
  | .accept player allied =>
    some (if w.guildId player = 0 && allied then w.addMember pl (w.guildIdInvited player) player none else w)
  | .decline player =>
    some { w with
      guildIdInvited := Function.update w.guildIdInvited player 0
      guildId := Function.update w.guildId player 0 }
  | .commandInvite guid id => some (w.addMember pl id guid none)
  | .commandDelete id => some ((w.guilds.find? id).elim w fun g => w.disbandGuild id g)
  | .restart tables allowMultiple => some (load tables allowMultiple)
  | event => some (((actor event).bind w.getGuild).elim w fun g => w.onGuild g event)

end GuildWorld

end AtlasWow
