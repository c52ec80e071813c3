/-
`Battleroyale` (`Battleroyale.h`, `Battleroyale.cpp`): the games, who is listed
in them, and the hooks that take players out: the release of a ghost
(`Player::RepopAtGraveyard`), a logout (`WorldSession::LogoutPlayer`), the
removal from a group (`Group::RemoveMember`), the queue's own leave.

`ObjectAccessor::FindPlayer` finds a player who is in the world. A teleport to
another map takes him out of it until he has arrived, so each step is told who
stays on his map (`near`). A null pointer that is read, an index past the end
and an erased iterator that is used stop the step: `none`.
-/
import AtlasWow.Entities.ObjectGuid
import AtlasWow.Lib.Machine
import AtlasWow.Lib.OrderedMap

namespace AtlasWow

namespace Battleroyale

def SOLO : UInt8 := 0

structure GroupMember where
  guid : ObjectGuid
  isAlive : Bool

/-- A row of `battleroyale_areas`, and how many places to spawn it has. -/
structure Area where
  minPlayer : UInt8
  category : UInt8
  spawnsPlayers : Nat

/-- `battleroyale_areas`. Zero is no game. -/
structure Areas where
  rows : OMap Nat Area
  ids : ∀ id ∈ rows.keys, 0 < id

structure Game where
  playersGuid : List ObjectGuid
  /-- `GROUPS`, by the counter of the group's guid. -/
  groups : OMap Nat (List GroupMember)
  isStarted : Bool
  minPlayer : UInt8
  category : UInt8
  /-- How many places to spawn are left. -/
  spawnsPlayers : Nat
  mPlayersKills : OMap Nat Nat
  /-- Who was listed at each start; not in the source. -/
  starts : List (List ObjectGuid)

/-- A game as `m_games[gameId]` makes it. -/
def Game.new : Game := ⟨[], .empty, false, 0, 0, 0, .empty, []⟩

/-- A group (`Group.h`): the players its references lead to, and how many slots it has. -/
structure Party where
  guid : Nat
  members : List ObjectGuid
  membersCount : Nat
  nodup : members.Nodup

/-- What `rewardPlayer` writes. -/
structure Reward where
  gameId : Nat
  /-- Which start of the game it belongs to; none while the game waits. -/
  start : Option Nat
  player : ObjectGuid
  position : Nat
  killCount : Nat
deriving DecidableEq

/-- The row of `battleroyale_stats` counts from two. -/
def Reward.statsPosition (r : Reward) : Nat := r.position + 1
def Reward.top1 (r : Reward) : Nat := if r.position = 1 then 1 else 0
def Reward.totalDeath (r : Reward) : Nat := if r.position = 1 then 0 else 1

/-- A kill of a listed player in a started game; not in the source. -/
structure Kill where
  gameId : Nat
  start : Nat
  killer : ObjectGuid
deriving DecidableEq

end Battleroyale

structure Battleroyale where
  games : OMap Nat Battleroyale.Game
  /-- Who is in the world. -/
  inWorld : ObjectGuid → Bool
  parties : List Battleroyale.Party
  rewards : List Battleroyale.Reward
  kills : List Battleroyale.Kill

namespace Battleroyale

/-- `m_games[gameId]`. -/
def game (b : Battleroyale) (gameId : Nat) : Game := (b.games.find? gameId).getD .new

def setGame (b : Battleroyale) (gameId : Nat) (game : Game) : Battleroyale :=
  { b with games := b.games.insert gameId game }

/-- Asking for a game makes it. -/
def withGame (b : Battleroyale) (gameId : Nat) : Battleroyale := b.setGame gameId (b.game gameId)

def getGroup (b : Battleroyale) (player : ObjectGuid) : Option Party := b.parties.find? (player ∈ ·.members)

def teleportTo (near : ObjectGuid → Bool) (player : ObjectGuid) (b : Battleroyale) : Battleroyale :=
  { b with inWorld := fun guid => b.inWorld guid && (guid ≠ player || near guid) }

/-! ## Who is listed -/

inductive Scan where
  | offline | found | absent
deriving DecidableEq

/-- Look for a player in a list, as far as the listed players are in the world. -/
def scan (b : Battleroyale) (player : ObjectGuid) : List ObjectGuid → Scan
  | [] => .absent
  | guid :: guids => if !b.inWorld guid then .offline else if guid = player then .found else scan b player guids

def checkGames (b : Battleroyale) (player : ObjectGuid) : List (Nat × Game) → Nat → Nat
  | [], gameId => gameId
  | (id, game) :: games, gameId =>
    match b.scan player game.playersGuid with
    | .offline => gameId
    | .found => checkGames b player games id
    | .absent => checkGames b player games gameId

/-- The last game that lists the player, of those before a listed player who is not in the world. -/
def checkIfPlayerIsInBattleRoyale (b : Battleroyale) (player : ObjectGuid) : Nat := b.checkGames player b.games.entries 0

def gameIsStarted (b : Battleroyale) (gameId : Nat) : Bool := (b.game gameId).isStarted

def erasePlayer (player : ObjectGuid) (game : Game) : Game :=
  { game with playersGuid := game.playersGuid.filter (· ≠ player) }

/-! ## Rewards and the end of a game -/

def rewardPlayer (player : ObjectGuid) (position gameId : Nat) (b : Battleroyale) : Battleroyale :=
  let game := b.game gameId
  { b with
    rewards := b.rewards ++ [{
      gameId := gameId
      start := if game.isStarted then some (game.starts.length - 1) else none
      player := player
      position := position
      killCount := (game.mPlayersKills.find? player).getD 0 }] }

/-- The groups and the kills stay. -/
def reloadGameId (areas : Areas) (gameId : Nat) (b : Battleroyale) : Battleroyale :=
  match areas.rows.find? gameId with
  | none => b
  | some area =>
    b.setGame gameId { b.game gameId with
      playersGuid := []
      isStarted := false
      minPlayer := area.minPlayer
      category := area.category
      spawnsPlayers := area.spawnsPlayers }

def getGroupMemberAlive (game : Game) (groupGuid : Nat) : Nat :=
  ((game.groups.find? groupGuid).getD []).countP (·.isAlive)

/-- Whether the player is alive in the group he is in; none if he is in no group. -/
def isAlive (b : Battleroyale) (player : ObjectGuid) (gameId : Nat) : Option Bool :=
  (b.getGroup player).map fun party =>
    (((b.game gameId).groups.find? party.guid).bind (·.find? (·.guid = player))).any (·.isAlive)

/-- The members who are in the world, in `rewardAllPlayersInGroup`. -/
def rewardMember (near : ObjectGuid → Bool) (position gameId : Nat) (remove : Bool) (b : Battleroyale)
    (member : GroupMember) : Option Battleroyale :=
  if !b.inWorld member.guid then some b
  else
    let b := b.rewardPlayer member.guid position gameId
    (b.isAlive member.guid gameId).map fun alive =>
      if alive && remove then
        let b := b.teleportTo near member.guid
        b.setGame gameId (erasePlayer member.guid (b.game gameId))
      else b

def rewardAllPlayersInGroup (near : ObjectGuid → Bool) (groupGuid position gameId : Nat) (remove : Bool)
    (b : Battleroyale) : Option Battleroyale :=
  ((b.game gameId).groups.find? groupGuid).getD [] |>.foldlM (rewardMember near position gameId remove) b

/-- The first player listed, if there is one and he is in the world. -/
def getTheLastPlayer (b : Battleroyale) (gameId : Nat) : Option ObjectGuid :=
  (b.game gameId).playersGuid.head?.filter b.inWorld

/-- `checkReward`, the game of single players. `again` is `removePlayer`: without a last player it is called with a null
pointer, whose name is read then. -/
def checkSolo (areas : Areas) (again : ObjectGuid → Battleroyale → Option Battleroyale) (gameId : Nat) (b : Battleroyale) :
    Option Battleroyale :=
  let game := b.game gameId
  if game.playersGuid.length = 1 && game.isStarted && game.category = SOLO then
    (b.getTheLastPlayer gameId).bind fun lastPlayer => (again lastPlayer b).map (reloadGameId areas gameId)
  else some b

def rewardLastGroup (near : ObjectGuid → Bool) (groupCount gameId : Nat) (b : Battleroyale) : Option Battleroyale :=
  (b.getTheLastPlayer gameId).bind fun lastPlayer =>
    match b.getGroup lastPlayer with
    -- his group is not read where the game has none
    | none => if (b.game gameId).groups.isEmpty then some b else none
    | some party => b.rewardAllPlayersInGroup near party.guid groupCount gameId true

/-- `checkReward`, the games of groups. -/
def checkGroups (areas : Areas) (near : ObjectGuid → Bool) (groupCount gameId : Nat) (b : Battleroyale) :
    Option Battleroyale :=
  let game := b.game gameId
  if game.isStarted && SOLO < game.category && game.groups.size ≤ 1 then
    (b.rewardLastGroup near groupCount gameId).map (reloadGameId areas gameId)
  else some b

def checkReward (areas : Areas) (near : ObjectGuid → Bool) (again : ObjectGuid → Battleroyale → Option Battleroyale)
    (gameId : Nat) (b : Battleroyale) : Option Battleroyale :=
  (b.checkSolo areas again gameId).bind (checkGroups areas near (b.game gameId).groups.size gameId)

/-! ## Leaving -/

def setDead (player : ObjectGuid) : List GroupMember → List GroupMember
  | [] => []
  | member :: members =>
    if member.guid = player then { member with isAlive := false } :: members else member :: setDead player members

/-- In a game of groups a player who has none of his own dies in the groups of the game. One without a member alive is
erased under the iterator that goes on from it. -/
def dieInGroups (player : ObjectGuid) (game : Game) : Option Game :=
  if SOLO < game.category then
    if game.groups.entries.any fun (_, members) =>
        members.any (·.guid = player) && (setDead player members).all (!·.isAlive) then none
    else some { game with groups := game.groups.mapValues fun _ members => setDead player members }
  else some game

/-- `removePlayer(player, lastPlayer)` in one game. -/
def removeFrom (areas : Areas) (near : ObjectGuid → Bool) (again : ObjectGuid → Battleroyale → Option Battleroyale)
    (player : ObjectGuid) (b : Battleroyale) (gameId : Nat) : Option Battleroyale :=
  if player ∉ (b.game gameId).playersGuid || !b.inWorld player then some b
  else
    let position := (b.game gameId).playersGuid.length
    let b := (b.teleportTo near player).rewardPlayer player position gameId
    (dieInGroups player (erasePlayer player (b.game gameId))).bind fun game =>
      checkReward areas near again gameId (b.setGame gameId game)

/-- `removePlayer(player, lastPlayer)`. With the last player of a game it calls itself: `n` is how deep. -/
def removePlayerRec (areas : Areas) (near : ObjectGuid → Bool) : Nat → ObjectGuid → Battleroyale → Option Battleroyale
  | 0, _, _ => none
  | n + 1, player, b => b.games.keys.foldlM (removeFrom areas near (removePlayerRec areas near n) player) b

/-- The players listed, game by game. -/
def listed (b : Battleroyale) : List ObjectGuid := b.games.entries.flatMap (·.2.playersGuid)

/-- Each call takes a player off a list. -/
def removePlayer (areas : Areas) (near : ObjectGuid → Bool) (player : ObjectGuid) (b : Battleroyale) : Option Battleroyale :=
  removePlayerRec areas near (b.listed.length + 1) player b

/-- The group of a player who leaves the queue leaves it too. -/
def leaveWithGroup (player : ObjectGuid) (b : Battleroyale) (gameId : Nat) : Battleroyale :=
  match b.getGroup player with
  | none => b
  | some party =>
    let game := b.game gameId
    if (game.groups.find? party.guid).isSome then
      b.setGame gameId { game with
        groups := game.groups.erase party.guid
        playersGuid := game.playersGuid.filter (· ∉ party.members) }
    else b

/-- `removePlayer(player)`, in the games with the ids given. -/
def leaveGames (player : ObjectGuid) : List Nat → Battleroyale → Battleroyale
  | [], b => b
  | gameId :: ids, b =>
    match b.scan player (b.game gameId).playersGuid with
    | .offline => b
    | .found => leaveGames player ids (leaveWithGroup player (b.setGame gameId (erasePlayer player (b.game gameId))) gameId)
    | .absent => leaveGames player ids (leaveWithGroup player b gameId)

/-- `removePlayer(player)`: he leaves the queue. -/
def leaveQueue (player : ObjectGuid) (b : Battleroyale) : Battleroyale := leaveGames player b.games.keys b

def dieInGroup (player : ObjectGuid) (groupGuid : Nat) (game : Game) : Game :=
  match game.groups.find? groupGuid with
  | none => game
  | some members => { game with groups := game.groups.insert groupGuid (setDead player members) }

/-- A group without a member alive is rewarded and erased. -/
def rewardIfDead (near : ObjectGuid → Bool) (groupGuid gameId : Nat) (b : Battleroyale) : Option Battleroyale :=
  if getGroupMemberAlive (b.game gameId) groupGuid = 0 then
    (b.rewardAllPlayersInGroup near groupGuid (b.game gameId).groups.size gameId false).map fun b =>
      b.setGame gameId { b.game gameId with groups := (b.game gameId).groups.erase groupGuid }
  else some b

/-- `removePlayerFromGroup` in one game. It goes on over the list it has shortened, where it does not meet a player again
who was listed once. -/
def removeFromGroup (areas : Areas) (near : ObjectGuid → Bool) (player : ObjectGuid) (b : Battleroyale) (gameId : Nat) :
    Option Battleroyale :=
  if player ∉ (b.game gameId).playersGuid || !b.inWorld player then some b
  else
    match b.getGroup player with
    | none => none
    | some party =>
      let b := b.setGame gameId (dieInGroup player party.guid (erasePlayer player (b.game gameId)))
      ((b.rewardIfDead near party.guid gameId).bind (checkReward areas near (removePlayer areas near) gameId)).map
        (teleportTo near player)

def removePlayerFromGroup (areas : Areas) (near : ObjectGuid → Bool) (player : ObjectGuid) (b : Battleroyale) :
    Option Battleroyale :=
  b.games.keys.foldlM (removeFromGroup areas near player) b

/-! ## Joining -/

/-- A place to spawn, for some players; there is none past the end. -/
def takeSpawn (near : ObjectGuid → Bool) (gameId : Nat) (players : List ObjectGuid) (b : Battleroyale) : Option Battleroyale :=
  let game := b.game gameId
  if game.spawnsPlayers = 0 then none
  else some (players.foldl (fun b player => b.teleportTo near player)
    (b.setGame gameId { game with spawnsPlayers := game.spawnsPlayers - 1 }))

/-- A game of groups spawns the groups of every game. -/
def start (near : ObjectGuid → Bool) (gameId : Nat) (b : Battleroyale) : Option Battleroyale :=
  let game := b.game gameId
  let b := b.setGame gameId { game with isStarted := true, starts := game.starts ++ [game.playersGuid] }
  if SOLO < game.category then
    (b.games.entries.flatMap (·.2.groups.entries)).foldlM (fun b (_, members) =>
      b.takeSpawn near gameId (members.map (·.guid))) b
  else
    game.playersGuid.foldlM (fun b player => if b.inWorld player then b.takeSpawn near gameId [player] else some b) b

/-- The checks of `addPlayer`: whom it lists. -/
def joining (player : ObjectGuid) (gameId : Nat) (b : Battleroyale) : Option (List ObjectGuid) :=
  let game := b.game gameId
  if game.isStarted then none
  else if 0 < b.checkIfPlayerIsInBattleRoyale player then none
  else if SOLO < game.category then
    match b.getGroup player with
    | none => none
    | some party =>
      if party.membersCount < game.category.toNat then none
      -- somebody is disconnected
      else if party.members.length ≠ party.membersCount then none
      else some party.members
  else if (b.getGroup player).isSome then none
  else some [player]

/-- List the players, and their group. -/
def join (group : Option Party) (players : List ObjectGuid) (game : Game) : Game :=
  { game with
    playersGuid := game.playersGuid ++ players
    groups := match group with
      | none => game.groups
      | some party => game.groups.insert party.guid (players.map (⟨·, true⟩)) }

def addPlayer (near : ObjectGuid → Bool) (player : ObjectGuid) (gameId : Nat) (b : Battleroyale) : Option Battleroyale :=
  let b := b.withGame gameId
  match b.joining player gameId with
  | none => some b
  | some players =>
    let b := b.setGame gameId (join (b.getGroup player) players (b.game gameId))
    let currentPlayers := UInt8.ofNat (b.game gameId).playersGuid.length
    if (b.game gameId).minPlayer ≤ currentPlayers then b.start near gameId else some b

/-! ## Runs -/

/-- `updateKillCount`. -/
def addKill (killer : ObjectGuid) (game : Game) : Game :=
  { game with mPlayersKills := game.mPlayersKills.insert killer ((game.mPlayersKills.find? killer).getD 0 + 1) }

def onPlayerDie (killed killer : ObjectGuid) (b : Battleroyale) : Battleroyale :=
  let gameId := b.checkIfPlayerIsInBattleRoyale killed
  if 0 < gameId then b.setGame gameId (addKill killer (b.game gameId)) else b

/-- The started games that list a player. -/
def playing (b : Battleroyale) (player : ObjectGuid) : List (Nat × Game) :=
  b.games.entries.filter fun (_, game) => game.isStarted && player ∈ game.playersGuid

inductive Event where
  /-- The gossip of the master of the games, and the command. -/
  | join (player : ObjectGuid) (gameId : Nat) (near : ObjectGuid → Bool)
  | leave (player : ObjectGuid)
  | repop (player : ObjectGuid) (near : ObjectGuid → Bool)
  | logout (player : ObjectGuid) (near : ObjectGuid → Bool)
  | removeMember (player : ObjectGuid) (near : ObjectGuid → Bool)
  | kill (killed killer : ObjectGuid)
  /-- Players enter and leave the world. -/
  | world (inWorld : ObjectGuid → Bool)
  /-- Groups are formed, changed and disbanded. -/
  | parties (parties : List Party)

/-- A logout, or the removal from a group: he leaves the game he is found in, or the queue. -/
def quit (areas : Areas) (near : ObjectGuid → Bool) (player : ObjectGuid) (inGroup : Bool) (b : Battleroyale) :
    Option Battleroyale :=
  let gameId := b.checkIfPlayerIsInBattleRoyale player
  if 0 < gameId then
    if b.gameIsStarted gameId then
      if inGroup then b.removePlayerFromGroup areas near player else b.removePlayer areas near player
    else some (b.leaveQueue player)
  else some b

def step (areas : Areas) : Event → Battleroyale → Option Battleroyale
  | .join player gameId near, b => if b.inWorld player then b.addPlayer near player gameId else some b
  | .leave player, b => some (if b.inWorld player then b.leaveQueue player else b)
  | .repop player near, b =>
    if (b.getGroup player).isSome then b.removePlayerFromGroup areas near player else b.removePlayer areas near player
  | .logout player near, b =>
    (b.quit areas near player (b.getGroup player).isSome).map fun b => { b with inWorld := fun guid => b.inWorld guid && guid ≠ player }
  | .removeMember player near, b => b.quit areas near player true
  | .kill killed killer, b =>
    let made := (b.playing killed).map fun (id, game) => (⟨id, game.starts.length - 1, killer⟩ : Kill)
    some { b.onPlayerDie killed killer with kills := b.kills ++ made }
  | .world inWorld, b => some { b with inWorld := inWorld }
  | .parties parties, b => some { b with parties := parties }

/-- `prepareGames`, before anybody is in the world. -/
def prepareGames (areas : Areas) : Battleroyale where
  games := areas.rows.mapValues fun _ area =>
    { Game.new with minPlayer := area.minPlayer, category := area.category, spawnsPlayers := area.spawnsPlayers }
  inWorld := fun _ => false
  parties := []
  rewards := []
  kills := []

end Battleroyale

end AtlasWow
