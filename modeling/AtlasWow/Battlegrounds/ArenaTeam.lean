/-
Arena teams in memory and in the tables they are saved to: `ArenaTeam.cpp`,
what `Arena::EndBattleground` and the queue do with a rated team, and
`ArenaTeamMgr`, which distributes the points of a week and loads the teams.

The ratings come out of float formulas, the parameters of `Rules`.
-/
import AtlasWow.Lib.Machine
import AtlasWow.Lib.OrderedMap
import Mathlib.Data.Prod.Lex

namespace AtlasWow.Arena

inductive ArenaType where
  | arena2v2 | arena3v3 | arena5v5
  deriving DecidableEq, Repr

/-- `GetSlotByType`. -/
def ArenaType.slot : ArenaType → Nat
  | .arena2v2 => 0
  | .arena3v3 => 1
  | .arena5v5 => 2

structure Rules where
  getMatchmakerRatingMod (ownRating opponentRating : Nat) (won : Bool) : Int
  getRatingMod (ownRating opponentRating : Nat) (won : Bool) : Int
  /-- What `GetPoints` makes of the rating that counts. -/
  points (type : ArenaType) (rating : Nat) : Nat
  /-- 30% of the games of a week, rounded up. -/
  requiredGames (weekGames : UInt16) : Nat
  /-- `CONFIG_ARENA_START_MATCHMAKER_RATING`. -/
  startMatchmakerRating : UInt16
  /-- The character exists and has a name. -/
  hasName (guid : Nat) : Bool

structure ArenaTeamMember where
  weekGames : UInt16
  weekWins : UInt16
  seasonGames : UInt16
  seasonWins : UInt16
  personalRating : UInt16
  matchMakerRating : UInt16
  deriving DecidableEq, Repr

structure ArenaTeamStats where
  rating : UInt16
  weekGames : UInt16
  weekWins : UInt16
  seasonGames : UInt16
  seasonWins : UInt16
  rank : UInt32
  deriving DecidableEq, Repr

structure ArenaTeam where
  captainGuid : Nat
  type : ArenaType
  stats : ArenaTeamStats
  members : OMap Nat ArenaTeamMember

/-- A row of `arena_team`. -/
structure TeamRow where
  captainGuid : Nat
  type : ArenaType
  stats : ArenaTeamStats
  deriving DecidableEq, Repr

/-- A row of `arena_team_member`. -/
structure MemberRow where
  weekGames : UInt16
  weekWins : UInt16
  seasonGames : UInt16
  seasonWins : UInt16
  personalRating : UInt16
  deriving DecidableEq, Repr

/-- The tables, by their primary keys. -/
structure Tables where
  arenaTeam : OMap Nat TeamRow
  /-- The rows of a team by character. -/
  arenaTeamMember : OMap Nat (OMap Nat MemberRow)
  /-- `character_arena_stats`, by character and slot. -/
  characterArenaStats : OMap (Nat ×ₗ Nat) UInt16

/-- The rows of a team in `arena_team_member`. -/
def Tables.memberRows (db : Tables) (id : Nat) : OMap Nat MemberRow := (db.arenaTeamMember.find? id).getD .empty

/-- A rating can only drop to 0. -/
def modifyRating (rating : UInt16) (mod : Int) : UInt16 :=
  if (rating.toNat : Int) + mod < 0 then 0 else UInt16.ofNat ((rating.toNat : Int) + mod).toNat

namespace ArenaTeam

variable (rules : Rules)

/-- `FinishGame`; `teams` are all teams, this one too. -/
def finishGame (t : ArenaTeam) (teams : OMap Nat ArenaTeam) (mod : Int) : ArenaTeam :=
  let rating := modifyRating t.stats.rating mod
  let better := teams.entries.countP fun e => e.2.type = t.type && rating < e.2.stats.rating
  { t with stats := { t.stats with
      rating := rating
      weekGames := t.stats.weekGames + 1
      seasonGames := t.stats.seasonGames + 1
      rank := UInt32.ofNat (1 + better) } }

/-- `WonAgainst`, with the rating change of the players it returns. -/
def wonAgainst (t : ArenaTeam) (teams : OMap Nat ArenaTeam) (own opponent : Nat) : ArenaTeam × Int :=
  let mod := rules.getMatchmakerRatingMod own opponent true
  let t := t.finishGame teams (rules.getRatingMod t.stats.rating.toNat opponent true)
  ({ t with stats := { t.stats with weekWins := t.stats.weekWins + 1, seasonWins := t.stats.seasonWins + 1 } }, mod)

/-- `LostAgainst`. -/
def lostAgainst (t : ArenaTeam) (teams : OMap Nat ArenaTeam) (own opponent : Nat) : ArenaTeam × Int :=
  let mod := rules.getMatchmakerRatingMod own opponent false
  (t.finishGame teams (rules.getRatingMod t.stats.rating.toNat opponent false), mod)

/-- A member that has played a game; the others stay as they are. -/
def memberPlayed (won : Bool) (t : ArenaTeam) (guid againstMatchmakerRating : Nat) (matchmakerRatingChange : Int) : ArenaTeam :=
  match t.members.find? guid with
  | none => t
  | some m =>
    let m : ArenaTeamMember :=
      { personalRating := modifyRating m.personalRating
          (rules.getRatingMod m.personalRating.toNat againstMatchmakerRating won)
        matchMakerRating := modifyRating m.matchMakerRating matchmakerRatingChange
        weekGames := m.weekGames + 1
        seasonGames := m.seasonGames + 1
        seasonWins := if won then m.seasonWins + 1 else m.seasonWins
        weekWins := if won then m.weekWins + 1 else m.weekWins }
    { t with members := t.members.insert guid m }

/-- `MemberWon`. -/
def memberWon (t : ArenaTeam) (guid against : Nat) (change : Int) : ArenaTeam := memberPlayed rules true t guid against change

/-- `MemberLost`, -12 where the caller names no change. -/
def memberLost (t : ArenaTeam) (guid against : Nat) (change : Int := -12) : ArenaTeam :=
  memberPlayed rules false t guid against change

/-- `OfflineMemberLost`. -/
def offlineMemberLost (t : ArenaTeam) (guid against : Nat) (change : Int := -12) : ArenaTeam :=
  memberPlayed rules false t guid against change

def getPoints (t : ArenaTeam) (memberRating : UInt16) : Nat :=
  let rating := if memberRating.toNat + 150 < t.stats.rating.toNat then memberRating else t.stats.rating
  rules.points t.type rating.toNat

/-- `UpdateArenaPointsHelper`: a player gets the most points that one of his teams earned him. -/
def updateArenaPointsHelper (t : ArenaTeam) (playerPoints : OMap Nat Nat) : OMap Nat Nat :=
  if t.stats.weekGames < 10 then playerPoints
  else
    let requiredGames := rules.requiredGames t.stats.weekGames
    t.members.entries.foldl (fun playerPoints e =>
      let pointsToAdd := if requiredGames ≤ e.2.weekGames.toNat then t.getPoints rules e.2.personalRating else 0
      match playerPoints.find? e.1 with
      | some points => if points < pointsToAdd then playerPoints.insert e.1 pointsToAdd else playerPoints
      | none => playerPoints.insert e.1 pointsToAdd) playerPoints

/-- The rows `SaveToDB` writes for one member: `UPDATE` changes only a row there is, `REPLACE` puts one. -/
def saveMember (id : Nat) (type : ArenaType) (db : Tables) (e : Nat × ArenaTeamMember) : Tables :=
  -- "Save the effort and go"
  if e.2.weekGames = 0 then db
  else
    let row : MemberRow :=
      { personalRating := e.2.personalRating, weekGames := e.2.weekGames, weekWins := e.2.weekWins
        seasonGames := e.2.seasonGames, seasonWins := e.2.seasonWins }
    { db with
      arenaTeamMember := match (db.memberRows id).find? e.1 with
        | some _ => db.arenaTeamMember.insert id ((db.memberRows id).insert e.1 row)
        | none => db.arenaTeamMember
      characterArenaStats := db.characterArenaStats.insert (toLex (e.1, type.slot)) e.2.matchMakerRating }

def saveToDB (t : ArenaTeam) (id : Nat) (db : Tables) : Tables :=
  let arenaTeam := match db.arenaTeam.find? id with
    | some row => db.arenaTeam.insert id { row with stats := t.stats }
    | none => db.arenaTeam
  t.members.entries.foldl (saveMember id t.type) { db with arenaTeam := arenaTeam }

/-- `FinishWeek`: the team and whether it played this week. -/
def finishWeek (t : ArenaTeam) : ArenaTeam × Bool :=
  if t.stats.weekGames = 0 then (t, false)
  else
    ({ t with
        stats := { t.stats with weekGames := 0, weekWins := 0 }
        members := t.members.mapValues fun _ m => { m with weekGames := 0, weekWins := 0 } }, true)

end ArenaTeam

/-- The matchmaker rating of a row, or of none. -/
def loadRating (rules : Rules) (row : Option UInt16) : UInt16 :=
  if 0 < row.getD 0 then row.getD 0 else rules.startMatchmakerRating

/-- `LoadMembersFromDB`, without the members whose character is missing. -/
def loadMembers (rules : Rules) (db : Tables) (id : Nat) (type : ArenaType) : OMap Nat ArenaTeamMember :=
  (db.memberRows id).filterMap fun guid row =>
    if rules.hasName guid then some
      { weekGames := row.weekGames, weekWins := row.weekWins, seasonGames := row.seasonGames
        seasonWins := row.seasonWins, personalRating := row.personalRating
        matchMakerRating := loadRating rules (db.characterArenaStats.find? (toLex (guid, type.slot))) }
    else none

/-- `LoadArenaTeamFromDB` and the members; a team without any, or without its captain, is disbanded. -/
def loadArenaTeam (rules : Rules) (db : Tables) (id : Nat) (row : TeamRow) : Option ArenaTeam :=
  let members := loadMembers rules db id row.type
  if members.isEmpty || members.find? row.captainGuid = none then none
  else some { captainGuid := row.captainGuid, type := row.type, stats := row.stats, members := members }

/-- `ArenaTeamMgr`, and the tables. -/
structure World where
  teams : OMap Nat ArenaTeam
  db : Tables
  /-- The teams with a member that has left a match and no `SaveToDB` since. -/
  unsaved : List Nat
  /-- What was distributed so far. -/
  distributed : List (OMap Nat Nat)

/-- `LoadArenaTeams`: what is not loaded is deleted. -/
def loadArenaTeams (rules : Rules) (db : Tables) : OMap Nat ArenaTeam × Tables :=
  let teams := db.arenaTeam.filterMap (loadArenaTeam rules db)
  (teams, { db with
    arenaTeam := db.arenaTeam.filter fun id => (teams.find? id).isSome
    arenaTeamMember := (db.arenaTeamMember.filter fun id => (teams.find? id).isSome).mapValues fun _ rows =>
      rows.filter rules.hasName })

/-- A participant of a match: still there, offline (`OfflineRemoveTime`), or not found. -/
inductive Presence where
  | online | offline | missing
  deriving DecidableEq, Repr

structure MatchPlayer where
  /-- On the side of the winner; in a draw, of the Alliance. -/
  winners : Bool
  presence : Presence
  deriving DecidableEq, Repr

inductive Event where
  /-- `EndBattleground` of a rated match; in a draw the Alliance takes the place of the winner. -/
  | endMatch (winner loser : Nat) (draw : Bool) (winnerMatchmakerRating loserMatchmakerRating : Nat)
      (players : OMap Nat MatchPlayer)
  /-- `RemovePlayerAtLeave` while a rated match is in progress. -/
  | leaveMatch (id other : Nat) (guid otherMatchmakerRating : Nat) (online : Bool)
  /-- `BattlegroundQueue::RemovePlayer` of one who is invited to a rated match. -/
  | leaveQueue (id : Nat) (guid opponentsMatchmakerRating : Nat) (online : Bool)
  | distributeArenaPoints
  | restart

namespace World

variable (rules : Rules)

/-- What `EndBattleground` does for one participant to the two teams. -/
def finishPlayer (draw : Bool) (winnerRating loserRating : Nat) (winnerChange loserChange : Int) (teams : ArenaTeam × ArenaTeam)
    (e : Nat × MatchPlayer) : ArenaTeam × ArenaTeam :=
  match e.2.presence with
  | .offline =>
    if !draw && e.2.winners then (teams.1.offlineMemberLost rules e.1 loserRating winnerChange, teams.2)
    else
      (if draw then teams.1.offlineMemberLost rules e.1 loserRating winnerChange else teams.1,
        teams.2.offlineMemberLost rules e.1 winnerRating loserChange)
  | .missing => teams
  | .online =>
    if !draw && e.2.winners then (teams.1.memberWon rules e.1 loserRating winnerChange, teams.2)
    else
      (if draw then teams.1.memberLost rules e.1 loserRating winnerChange else teams.1,
        teams.2.memberLost rules e.1 winnerRating loserChange)

/-- `SaveToDB` of a team. -/
def save (w : World) (id : Nat) : World :=
  match w.teams.find? id with
  | some t => { w with db := t.saveToDB id w.db, unsaved := w.unsaved.filter (· ≠ id) }
  | none => w

/-- The stats of the two teams, and the rating changes of their players; 16 points off for both in a draw. -/
def finishTeams (w : World) (winner : Nat) (a b : ArenaTeam) (draw : Bool) (winnerRating loserRating : Nat) :
    (ArenaTeam × Int) × (ArenaTeam × Int) :=
  if draw then
    let a' := a.finishGame w.teams (-16)
    ((a', 0), (b.finishGame (w.teams.insert winner a') (-16), 0))
  else
    let a' := a.wonAgainst rules w.teams winnerRating loserRating
    (a', b.lostAgainst rules (w.teams.insert winner a'.1) loserRating winnerRating)

def endMatch (w : World) (winner loser : Nat) (draw : Bool) (winnerRating loserRating : Nat) (players : OMap Nat MatchPlayer) :
    World :=
  match w.teams.find? winner, w.teams.find? loser with
  | some a, some b =>
    if winner = loser then w
    else
      let ((a, winnerChange), (b, loserChange)) := w.finishTeams rules winner a b draw winnerRating loserRating
      let (a, b) := players.entries.foldl (finishPlayer rules draw winnerRating loserRating winnerChange loserChange) (a, b)
      (save { w with teams := (w.teams.insert winner a).insert loser b } winner).save loser
  | _, _ => w

def leaveMatch (w : World) (id other guid otherRating : Nat) (online : Bool) : World :=
  match w.teams.find? id, w.teams.find? other with
  | some t, some _ =>
    if id = other then w
    else
      let t := if online then t.memberLost rules guid otherRating else t.offlineMemberLost rules guid otherRating
      { w with teams := w.teams.insert id t, unsaved := id :: w.unsaved }
  | _, _ => w

def leaveQueue (w : World) (id guid opponentsRating : Nat) (online : Bool) : World :=
  match w.teams.find? id with
  | some t =>
    let t := if online then t.memberLost rules guid opponentsRating else t.offlineMemberLost rules guid opponentsRating
    save { w with teams := w.teams.insert id t } id
  | none => w

/-- The points of a week. -/
def playerPoints (w : World) : OMap Nat Nat :=
  w.teams.entries.foldl (fun points e => e.2.updateArenaPointsHelper rules points) .empty

/-- A team's week ends, and is saved if it played. -/
def finishWeek (w : World) (id : Nat) : World :=
  match w.teams.find? id with
  | some t =>
    let (t, played) := t.finishWeek
    if played then save { w with teams := w.teams.insert id t } id else w
  | none => w

def distributeArenaPoints (w : World) : World :=
  w.teams.keys.foldl finishWeek { w with distributed := w.distributed ++ [w.playerPoints rules] }

def restart (w : World) : World :=
  let (teams, db) := loadArenaTeams rules w.db
  { w with teams := teams, db := db, unsaved := [] }

def handle (w : World) : Event → World
  | .endMatch winner loser draw winnerRating loserRating players =>
    w.endMatch rules winner loser draw winnerRating loserRating players
  | .leaveMatch id other guid otherRating online => w.leaveMatch rules id other guid otherRating online
  | .leaveQueue id guid opponentsRating online => w.leaveQueue rules id guid opponentsRating online
  | .distributeArenaPoints => w.distributeArenaPoints rules
  | .restart => w.restart rules

/-- The server starts with what the tables hold. -/
def start (db : Tables) : World := restart rules { teams := .empty, db := db, unsaved := [], distributed := [] }

end World

end AtlasWow.Arena
