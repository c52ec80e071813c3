/-
The queue for battlegrounds and arenas: `BattlegroundQueue.cpp`. A group is
known by its address, a number; `groups` holds what is allocated, and `info`
reads it.

A function answers `none` where the code reads a group that is freed, the last
element of an empty list, or moves an iterator past the end of its list. What
a player is sent, the average waiting times and the invitation counters of the
battlegrounds are left out; `Battleground.invited` says who is invited.
-/
import AtlasWow.Lib.Machine
import AtlasWow.Lib.MachineInt
import AtlasWow.Lib.OrderedMap

namespace AtlasWow.Battlegrounds

def MAX_BATTLEGROUND_BRACKETS : Nat := 16
def INVITE_ACCEPT_WAIT_TIME : Nat := 60000

def STATUS_WAIT_QUEUE : Nat := 1
def STATUS_WAIT_LEAVE : Nat := 4

abbrev Bracket := Fin MAX_BATTLEGROUND_BRACKETS

inductive Team where
  | alliance | horde
  deriving DecidableEq, Repr

def Team.other : Team → Team
  | .alliance => .horde
  | .horde => .alliance

/-- The lists of a bracket, `BG_QUEUE_PREMADE_ALLIANCE` to `BG_QUEUE_NORMAL_HORDE`. -/
inductive GroupType where
  | premade (team : Team)
  | normal (team : Team)
  deriving DecidableEq, Repr

def GroupType.team : GroupType → Team
  | .premade team => team
  | .normal team => team

inductive InvitationType where
  | noBalance | balanced | even
  deriving DecidableEq, Repr

structure GroupQueueInfo where
  players : OMap Nat Unit
  team : Team
  bgTypeId : Nat
  isRated : Bool
  arenaType : Nat
  arenaTeamId : Nat
  joinTime : Nat
  removeInviteTime : Nat
  /-- 0 until the group is invited. -/
  isInvitedToBGInstanceGUID : Nat
  arenaTeamRating : Nat
  arenaMatchmakerRating : Nat
  opponentsTeamRating : Nat
  opponentsMatchmakerRating : Nat

namespace GroupQueueInfo

def isInvited (ginfo : GroupQueueInfo) : Bool := ginfo.isInvitedToBGInstanceGUID ≠ 0

/-- `Players.size()`. -/
def size (ginfo : GroupQueueInfo) : Nat := ginfo.players.size

instance : Inhabited GroupQueueInfo where
  default :=
    { players := .empty
      team := .alliance
      bgTypeId := 0
      isRated := false
      arenaType := 0
      arenaTeamId := 0
      joinTime := 0
      removeInviteTime := 0
      isInvitedToBGInstanceGUID := 0
      arenaTeamRating := 0
      arenaMatchmakerRating := 0
      opponentsTeamRating := 0
      opponentsMatchmakerRating := 0 }

end GroupQueueInfo

structure SelectionPool where
  selectedGroups : List Nat
  playerCount : Nat
  deriving DecidableEq, Repr

namespace SelectionPool

variable (info : Nat → GroupQueueInfo)

def init : SelectionPool := ⟨[], 0⟩

def addGroup (pool : SelectionPool) (desiredCount ginfo : Nat) : SelectionPool × Bool :=
  if !(info ginfo).isInvited && pool.playerCount + (info ginfo).size ≤ desiredCount then
    (⟨pool.selectedGroups ++ [ginfo], pool.playerCount + (info ginfo).size⟩, true)
  else (pool, pool.playerCount < desiredCount)

/-- One round of the search for the group to kick, and whether one of the size was found. -/
def betterToKick (size : Int) (kick : Nat × Bool) (itr : Nat) : Nat × Bool :=
  if ((info itr).size - size).natAbs ≤ 1 then (itr, true)
  else if !kick.2 && (info kick.1).size ≤ (info itr).size then (itr, kick.2)
  else kick

def kickGroup (pool : SelectionPool) (size : Int) : Option (SelectionPool × Bool) :=
  if pool.playerCount = 0 then some (pool, true)
  else match pool.selectedGroups with
    | [] => none
    | first :: _ =>
      let groupToKick := (pool.selectedGroups.foldl (betterToKick info size) (first, false)).1
      some
        (⟨pool.selectedGroups.erase groupToKick, pool.playerCount - (info groupToKick).size⟩,
          !decide (((info groupToKick).size : Int) ≤ size + 1))

/-- The loop of `FillPlayersToBG`: groups are added as long as `AddGroup` answers true. -/
def fill (desiredCount : Nat) (l : List Nat) (pool : SelectionPool) : SelectionPool × List Nat :=
  loopUntil (fun pool ginfo => addGroup info pool desiredCount ginfo) l pool

/-- The loop of the other functions, which passes over groups that are invited. -/
def topUp (desiredCount : Nat) (l : List Nat) (pool : SelectionPool) : SelectionPool × List Nat :=
  loopUntil (fun pool ginfo => if (info ginfo).isInvited then (pool, true) else addGroup info pool desiredCount ginfo)
    l pool

/-- The first loop of `CheckNormalMatch`, up to the group with which there are enough players. -/
def fillNormal (minPlayers maxPlayers : Nat) (l : List Nat) (pool : SelectionPool) : SelectionPool × List Nat :=
  loopUntil
    (fun pool ginfo =>
      if (info ginfo).isInvited then (pool, true)
      else
        let pool := (addGroup info pool maxPlayers ginfo).1
        (pool, !decide (minPlayers ≤ pool.playerCount)))
    l pool

end SelectionPool

structure BattlegroundQueue where
  m_QueuedPlayers : OMap Nat Nat
  m_QueuedGroups : Bracket → GroupType → List Nat
  m_SelectionPools : Team → SelectionPool
  /-- The `GroupQueueInfo` objects that are allocated, and the next address. -/
  groups : OMap Nat GroupQueueInfo
  nextGroup : Nat

/-- A group that is invited, on the side it is invited to. -/
structure Invitation where
  ginfo : Nat
  side : Team
  players : Nat
  arenaTeamId : Nat
  deriving DecidableEq, Repr

/-- A battleground to invite groups to. Instance ids start at 1. -/
structure Battleground where
  instanceID : {n : Nat // 0 < n}
  invited : List Invitation

/-- A battleground that runs, with free slots. -/
structure RunningBattleground where
  instanceID : {n : Nat // 0 < n}
  typeID : Nat
  bracketId : Bracket
  isRated : Bool
  status : Nat
  hordeFree : Nat
  aliFree : Nat

structure BattlegroundTemplate where
  isArena : Bool
  minPlayersPerTeam : Nat
  maxPlayersPerTeam : Nat
  deriving DecidableEq, Repr

/-- What `AddGroup` is given. -/
structure JoinRequest where
  /-- The members of the group, or the leader alone. -/
  players : List Nat
  /-- The leader's. -/
  team : Team
  bgTypeId : Nat
  bracketId : Bracket
  arenaType : Nat
  isRated : Bool
  isPremade : Bool
  arenaRating : Nat
  matchmakerRating : Nat
  arenaTeamId : Nat
  gameTimeMS : Nat

/-- What `BattlegroundQueueUpdate` is given, and what it asks the configuration and the battleground manager for. -/
structure UpdateRequest where
  bgTypeId : Nat
  bracketId : Bracket
  arenaType : Nat
  isRated : Bool
  arenaRating : Nat
  gameTimeMS : Nat
  /-- `GetBGFreeSlotQueueStore`. -/
  bgFreeSlotQueue : List RunningBattleground
  /-- `GetBattlegroundTemplate`. -/
  bgTemplate : Option BattlegroundTemplate
  /-- `GetBattlegroundBracketById` finds one. -/
  bracketEntry : Bool
  /-- What `CreateNewBattleground` answers for a premade match, and for the other. -/
  newPremade : Option {n : Nat // 0 < n}
  newBattleground : Option {n : Nat // 0 < n}
  isTesting : Bool
  isArenaTesting : Bool
  invitationType : InvitationType
  premadeGroupWaitForMatch : Nat
  maxRatingDifference : Nat
  ratingDiscardTimer : Nat
  /-- Arenas are never in the free slot queue (`AddToBGFreeSlotQueue`). -/
  arena_full : ∀ t, bgTemplate = some t → t.isArena = true → bgFreeSlotQueue = []

namespace BattlegroundQueue

def empty : BattlegroundQueue where
  m_QueuedPlayers := .empty
  m_QueuedGroups := fun _ _ => []
  m_SelectionPools := fun _ => .init
  groups := .empty
  nextGroup := 0

/-- What the pointer to a group points to. -/
def info (q : BattlegroundQueue) (ginfo : Nat) : GroupQueueInfo := (q.groups.find? ginfo).getD default

def setInfo (q : BattlegroundQueue) (ginfo : Nat) (info : GroupQueueInfo) : BattlegroundQueue :=
  { q with groups := q.groups.insert ginfo info }

def setList (q : BattlegroundQueue) (bracketId : Bracket) (index : GroupType) (l : List Nat) : BattlegroundQueue :=
  { q with m_QueuedGroups := Function.update q.m_QueuedGroups bracketId (Function.update (q.m_QueuedGroups bracketId) index l) }

def setPool (q : BattlegroundQueue) (team : Team) (pool : SelectionPool) : BattlegroundQueue :=
  { q with m_SelectionPools := Function.update q.m_SelectionPools team pool }

def initPools (q : BattlegroundQueue) : BattlegroundQueue := { q with m_SelectionPools := fun _ => .init }

def addGroup (join : JoinRequest) (q : BattlegroundQueue) : BattlegroundQueue :=
  let ginfo := q.nextGroup
  let index := if !join.isRated && !join.isPremade then GroupType.normal join.team else .premade join.team
  { q with
    m_QueuedPlayers := join.players.foldl (fun m guid => m.insert guid ginfo) q.m_QueuedPlayers
    m_QueuedGroups := (q.setList join.bracketId index (q.m_QueuedGroups join.bracketId index ++ [ginfo])).m_QueuedGroups
    groups := q.groups.insert ginfo
      { players := join.players.foldl (fun m guid => m.insert guid ()) .empty
        team := join.team
        bgTypeId := join.bgTypeId
        isRated := join.isRated
        arenaType := join.arenaType
        arenaTeamId := join.arenaTeamId
        joinTime := join.gameTimeMS
        removeInviteTime := 0
        isInvitedToBGInstanceGUID := 0
        arenaTeamRating := join.arenaRating
        arenaMatchmakerRating := join.matchmakerRating
        opponentsTeamRating := 0
        opponentsMatchmakerRating := 0 }
    nextGroup := ginfo + 1 }

/-- The list that holds a group, of the two of its faction: the last bracket comes first. -/
def findGroup (q : BattlegroundQueue) (group : Nat) : Option (Bracket × GroupType) :=
  (List.finRange MAX_BATTLEGROUND_BRACKETS).reverse.findSome? fun bracketId =>
    let team := (q.info group).team
    if group ∈ q.m_QueuedGroups bracketId (.normal team) then some (bracketId, .normal team)
    else if group ∈ q.m_QueuedGroups bracketId (.premade team) then some (bracketId, .premade team)
    else none

/-- `RemovePlayer`, with a bound on the players it goes on to remove. -/
def removePlayerRounds : Nat → Nat → BattlegroundQueue → Option BattlegroundQueue
  | 0, _, _ => none
  | n + 1, guid, q =>
    match q.m_QueuedPlayers.find? guid with
    | none => some q
    | some group =>
      if group ∉ q.groups.keys then none
      else match q.findGroup group with
        | none => some q
        | some (bracketId, index) =>
          let info := { q.info group with players := (q.info group).players.erase guid }
          let q := { q.setInfo group info with m_QueuedPlayers := q.m_QueuedPlayers.erase guid }
          match info.players.keys with
          | [] =>
            some { q.setList bracketId index ((q.m_QueuedGroups bracketId index).erase group) with
              groups := q.groups.erase group }
          | next :: _ => if !info.isInvited && info.isRated then removePlayerRounds n next q else some q

def removePlayer (guid : Nat) (q : BattlegroundQueue) : Option BattlegroundQueue :=
  removePlayerRounds (q.m_QueuedPlayers.size + 1) guid q

def inviteGroupToBG (gameTimeMS ginfo : Nat) (side : Team) (s : BattlegroundQueue × Battleground) :
    BattlegroundQueue × Battleground :=
  let q := s.1
  let bg := s.2
  let info := { q.info ginfo with team := side }
  if !info.isInvited then
    (q.setInfo ginfo
      { info with
        isInvitedToBGInstanceGUID := bg.instanceID
        removeInviteTime := uint32 (gameTimeMS + INVITE_ACCEPT_WAIT_TIME) },
      { bg with invited := bg.invited ++ [⟨ginfo, side, info.size, info.arenaTeamId⟩] })
  else (q.setInfo ginfo info, bg)

/-- The groups of a pool are invited, each on the side it is on. -/
def invitePool (gameTimeMS : Nat) (team : Team) (s : BattlegroundQueue × Battleground) : BattlegroundQueue × Battleground :=
  (s.1.m_SelectionPools team).selectedGroups.foldl
    (fun s ginfo => inviteGroupToBG gameTimeMS ginfo (s.1.info ginfo).team s) s

def invitePools (gameTimeMS : Nat) (s : BattlegroundQueue × Battleground) : BattlegroundQueue × Battleground :=
  invitePool gameTimeMS .horde (invitePool gameTimeMS .alliance s)

/-! Running battlegrounds -/

/-- The state of the loop of `FillPlayersToBG`: the pools, the groups not yet looked at, and whether it is left. -/
structure Filling where
  pool : Team → SelectionPool
  left : Team → List Nat
  stop : Bool

namespace Filling

variable (info : Nat → GroupQueueInfo) (free : Team → Nat)

/-- `diffAli` and `diffHorde`. -/
def diff (f : Filling) (team : Team) : Int := free team - (f.pool team).playerCount

def goesOn (f : Filling) : Bool :=
  !f.stop && 1 < (f.diff free .alliance - f.diff free .horde).natAbs &&
    (0 < (f.pool .horde).playerCount || 0 < (f.pool .alliance).playerCount)

def kick (f : Filling) (team : Team) (size : Int) : Option (Filling × Bool) :=
  ((f.pool team).kickGroup info size).map fun r => ({ f with pool := Function.update f.pool team r.1 }, r.2)

def refill (f : Filling) (team : Team) (desiredCount : Nat) : Filling :=
  let r := (f.pool team).fill info desiredCount (f.left team)
  { f with pool := Function.update f.pool team r.1, left := Function.update f.left team r.2 }

/-- A round: a group of the fuller side is kicked. -/
def round (f : Filling) : Option Filling :=
  let side := if f.diff free .alliance < f.diff free .horde then Team.alliance else .horde
  let most := f.diff free side.other
  let size := most - f.diff free side
  (f.kick info side size).bind fun r =>
    let f := if r.2 then r.1.refill info side (free side - most).toNat else r.1
    if (f.pool side).playerCount = 0 then
      if (free side : Int) ≤ most + 1 then some { f with stop := true }
      else (f.kick info side.other size).map Prod.fst
    else some f

/-- As many rounds as there can be. -/
def rounds (f : Filling) : Nat :=
  (f.pool .alliance).selectedGroups.length + (f.pool .horde).selectedGroups.length +
    2 * (f.left .alliance).length + 2 * (f.left .horde).length + (if f.stop then 0 else 1)

end Filling

/-- The free slots that may be used: with even teams, the side with more groups waiting gets none of the last. -/
def freeSlots (u : UpdateRequest) (bg : RunningBattleground) (aliCount hordeCount : Nat) : Team → Nat
  | .alliance => if u.invitationType = .even && bg.hordeFree = 1 && bg.aliFree = 1 then bg.aliFree - (aliCount - hordeCount) else bg.aliFree
  | .horde => if u.invitationType = .even && bg.hordeFree = 1 && bg.aliFree = 1 then bg.hordeFree - (hordeCount - aliCount) else bg.hordeFree

def fillPlayersToBG (u : UpdateRequest) (bg : RunningBattleground) (q : BattlegroundQueue) : Option BattlegroundQueue :=
  let waiting := fun team => q.m_QueuedGroups u.bracketId (.normal team)
  let free := freeSlots u bg (waiting .alliance).length (waiting .horde).length
  let filled := fun team => (q.m_SelectionPools team).fill q.info (free team) (waiting team)
  let f : Filling := ⟨fun team => (filled team).1, fun team => (filled team).2, false⟩
  if u.invitationType = .noBalance then some { q with m_SelectionPools := f.pool }
  else (whileLoop (Filling.goesOn free) (Filling.round q.info free) f.rounds f).map fun f =>
    { q with m_SelectionPools := f.pool }

/-- One battleground with free slots. -/
def fillRunning (u : UpdateRequest) (q : BattlegroundQueue) (bg : RunningBattleground) : Option BattlegroundQueue :=
  if !bg.isRated && bg.typeID = u.bgTypeId && bg.bracketId = u.bracketId && STATUS_WAIT_QUEUE < bg.status &&
      bg.status < STATUS_WAIT_LEAVE then
    (fillPlayersToBG u bg q.initPools).map fun q => (invitePools u.gameTimeMS (q, ⟨bg.instanceID, []⟩)).1
  else some q

/-! New battlegrounds -/

def firstWaiting (q : BattlegroundQueue) (bracketId : Bracket) (index : GroupType) : Option Nat :=
  (q.m_QueuedGroups bracketId index).find? fun ginfo => !(q.info ginfo).isInvited

/-- The first premade group of a faction goes to the normal queue if it has waited too long or is too small. -/
def movePremade (u : UpdateRequest) (minPlayersPerTeam : Nat) (q : BattlegroundQueue) (team : Team) : BattlegroundQueue :=
  match q.m_QueuedGroups u.bracketId (.premade team) with
  | [] => q
  | ginfo :: rest =>
    let timeBefore := uint32 (u.gameTimeMS - u.premadeGroupWaitForMatch)
    if !(q.info ginfo).isInvited && ((q.info ginfo).joinTime < timeBefore || (q.info ginfo).size < minPlayersPerTeam) then
      (q.setList u.bracketId (.normal team) (ginfo :: q.m_QueuedGroups u.bracketId (.normal team))).setList u.bracketId
        (.premade team) rest
    else q

def checkPremadeMatch (u : UpdateRequest) (minPlayersPerTeam maxPlayersPerTeam : Nat) (q : BattlegroundQueue) :
    BattlegroundQueue × Bool :=
  match q.firstWaiting u.bracketId (.premade .alliance), q.firstWaiting u.bracketId (.premade .horde) with
  | some aliGroup, some hordeGroup =>
    let ali := ((q.m_SelectionPools .alliance).addGroup q.info maxPlayersPerTeam aliGroup).1
    let horde := ((q.m_SelectionPools .horde).addGroup q.info maxPlayersPerTeam hordeGroup).1
    let maxPlayers := min ali.playerCount horde.playerCount
    let ali := (ali.topUp q.info maxPlayers (q.m_QueuedGroups u.bracketId (.normal .alliance))).1
    let horde := (horde.topUp q.info maxPlayers (q.m_QueuedGroups u.bracketId (.normal .horde))).1
    ((q.setPool .alliance ali).setPool .horde horde, true)
  | _, _ => (movePremade u minPlayersPerTeam (movePremade u minPlayersPerTeam q .alliance) .horde, false)

/-- There are enough players in both pools; a battleground that is tested starts with one player. -/
def enoughPlayers (u : UpdateRequest) (t : BattlegroundTemplate) (minPlayers ali horde : Nat) : Bool :=
  u.isTesting && !t.isArena && (ali ≠ 0 || horde ≠ 0) || minPlayers ≤ ali && minPlayers ≤ horde

def checkNormalMatch (u : UpdateRequest) (t : BattlegroundTemplate) (minPlayers maxPlayers : Nat) (q : BattlegroundQueue) :
    Option (BattlegroundQueue × Bool) :=
  let filled := fun team =>
    (q.m_SelectionPools team).fillNormal q.info minPlayers maxPlayers (q.m_QueuedGroups u.bracketId (.normal team))
  let count := fun team => (filled team).1.playerCount
  let q := { q with m_SelectionPools := fun team => (filled team).1 }
  let j := if count .horde < count .alliance then Team.horde else .alliance
  if u.invitationType ≠ .noBalance && minPlayers ≤ count .horde && minPlayers ≤ count .alliance then
    match (filled j).2 with
    | [] => none
    | _ :: rest =>
      let pool := ((filled j).1.topUp q.info (count j.other) rest).1
      some (q.setPool j pool,
        ((pool.playerCount : Int) - count j.other).natAbs ≤ 2 &&
          (if j = .alliance then enoughPlayers u t minPlayers pool.playerCount (count .horde)
            else enoughPlayers u t minPlayers (count .alliance) pool.playerCount))
  else some (q, enoughPlayers u t minPlayers (count .alliance) (count .horde))

/-- `g` is erased where the list goes on after `ginfo`. -/
def eraseAfter (ginfo g : Nat) (l : List Nat) : List Nat :=
  l.takeWhile (· ≠ ginfo) ++ match l.dropWhile (· ≠ ginfo) with
    | [] => []
    | x :: rest => x :: rest.erase g

/-- A group joins the other faction. -/
def changeTeam (bracketId : Bracket) (ginfo : Nat) (otherTeam : Team) (q : BattlegroundQueue) (g : Nat) : BattlegroundQueue :=
  let q := q.setInfo g { q.info g with team := otherTeam }
  let q := q.setList bracketId (.normal otherTeam) (g :: q.m_QueuedGroups bracketId (.normal otherTeam))
  q.setList bracketId (.normal otherTeam.other) (eraseAfter ginfo g (q.m_QueuedGroups bracketId (.normal otherTeam.other)))

def checkSkirmishForSameFaction (bracketId : Bracket) (minPlayersPerTeam : Nat) (q : BattlegroundQueue) :
    Option (BattlegroundQueue × Bool) :=
  if (q.m_SelectionPools .alliance).playerCount < minPlayersPerTeam &&
      (q.m_SelectionPools .horde).playerCount < minPlayersPerTeam then some (q, false)
  else
    let teamIndex := if (q.m_SelectionPools .horde).playerCount = minPlayersPerTeam then Team.horde else .alliance
    let otherTeam := teamIndex.other
    let l := q.m_QueuedGroups bracketId (.normal teamIndex)
    match (q.m_SelectionPools teamIndex).selectedGroups.getLast? with
    | none => none
    | some ginfo =>
      match l.dropWhile (· ≠ ginfo) with
      | [] => some (q.setPool otherTeam .init, false)
      | _ :: rest =>
        let pool := (SelectionPool.init.topUp q.info minPlayersPerTeam rest).1
        let q := q.setPool otherTeam pool
        if pool.playerCount ≠ minPlayersPerTeam then some (q, false)
        else some (pool.selectedGroups.foldl (changeTeam bracketId ginfo otherTeam) q, true)

/-- The rating of the team that has waited longest, where no team has just joined. -/
def longestWaitRating (u : UpdateRequest) (q : BattlegroundQueue) : Option Nat :=
  match (q.m_QueuedGroups u.bracketId (.premade .alliance)).head?, (q.m_QueuedGroups u.bracketId (.premade .horde)).head? with
  | some front1, some front2 =>
    if (q.info front1).joinTime < (q.info front2).joinTime then some (q.info front1).arenaMatchmakerRating
    else some (q.info front2).arenaMatchmakerRating
  | some front1, none => some (q.info front1).arenaMatchmakerRating
  | none, some front2 => some (q.info front2).arenaMatchmakerRating
  | none, none => none

/-- A rated team waits, and its rating is near enough or it has waited long enough. -/
def matchesRating (u : UpdateRequest) (arenaRating : Nat) (ginfo : GroupQueueInfo) : Bool :=
  let arenaMinRating := if arenaRating ≤ u.maxRatingDifference then 0 else arenaRating - u.maxRatingDifference
  let arenaMaxRating := uint32 (arenaRating + u.maxRatingDifference)
  let discardTime := int32 (u.gameTimeMS - u.ratingDiscardTimer)
  !ginfo.isInvited &&
    (arenaMinRating ≤ ginfo.arenaMatchmakerRating && ginfo.arenaMatchmakerRating ≤ arenaMaxRating ||
      int32 ginfo.joinTime < discardTime)

/-- The two teams that play next. -/
def findTeams (u : UpdateRequest) (arenaRating : Nat) (q : BattlegroundQueue) : Option (Nat × Nat) :=
  let l := fun team => q.m_QueuedGroups u.bracketId (.premade team)
  let fits := fun ginfo => matchesRating u arenaRating (q.info ginfo)
  let opponent := fun team first =>
    (((l team).dropWhile (· ≠ first)).find? fun ginfo =>
      fits ginfo && (q.info first).arenaTeamId ≠ (q.info ginfo).arenaTeamId).map fun ginfo => (first, ginfo)
  match (l .alliance).find? fits, (l .horde).find? fits with
  | some a, some h => some (a, h)
  | some a, none => opponent .alliance a
  | none, some h => opponent .horde h
  | none, none => none

/-- A team that plays for the other faction is moved to its list. -/
def moveTeam (bracketId : Bracket) (ginfo : Nat) (side : Team) (q : BattlegroundQueue) : BattlegroundQueue :=
  if (q.info ginfo).team ≠ side then
    let q := q.setList bracketId (.premade side) (ginfo :: q.m_QueuedGroups bracketId (.premade side))
    q.setList bracketId (.premade side.other) ((q.m_QueuedGroups bracketId (.premade side.other)).erase ginfo)
  else q

def startRated (u : UpdateRequest) (aTeam hTeam : Nat) (inst : {n : Nat // 0 < n}) (q : BattlegroundQueue) :
    BattlegroundQueue × Battleground :=
  let a := q.info aTeam
  let h := q.info hTeam
  let q := q.setInfo aTeam
    { a with opponentsTeamRating := h.arenaTeamRating, opponentsMatchmakerRating := h.arenaMatchmakerRating }
  let q := q.setInfo hTeam
    { q.info hTeam with opponentsTeamRating := a.arenaTeamRating, opponentsMatchmakerRating := a.arenaMatchmakerRating }
  let q := moveTeam u.bracketId hTeam .horde (moveTeam u.bracketId aTeam .alliance q)
  inviteGroupToBG u.gameTimeMS hTeam .horde (inviteGroupToBG u.gameTimeMS aTeam .alliance (q, ⟨inst, []⟩))

/-- What an update leaves: the queue, and the new battlegrounds. -/
structure Updated where
  queue : BattlegroundQueue
  premade : Option Battleground
  game : Option Battleground

def updateRated (u : UpdateRequest) (q : BattlegroundQueue) : Updated :=
  match (if u.arenaRating = 0 then q.longestWaitRating u else some u.arenaRating) with
  | none => ⟨q, none, none⟩
  | some arenaRating =>
    match findTeams u arenaRating q, u.newBattleground with
    | some (aTeam, hTeam), some inst =>
      let s := startRated u aTeam hTeam inst q
      ⟨s.1, none, some s.2⟩
    | _, _ => ⟨q, none, none⟩

/-- A new battleground for the pools. -/
def startPools (u : UpdateRequest) (inst : {n : Nat // 0 < n}) (q : BattlegroundQueue) : BattlegroundQueue × Battleground :=
  invitePools u.gameTimeMS (q, ⟨inst, []⟩)

/-- A normal match, or a skirmish. -/
def updateNormal (u : UpdateRequest) (t : BattlegroundTemplate) (minPlayersPerTeam maxPlayersPerTeam : Nat)
    (q : BattlegroundQueue) : Option Updated :=
  let checked := (checkNormalMatch u t minPlayersPerTeam maxPlayersPerTeam q).bind fun r =>
    if !r.2 && t.isArena then checkSkirmishForSameFaction u.bracketId minPlayersPerTeam r.1 else some r
  checked.map fun r =>
    match r.2, u.newBattleground with
    | true, some inst => let s := startPools u inst r.1; ⟨s.1, none, some s.2⟩
    | _, _ => ⟨r.1, none, none⟩

/-- `MinPlayersPerTeam` and `MaxPlayersPerTeam` of an update. -/
def playersPerTeam (u : UpdateRequest) (t : BattlegroundTemplate) : Nat × Nat :=
  if t.isArena then (if u.isArenaTesting then 1 else u.arenaType, u.arenaType)
  else (if u.isTesting then 1 else t.minPlayersPerTeam, t.maxPlayersPerTeam)

/-- The update from the template on. -/
def updateTemplate (u : UpdateRequest) (t : BattlegroundTemplate) (q : BattlegroundQueue) : Option Updated :=
  let n := (playersPerTeam u t).1
  let m := (playersPerTeam u t).2
  let q := q.initPools
  if t.isArena then
    if u.isRated then some (updateRated u q) else updateNormal u t n m q
  else
    let r := checkPremadeMatch u n m q
    match r.2, u.newPremade with
    | true, none => some ⟨r.1, none, none⟩
    | true, some inst =>
      let s := startPools u inst r.1
      if u.isRated then some ⟨s.1.initPools, some s.2, none⟩
      else (updateNormal u t n m s.1.initPools).map fun updated => { updated with premade := some s.2 }
    | false, _ => if u.isRated then some ⟨r.1, none, none⟩ else updateNormal u t n m r.1

/-- The lists of a bracket. -/
def bracketGroups (q : BattlegroundQueue) (bracketId : Bracket) : List Nat :=
  q.m_QueuedGroups bracketId (.premade .alliance) ++ q.m_QueuedGroups bracketId (.premade .horde) ++
    q.m_QueuedGroups bracketId (.normal .alliance) ++ q.m_QueuedGroups bracketId (.normal .horde)

def battlegroundQueueUpdate (u : UpdateRequest) (q : BattlegroundQueue) : Option Updated :=
  if q.bracketGroups u.bracketId = [] then some ⟨q, none, none⟩
  -- the loops read the groups of the lists
  else if ∃ ginfo ∈ q.bracketGroups u.bracketId, ginfo ∉ q.groups.keys then none
  else (u.bgFreeSlotQueue.foldlM (fillRunning u) q).bind fun q =>
    match u.bgTemplate with
    | some t => if u.bracketEntry then updateTemplate u t q else some ⟨q, none, none⟩
    | none => some ⟨q, none, none⟩

inductive Event where
  | join (request : JoinRequest)
  | leave (guid : Nat)
  | update (request : UpdateRequest)

def step : Event → BattlegroundQueue → Option BattlegroundQueue
  | .join request, q => some (q.addGroup request)
  | .leave guid, q => q.removePlayer guid
  | .update request, q => (q.battlegroundQueueUpdate request).map Updated.queue

end BattlegroundQueue

end AtlasWow.Battlegrounds
