/-
Matching (`LFGQueue::CheckCompatibility`, `FindNewGroups`, `FindGroups`): which
queued entries go together, and the proposal that is made when they do.

`LfgView` is what a queue asks of the manager and the world while it matches;
`Matching` is what it changes: the queue itself, the proposals of the manager
and how many random numbers have been drawn.
-/
import AtlasWow.Lfg.LfgQueue

namespace AtlasWow.Lfg

inductive LfgAnswer where
  | pending | deny | agree
deriving DecidableEq

inductive LfgProposalState where
  | initiating | failed | success
deriving DecidableEq

structure LfgProposalPlayer where
  role : UInt8
  accept : LfgAnswer
  /-- The entry of the queue the player was in, if that is a group. -/
  group : ObjectGuid
deriving DecidableEq

structure LfgProposal where
  id : Nat
  dungeonId : Nat
  state : LfgProposalState
  /-- The group that is already formed, if there is one. -/
  group : ObjectGuid
  leader : ObjectGuid
  cancelTime : Nat
  isNew : Bool
  queues : GuidList
  players : OMap ObjectGuid LfgProposalPlayer

abbrev LfgProposalContainer := OMap Nat LfgProposal

def LFG_TIME_PROPOSAL : Nat := 45

/-- The manager and the world, as they are while a queue matches. -/
structure LfgView where
  getState : ObjectGuid → LfgState
  getOldState : ObjectGuid → LfgState
  isLfgGroup : ObjectGuid → Bool
  connected : ObjectGuid → Bool
  /-- The first has the second on his list of ignored players. -/
  ignores : ObjectGuid → ObjectGuid → Bool
  gameTime : Nat
  /-- The random numbers, as they are drawn. -/
  random : Nat → Nat

namespace LfgView

def hasIgnore (v : LfgView) (guid1 guid2 : ObjectGuid) : Bool :=
  v.connected guid1 && v.connected guid2 && (v.ignores guid1 guid2 || v.ignores guid2 guid1)

theorem hasIgnore_comm (v : LfgView) (a b : ObjectGuid) : v.hasIgnore a b = v.hasIgnore b a := by
  simp only [hasIgnore, Bool.and_comm (v.connected a), Bool.or_comm (v.ignores a b)]

def allQueued (v : LfgView) (check : GuidList) : Bool := !check.isEmpty && check.all (v.getState · = .queued)

end LfgView

structure Matching where
  queue : LFGQueue
  proposalsStore : LfgProposalContainer
  lfgProposalId : Nat
  draws : Nat

namespace Matching

variable (v : LfgView)

def setCompatibles (s : Matching) (key : Key) (compatibles : LfgCompatibility) : Matching :=
  { s with queue := s.queue.setCompatibles key compatibles }

/-- `urand(0, n - 1)`. -/
def urand (s : Matching) (n : Nat) : Nat × Matching := (v.random s.draws % n, { s with draws := s.draws + 1 })

/-! ## What goes together -/

/-- The players of some entries, as they are counted; `numPlayers` is an `uint8`. -/
structure Gathered where
  proposalGroups : OMap ObjectGuid ObjectGuid
  numPlayers : Nat
  numLfgGroups : Nat
  group : ObjectGuid

/-- The loop over the entries; an entry without data ends it with an `error`. -/
def gather (q : LFGQueue) : GuidList → Gathered → Except ObjectGuid Gathered
  | [], acc => .ok acc
  | guid :: check, acc =>
    if acc.numLfgGroups < 2 && acc.numPlayers ≤ MAXGROUPSIZE then
      match q.queueDataStore.find? guid with
      | none => .error guid
      | some data =>
        gather q check
          { proposalGroups := data.roles.keys.foldl (fun groups player =>
              groups.insert player (if guid.isGroup then guid else .Empty)) acc.proposalGroups
            numPlayers := (acc.numPlayers + data.roles.size) % 256
            numLfgGroups := if v.isLfgGroup guid then acc.numLfgGroups + 1 else acc.numLfgGroups
            group := if v.isLfgGroup guid && acc.numLfgGroups = 0 then guid else acc.group }
    else .ok acc

/-- A player joins those gathered so far, unless one of them and he ignore each other. -/
def addPlayer (proposalRoles : LfgRolesMap) (e : ObjectGuid × UInt8) : LfgRolesMap :=
  if proposalRoles.keys.any fun other => e.1 ≠ other && v.hasIgnore e.1 other then proposalRoles
  else proposalRoles.insert e.1 e.2

/-- The players of the entries with the roles they selected, entry by entry. -/
def playersOf (q : LFGQueue) (check : GuidList) : List (ObjectGuid × UInt8) :=
  check.flatMap fun guid => (q.dataOf guid).roles.entries

def mergeRoles (q : LFGQueue) (check : GuidList) : LfgRolesMap := (playersOf q check).foldl (addPlayer v) OMap.empty

/-- The dungeons all entries have selected. -/
def commonDungeons (q : LFGQueue) : GuidList → LfgDungeonSet
  | [] => []
  | guid :: check =>
    check.foldl (fun dungeons guid => dungeons.filter (· ∈ (q.dataOf guid).dungeons)) (q.dataOf guid).dungeons

/-- Roles and dungeons of the entries, or what keeps them apart. A single group has been checked before joining. -/
def combine (q : LFGQueue) (check : GuidList) (numPlayers : Nat) :
    Except LfgCompatibility (LfgRolesMap × LfgDungeonSet) :=
  if 1 < check.length then
    let proposalRoles := mergeRoles v q check
    if (numPlayers + 256 - proposalRoles.size % 256) % 256 ≠ 0 then .error .hasIgnores
    else
      let (found, proposalRoles) := checkGroupRoles proposalRoles
      if !found then .error .noRoles
      else
        let proposalDungeons := commonDungeons q check
        if proposalDungeons.isEmpty then .error .noDungeons else .ok (proposalRoles, proposalDungeons)
  else
    let data := q.dataOf (check.headD .Empty)
    .ok ((checkGroupRoles data.roles).2, data.dungeons)

/-! ## Proposals -/

/-- `SelectRandomContainerElement`; the container is not empty. -/
def selectDungeon (s : Matching) (dungeons : LfgDungeonSet) : Nat × Matching :=
  let (i, s) := s.urand v dungeons.length
  (dungeons.getD i 0, s)

/-- The leader: one of those who asked to lead, or anybody. `found` is set once somebody asked. -/
def selectLeader : List (ObjectGuid × UInt8) → (leader : ObjectGuid) → (found : Bool) → Matching → ObjectGuid × Matching
  | [], leader, _, s => (leader, s)
  | (guid, role) :: players, leader, found, s =>
    if role &&& PLAYER_ROLE_LEADER ≠ 0 then
      if !found || leader = .Empty then selectLeader players guid true s
      else
        let (coin, s) := s.urand v 2
        selectLeader players (if coin = 1 then guid else leader) true s
    else if found then selectLeader players leader found s
    else if leader = .Empty then selectLeader players guid found s
    else
      let (coin, s) := s.urand v 2
      selectLeader players (if coin = 1 then guid else leader) found s

/-- `AddProposal`. -/
def addProposal (s : Matching) (proposal : LfgProposal) : Matching :=
  { s with
    lfgProposalId := s.lfgProposalId + 1
    proposalsStore := s.proposalsStore.insert (s.lfgProposalId + 1) { proposal with id := s.lfgProposalId + 1 } }

/-- The end of `CheckCompatibility`, for entries that match. -/
def createProposal (s : Matching) (check : GuidList) (gathered : Gathered) (proposalRoles : LfgRolesMap)
    (proposalDungeons : LfgDungeonSet) : Matching :=
  let isNew := gathered.numLfgGroups ≠ 1 || v.getOldState (check.headD .Empty) ≠ .dungeon
  let (dungeonId, s) := s.selectDungeon v proposalDungeons
  let (leader, s) := selectLeader v proposalRoles.entries .Empty false s
  let proposal : LfgProposal := {
    id := 0
    dungeonId := dungeonId
    state := .initiating
    group := gathered.group
    leader := leader
    cancelTime := v.gameTime + LFG_TIME_PROPOSAL
    isNew := isNew
    queues := check
    players := proposalRoles.mapValues fun player role =>
      let group := (gathered.proposalGroups.find? player).getD .Empty
      -- Player from existing group, autoaccept
      { role := role
        accept := if !isNew && group ≠ .Empty && group = gathered.group then .agree else .pending
        group := group } }
  -- Mark proposal members as not queued (but not remove queue data)
  { s with queue := check.foldl (fun q guid => (q.removeFromNewQueue guid).removeFromCurrentQueue guid) s.queue }.addProposal
    proposal

/-! ## `CheckCompatibility` -/

/-- Compatible entries that are too few players. -/
def rememberCompatible (s : Matching) (check : GuidList) (roles : LfgRolesMap) : Matching :=
  let key := concatenateGuids check
  let queue := check.foldl (fun q guid => q.updateBestCompatibleInQueue guid key roles) s.queue
  { s with queue := queue.setCompatibilityData key { compatibility := .withLessPlayers, roles := roles } }

/-- The check of all entries, once all but the new one are known to be compatible. -/
def checkTogether (check : GuidList) (s : Matching) : LfgCompatibility × Matching :=
  let key := concatenateGuids check
  match gather v s.queue check ⟨.empty, 0, 0, .Empty⟩ with
  | .error guid => (.pending, { s with queue := s.queue.removeFromQueue guid })
  | .ok gathered =>
    -- Group with less that MAXGROUPSIZE members always compatible
    if check.length = 1 && gathered.numPlayers ≠ MAXGROUPSIZE then
      (.withLessPlayers, s.rememberCompatible check (checkGroupRoles (s.queue.dataOf (check.headD .Empty)).roles).2)
    else if 1 < gathered.numLfgGroups then (.multipleLfgGroups, s.setCompatibles key .multipleLfgGroups)
    else if MAXGROUPSIZE < gathered.numPlayers then (.tooMuchPlayers, s.setCompatibles key .tooMuchPlayers)
    else
      match combine v s.queue check gathered.numPlayers with
      | .error compatibles => (compatibles, s.setCompatibles key compatibles)
      | .ok (proposalRoles, proposalDungeons) =>
        if gathered.numPlayers ≠ MAXGROUPSIZE then (.withLessPlayers, s.rememberCompatible check proposalRoles)
        else if !v.allQueued check then (.badStates, s.setCompatibles key .badStates)
        else (.match, (s.createProposal v check gathered proposalRoles proposalDungeons).setCompatibles key .match)

/-- `CheckCompatibility`: all but the new entry first. -/
def checkCompatibility : GuidList → Matching → LfgCompatibility × Matching
  | [], s => (.wrongGroupSize, s)
  | new :: check, s =>
    if MAXGROUPSIZE < (new :: check).length then (.wrongGroupSize, s)
    else if 2 < (new :: check).length then
      let (child, s) := checkCompatibility check s
      if child.isIncompatible then (child, s.setCompatibles (concatenateGuids (new :: check)) child)
      else checkTogether v (new :: check) s
    else checkTogether v (new :: check) s

/-! ## `FindNewGroups` -/

/-- `FindNewGroups` up to its loop: the cached verdict, or a new one. -/
def verdict (check : GuidList) (s : Matching) : LfgCompatibility × Matching :=
  let key := concatenateGuids check
  let cached := s.queue.getCompatibles key
  let (compatibles, s) := if cached = .pending then checkCompatibility v check s else (cached, s)
  if compatibles = .badStates && v.allQueued check then (.match, s.setCompatibles key .match) else (compatibles, s)

/-- The loop of `FindNewGroups`, for at most `n` rounds of it and of those of the calls it makes. Both lists are passed
by reference: what a call takes from `all` is gone. -/
def matchRest : Nat → LfgCompatibility → (check all : GuidList) → Matching → LfgCompatibility × GuidList × GuidList × Matching
  | 0, compatibles, check, all, s => (compatibles, check, all, s)
  | _ + 1, compatibles, check, [], s => (compatibles, check, [], s)
  | n + 1, compatibles, check, next :: all, s =>
    let (sub, s) := verdict v (check ++ [next]) s
    let (sub, check, all, s) :=
      if sub = .withLessPlayers then matchRest n sub (check ++ [next]) all s else (sub, check ++ [next], all, s)
    if sub = .match then (.match, check, all, s) else matchRest n compatibles check.dropLast all s

/-- Every round takes an entry from `all`, so as many rounds as there are entries are enough. -/
def findNewGroups (check all : GuidList) (s : Matching) : LfgCompatibility × GuidList × GuidList × Matching :=
  let (compatibles, s) := verdict v check s
  if compatibles = .withLessPlayers then matchRest v all.length compatibles check all s else (compatibles, check, all, s)

/-- A round of the loop of `FindGroups`, for the new entry `front`. -/
def findGroupsRound (front : ObjectGuid) (s : Matching) : LfgCompatibility × Matching :=
  let s := { s with queue := s.queue.removeFromNewQueue front }
  let (compatibles, _, _, s) := findNewGroups v [front] s.queue.currentQueueStore s
  -- Lfg group not found, add this group to the queue.
  if compatibles = .match then (compatibles, s) else (compatibles, { s with queue := s.queue.addToCurrentQueue front })

/-- The loop of `FindGroups`, for at most `n` rounds. -/
def findGroupsLoop : Nat → Matching → Matching
  | 0, s => s
  | n + 1, s =>
    match s.queue.newToQueueStore with
    | [] => s
    | front :: _ => findGroupsLoop n (findGroupsRound v front s).2

/-- `FindGroups`: every round takes an entry out of the list, so as many rounds as there are entries are enough. -/
def findGroups (s : Matching) : Matching := findGroupsLoop v s.queue.newToQueueStore.length s

end Matching

end AtlasWow.Lfg
