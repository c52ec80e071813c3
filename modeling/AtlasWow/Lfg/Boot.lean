/-
The votes to kick a player from a dungeon group (`LFGMgr::InitBoot`,
`UpdateBoot`), over what the manager knows of groups while a vote goes on:
who is in them, and whether a vote is.

A vote is looked up with `operator[]`, which makes a denial for a player who
has none; `BootCall` is what can happen to a group between two votes.
-/
import AtlasWow.Lfg.Matching

namespace AtlasWow.Lfg

def LFG_GROUP_MAX_KICKS : Nat := 3
def LFG_GROUP_KICK_VOTES_NEEDED : Nat := 3
def LFG_TIME_BOOT : Nat := 120

/-- `LfgAnswer(accept)`. -/
def LfgAnswer.ofBool (accept : Bool) : LfgAnswer := if accept then .agree else .deny

structure LfgPlayerBoot where
  cancelTime : Nat
  inProgress : Bool
  votes : OMap ObjectGuid LfgAnswer
  victim : ObjectGuid
  reason : String

/-- How many of the answers are of a kind. -/
def LfgPlayerBoot.countVotes (boot : LfgPlayerBoot) (p : LfgAnswer → Bool) : Nat :=
  boot.votes.entries.countP fun itVotes => p itVotes.2

structure LfgGroupData where
  players : GuidList
  kicksLeft : Nat
  voteKickActive : Bool

/-- A group that the manager has not heard of. -/
def LfgGroupData.new : LfgGroupData := ⟨[], LFG_GROUP_MAX_KICKS, false⟩

/-- What the manager knows of groups (`PlayersStore`, `GroupsStore`) and which groups there are (`sGroupMgr`). -/
structure LfgGroups where
  groupMgr : List ObjectGuid
  getGroup : ObjectGuid → ObjectGuid
  groupsStore : ObjectGuid → LfgGroupData
  /-- The group of a player is there, and has him. -/
  grouped : ∀ guid, getGroup guid ≠ .Empty → getGroup guid ∈ groupMgr ∧ guid ∈ (groupsStore (getGroup guid)).players

namespace LfgGroups

/-- Changes a group's data, but not its players. -/
def modifyGroup (s : LfgGroups) (gguid : ObjectGuid) (f : LfgGroupData → LfgGroupData)
    (hf : ∀ data, (f data).players = data.players) : LfgGroups where
  groupMgr := s.groupMgr
  getGroup := s.getGroup
  groupsStore := Function.update s.groupsStore gguid (f (s.groupsStore gguid))
  grouped guid hguid := by
    obtain ⟨hgroup, hplayer⟩ := s.grouped guid hguid
    refine ⟨hgroup, ?_⟩
    rw [Function.update_apply]
    split
    next heq => rw [hf, ← heq]; exact hplayer
    next => exact hplayer

def setVoteKick (s : LfgGroups) (gguid : ObjectGuid) (active : Bool) : LfgGroups :=
  s.modifyGroup gguid (fun data => { data with voteKickActive := active }) fun _ => rfl

def decreaseKicksLeft (s : LfgGroups) (gguid : ObjectGuid) : LfgGroups :=
  s.modifyGroup gguid (fun data => { data with kicksLeft := data.kicksLeft - 1 }) fun _ => rfl

/-- `OnAddMember`: `SetGroup`, `AddPlayerToGroup`. -/
def addMember (s : LfgGroups) (gguid guid : ObjectGuid) : LfgGroups :=
  if h : gguid ∈ s.groupMgr then
    { groupMgr := s.groupMgr
      getGroup := Function.update s.getGroup guid gguid
      groupsStore := Function.update s.groupsStore gguid
        { s.groupsStore gguid with players := (s.groupsStore gguid).players.insert guid }
      grouped := by
        intro guid' hguid'
        rw [Function.update_apply] at hguid' ⊢
        rw [Function.update_apply]
        split at hguid'
        next heq => simp [heq, h]
        next hne =>
        obtain ⟨hgroup, hplayer⟩ := s.grouped guid' hguid'
        rw [if_neg hne]
        refine ⟨hgroup, ?_⟩
        split
        next heq => exact List.mem_insert_of_mem (heq ▸ hplayer)
        next => exact hplayer }
  else s

/-- `SetGroup(guid, ObjectGuid::Empty)`, `RemovePlayerFromGroup`. -/
def removeMember (s : LfgGroups) (gguid guid : ObjectGuid) : LfgGroups where
  groupMgr := s.groupMgr
  getGroup := Function.update s.getGroup guid .Empty
  groupsStore := Function.update s.groupsStore gguid
    { s.groupsStore gguid with players := (s.groupsStore gguid).players.filter (· ≠ guid) }
  grouped guid' hguid' := by
    rw [Function.update_apply] at hguid' ⊢
    rw [Function.update_apply]
    split at hguid'
    next => exact absurd rfl hguid'
    next hne =>
    obtain ⟨hgroup, hplayer⟩ := s.grouped guid' hguid'
    rw [if_neg hne]
    refine ⟨hgroup, ?_⟩
    split
    next heq => exact List.mem_filter.2 ⟨heq ▸ hplayer, by simpa using hne⟩
    next => exact hplayer

def removePlayerData (s : LfgGroups) (guid : ObjectGuid) : LfgGroups where
  groupMgr := s.groupMgr
  getGroup := Function.update s.getGroup guid .Empty
  groupsStore := s.groupsStore
  grouped guid' hguid' := by
    rw [Function.update_apply] at hguid' ⊢
    split at hguid'
    next => exact absurd rfl hguid'
    next hne =>
    rw [if_neg hne]
    exact s.grouped guid' hguid'

/-- `RemoveGroupData`, of a group that is disbanded. -/
def disband (s : LfgGroups) (gguid : ObjectGuid) : LfgGroups where
  groupMgr := s.groupMgr.filter (· ≠ gguid)
  getGroup guid := if guid ∈ (s.groupsStore gguid).players then .Empty else s.getGroup guid
  groupsStore := Function.update s.groupsStore gguid .new
  grouped guid hguid := by
    split at hguid
    next => exact absurd rfl hguid
    next hnot =>
    obtain ⟨hgroup, hplayer⟩ := s.grouped guid hguid
    have hne : s.getGroup guid ≠ gguid := fun heq => hnot (heq ▸ hplayer)
    rw [if_neg hnot, Function.update_of_ne hne]
    exact ⟨List.mem_filter.2 ⟨hgroup, by simpa using hne⟩, hplayer⟩

end LfgGroups

structure LfgBoots where
  groups : LfgGroups
  bootsStore : OMap ObjectGuid LfgPlayerBoot
  /-- The kicks so far: the group and who was kicked. -/
  removed : List (ObjectGuid × ObjectGuid)

namespace LfgBoots

def initBoot (gguid kicker victim : ObjectGuid) (reason : String) (gameTime : Nat) (s : LfgBoots) : LfgBoots :=
  let groups := s.groups.setVoteKick gguid true
  let votes := (groups.groupsStore gguid).players.foldl (fun votes guid => votes.insert guid .pending)
    ((s.bootsStore.find? gguid).elim .empty (·.votes))
  let boot : LfgPlayerBoot :=
    { cancelTime := gameTime + LFG_TIME_BOOT
      inProgress := true
      -- the victim votes no, the kicker yes
      votes := (votes.insert victim .deny).insert kicker .agree
      victim := victim
      reason := reason }
  { s with groups := groups, bootsStore := s.bootsStore.insert gguid boot }

/-- `Player::RemoveFromGroup`, as far as the manager hears of it. -/
def removeFromGroup (s : LfgBoots) (gguid victim : ObjectGuid) : LfgBoots :=
  { s with groups := s.groups.removeMember gguid victim, removed := (gguid, victim) :: s.removed }

def updateBoot (guid : ObjectGuid) (accept : Bool) (s : LfgBoots) : LfgBoots :=
  let gguid := s.groups.getGroup guid
  if gguid = .Empty then s
  else
    match s.bootsStore.find? gguid with
    | none => s
    | some boot =>
      -- the lookup makes the entry, and a new one is a denial
      let answer := (boot.votes.find? guid).getD .deny
      let looked := { boot with votes := boot.votes.insert guid answer }
      if answer ≠ .pending then { s with bootsStore := s.bootsStore.insert gguid looked }
      else
        let boot := { looked with votes := looked.votes.insert guid (.ofBool accept) }
        let votesNum := boot.countVotes (· ≠ .pending) % 256
        let agreeNum := boot.countVotes (· = .agree) % 256
        if agreeNum < LFG_GROUP_KICK_VOTES_NEEDED && votesNum - agreeNum < LFG_GROUP_KICK_VOTES_NEEDED then
          { s with bootsStore := s.bootsStore.insert gguid boot }
        else
          let s := { s with groups := s.groups.setVoteKick gguid false }
          let s :=
            if agreeNum = LFG_GROUP_KICK_VOTES_NEEDED then
              let s := if s.groups.groupMgr.contains gguid then s.removeFromGroup gguid boot.victim else s
              { s with groups := s.groups.decreaseKicksLeft gguid }
            else s
          { s with bootsStore := s.bootsStore.erase gguid }

/-- What happens while a vote is open. -/
inductive BootCall where
  | updateBoot (guid : ObjectGuid) (accept : Bool)
  | addMember (gguid guid : ObjectGuid)
  | removeMember (gguid guid : ObjectGuid)
  | removePlayerData (guid : ObjectGuid)
  | disband (gguid : ObjectGuid)

def apply (s : LfgBoots) : BootCall → LfgBoots
  | .updateBoot guid accept => s.updateBoot guid accept
  | .addMember gguid guid => { s with groups := s.groups.addMember gguid guid }
  | .removeMember gguid guid => { s with groups := s.groups.removeMember gguid guid }
  | .removePlayerData guid => { s with groups := s.groups.removePlayerData guid }
  | .disband gguid => { s with groups := s.groups.disband gguid }

def run (s : LfgBoots) (calls : List BootCall) : LfgBoots := calls.foldl apply s

end LfgBoots
end AtlasWow.Lfg
