/-
Rolling for loot (`Roll`, `Group::GroupLoot`, `NeedBeforeGreed`,
`CountRollVote`, `EndRoll`, `CountTheRoll` and the rolls in `RemoveMember`).
What the game says of a player when a roll ends, and the random numbers, are
inputs (`RollEnv`), and so is who may roll for an item.

The packets, the achievements, the mask of votes that a client is offered and
the timers of the corpses are left out.
-/
import AtlasWow.Groups.Group
import AtlasWow.Loots.Loot

namespace AtlasWow

open Loots (LootItem Loot)

inductive RollVote where
  | pass | need | greed | disenchant | notEmitedYet | notValid
deriving DecidableEq, Repr

def ROLL_PASS : Nat := 0
def ROLL_NEED : Nat := 1
def ROLL_GREED : Nat := 2
def ROLL_DISENCHANT : Nat := 3
def MAX_ROLL_TYPE : Nat := 4

structure Roll where
  itemGUID : Nat
  itemid : Nat
  itemSlot : UInt8
  /-- The loot that is linked to it, until that is removed. -/
  loot : Option Nat
  playerVote : OMap ObjectGuid RollVote
  totalPlayersRolling : UInt8
  totalNeed : UInt8
  totalGreed : UInt8
  totalPass : UInt8

def Roll.isValid (roll : Roll) : Bool := roll.loot.isSome

/-- Where the item of a roll went. -/
inductive Award where
  | stored (player : ObjectGuid)
  | disenchanted (player : ObjectGuid) (byMail : Bool)
  | reserved (player : ObjectGuid)
deriving DecidableEq

def Award.player : Award → ObjectGuid
  | .stored player => player
  | .disenchanted player _ => player
  | .reserved player => player

/-- A member of the group, as a loot asks. -/
structure Candidate where
  guid : ObjectGuid
  atGroupRewardDistance : Bool
  passOnGroupLoot : Bool
  /-- `CanRollOnItem`. -/
  canRollOnItem (item : LootItem) : Bool

/-- The players when a roll ends: who is connected, who in the world, on which map, and who has room for the item; and the
numbers they roll, one less each. -/
structure RollEnv where
  connected (player : ObjectGuid) : Bool
  inWorld (player : ObjectGuid) : Bool
  findMap (player : ObjectGuid) : Option Nat
  canStoreNewItem (player : ObjectGuid) : Bool
  number (player : ObjectGuid) : Fin 100

namespace RollEnv

variable (env : RollEnv)

/-- `ObjectAccessor::FindPlayer`. -/
def findPlayer (player : ObjectGuid) : Bool := env.connected player && env.inWorld player

/-- In the world, and on the map if only those there may have the item. -/
def eligible (allowedMap : Option Nat) (player : ObjectGuid) : Bool :=
  env.findPlayer player && allowedMap.all fun map => env.findMap player = some map

/-- `urand(1, 100)`. -/
def randomN (player : ObjectGuid) : Nat := (env.number player).val + 1

end RollEnv

/-! ## CountTheRoll -/

/-- Who is ahead, with which number and vote. -/
structure Leader where
  guid : ObjectGuid
  result : Nat
  vote : RollVote
deriving DecidableEq

section

variable (env : RollEnv) (allowedMap : Option Nat)

/-- One round of the loop over the votes: the counter, and who is ahead. -/
def rollRound (among : RollVote → Bool) (acc : UInt8 × Option Leader) (e : ObjectGuid × RollVote) : UInt8 × Option Leader :=
  if !among e.2 then acc
  else if !env.eligible allowedMap e.1 then (acc.1 - 1, acc.2)
  else if acc.2.elim 0 Leader.result < env.randomN e.1 then (acc.1, some ⟨e.1, env.randomN e.1, e.2⟩)
  else acc

/-- The counter after a loop over the votes, and the winner. -/
def contest (among : RollVote → Bool) (total : UInt8) (votes : List (ObjectGuid × RollVote)) : UInt8 × Option Leader :=
  if total = 0 || votes.isEmpty then (total, none)
  else
    let acc := votes.foldl (rollRound env allowedMap among) (total, none)
    (if acc.2.isSome then acc.1 else 0, acc.2)

end

/-- Change the item of a slot: quest items come after the others. -/
def modifyItem (slot : UInt8) (f : LootItem → LootItem) (loot : Loot) : Loot :=
  if loot.items.length ≤ slot.toNat then
    { loot with questItems := loot.questItems.modify (slot.toNat - loot.items.length) f }
  else { loot with items := loot.items.modify slot.toNat f }

/-- The item of a slot. -/
def itemAt (slot : UInt8) (loot : Loot) : Option LootItem :=
  if loot.items.length ≤ slot.toNat then loot.questItems[slot.toNat - loot.items.length]? else loot.items[slot.toNat]?

def lootedItem (slot : UInt8) (loot : Loot) : Loot :=
  { modifyItem slot (fun item => { item with isLooted := true }) loot with unlootedCount := loot.unlootedCount - 1 }

/-- The winner has room for the item, or it is kept for him. -/
def storeNewItem (env : RollEnv) (slot : UInt8) (player : ObjectGuid) (loot : Loot) : Loot × List Award :=
  if !env.connected player then (loot, [])
  else if env.canStoreNewItem player then (lootedItem slot loot, [.stored player])
  else
    (modifyItem slot (fun item => { item with isBlocked := false, rollWinnerGUID := some player }) loot, [.reserved player])

def disenchant (env : RollEnv) (slot : UInt8) (player : ObjectGuid) (loot : Loot) : Loot × List Award :=
  if !env.connected player then (loot, [])
  else (lootedItem slot loot, [.disenchanted player (!env.canStoreNewItem player)])

def isGreed (vote : RollVote) : Bool := vote = .greed || vote = .disenchant

/-- What `CountTheRoll` does for a roll whose loot is there: the loot afterwards, and what became of the item. -/
def settle (env : RollEnv) (allowedMap : Option Nat) (roll : Roll) (loot : Loot) : Loot × List Award :=
  let votes := roll.playerVote.entries
  let need := contest env allowedMap (· = .need) roll.totalNeed votes
  let afterNeed := need.2.elim (loot, []) fun leader => storeNewItem env roll.itemSlot leader.guid loot
  -- not else, because numbers can be modified above if players are on a different map
  let greed := if need.1 = 0 then contest env allowedMap isGreed roll.totalGreed votes else (roll.totalGreed, none)
  let afterGreed := greed.2.elim (afterNeed.1, []) fun leader =>
    if leader.vote = .greed then storeNewItem env roll.itemSlot leader.guid afterNeed.1
    else disenchant env roll.itemSlot leader.guid afterNeed.1
  -- lootable by all players
  let loot := if need.1 = 0 ∧ greed.1 = 0 then modifyItem roll.itemSlot (fun item => { item with isBlocked := false }) afterGreed.1
    else afterGreed.1
  (loot, afterNeed.2 ++ afterGreed.2)

/-! ## The rolls of a group -/

structure GroupRolls where
  group : Option Group
  rollId : List Roll
  loots : Nat → Option Loot
  lootThreshold : Nat
  /-- The counter of item guids. -/
  nextItem : Nat

namespace GroupRolls

/-- The loot of a roll. -/
def getLoot (s : GroupRolls) (roll : Roll) : Option Loot := roll.loot.bind s.loots

def setLoot (id : Nat) (loot : Loot) (s : GroupRolls) : GroupRolls := { s with loots := Function.update s.loots id (some loot) }

/-- `CountTheRoll`. -/
def countTheRoll (env : RollEnv) (allowedMap : Option Nat) (i : Nat) (s : GroupRolls) : GroupRolls × List Award :=
  match s.rollId[i]? with
  | none => (s, [])
  | some roll =>
    match roll.loot, s.getLoot roll with
    | some id, some loot =>
      let settled := settle env allowedMap roll loot
      ({ s.setLoot id settled.1 with rollId := s.rollId.eraseIdx i }, settled.2)
    -- is loot already deleted ?
    | _, _ => ({ s with rollId := s.rollId.eraseIdx i }, [])

/-- `GetRoll`. -/
def getRoll (guid : Nat) (s : GroupRolls) : Option Nat := s.rollId.findIdx? fun roll => roll.itemGUID = guid && roll.isValid

/-- A vote is written down and counted; other choices are not. -/
def vote (player : ObjectGuid) (choice : Nat) (roll : Roll) : Roll :=
  if choice = ROLL_PASS then
    { roll with totalPass := roll.totalPass + 1, playerVote := roll.playerVote.insert player .pass }
  else if choice = ROLL_NEED then
    { roll with totalNeed := roll.totalNeed + 1, playerVote := roll.playerVote.insert player .need }
  else if choice = ROLL_GREED then
    { roll with totalGreed := roll.totalGreed + 1, playerVote := roll.playerVote.insert player .greed }
  else if choice = ROLL_DISENCHANT then
    { roll with totalGreed := roll.totalGreed + 1, playerVote := roll.playerVote.insert player .disenchant }
  else roll

/-- Everybody has voted, by the counters. -/
def complete (roll : Roll) : Bool :=
  roll.totalPlayersRolling.toNat ≤ roll.totalPass.toNat + roll.totalNeed.toNat + roll.totalGreed.toNat

def countRollVote (env : RollEnv) (player : ObjectGuid) (guid choice : Nat) (s : GroupRolls) : GroupRolls × List Award :=
  match s.getRoll guid with
  | none => (s, [])
  | some i =>
    match s.rollId[i]? with
    | none => (s, [])
    | some roll =>
      -- this condition means that player joins to the party after roll begins
      if (roll.playerVote.find? player).isNone then (s, [])
      else if (s.getLoot roll).any (·.items.isEmpty) then (s, [])
      else
        let s : GroupRolls := { s with rollId := s.rollId.modify i (vote player choice) }
        if complete (vote player choice roll) then s.countTheRoll env none i else (s, [])

/-- The rounds of `EndRoll`, which starts over after every roll it ends. -/
def endRounds (env : Nat → RollEnv) (allowedMap : Option Nat) (loot : Nat) : Nat → GroupRolls → GroupRolls × List Award
  | 0, s => (s, [])
  | n + 1, s =>
    match s.rollId.findIdx? (·.loot = some loot) with
    | none => (s, [])
    | some i =>
      let ended := s.countTheRoll (env ((s.rollId[i]?).elim 0 (·.itemGUID))) allowedMap i
      let rest := endRounds env allowedMap loot n ended.1
      (rest.1, ended.2 ++ rest.2)

/-- `EndRoll`, when the time is up; who did not vote passes. -/
def endRoll (env : Nat → RollEnv) (loot : Nat) (allowedMap : Option Nat) (s : GroupRolls) : GroupRolls × List Award :=
  s.endRounds env allowedMap loot s.rollId.length

/-! ## GroupLoot and NeedBeforeGreed -/

/-- A member of the group comes to a new roll. -/
def join (quest : Bool) (item : LootItem) (roll : Roll) (member : Candidate) : Roll :=
  if !member.atGroupRewardDistance then roll
  else
    let vote : RollVote :=
      if !member.canRollOnItem item then .pass
      else if !quest && member.passOnGroupLoot then .pass
      else .notEmitedYet
    { roll with
      totalPlayersRolling := roll.totalPlayersRolling + 1
      totalPass := if member.canRollOnItem item then roll.totalPass else roll.totalPass + 1
      playerVote := roll.playerVote.insert member.guid vote }

/-- A roll for an item, with those members who are near enough. -/
def newRoll (quest : Bool) (members : List Candidate) (guid loot : Nat) (slot : UInt8) (item : LootItem) : Roll :=
  members.foldl (join quest item) ⟨guid, item.itemid, slot, some loot, .empty, 0, 0, 0, 0⟩

/-- The roll for an item is begun, if somebody is there; `drops` is whether it is given up where everybody passes at once.
The item is blocked either way. -/
def beginRoll (quest drops : Bool) (members : List Candidate) (id : Nat) (slot : UInt8) (item : LootItem) (s : GroupRolls) :
    GroupRolls :=
  let roll := newRoll quest members s.nextItem id slot item
  let s := { s with nextItem := s.nextItem + 1 }
  if roll.totalPlayersRolling = 0 then s
  else
    let s : GroupRolls :=
      { s with loots := Function.update s.loots id ((s.loots id).map (modifyItem slot fun item => { item with isBlocked := true })) }
    if drops && roll.totalPass = roll.totalPlayersRolling then s else { s with rollId := s.rollId ++ [roll] }

/-- What is done with an item: `quality` are the qualities of the templates, and `needBeforeGreed` is whether that is the
method. `none` is a template that is missing where one is looked at. -/
def lootOne (needBeforeGreed : Bool) (quality : Nat → Option Nat) (members : List Candidate) (id : Nat) (quest : Bool)
    (slot : UInt8) (item : LootItem) (s : GroupRolls) : Option GroupRolls :=
  if quest then
    if !item.followLootRules then some s
    else if (quality item.itemid).isNone && !needBeforeGreed then some s
    else some (s.beginRoll true false members id slot item)
  else if item.freeforall then some s
  else
    match quality item.itemid with
    | none => if needBeforeGreed then none else some s
    | some quality =>
      if s.lootThreshold ≤ quality then some (s.beginRoll false (!needBeforeGreed) members id slot item)
      else
        some { s with
          loots := Function.update s.loots id
            ((s.loots id).map (modifyItem slot fun item => { item with isUnderthreshold := true })) }

/-- `GroupLoot`, or `NeedBeforeGreed`, on a loot; the slots are counted in a byte. -/
def groupLoot (needBeforeGreed : Bool) (quality : Nat → Option Nat) (members : List Candidate) (id : Nat) (s : GroupRolls) :
    Option GroupRolls :=
  match s.loots id with
  | none => some s
  | some loot =>
    let items := loot.items.map (false, ·) ++ loot.questItems.map (true, ·)
    runSteps (fun (e : Nat × Bool × LootItem) s =>
      s.lootOne needBeforeGreed quality members id e.2.1 (UInt8.ofNat e.1) e.2.2) (items.zipIdx.map fun e => (e.2, e.1)) s

/-! ## RemoveMember -/

/-- The vote of a member who leaves is taken back. -/
def withdraw (guid : ObjectGuid) (roll : Roll) : Roll :=
  match roll.playerVote.find? guid with
  | none => roll
  | some vote =>
    { roll with
      totalGreed := if isGreed vote then roll.totalGreed - 1 else roll.totalGreed
      totalNeed := if vote = .need then roll.totalNeed - 1 else roll.totalNeed
      totalPass := if vote = .pass then roll.totalPass - 1 else roll.totalPass
      totalPlayersRolling := if vote ≠ .notValid then roll.totalPlayersRolling - 1 else roll.totalPlayersRolling
      playerVote := roll.playerVote.erase guid }

/-- The loop over the rolls, from the `i`th on. -/
def removeVotes (env : RollEnv) (guid : ObjectGuid) : Nat → Nat → GroupRolls → GroupRolls × List Award
  | 0, _, s => (s, [])
  | n + 1, i, s =>
    match s.rollId[i]? with
    | none => (s, [])
    | some roll =>
      if (roll.playerVote.find? guid).isNone then removeVotes env guid n (i + 1) s
      else
        let counted := countRollVote env guid roll.itemGUID MAX_ROLL_TYPE
          { s with rollId := s.rollId.modify i (withdraw guid) }
        let rest := removeVotes env guid n (i + 1) counted.1
        (rest.1, counted.2 ++ rest.2)

/-- A group that is disbanded has no more rolls. -/
def disband (s : GroupRolls) : GroupRolls := { s with group := none, rollId := [] }

def removeMember (env : RollEnv) (guid : ObjectGuid) (method : RemoveMethod) (inDungeon : Bool) (s : GroupRolls) :
    GroupRolls × List Award :=
  match s.group with
  | none => (s, [])
  | some g =>
    -- a vote decides
    if g.isLFGGroup && method = .kick then (s, [])
    else
      let removed := if g.minMembers < g.memberSlots.length then s.removeVotes env guid s.rollId.length 0 else (s, [])
      match g.removeMember env.connected guid method inDungeon with
      | none => (removed.1.disband, removed.2)
      | some g => ({ removed.1 with group := some g }, removed.2)

end GroupRolls

end AtlasWow
