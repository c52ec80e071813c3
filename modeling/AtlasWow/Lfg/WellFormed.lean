/-
What `CheckCompatibility` and `FindNewGroups` can do: every check of some entries
is one `Outcome`, every call is a run of `Move`s, and a proposal made on the way
is `WellFormed`.
-/
import AtlasWow.Lfg.Compatible
import AtlasWow.Lfg.Kept
import Mathlib.Data.List.Pairwise

namespace AtlasWow.Lfg

namespace Matching

variable {v : LfgView}

/-! ## The check of all entries -/

/-- How the check of some entries can end. -/
inductive Outcome (v : LfgView) (s : Matching) (check : GuidList) : LfgCompatibility × Matching → Prop
  | unknown {guid : ObjectGuid} : guid ∈ check → s.queue.entryOf guid = none →
      Outcome v s check (.pending, { s with queue := s.queue.removeFromQueue guid })
  | single {roles : LfgRolesMap} : check.length = 1 → (∀ guid ∈ check, ∃ e, s.queue.entryOf guid = some e) →
      (playersOf s.queue check).length < MAXGROUPSIZE →
      Outcome v s check (.withLessPlayers, s.rememberCompatible check roles)
  | incompatible {c : LfgCompatibility} : c.isIncompatible = true → c ≠ .pending → ¬ Compatible v s.queue check →
      Outcome v s check (c, s.setCompatibles (concatenateGuids check) c)
  | few {roles : LfgRolesMap} : 1 < check.length → Compatible v s.queue check →
      (playersOf s.queue check).length < MAXGROUPSIZE →
      Outcome v s check (.withLessPlayers, s.rememberCompatible check roles)
  | badStates : Compatible v s.queue check → (playersOf s.queue check).length = MAXGROUPSIZE →
      v.allQueued check = false → Outcome v s check (.badStates, s.setCompatibles (concatenateGuids check) .badStates)
  | proposed {gathered : Gathered} {roles : LfgRolesMap} {dungeons : LfgDungeonSet} : Compatible v s.queue check →
      (playersOf s.queue check).length = MAXGROUPSIZE → v.allQueued check = true →
      Assignment (rolesOf s.queue check) roles → dungeons ≠ [] →
      (∀ dungeon ∈ dungeons, ∀ guid ∈ check, dungeon ∈ (s.queue.dataOf guid).dungeons) →
      Outcome v s check
        (.match, (s.createProposal v check gathered roles dungeons).setCompatibles (concatenateGuids check) .match)

theorem checkTogether_outcome {s : Matching} {check : GuidList} (hj : Joined s.queue) (hne : check ≠ []) :
    Outcome v s check (checkTogether v check s) := by
  unfold checkTogether
  simp only
  rcases gather_spec v hj.small check ⟨.empty, 0, 0, .Empty⟩ with ⟨guid, hg, hrun, hnone⟩ | ⟨gathered, hrun, hexact, hmany⟩
  · rw [hrun]
    exact .unknown hg hnone
  rw [hrun]
  simp only [Nat.zero_add] at hexact hmany ⊢
  by_cases hgoes : gathered.Goes
  · obtain ⟨hknown, hplayers, hgroups⟩ := hexact hgoes
    obtain ⟨hlt, hle⟩ := hgoes
    rw [hgroups] at hlt
    rw [hplayers] at hle
    have hlen : 0 < check.length := List.length_pos_of_ne_nil hne
    rw [hplayers, hgroups]
    split
    next hsingle =>
      simp only [Bool.and_eq_true, decide_eq_true_eq, ne_eq] at hsingle
      exact .single hsingle.1 hknown (by omega)
    next hsingle =>
    rw [if_neg (by omega), if_neg (by omega)]
    simp only [Bool.and_eq_true, decide_eq_true_eq, ne_eq, not_and, not_not] at hsingle
    have hcombined : Combined v s.queue check (combine v s.queue check (playersOf s.queue check).length) := by
      by_cases hone : check.length = 1
      · obtain ⟨guid, rfl⟩ := List.length_eq_one_iff.1 hone
        obtain ⟨e, he⟩ := hknown guid List.mem_cons_self
        exact combine_single hj he (hsingle hone) (by omega)
      · exact combine_several hj (by omega) hknown hle (by omega)
    cases hcomb : combine v s.queue check (playersOf s.queue check).length with
    | error c =>
      rw [hcomb] at hcombined
      cases hcombined with
      | incompatible hi hp hc => exact .incompatible hi hp hc
    | ok result =>
      obtain ⟨roles, dungeons⟩ := result
      rw [hcomb] at hcombined
      cases hcombined with
      | compatible hc ha hd hin =>
        simp only
        split
        next hfew => exact .few (by omega) hc (by omega)
        next hfive =>
        split
        next hstates => exact .badStates hc (by omega) (by simpa using hstates)
        next hstates => exact .proposed hc (by omega) (by simpa using hstates) ha hd hin
  · -- too many: the loop has stopped early
    have hnot : ¬ Compatible v s.queue check := fun hc => hmany hgoes ⟨Nat.lt_succ_of_le hc.oneGroup, hc.few⟩
    have hsingle : ¬ check.length = 1 := by
      intro hone
      obtain ⟨guid, rfl⟩ := List.length_eq_one_iff.1 hone
      refine hmany hgoes ⟨Nat.lt_succ_of_le List.countP_le_length, ?_⟩
      rw [playersOf, List.flatMap_singleton]
      cases hfind : s.queue.queueDataStore.find? guid with
      | none => simp [LFGQueue.dataOf, hfind, LfgQueueData.empty, LfgQueueData.make, OMap.empty]
      | some data =>
        rw [(entryOf_eq hfind).2]
        exact hj.small guid _ (entryOf_eq hfind).1
    rw [if_neg (by simp [hsingle])]
    split
    next hgroups => exact .incompatible rfl (by decide) hnot
    next hgroups =>
    split
    next hplayers => exact .incompatible rfl (by decide) hnot
    next hplayers => exact absurd ⟨by omega, by omega⟩ hgoes

/-! ## What the entries are stays -/

/-- What every step of a fold keeps, the fold keeps. -/
theorem foldl_keeps {α β γ : Type} (g : β → γ) {f : β → α → β} (h : ∀ b a, g (f b a) = g b) (l : List α) :
    ∀ b, g (l.foldl f b) = g b := by
  induction l with
  | nil => exact fun _ => rfl
  | cons a l ih => exact fun b => (ih _).trans (h b a)

/-- What matching depends on. -/
def entry (data : LfgQueueData) : LfgRolesMap × LfgDungeonSet := (data.roles, data.dungeons)

theorem entry_updateBestCompatible (data : LfgQueueData) (key : Key) (roles : LfgRolesMap) :
    entry (data.updateBestCompatible key roles) = entry data := by
  unfold LfgQueueData.updateBestCompatible
  extract_lets storedSize
  split
  · rfl
  refine foldl_keeps entry (fun d e => ?_) _ _
  split
  · rfl
  split <;> rfl

theorem entryOf_updateBest (q : LFGQueue) (guid : ObjectGuid) (key : Key) (roles : LfgRolesMap) :
    (q.updateBestCompatibleInQueue guid key roles).entryOf = q.entryOf := by
  funext other
  unfold LFGQueue.updateBestCompatibleInQueue
  split
  · rfl
  next data hdata =>
  simp only [LFGQueue.entryOf, OMap.find?_insert]
  split
  next h =>
    rw [h, hdata]
    exact congrArg some (entry_updateBestCompatible data key roles)
  next => rfl

theorem entryOf_rememberCompatible (s : Matching) (check : GuidList) (roles : LfgRolesMap) :
    (s.rememberCompatible check roles).queue.entryOf = s.queue.entryOf :=
  foldl_keeps LFGQueue.entryOf (fun q guid => entryOf_updateBest q guid _ roles) check s.queue

theorem entry_findBestCompatible (q : LFGQueue) (guid : ObjectGuid) (data : LfgQueueData) :
    entry (q.findBestCompatible guid data) = entry data := by
  refine foldl_keeps entry (fun d e => ?_) _ _
  split
  · exact entry_updateBestCompatible d _ _
  · rfl

/-- Only the entry itself goes. -/
theorem entryOf_removeFromQueue (q : LFGQueue) (guid other : ObjectGuid) :
    (q.removeFromQueue guid).entryOf other = if other = guid then none else q.entryOf other := by
  simp only [LFGQueue.entryOf, LFGQueue.removeFromQueue, OMap.find?_erase, OMap.find?_mapValues]
  split
  · rfl
  rw [show (((q.removeFromNewQueue guid).removeFromCurrentQueue guid).removeFromCompatibles guid).queueDataStore =
    q.queueDataStore from rfl]
  cases q.queueDataStore.find? other with
  | none => rfl
  | some data =>
    simp only [Option.map_some]
    split
    · exact congrArg some (entry_findBestCompatible _ other { data with bestCompatible := [] })
    · rfl

/-! ## Proposals -/

/-- A proposal as it should be, for the entries of a queue: five players, none of them in two of its entries, who are
those of its entries; one of his roles for each, and a dungeon they all selected. -/
structure WellFormed (v : LfgView) (q : LFGQueue) (proposal : LfgProposal) : Prop where
  five : proposal.players.size = MAXGROUPSIZE
  nodup : proposal.queues.Nodup
  known : ∀ guid ∈ proposal.queues, ∃ e, q.entryOf guid = some e
  distinct : ((playersOf q proposal.queues).map Prod.fst).Nodup
  covers : ∀ player, player ∈ proposal.players.keys ↔ ∃ guid ∈ proposal.queues, player ∈ (q.dataOf guid).roles.keys
  roles : Assignment (rolesOf q proposal.queues) (proposal.players.mapValues fun _ player => player.role)
  dungeon : ∀ guid ∈ proposal.queues, proposal.dungeonId ∈ (q.dataOf guid).dungeons
  oneGroup : proposal.queues.countP v.isLfgGroup ≤ 1
  ignores : 1 < proposal.queues.length →
    ∀ a ∈ proposal.players.keys, ∀ b ∈ proposal.players.keys, a ≠ b → v.hasIgnore a b = false

variable {proposal : LfgProposal} {dungeons : LfgDungeonSet}

theorem WellFormed.congr {q q' : LFGQueue} (h : q'.entryOf = q.entryOf)
    (hw : WellFormed v q' proposal) : WellFormed v q proposal where
  five := hw.five
  nodup := hw.nodup
  known := h ▸ hw.known
  distinct := playersOf_congr h proposal.queues ▸ hw.distinct
  covers := by simpa only [(dataOf_congr h _).1] using hw.covers
  roles := rolesOf_congr h proposal.queues ▸ hw.roles
  dungeon := by simpa only [(dataOf_congr h _).2] using hw.dungeon
  oneGroup := hw.oneGroup
  ignores := hw.ignores

/-- The entries of a proposal leave both lists. -/
def LFGQueue.withdraw (q : LFGQueue) (check : GuidList) : LFGQueue :=
  { q with
    newToQueueStore := q.newToQueueStore.filter (· ∉ check)
    currentQueueStore := q.currentQueueStore.filter (· ∉ check) }

theorem foldl_withdraw (check : GuidList) : ∀ q : LFGQueue,
    check.foldl (fun q guid => (q.removeFromNewQueue guid).removeFromCurrentQueue guid) q = LFGQueue.withdraw q check := by
  induction check with
  | nil => exact fun q => by simp [LFGQueue.withdraw]
  | cons guid check ih =>
    intro q
    rw [List.foldl_cons, ih]
    simp only [LFGQueue.withdraw, LFGQueue.removeFromNewQueue, LFGQueue.removeFromCurrentQueue, List.filter_filter,
      List.mem_cons, not_or, Bool.decide_and, Bool.and_comm]

theorem selectDungeon_spec (v : LfgView) (s : Matching) (hne : dungeons ≠ []) :
    (s.selectDungeon v dungeons).1 ∈ dungeons ∧ (s.selectDungeon v dungeons).2 = { s with draws := s.draws + 1 } := by
  have hlt : v.random s.draws % dungeons.length < dungeons.length := Nat.mod_lt _ (List.length_pos_of_ne_nil hne)
  simp only [selectDungeon, urand]
  rw [List.getD_eq_getElem?_getD, List.getElem?_eq_getElem hlt, Option.getD_some]
  exact ⟨List.getElem_mem hlt, trivial⟩

theorem selectLeader_draws (v : LfgView) (players : List (ObjectGuid × UInt8)) : ∀ leader found (s : Matching),
    ∃ draws, (selectLeader v players leader found s).2 = { s with draws := draws } := by
  induction players with
  | nil => exact fun _ _ s => ⟨s.draws, rfl⟩
  | cons e players ih =>
    intro leader found s
    obtain ⟨guid, role⟩ := e
    simp only [selectLeader, urand]
    split
    · split
      · exact ih guid true s
      · exact ih _ true { s with draws := s.draws + 1 }
    split
    · exact ih leader found s
    split
    · exact ih guid found s
    · exact ih _ found { s with draws := s.draws + 1 }

/-- A proposal for some entries, as it is made. -/
structure Proposes (v : LfgView) (s : Matching) (check : GuidList) (roles : LfgRolesMap) (dungeons : LfgDungeonSet)
    (proposal : LfgProposal) : Prop where
  id : proposal.id = s.lfgProposalId + 1
  queues : proposal.queues = check
  state : proposal.state = .initiating
  cancelTime : proposal.cancelTime = v.gameTime + LFG_TIME_PROPOSAL
  dungeon : proposal.dungeonId ∈ dungeons
  players : (proposal.players.mapValues fun _ player => player.role) = roles

theorem createProposal_eq (v : LfgView) (s : Matching) (check : GuidList) (gathered : Gathered) (roles : LfgRolesMap)
    (hne : dungeons ≠ []) :
    ∃ proposal draws, Proposes v s check roles dungeons proposal ∧ s.createProposal v check gathered roles dungeons =
      { queue := LFGQueue.withdraw s.queue check
        proposalsStore := s.proposalsStore.insert (s.lfgProposalId + 1) proposal
        lfgProposalId := s.lfgProposalId + 1
        draws := draws } := by
  obtain ⟨hin, hdraw⟩ := selectDungeon_spec v s hne
  obtain ⟨draws, hleader⟩ := selectLeader_draws v roles.entries .Empty false { s with draws := s.draws + 1 }
  unfold createProposal addProposal
  simp only [hdraw, hleader, foldl_withdraw]
  refine ⟨_, draws, ⟨rfl, rfl, rfl, rfl, hin, ?_⟩, rfl⟩
  refine OMap.ext fun player => ?_
  simp only [OMap.find?_mapValues, Option.map_map]
  cases roles.find? player <;> rfl

theorem Proposes.wellFormed {s : Matching} {check : GuidList} {roles : LfgRolesMap}
    (h : Proposes v s check roles dungeons proposal) (hj : Joined s.queue) (hne : check ≠ [])
    (hc : Compatible v s.queue check) (hfive : (playersOf s.queue check).length = MAXGROUPSIZE)
    (ha : Assignment (rolesOf s.queue check) roles)
    (hd : ∀ dungeon ∈ dungeons, ∀ guid ∈ check, dungeon ∈ (s.queue.dataOf guid).dungeons) :
    WellFormed v s.queue proposal := by
  obtain ⟨-, rfl, -, -, hdungeon, hplayers⟩ := h
  have hkeys : proposal.players.keys = (rolesOf s.queue proposal.queues).keys := by
    rw [← ha.keys, ← hplayers, OMap.keys_mapValues]
  have hmem : ∀ player, player ∈ proposal.players.keys ↔
      ∃ guid ∈ proposal.queues, player ∈ (s.queue.dataOf guid).roles.keys := by
    intro player
    rw [hkeys, mem_keys_rolesOf]
    simp only [playersOf, List.map_flatMap, List.mem_flatMap]
    rfl
  have hknown : ∀ guid ∈ proposal.queues, ∃ e, s.queue.entryOf guid = some e := fun guid hg =>
    hc.known guid hg
  refine ⟨?_, nodup_of_distinct hj hknown hc.distinct, hknown, hc.distinct, hmem, hplayers ▸ ha,
    hd _ hdungeon, hc.oneGroup, fun hlen a ha b hb hab => ?_⟩
  · rw [← OMap.length_keys, hkeys, OMap.length_keys, size_rolesOf hc.distinct, hfive]
  · rw [hkeys, mem_keys_rolesOf] at ha hb
    obtain ⟨a', ha', rfl⟩ := List.mem_map.1 ha
    obtain ⟨b', hb', rfl⟩ := List.mem_map.1 hb
    have : Std.Symm fun a b : ObjectGuid × UInt8 => v.hasIgnore a.1 b.1 = false :=
      ⟨fun a b h => v.hasIgnore_comm b.1 a.1 ▸ h⟩
    exact (hc.ignores hlen).forall ha' hb' fun he => hab (congrArg Prod.fst he)

/-! ## Moves -/

/-- What checks do, one at a time, while they look at guids in `among`: they forget a guid without data, remember a
verdict, and make a proposal. -/
inductive Move (v : LfgView) (among : ObjectGuid → Prop) : Matching → Matching → Prop
  | unknown {s : Matching} {guid : ObjectGuid} : among guid → s.queue.entryOf guid = none →
      Move v among s { s with queue := s.queue.removeFromQueue guid }
  | remember {s : Matching} {check : GuidList} {roles : LfgRolesMap} : (∀ guid ∈ check, among guid) →
      Move v among s (s.rememberCompatible check roles)
  | verdict {s : Matching} {check : GuidList} {c : LfgCompatibility} : (∀ guid ∈ check, among guid) →
      Move v among s (s.setCompatibles (concatenateGuids check) c)
  | propose {s : Matching} {check : GuidList} {roles : LfgRolesMap} {dungeons : LfgDungeonSet} {proposal : LfgProposal}
      {draws : Nat} : (∀ guid ∈ check, among guid) → Proposes v s check roles dungeons proposal →
      WellFormed v s.queue proposal → v.allQueued check = true →
      Move v among s
        { queue := LFGQueue.withdraw s.queue check
          proposalsStore := s.proposalsStore.insert (s.lfgProposalId + 1) proposal
          lfgProposalId := s.lfgProposalId + 1
          draws := draws }

abbrev Moves (v : LfgView) (among : ObjectGuid → Prop) : Matching → Matching → Prop :=
  Relation.ReflTransGen (Move v among)

variable {among : ObjectGuid → Prop} {s s' : Matching} {check : GuidList}

theorem Move.entryOf_eq (h : Move v among s s') : s'.queue.entryOf = s.queue.entryOf := by
  cases h with
  | unknown _ hnone =>
    funext other
    rw [entryOf_removeFromQueue]
    split
    next h => rw [h, hnone]
    next => rfl
  | remember => exact entryOf_rememberCompatible _ _ _
  | verdict => rfl
  | propose => rfl

theorem Moves.entryOf_eq (h : Moves v among s s') : s'.queue.entryOf = s.queue.entryOf := by
  induction h with
  | refl => rfl
  | tail _ hmove ih => exact hmove.entryOf_eq.trans ih

theorem Moves.joined (h : Moves v among s s') (hj : Joined s.queue) : Joined s'.queue := hj.congr h.entryOf_eq

theorem checkTogether_moves (hj : Joined s.queue) (hne : check ≠ []) (hm : ∀ guid ∈ check, among guid) :
    Moves v among s (checkTogether v check s).2 := by
  have h := @checkTogether_outcome v s check hj hne
  generalize checkTogether v check s = result at h
  cases h with
  | unknown hg hnone => exact .single (.unknown (hm _ hg) hnone)
  | single => exact .single (.remember hm)
  | incompatible => exact .single (.verdict hm)
  | few => exact .single (.remember hm)
  | badStates => exact .single (.verdict hm)
  | @proposed gathered roles dungeons hc hfive hqueued ha hd hin =>
    obtain ⟨proposal, draws, hp, heq⟩ := createProposal_eq v s check gathered roles hd
    rw [heq]
    exact (Relation.ReflTransGen.single (.propose hm hp (hp.wellFormed hj hne hc hfive ha hin) hqueued)).tail (.verdict hm)

/-- Every check of entries that have joined is made of moves. -/
theorem moves_kept (s : Matching) : Kept v among fun s' => Moves v among s s' ∧ Joined s'.queue where
  together hs hne hm := by
    have hmoves := checkTogether_moves (v := v) hs.2 hne hm
    exact ⟨hs.1.trans hmoves, hmoves.joined hs.2⟩
  noted hs _ hm _ := ⟨hs.1.tail (.verdict hm), hs.2⟩

theorem findNewGroups_moves {all : GuidList} (hj : Joined s.queue) (hc : ∀ guid ∈ check, among guid)
    (ha : ∀ guid ∈ all, among guid) : Moves v among s (findNewGroups v check all s).2.2.2 :=
  ((moves_kept s).findNewGroups ⟨.refl, hj⟩ hc ha).1

/-- Proposals that were not there before are well formed. -/
theorem Moves.wellFormed (h : Moves v among s s') {id : Nat} (hp : s'.proposalsStore.find? id = some proposal) :
    s.proposalsStore.find? id = some proposal ∨ WellFormed v s.queue proposal := by
  induction h with
  | refl => exact .inl hp
  | @tail s₁ s₂ hmoves hmove ih =>
    have hsame : s₁.queue.entryOf = s.queue.entryOf := Moves.entryOf_eq hmoves
    cases hmove with
    | unknown => exact ih hp
    | remember => exact ih hp
    | verdict => exact ih hp
    | propose hm hproposes hw hqueued =>
      rw [OMap.find?_insert] at hp
      split at hp
      · cases hp
        exact .inr (hw.congr hsame)
      · exact ih hp

/-! ## A sequence of calls -/

/-- A call of `FindNewGroups`, and the manager and the world at that time. -/
structure Call where
  view : LfgView
  check : GuidList
  all : GuidList

def runCalls (calls : List Call) (s : Matching) : Matching :=
  calls.foldl (fun s call => (findNewGroups call.view call.check call.all s).2.2.2) s

/-- **Every proposal that calls of `FindNewGroups` make is well formed,** whatever the queue holds and whatever they are
called with. -/
theorem runCalls_wellFormed (calls : List Call) : ∀ {s : Matching}, Joined s.queue → ∀ {id : Nat} {proposal : LfgProposal},
    (runCalls calls s).proposalsStore.find? id = some proposal →
    s.proposalsStore.find? id = some proposal ∨ ∃ call ∈ calls, WellFormed call.view s.queue proposal := by
  induction calls with
  | nil => exact fun _ _ _ h => .inl h
  | cons call calls ih =>
    intro s hj id proposal h
    have hmoves := @findNewGroups_moves call.view (fun _ => True) s call.check call.all hj
      (fun _ _ => trivial) fun _ _ => trivial
    rcases ih (hmoves.joined hj) h with h | ⟨other, hother, hw⟩
    · exact (hmoves.wellFormed h).imp_right fun hw => ⟨call, List.mem_cons_self, hw⟩
    · exact .inr ⟨other, List.mem_cons_of_mem _ hother, hw.congr hmoves.entryOf_eq⟩

/-- `Joined`, looked up entry by entry. -/
theorem Joined.of_entries {q : LFGQueue} (h : ∀ e ∈ q.queueDataStore.entries, 0 < e.2.roles.size ∧
    e.2.roles.size ≤ MAXGROUPSIZE ∧ e.2.dungeons ≠ [] ∧
      (e.2.roles.size = MAXGROUPSIZE → (checkGroupRoles e.2.roles).1 = true)) : Joined q := by
  intro guid roles dungeons he
  obtain ⟨data, hd, heq⟩ := Option.map_eq_some_iff.1 he
  cases heq
  exact h (guid, data) (OMap.mem_entries.2 hd)

/-- Everybody is queued and connected; 1 has 2 on his list. -/
def quietView : LfgView where
  getState _ := .queued
  getOldState _ := .none
  isLfgGroup _ := false
  connected _ := true
  ignores a b := a = 1 && b = 2
  gameTime := 0
  random _ := 0

/-- A tank, a healer and three for damage. -/
def fiveRoles : List (ObjectGuid × UInt8) := [(1, 2), (3, 4), (4, 8), (5, 8), (6, 8)]

def fiveQueued : Matching where
  queue := fiveRoles.foldl (fun q e => q.addQueueData e.1 0 [258] (OMap.empty.insert e.1 e.2)) .empty
  proposalsStore := .empty
  lfgProposalId := 0
  draws := 0

theorem runCalls_wellFormed_five : ∃ proposal,
    (runCalls [⟨quietView, [1], [3, 4, 5, 6]⟩] fiveQueued).proposalsStore.find? 1 = some proposal ∧
    WellFormed quietView fiveQueued.queue proposal := by
  have hsome : ((runCalls [⟨quietView, [1], [3, 4, 5, 6]⟩] fiveQueued).proposalsStore.find? 1).isSome := by
    decide
  obtain ⟨proposal, hp⟩ := Option.isSome_iff_exists.1 hsome
  have hj : Joined fiveQueued.queue := .of_entries (by decide)
  refine ⟨proposal, hp, ?_⟩
  rcases runCalls_wellFormed _ hj hp with h | ⟨call, hcall, hw⟩
  · cases h
  · rw [List.mem_singleton.1 hcall] at hw
    exact hw

/-- The guid of a group. -/
def premadeGuid : ObjectGuid := ObjectGuid.group 1

def premadeQueued : Matching where
  queue := LFGQueue.empty.addQueueData premadeGuid 0 [258]
    (OMap.empty.insertAll [(1, 2), (2, 4), (3, 8), (4, 8), (5, 8)])
  proposalsStore := .empty
  lfgProposalId := 0
  draws := 0

/-- A group of five is not searched for ignores. -/
theorem premade_ignores : Joined premadeQueued.queue ∧ premadeQueued.proposalsStore.find? 1 = none ∧
    ∃ proposal, (runCalls [⟨quietView, [premadeGuid], []⟩] premadeQueued).proposalsStore.find? 1 = some proposal ∧
      1 ∈ proposal.players.keys ∧ 2 ∈ proposal.players.keys ∧ quietView.hasIgnore 1 2 = true := by
  have hany : ((runCalls [⟨quietView, [premadeGuid], []⟩] premadeQueued).proposalsStore.find? 1).any
      (fun proposal => 1 ∈ proposal.players.keys ∧ 2 ∈ proposal.players.keys) = true := by
    decide
  obtain ⟨proposal, hp, hin⟩ := (Option.any_eq_true _ _).1 hany
  obtain ⟨h1, h2⟩ := of_decide_eq_true hin
  exact ⟨.of_entries (by decide), rfl, proposal, hp, h1, h2, by decide⟩

end Matching

end AtlasWow.Lfg
