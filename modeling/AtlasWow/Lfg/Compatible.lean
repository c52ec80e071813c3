/-
What goes together, said without the cache and the lists: entries are
`Compatible` if they have few enough players, all different, at most one formed
group, nobody who ignores another, an assignment of roles and a common dungeon.

`gather_spec` and `combine_several` are what the two parts of the check of all
entries at once come to.
-/
import AtlasWow.Lfg.Matching
import AtlasWow.Lib.UnorderedMap

namespace AtlasWow.Lfg

/-- Roles and dungeons of an entry: all that matching depends on. -/
def LFGQueue.entryOf (q : LFGQueue) (guid : ObjectGuid) : Option (LfgRolesMap × LfgDungeonSet) :=
  (q.queueDataStore.find? guid).map fun data => (data.roles, data.dungeons)

namespace Matching

/-- The players of some entries and their roles. -/
def rolesOf (q : LFGQueue) (check : GuidList) : LfgRolesMap := OMap.empty.insertAll (playersOf q check)

/-- Entries that go together; a match if there are enough players. Nobody looks for ignores in a single entry. -/
structure Compatible (v : LfgView) (q : LFGQueue) (check : GuidList) : Prop where
  few : (playersOf q check).length ≤ MAXGROUPSIZE
  distinct : ((playersOf q check).map Prod.fst).Nodup
  ignores : 1 < check.length → (playersOf q check).Pairwise fun a b => v.hasIgnore a.1 b.1 = false
  oneGroup : check.countP v.isLfgGroup ≤ 1
  roles : Assignable (rolesOf q check)
  dungeons : ∃ dungeon, ∀ guid ∈ check, dungeon ∈ (q.dataOf guid).dungeons

/-- The entries of a queue as they are when they join: up to five players, some dungeon, and five players only if they
can have their roles. -/
def Joined (q : LFGQueue) : Prop :=
  ∀ guid roles dungeons, q.entryOf guid = some (roles, dungeons) →
    0 < roles.size ∧ roles.size ≤ MAXGROUPSIZE ∧ dungeons ≠ [] ∧
      (roles.size = MAXGROUPSIZE → (checkGroupRoles roles).1 = true)

variable {v : LfgView} {q q' : LFGQueue} {check : GuidList}

/-! ## What depends on the entries only -/

theorem dataOf_congr (h : q'.entryOf = q.entryOf) (guid : ObjectGuid) :
    (q'.dataOf guid).roles = (q.dataOf guid).roles ∧ (q'.dataOf guid).dungeons = (q.dataOf guid).dungeons := by
  have h := congrFun h guid
  simp only [LFGQueue.entryOf] at h
  unfold LFGQueue.dataOf
  cases hq : q.queueDataStore.find? guid <;> cases hq' : q'.queueDataStore.find? guid <;> simp_all

theorem playersOf_congr (h : q'.entryOf = q.entryOf) (check : GuidList) : playersOf q' check = playersOf q check := by
  simp only [playersOf, (dataOf_congr h _).1]

theorem rolesOf_congr (h : q'.entryOf = q.entryOf) (check : GuidList) : rolesOf q' check = rolesOf q check := by
  simp only [rolesOf, playersOf_congr h]

theorem Joined.congr (h : q'.entryOf = q.entryOf) (hj : Joined q) : Joined q' := fun guid roles dungeons he =>
  hj guid roles dungeons (congrFun h guid ▸ he)

/-! ## The players of some entries -/

variable {guid player : ObjectGuid} {players : List (ObjectGuid × UInt8)}

theorem entryOf_eq {data : LfgQueueData} (h : q.queueDataStore.find? guid = some data) :
    q.entryOf guid = some (data.roles, data.dungeons) ∧ q.dataOf guid = data := by
  simp [LFGQueue.entryOf, LFGQueue.dataOf, h]

/-- All players are different from each other and from those in the map, and nobody ignores another. -/
structure Apart (v : LfgView) (m : LfgRolesMap) (players : List (ObjectGuid × UInt8)) : Prop where
  distinct : (players.map Prod.fst).Nodup
  ignores : players.Pairwise fun a b => v.hasIgnore a.1 b.1 = false
  fresh : ∀ p ∈ players, p.1 ∉ m.keys
  others : ∀ p ∈ players, ∀ guid ∈ m.keys, v.hasIgnore p.1 guid = false

theorem apart_cons {m : LfgRolesMap} {p : ObjectGuid × UInt8} :
    Apart v m (p :: players) ↔ p.1 ∉ m.keys ∧ (∀ guid ∈ m.keys, v.hasIgnore p.1 guid = false) ∧
      Apart v (m.insert p.1 p.2) players := by
  constructor
  · intro h
    obtain ⟨hp, hd⟩ := List.nodup_cons.1 h.distinct
    obtain ⟨hi, his⟩ := List.pairwise_cons.1 h.ignores
    refine ⟨h.fresh p List.mem_cons_self, h.others p List.mem_cons_self, hd, his, fun a ha => ?_, fun a ha guid hg => ?_⟩
    · rw [OMap.mem_keys_insert, not_or]
      exact ⟨fun he => hp (he ▸ List.mem_map_of_mem ha), h.fresh a (List.mem_cons_of_mem _ ha)⟩
    · rcases OMap.mem_keys_insert.1 hg with rfl | hg
      · rw [v.hasIgnore_comm]
        exact hi a ha
      · exact h.others a (List.mem_cons_of_mem _ ha) guid hg
  · intro h
    obtain ⟨hp, hi, h⟩ := h
    refine ⟨List.nodup_cons.2 ⟨fun hm => ?_, h.distinct⟩, List.pairwise_cons.2 ⟨fun a ha => ?_, h.ignores⟩,
      fun a ha => ?_, fun a ha guid hg => ?_⟩
    · obtain ⟨a, ha, he⟩ := List.mem_map.1 hm
      exact h.fresh a ha (OMap.mem_keys_insert.2 (.inl he))
    · rw [v.hasIgnore_comm]
      exact h.others a ha p.1 (OMap.mem_keys_insert.2 (.inl rfl))
    · rcases List.mem_cons.1 ha with rfl | ha
      · exact hp
      · exact fun hm => h.fresh a ha (OMap.mem_keys_insert.2 (.inr hm))
    · rcases List.mem_cons.1 ha with rfl | ha
      · exact hi guid hg
      · exact h.others a ha guid (OMap.mem_keys_insert.2 (.inr hg))

/-- The merged map has everybody in it exactly when all are apart. -/
theorem foldl_addPlayer (players : List (ObjectGuid × UInt8)) : ∀ m : LfgRolesMap,
    (players.foldl (addPlayer v) m).size ≤ m.size + players.length ∧
    ((players.foldl (addPlayer v) m).size = m.size + players.length ↔ Apart v m players) ∧
    (Apart v m players → players.foldl (addPlayer v) m = m.insertAll players) := by
  induction players with
  | nil =>
    intro m
    exact ⟨Nat.le_refl _, iff_of_true rfl ⟨List.nodup_nil, .nil, by simp, by simp⟩, fun _ => rfl⟩
  | cons p players ih =>
    intro m
    rw [List.foldl_cons, List.length_cons, apart_cons]
    obtain ⟨hle, hiff, heq⟩ := ih (addPlayer v m p)
    by_cases hkeep : p.1 ∉ m.keys ∧ ∀ guid ∈ m.keys, v.hasIgnore p.1 guid = false
    · have hadd : addPlayer v m p = m.insert p.1 p.2 := by
        refine if_neg fun hany => ?_
        obtain ⟨guid, hg, hi⟩ := List.any_eq_true.1 hany
        rw [hkeep.2 guid hg, Bool.and_false] at hi
        cases hi
      have hsize := OMap.size_insert_of_notMem hkeep.1 p.2
      rw [hadd] at hle hiff heq ⊢
      refine ⟨by omega, ?_, fun h => heq h.2.2⟩
      rw [← and_assoc, and_iff_right hkeep, ← hiff]
      omega
    -- he is turned down, or he is there already
    have hsize : (addPlayer v m p).size = m.size := by
      unfold addPlayer
      split
      next => rfl
      next hany =>
      refine OMap.size_insert (by_contra fun hp => hkeep ⟨hp, fun guid hg => ?_⟩) p.2
      by_contra hi
      exact hany (List.any_eq_true.2 ⟨guid, hg, by simp [show p.1 ≠ guid from fun he => hp (he ▸ hg), hi]⟩)
    exact ⟨by omega, iff_of_false (by omega) fun h => hkeep ⟨h.1, h.2.1⟩, fun h => absurd ⟨h.1, h.2.1⟩ hkeep⟩

theorem apart_empty : Apart v OMap.empty players ↔
    (players.map Prod.fst).Nodup ∧ players.Pairwise fun a b => v.hasIgnore a.1 b.1 = false :=
  ⟨fun h => ⟨h.distinct, h.ignores⟩, fun h => ⟨h.1, h.2, fun _ _ hm => (by cases hm), fun _ _ _ hm => (by cases hm)⟩⟩

/-- What merging the roles of some entries comes to. -/
theorem mergeRoles_spec (v : LfgView) (q : LFGQueue) (check : GuidList) :
    (mergeRoles v q check).size ≤ (playersOf q check).length ∧
    ((mergeRoles v q check).size = (playersOf q check).length ↔ Apart v OMap.empty (playersOf q check)) ∧
    (Apart v OMap.empty (playersOf q check) → mergeRoles v q check = rolesOf q check) := by
  have h := @foldl_addPlayer v (playersOf q check) OMap.empty
  rw [show (OMap.empty : LfgRolesMap).size = 0 from rfl, Nat.zero_add] at h
  exact h

/-- The roles of some entries, if nobody is in two of them. -/
theorem find?_rolesOf (h : ((playersOf q check).map Prod.fst).Nodup) {role : UInt8} :
    (rolesOf q check).find? player = some role ↔ (player, role) ∈ playersOf q check := by
  rw [rolesOf, OMap.find?_insertAll h, OMap.find?_empty, Option.or_none]
  exact UMap.lookup_eq_some h

theorem mem_keys_rolesOf : player ∈ (rolesOf q check).keys ↔ player ∈ (playersOf q check).map Prod.fst := by
  rw [rolesOf, OMap.mem_keys_insertAll]
  exact or_iff_left (fun h => by cases h)

theorem size_rolesOf (h : ((playersOf q check).map Prod.fst).Nodup) :
    (rolesOf q check).size = (playersOf q check).length := by
  have hperm := (List.perm_ext_iff_of_nodup (rolesOf q check).nodup_keys h).2 fun _ => mem_keys_rolesOf
  rw [← OMap.length_keys, hperm.length_eq, List.length_map]

/-! ## Fewer entries -/

/-- Who has a dungeon has data. -/
theorem Compatible.known (h : Compatible v q check) : ∀ guid ∈ check, ∃ e, q.entryOf guid = some e := by
  intro guid hg
  obtain ⟨dungeon, hd⟩ := h.dungeons
  have hd := hd guid hg
  unfold LFGQueue.entryOf
  unfold LFGQueue.dataOf at hd
  cases hfind : q.queueDataStore.find? guid with
  | none => rw [hfind] at hd; cases hd
  | some data => exact ⟨_, rfl⟩

theorem Joined.length_pos (hj : Joined q) {roles : LfgRolesMap} {dungeons : LfgDungeonSet}
    (h : q.entryOf guid = some (roles, dungeons)) : roles.keys ≠ [] := by
  intro hnil
  have := (hj guid roles dungeons h).1
  rw [← OMap.length_keys, hnil] at this
  exact absurd this (Nat.lt_irrefl 0)

/-- No entry is twice among entries that are apart. -/
theorem nodup_of_distinct (hj : Joined q) (he : ∀ guid ∈ check, ∃ e, q.entryOf guid = some e)
    (h : ((playersOf q check).map Prod.fst).Nodup) : check.Nodup := by
  induction check with
  | nil => exact List.nodup_nil
  | cons guid check ih =>
    have hsplit : (playersOf q (guid :: check)).map Prod.fst =
        (q.dataOf guid).roles.keys ++ (playersOf q check).map Prod.fst := by
      rw [playersOf, List.flatMap_cons, List.map_append]
      rfl
    rw [hsplit, List.nodup_append] at h
    refine List.nodup_cons.2 ⟨fun hmem => ?_, ih (fun g hg => he g (List.mem_cons_of_mem _ hg)) h.2.1⟩
    obtain ⟨⟨roles, dungeons⟩, hentry⟩ := he guid List.mem_cons_self
    have hroles : (q.dataOf guid).roles = roles := by
      obtain ⟨data, hd, heq⟩ := Option.map_eq_some_iff.1 hentry
      rw [(entryOf_eq hd).2]
      exact congrArg Prod.fst heq
    obtain ⟨player, hp⟩ := List.exists_mem_of_ne_nil _ (hj.length_pos hentry)
    rw [← hroles] at hp
    have hin : player ∈ (playersOf q check).map Prod.fst := by
      obtain ⟨e, hmem', rfl⟩ := List.mem_map.1 hp
      exact List.mem_map_of_mem (List.mem_flatMap.2 ⟨guid, hmem, hmem'⟩)
    exact h.2.2 player hp player hin rfl

/-! ## Counting -/

/-- The entries of a queue are small enough to be counted. -/
def Small (q : LFGQueue) : Prop := ∀ guid e, q.entryOf guid = some e → e.1.size ≤ MAXGROUPSIZE

theorem Joined.small (h : Joined q) : Small q := fun guid _ he => (h guid _ _ he).2.1

/-- The loop over the entries goes on. -/
def Gathered.Goes (acc : Gathered) : Prop := acc.numLfgGroups < 2 ∧ acc.numPlayers ≤ MAXGROUPSIZE

/-- Where `gather` ends: at an entry without data, or with counts that are exact unless there are too many. -/
theorem gather_spec (v : LfgView) (hs : Small q) (check : GuidList) : ∀ acc : Gathered,
    (∃ guid ∈ check, gather v q check acc = .error guid ∧ q.entryOf guid = none) ∨
    ∃ acc', gather v q check acc = .ok acc' ∧
      (acc'.Goes → (∀ guid ∈ check, ∃ e, q.entryOf guid = some e) ∧
        acc'.numPlayers = acc.numPlayers + (playersOf q check).length ∧
        acc'.numLfgGroups = acc.numLfgGroups + check.countP v.isLfgGroup) ∧
      (¬ acc'.Goes → ¬ (acc.numLfgGroups + check.countP v.isLfgGroup < 2 ∧
        acc.numPlayers + (playersOf q check).length ≤ MAXGROUPSIZE)) := by
  induction check with
  | nil => exact fun acc => .inr ⟨acc, rfl, fun _ => ⟨by simp, rfl, rfl⟩, fun h h' => h h'⟩
  | cons guid check ih =>
    intro acc
    unfold gather
    split
    next hgoes =>
      obtain ⟨hgroups, hplayers⟩ : acc.numLfgGroups < 2 ∧ acc.numPlayers ≤ MAXGROUPSIZE := by
        simpa [Bool.and_eq_true, decide_eq_true_eq] using hgoes
      cases hfind : q.queueDataStore.find? guid with
      | none => exact .inl ⟨guid, List.mem_cons_self, rfl, by rw [LFGQueue.entryOf, hfind, Option.map_none]⟩
      | some data =>
        obtain ⟨hentry, hdata⟩ := entryOf_eq hfind
        have hsize : data.roles.size ≤ 5 := hs guid _ hentry
        have hplayers : acc.numPlayers ≤ 5 := hplayers
        have hmod : (acc.numPlayers + data.roles.size) % 256 = acc.numPlayers + data.roles.size :=
          Nat.mod_eq_of_lt (by omega)
        have hlen : (playersOf q (guid :: check)).length = data.roles.size + (playersOf q check).length := by
          rw [playersOf, List.flatMap_cons, List.length_append, hdata]
          rfl
        have hcount : (guid :: check).countP v.isLfgGroup =
            check.countP v.isLfgGroup + if v.isLfgGroup guid then 1 else 0 := List.countP_cons
        simp only
        generalize hnext : Gathered.mk _ _ _ _ = next
        have hnp : next.numPlayers = acc.numPlayers + data.roles.size := by rw [← hnext]; exact hmod
        have hng : next.numLfgGroups = acc.numLfgGroups + if v.isLfgGroup guid then 1 else 0 := by
          rw [← hnext]
          simp only
          split <;> rfl
        rcases ih next with ⟨g, hg, hrun, hnone⟩ | ⟨acc', hrun, hexact, hmany⟩
        · exact .inl ⟨g, List.mem_cons_of_mem _ hg, hrun, hnone⟩
        refine .inr ⟨acc', hrun, fun h => ?_, fun h h' => hmany h ?_⟩
        · obtain ⟨hall, hp, hn⟩ := hexact h
          exact ⟨List.forall_mem_cons.2 ⟨⟨_, hentry⟩, hall⟩, by omega, by omega⟩
        · exact ⟨by omega, by omega⟩
    next hgoes =>
    have hgoes : ¬ acc.Goes := by
      simpa [Gathered.Goes, Bool.and_eq_true, decide_eq_true_eq] using hgoes
    refine .inr ⟨acc, rfl, fun h => absurd h hgoes, fun _ h => hgoes ⟨?_, ?_⟩⟩
    · exact Nat.lt_of_le_of_lt (Nat.le_add_right _ _) h.1
    · exact (Nat.le_add_right _ _).trans h.2

/-! ## Roles and dungeons -/

theorem mem_commonDungeons {dungeon : Nat} (hne : check ≠ []) :
    dungeon ∈ commonDungeons q check ↔ ∀ guid ∈ check, dungeon ∈ (q.dataOf guid).dungeons := by
  have hfold : ∀ (rest : GuidList) (dungeons : LfgDungeonSet),
      dungeon ∈ rest.foldl (fun dungeons guid => dungeons.filter (· ∈ (q.dataOf guid).dungeons)) dungeons ↔
        dungeon ∈ dungeons ∧ ∀ guid ∈ rest, dungeon ∈ (q.dataOf guid).dungeons := by
    intro rest
    induction rest with
    | nil => simp
    | cons guid rest ih =>
      intro dungeons
      rw [List.foldl_cons, ih, List.mem_filter, decide_eq_true_iff, List.forall_mem_cons, and_assoc]
  cases check with
  | nil => exact absurd rfl hne
  | cons guid check => rw [commonDungeons, hfold, List.forall_mem_cons]

theorem commonDungeons_ne_nil (hne : check ≠ []) : commonDungeons q check ≠ [] ↔
    ∃ dungeon, ∀ guid ∈ check, dungeon ∈ (q.dataOf guid).dungeons := by
  rw [ne_eq, List.eq_nil_iff_forall_not_mem, not_forall_not]
  exact exists_congr fun _ => mem_commonDungeons hne

theorem rolesOf_singleton (q : LFGQueue) (guid : ObjectGuid) : rolesOf q [guid] = (q.dataOf guid).roles := by
  rw [rolesOf, playersOf, List.flatMap_singleton, OMap.insertAll_entries]

/-- Entries have players. -/
theorem playersOf_pos (hj : Joined q) (hne : check ≠ []) (he : ∀ guid ∈ check, ∃ e, q.entryOf guid = some e) :
    0 < (playersOf q check).length := by
  cases check with
  | nil => exact absurd rfl hne
  | cons guid check =>
    obtain ⟨⟨roles, dungeons⟩, hentry⟩ := he guid List.mem_cons_self
    obtain ⟨data, hd, heq⟩ := Option.map_eq_some_iff.1 hentry
    have hpos := (hj guid _ _ hentry).1
    rw [playersOf, List.flatMap_cons, List.length_append, (entryOf_eq hd).2]
    exact Nat.lt_of_lt_of_le (by rw [show data.roles = roles from congrArg Prod.fst heq]; exact hpos) (Nat.le_add_right _ _)

/-- What `combine` answers for entries that are few enough. -/
inductive Combined (v : LfgView) (q : LFGQueue) (check : GuidList) :
    Except LfgCompatibility (LfgRolesMap × LfgDungeonSet) → Prop
  | incompatible {c : LfgCompatibility} : c.isIncompatible = true → c ≠ .pending → ¬ Compatible v q check →
      Combined v q check (.error c)
  | compatible {roles : LfgRolesMap} {dungeons : LfgDungeonSet} : Compatible v q check →
      Assignment (rolesOf q check) roles → dungeons ≠ [] →
      (∀ dungeon ∈ dungeons, ∀ guid ∈ check, dungeon ∈ (q.dataOf guid).dungeons) →
      Combined v q check (.ok (roles, dungeons))

theorem combine_several (hj : Joined q) (hlen : 1 < check.length) (he : ∀ guid ∈ check, ∃ e, q.entryOf guid = some e)
    (hfew : (playersOf q check).length ≤ MAXGROUPSIZE) (hgroups : check.countP v.isLfgGroup ≤ 1) :
    Combined v q check (combine v q check (playersOf q check).length) := by
  have hne : check ≠ [] := List.ne_nil_of_length_pos (by omega)
  have hfive : (playersOf q check).length ≤ 5 := hfew
  obtain ⟨hle, hiff, hmerge⟩ := mergeRoles_spec v q check
  unfold combine
  rw [if_pos hlen]
  simp only
  split
  next hsize =>
    refine .incompatible rfl (by decide) fun hc => ?_
    have := hiff.2 (apart_empty.2 ⟨hc.distinct, hc.ignores hlen⟩)
    omega
  next hsize =>
  have hapart := hiff.1 (by omega)
  rw [hmerge hapart]
  have hsz := size_rolesOf hapart.distinct
  have hpos := playersOf_pos hj hne he
  cases hroles : checkGroupRoles (rolesOf q check) with
  | mk found roles =>
  have hfound := checkGroupRoles_iff (show 0 < (rolesOf q check).size by omega) (by omega)
  rw [hroles] at hfound
  cases found with
  | false => exact .incompatible rfl (by decide) fun hc => absurd (hfound.2 hc.roles) (by simp)
  | true =>
    have hassign := checkGroupRoles_assigns (show 0 < (rolesOf q check).size by omega) (by omega)
      (by rw [hroles])
    rw [hroles] at hassign
    simp only [Bool.not_true, Bool.false_eq_true, if_false]
    split
    next hnone =>
      refine .incompatible rfl (by decide) fun hc => ?_
      exact (commonDungeons_ne_nil hne).2 hc.dungeons (List.isEmpty_iff.1 hnone)
    next hsome =>
    have hdungeons := fun h => hsome (List.isEmpty_iff.2 h)
    exact .compatible ⟨hfew, hapart.distinct, fun _ => hapart.ignores, hgroups, ⟨roles, hassign⟩,
      (commonDungeons_ne_nil hne).1 hdungeons⟩ hassign hdungeons fun d hd => (mem_commonDungeons hne).1 hd

/-- A single entry has been checked before joining. -/
theorem combine_single (hj : Joined q) {e : LfgRolesMap × LfgDungeonSet}
    (he : q.entryOf guid = some e) (hfive : (playersOf q [guid]).length = MAXGROUPSIZE)
    (hgroups : [guid].countP v.isLfgGroup ≤ 1) :
    Combined v q [guid] (combine v q [guid] (playersOf q [guid]).length) := by
  obtain ⟨data, hd, heq⟩ := Option.map_eq_some_iff.1 he
  have hdata := (entryOf_eq hd).2
  obtain ⟨-, -, hdungeons, hroles⟩ := hj guid data.roles data.dungeons (entryOf_eq hd).1
  have hplayers : playersOf q [guid] = data.roles.entries := by
    rw [playersOf, List.flatMap_singleton, hdata]
  have hsize : data.roles.size = 5 := by
    rw [hplayers] at hfive
    exact hfive
  have hassign := checkGroupRoles_assigns (by omega) (by omega) (hroles hsize)
  have hrolesOf : rolesOf q [guid] = data.roles := by rw [rolesOf_singleton, hdata]
  have hcombine : combine v q [guid] (playersOf q [guid]).length = .ok ((checkGroupRoles data.roles).2, data.dungeons) := by
    simp [combine, hdata]
  rw [hcombine]
  have hin : ∀ dungeon ∈ data.dungeons, ∀ g ∈ [guid], dungeon ∈ (q.dataOf g).dungeons := by
    intro dungeon hmem g hg
    rw [List.mem_singleton.1 hg, hdata]
    exact hmem
  obtain ⟨dungeon, hmem⟩ := List.exists_mem_of_ne_nil _ hdungeons
  refine .compatible ⟨hfive.le, ?_, fun h => absurd h (by simp), hgroups, ⟨_, hrolesOf ▸ hassign⟩, dungeon, hin dungeon hmem⟩
    (hrolesOf ▸ hassign) hdungeons hin
  rw [hplayers]
  exact data.roles.nodup_keys

end Matching

end AtlasWow.Lfg
