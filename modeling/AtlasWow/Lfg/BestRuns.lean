/-
Queue entries and their best combinations, over runs of the calls that a queue
gets. What is cached for a compatible key are the roles of the players in it
(`Cached.roles`), so an entry whose best combination is set while it is checked
knows it; one that looks for it in the cache does if the first of the longest
keys that mention its guid has it (`FindsOwn`).
-/
import AtlasWow.Lfg.BestCompatible
import AtlasWow.Lfg.WellFormed

namespace AtlasWow.Lfg

/-! ## Calls -/

inductive QueueCall where
  | addQueueData (guid : ObjectGuid) (joinTime : Nat) (dungeons : LfgDungeonSet) (rolesMap : LfgRolesMap)
      (few : rolesMap.size ≤ MAXGROUPSIZE)
  | addToQueue (guid : ObjectGuid)
  | removeFromQueue (guid : ObjectGuid)
  | findGroups (v : LfgView)
  | updateQueueTimers

namespace Matching

def applyCall (s : Matching) : QueueCall → Matching
  | .addQueueData guid joinTime dungeons rolesMap _ =>
    { s with queue := s.queue.addQueueData guid joinTime dungeons rolesMap }
  | .addToQueue guid => { s with queue := s.queue.addToQueue guid true }
  | .removeFromQueue guid => { s with queue := s.queue.removeFromQueue guid }
  | .findGroups v => s.findGroups v
  | .updateQueueTimers => { s with queue := s.queue.updateQueueTimers }

def empty : Matching := ⟨.empty, .empty, 0, 0⟩

end Matching

namespace LFGQueue

/-- The first of the longest keys that mention the guid has it. -/
def FindsOwn (q : LFGQueue) (guid : ObjectGuid) : Prop := ∀ e, IsLongest (q.candidates guid) e → e.1.Has guid

/-- An entry that is still queued is added with the roles it has, or before any combination with it is cached; and an entry
that looks for its best combination finds one of its own. -/
def Careful (q : LFGQueue) : QueueCall → Prop
  | .addQueueData guid _ _ rolesMap _ => ∀ data, q.queueDataStore.find? guid = some data →
      data.roles = rolesMap ∨ ∀ key ∈ q.compatibleMapStore.keys, ¬ key.Has guid
  | .removeFromQueue guid => ∀ other data, other ≠ guid → q.queueDataStore.find? other = some data →
      data.bestCompatible.mentions guid = true → (q.removeFromCompatibles guid).FindsOwn other
  | .updateQueueTimers => ∀ guid data, q.queueDataStore.find? guid = some data → data.bestCompatible = [] →
      q.FindsOwn guid
  | _ => True

/-- An entry that loses its best combination finds another one. -/
def Replaced (q : LFGQueue) : QueueCall → Prop
  | .removeFromQueue guid => ∀ other data, other ≠ guid → q.queueDataStore.find? other = some data →
      data.bestCompatible.mentions guid = true →
      ∃ e ∈ (q.removeFromCompatibles guid).candidates other, 0 < e.1.guids
  | _ => True

/-- No number occurs inside another one. -/
def Apart (q : LFGQueue) : Prop := ∀ guid ∈ q.queueDataStore.keys, ∀ key ∈ q.compatibleMapStore.keys,
  key.mentions guid = true → key.Has guid

instance (q : LFGQueue) : Decidable q.Apart := inferInstanceAs (Decidable (∀ _ ∈ _, ∀ _ ∈ _, _))

/-- Where numbers are apart, every removal is careful. -/
theorem Apart.careful_removeFromQueue {q : LFGQueue} (h : q.Apart) (guid : ObjectGuid) :
    q.Careful (.removeFromQueue guid) := by
  intro other data _ hdata _ e hlongest
  obtain ⟨hmem, hcandidate⟩ := List.mem_filter.1 hlongest.mem
  have hkey : e.1 ∈ q.compatibleMapStore.keys :=
    (OMap.mem_keys_filter.1 (OMap.mem_keys.2 ⟨e.2, OMap.mem_entries.1 hmem⟩)).2
  exact h other (OMap.mem_keys.2 ⟨data, hdata⟩) e.1 hkey (Bool.and_eq_true_iff.1 hcandidate).2

end LFGQueue

/-! ## What holds of a queue -/

variable {q q' : LFGQueue} {key : Key} {guid : ObjectGuid} {check : GuidList}

/-- The cache is about queued entries, and has the roles of the players in a compatible combination. -/
structure Cached (q : LFGQueue) : Prop where
  small : Matching.Small q
  listed : ∀ guid, guid ∈ q.newToQueueStore ∨ guid ∈ q.currentQueueStore → guid ∈ q.queueDataStore.keys
  known : ∀ key ∈ q.compatibleMapStore.keys, ∃ check, check ≠ [] ∧ key = concatenateGuids check ∧
    ∀ guid ∈ check, guid ∈ q.queueDataStore.keys
  roles : ∀ key cached, q.compatibleMapStore.find? key = some cached → cached.compatibility = .withLessPlayers →
    cached.roles = q.rolesIn key

/-- Every entry knows its best combination; if `fresh`, then one without any has all its counters. -/
structure Best (fresh : Prop) (q : LFGQueue) : Prop where
  knows : ∀ guid data, q.queueDataStore.find? guid = some data → data.bestCompatible = [] ∨ q.KnowsBest guid data
  fresh : fresh → ∀ guid data, q.queueDataStore.find? guid = some data → data.bestCompatible = [] →
    data.counters = neededLess .empty

theorem mem_keys_iff_entryOf : guid ∈ q.queueDataStore.keys ↔ q.entryOf guid ≠ none := by
  rw [LFGQueue.entryOf, ne_eq, Option.map_eq_none_iff, OMap.find?_eq_none, not_not]

/-- The roles of a combination are those of its entries. -/
theorem rolesIn_congr (hkeys : q'.members key = q.members key)
    (hroles : ∀ guid ∈ q.members key, (q'.dataOf guid).roles = (q.dataOf guid).roles) : q'.rolesIn key = q.rolesIn key := by
  have hplayers : Matching.playersOf q' (q.members key) = Matching.playersOf q (q.members key) := by
    rw [Matching.playersOf, Matching.playersOf]
    exact List.flatMap_congr fun guid hguid => by rw [hroles guid hguid]
  rw [LFGQueue.rolesIn, LFGQueue.rolesIn, hkeys, Matching.rolesOf, Matching.rolesOf, hplayers]

theorem members_congr (h : ∀ guid, key.Has guid → (guid ∈ q'.queueDataStore.keys ↔ guid ∈ q.queueDataStore.keys)) :
    q'.members key = q.members key := by
  refine OMap.keys_eq fun guid => ?_
  rw [OMap.mem_keys_filter, OMap.mem_keys_filter, decide_eq_true_eq]
  exact and_congr_right (h guid)

theorem rolesIn_of_entryOf (h : q'.entryOf = q.entryOf) (key : Key) : q'.rolesIn key = q.rolesIn key := by
  refine rolesIn_congr (members_congr fun guid _ => ?_) fun guid _ => (Matching.dataOf_congr h guid).1
  rw [mem_keys_iff_entryOf, mem_keys_iff_entryOf, h]

/-! ### What is noted for a key -/

theorem cached_setCompatibles (h : Cached q) (hne : check ≠ []) (hknown : ∀ guid ∈ check, guid ∈ q.queueDataStore.keys)
    {c : LfgCompatibility} (hc : c ≠ .withLessPlayers) : Cached (q.setCompatibles (concatenateGuids check) c) where
  small := h.small
  listed := h.listed
  known key hkey := by
    rcases OMap.mem_keys_insert.1 hkey with rfl | hkey
    · exact ⟨check, hne, rfl, hknown⟩
    · exact h.known key hkey
  roles key cached hcached hless := by
    rw [LFGQueue.setCompatibles, LFGQueue.setCompatibilityData] at hcached
    simp only [OMap.find?_insert] at hcached
    split at hcached
    · obtain rfl := Option.some.inj hcached
      exact absurd hless hc
    · exact h.roles key cached hcached hless

theorem best_setCompatibles {fresh : Prop} (h : Best fresh q) (key : Key) (c : LfgCompatibility) :
    Best fresh (q.setCompatibles key c) where
  knows guid data hdata := (h.knows guid data hdata).imp_right fun hknows =>
    ⟨OMap.mem_keys_insert.2 (.inr hknows.1), hknows.2⟩
  fresh := h.fresh

theorem small_congr (h : q'.entryOf = q.entryOf) (hs : Matching.Small q) : Matching.Small q' := fun guid e he =>
  hs guid e (congrFun h guid ▸ he)

variable {roles : LfgRolesMap} {data : LfgQueueData}

/-- The updates of some entries change each of them, or leave it. -/
theorem find?_foldl_update {data' : LfgQueueData} (check : GuidList) : ∀ {q : LFGQueue},
    (check.foldl (fun q guid => q.updateBestCompatibleInQueue guid key roles) q).queueDataStore.find? guid = some data' →
    ∃ data, q.queueDataStore.find? guid = some data ∧ (data' = data ∨ guid ∈ check ∧ data' = data.setBest key roles) := by
  induction check with
  | nil => exact fun hdata => ⟨data', hdata, .inl rfl⟩
  | cons guid₁ check ih =>
    intro q hdata
    rw [List.foldl_cons] at hdata
    obtain ⟨data₁, hdata₁, hchange⟩ := ih hdata
    have hfirst : ∃ data, q.queueDataStore.find? guid = some data ∧
        (data₁ = data ∨ guid = guid₁ ∧ data₁ = data.setBest key roles) := by
      unfold LFGQueue.updateBestCompatibleInQueue at hdata₁
      split at hdata₁
      next => exact ⟨data₁, hdata₁, .inl rfl⟩
      next data hsome =>
      simp only [OMap.find?_insert] at hdata₁
      split at hdata₁
      next heq =>
        refine ⟨data, heq ▸ hsome, ?_⟩
        rw [← Option.some.inj hdata₁, updateBestCompatible_eq]
        split
        · exact .inl rfl
        · exact .inr ⟨heq, rfl⟩
      next => exact ⟨data₁, hdata₁, .inl rfl⟩
    obtain ⟨data, hdata, hfirst⟩ := hfirst
    refine ⟨data, hdata, ?_⟩
    rcases hchange with rfl | ⟨hmem, rfl⟩
    · refine hfirst.imp_right fun ⟨heq, hset⟩ => ⟨?_, hset⟩
      rw [heq]
      exact List.mem_cons_self
    right
    refine ⟨List.mem_cons_of_mem _ hmem, ?_⟩
    rcases hfirst with rfl | ⟨-, rfl⟩ <;> rfl

theorem stores_foldl_update (check : GuidList) (key : Key) (roles : LfgRolesMap) (q : LFGQueue) :
    let q' := check.foldl (fun q guid => q.updateBestCompatibleInQueue guid key roles) q
    q'.compatibleMapStore = q.compatibleMapStore ∧ q'.newToQueueStore = q.newToQueueStore ∧
      q'.currentQueueStore = q.currentQueueStore := by
  have hkeeps := Matching.foldl_keeps
    (fun q : LFGQueue => (q.compatibleMapStore, q.newToQueueStore, q.currentQueueStore))
    (f := fun q guid => q.updateBestCompatibleInQueue guid key roles)
    (fun q guid => by unfold LFGQueue.updateBestCompatibleInQueue; split <;> rfl) check q
  obtain ⟨hcompatible, hrest⟩ := Prod.mk.inj hkeeps
  exact ⟨hcompatible, Prod.mk.inj hrest⟩

/-- Compatible entries are noted with the roles of their players. -/
theorem cached_remember {s : Matching} (h : Cached s.queue) (hne : check ≠ [])
    (hknown : ∀ guid ∈ check, guid ∈ s.queue.queueDataStore.keys)
    (hroles : roles = s.queue.rolesIn (concatenateGuids check)) : Cached (s.rememberCompatible check roles).queue := by
  have hentry := Matching.entryOf_rememberCompatible s check roles
  have hkeys : ∀ guid, guid ∈ (s.rememberCompatible check roles).queue.queueDataStore.keys ↔
      guid ∈ s.queue.queueDataStore.keys := fun guid => by rw [mem_keys_iff_entryOf, mem_keys_iff_entryOf, hentry]
  obtain ⟨hcompatible, hnew, hcurrent⟩ := stores_foldl_update check (concatenateGuids check) roles s.queue
  have hstore : (s.rememberCompatible check roles).queue.compatibleMapStore =
      s.queue.compatibleMapStore.insert (concatenateGuids check) ⟨.withLessPlayers, roles⟩ :=
    congrArg (·.insert (concatenateGuids check) ⟨.withLessPlayers, roles⟩) hcompatible
  constructor
  · exact small_congr hentry h.small
  · intro guid hguid
    rw [hkeys]
    exact h.listed guid (by rwa [← hnew, ← hcurrent])
  · intro key hkey
    rw [hstore] at hkey
    rcases OMap.mem_keys_insert.1 hkey with rfl | hkey
    · exact ⟨check, hne, rfl, fun guid hguid => (hkeys guid).2 (hknown guid hguid)⟩
    · obtain ⟨check', hne', rfl, hknown'⟩ := h.known key hkey
      exact ⟨check', hne', rfl, fun guid hguid => (hkeys guid).2 (hknown' guid hguid)⟩
  · intro key cached hcached hless
    rw [hstore, OMap.find?_insert] at hcached
    rw [rolesIn_of_entryOf hentry]
    split at hcached
    next heq => rw [← Option.some.inj hcached, heq, ← hroles]
    next => exact h.roles key cached hcached hless

/-- Whoever is checked with others knows the best combination after it. -/
theorem best_remember {fresh : Prop} {s : Matching} (h : Best fresh s.queue) (hne : check ≠ [])
    (hroles : roles = s.queue.rolesIn (concatenateGuids check)) :
    Best fresh (s.rememberCompatible check roles).queue := by
  have hentry := Matching.entryOf_rememberCompatible s check roles
  obtain ⟨hcompatible, -⟩ := stores_foldl_update check (concatenateGuids check) roles s.queue
  have hstore : (s.rememberCompatible check roles).queue.compatibleMapStore =
      s.queue.compatibleMapStore.insert (concatenateGuids check) ⟨.withLessPlayers, roles⟩ :=
    congrArg (·.insert (concatenateGuids check) ⟨.withLessPlayers, roles⟩) hcompatible
  constructor
  · intro guid data' hdata'
    obtain ⟨data, hdata, rfl | ⟨hmem, rfl⟩⟩ := find?_foldl_update check hdata'
    · refine (h.knows guid data' hdata).imp_right fun hknows => ⟨?_, hknows.2.1, ?_⟩
      · rw [hstore]
        exact OMap.mem_keys_insert.2 (.inr hknows.1)
      · rw [rolesIn_of_entryOf hentry]
        exact hknows.2.2
    · right
      refine ⟨?_, (has_concatenateGuids hne).2 hmem, ?_⟩
      · rw [hstore]
        exact OMap.mem_keys_insert.2 (.inl rfl)
      · rw [rolesIn_of_entryOf hentry, counters_setBest, bestCompatible_setBest, hroles]
  · intro hfresh guid data' hdata' hnone
    obtain ⟨data, hdata, rfl | ⟨hmem, rfl⟩⟩ := find?_foldl_update check hdata'
    · exact h.fresh hfresh guid data' hdata hnone
    · exact absurd hnone (ne_nil_of_mentions ((has_concatenateGuids hne).2 hmem).mentions)

/-! ### Checks -/

namespace Matching

variable {v : LfgView}

theorem keys_playersOf (q : LFGQueue) (check : GuidList) :
    (playersOf q check).map Prod.fst = check.flatMap fun guid => (q.dataOf guid).roles.keys := by
  rw [playersOf, List.map_flatMap]
  rfl

/-- The roles of entries that share no player do not depend on their order. -/
theorem rolesOf_guidSet (h : ((playersOf q check).map Prod.fst).Nodup) : rolesOf q (guidSet check) = rolesOf q check := by
  have hset : ((playersOf q (guidSet check)).map Prod.fst).Nodup := by
    rw [keys_playersOf, List.nodup_flatMap] at h ⊢
    refine ⟨fun guid hguid => h.1 guid (mem_guidSet.1 hguid), ?_⟩
    have : Std.Symm fun a b : ObjectGuid => ((q.dataOf a).roles.keys).Disjoint (q.dataOf b).roles.keys :=
      ⟨fun _ _ hd => hd.symm⟩
    exact (OMap.nodup_keys _).pairwise_of_forall_ne fun a ha b hb hab =>
      h.2.forall (mem_guidSet.1 ha) (mem_guidSet.1 hb) hab
  refine OMap.ext fun player => Option.ext fun role => ?_
  rw [find?_rolesOf hset, find?_rolesOf h, playersOf, playersOf, List.mem_flatMap, List.mem_flatMap]
  simp only [mem_guidSet]

theorem rolesIn_concatenateGuids (hne : check ≠ []) (hknown : ∀ guid ∈ check, guid ∈ q.queueDataStore.keys)
    (h : ((playersOf q check).map Prod.fst).Nodup) :
    q.rolesIn (concatenateGuids check) = (checkGroupRoles (rolesOf q check)).2 := by
  rw [LFGQueue.rolesIn, members_concatenateGuids hne hknown, rolesOf_guidSet h]

/-- What keeps entries apart is no compatibility. -/
theorem combine_error {numPlayers : Nat} {c : LfgCompatibility} (h : combine v q check numPlayers = .error c) :
    c ≠ .withLessPlayers := by
  unfold combine at h
  split at h
  · simp only at h
    split at h
    · cases h; decide
    split at h
    · cases h; decide
    split at h
    · cases h; decide
    · exact nomatch h
  · exact nomatch h

/-- The roles that several entries are given together. -/
theorem combine_ok (hlen : 1 < check.length) (hfew : (playersOf q check).length ≤ MAXGROUPSIZE)
    {dungeons : LfgDungeonSet} (h : combine v q check (playersOf q check).length = .ok (roles, dungeons)) :
    ((playersOf q check).map Prod.fst).Nodup ∧ roles = (checkGroupRoles (rolesOf q check)).2 := by
  have hfive : (playersOf q check).length ≤ 5 := hfew
  obtain ⟨hle, hiff, hmerge⟩ := mergeRoles_spec v q check
  unfold combine at h
  rw [if_pos hlen] at h
  simp only at h
  split at h
  · exact nomatch h
  next hsize =>
  have hapart := hiff.1 (by omega)
  split at h
  · exact nomatch h
  split at h
  · exact nomatch h
  · cases h
    exact ⟨hapart.distinct, by rw [hmerge hapart]⟩

theorem queue_createProposal (v : LfgView) (s : Matching) (check : GuidList) (gathered : Gathered) (roles : LfgRolesMap)
    (dungeons : LfgDungeonSet) : (s.createProposal v check gathered roles dungeons).queue = LFGQueue.withdraw s.queue check := by
  obtain ⟨draws, hleader⟩ := selectLeader_draws v roles.entries .Empty false (s.selectDungeon v dungeons).2
  unfold createProposal addProposal
  simp only [hleader, foldl_withdraw]
  rfl

/-- What a check of known entries leaves behind. -/
inductive Noted (s : Matching) (check : GuidList) : Matching → Prop
  | verdict {c : LfgCompatibility} : c ≠ .withLessPlayers → Noted s check (s.setCompatibles (concatenateGuids check) c)
  | remember {roles : LfgRolesMap} : roles = s.queue.rolesIn (concatenateGuids check) →
      Noted s check (s.rememberCompatible check roles)
  | proposed {s' : Matching} : s'.queue = LFGQueue.withdraw s.queue check →
      Noted s check (s'.setCompatibles (concatenateGuids check) .match)

theorem checkTogether_noted {s : Matching} (hsmall : Small s.queue) (hne : check ≠ [])
    (hknown : ∀ guid ∈ check, guid ∈ s.queue.queueDataStore.keys) : Noted s check (checkTogether v check s).2 := by
  unfold checkTogether
  simp only
  rcases gather_spec v hsmall check ⟨.empty, 0, 0, .Empty⟩ with ⟨guid, hguid, -, hnone⟩ | ⟨gathered, hrun, hexact, -⟩
  · exact absurd hnone (mem_keys_iff_entryOf.1 (hknown guid hguid))
  rw [hrun]
  simp only [Nat.zero_add] at hexact ⊢
  split
  next hsingle =>
    obtain ⟨guid, rfl⟩ := List.length_eq_one_iff.1 (of_decide_eq_true (Bool.and_eq_true_iff.1 hsingle).1)
    refine .remember ?_
    rw [rolesIn_concatenateGuids hne hknown, rolesOf_singleton]
    · rfl
    · rw [keys_playersOf, List.flatMap_singleton]
      exact OMap.nodup_keys _
  next hsingle =>
  split
  · exact .verdict (by decide)
  split
  · exact .verdict (by decide)
  next hgroups hplayers =>
  obtain ⟨-, hcount, -⟩ := hexact ⟨by omega, Nat.le_of_not_lt hplayers⟩
  cases hcomb : combine v s.queue check gathered.numPlayers with
  | error c => exact .verdict (combine_error hcomb)
  | ok result =>
    obtain ⟨roles, dungeons⟩ := result
    simp only
    split
    next hfew =>
      have hlen : 1 < check.length := by
        have hpos := List.length_pos_of_ne_nil hne
        have hone : check.length ≠ 1 := fun hone => hsingle (by simp [hone, hfew])
        omega
      rw [hcount] at hcomb hplayers
      obtain ⟨hnodup, hroles⟩ := combine_ok hlen (Nat.le_of_not_lt hplayers) hcomb
      exact .remember (hroles.trans (rolesIn_concatenateGuids hne hknown hnodup).symm)
    next =>
    split
    · exact .verdict (by decide)
    · exact .proposed (queue_createProposal v s check gathered roles dungeons)

end Matching

/-! ### Calls -/

/-- Both lists may change, as long as those in them have data. -/
theorem Cached.lists (h : Cached q) (hdata : q'.queueDataStore = q.queueDataStore)
    (hcompatible : q'.compatibleMapStore = q.compatibleMapStore)
    (hlisted : ∀ guid, guid ∈ q'.newToQueueStore ∨ guid ∈ q'.currentQueueStore → guid ∈ q.queueDataStore.keys) :
    Cached q' := by
  have hentry : q'.entryOf = q.entryOf := by
    funext guid
    rw [LFGQueue.entryOf, LFGQueue.entryOf, hdata]
  constructor
  · exact small_congr hentry h.small
  · rw [hdata]
    exact hlisted
  · rw [hdata, hcompatible]
    exact h.known
  · intro key cached hcached hless
    rw [rolesIn_of_entryOf hentry]
    exact h.roles key cached (hcompatible ▸ hcached) hless

theorem Best.lists {fresh : Prop} (h : Best fresh q) (hdata : q'.queueDataStore = q.queueDataStore)
    (hcompatible : q'.compatibleMapStore = q.compatibleMapStore) : Best fresh q' := by
  have hentry : q'.entryOf = q.entryOf := by
    funext guid
    rw [LFGQueue.entryOf, LFGQueue.entryOf, hdata]
  constructor
  · rw [hdata]
    intro guid data hfind
    rw [LFGQueue.KnowsBest, hcompatible, rolesIn_of_entryOf hentry]
    exact h.knows guid data hfind
  · rw [hdata]
    exact h.fresh

namespace Matching

variable {v : LfgView} {fresh : Prop} {s : Matching}

/-- Checks of queued entries keep what holds of the queue. -/
theorem best_kept (v : LfgView) (fresh : Prop) (s₀ : Matching) :
    Kept v (· ∈ s₀.queue.queueDataStore.keys) fun s =>
      Cached s.queue ∧ Best fresh s.queue ∧ s.queue.entryOf = s₀.queue.entryOf := by
  have hkeys : ∀ {s : Matching}, s.queue.entryOf = s₀.queue.entryOf → ∀ guid,
      guid ∈ s₀.queue.queueDataStore.keys → guid ∈ s.queue.queueDataStore.keys := by
    intro s hentry guid
    rw [mem_keys_iff_entryOf, mem_keys_iff_entryOf, hentry]
    exact id
  constructor
  · rintro s check ⟨hcached, hbest, hentry⟩ hne hm
    have hknown : ∀ guid ∈ check, guid ∈ s.queue.queueDataStore.keys := fun guid hguid => hkeys hentry guid (hm guid hguid)
    have hnoted := checkTogether_noted (v := v) hcached.small hne hknown
    generalize (checkTogether v check s).2 = s' at hnoted
    cases hnoted with
    | verdict hc => exact ⟨cached_setCompatibles hcached hne hknown hc, best_setCompatibles hbest _ _, hentry⟩
    | remember hroles =>
      exact ⟨cached_remember hcached hne hknown hroles, best_remember hbest hne hroles,
        (entryOf_rememberCompatible s check _).trans hentry⟩
    | @proposed s' hqueue =>
      have hcached' : Cached s'.queue := by
        rw [hqueue]
        refine hcached.lists rfl rfl fun guid hguid => hcached.listed guid ?_
        exact hguid.imp (fun hmem => (List.mem_filter.1 hmem).1) fun hmem => (List.mem_filter.1 hmem).1
      have hbest' : Best fresh s'.queue := by
        rw [hqueue]
        exact hbest.lists rfl rfl
      have hentry' : s'.queue.entryOf = s₀.queue.entryOf := by rw [hqueue, ← hentry]; rfl
      exact ⟨cached_setCompatibles hcached' hne (fun guid hguid => hkeys hentry' guid (hm guid hguid)) (by decide),
        best_setCompatibles hbest' _ _, hentry'⟩
  · rintro s check c ⟨hcached, hbest, hentry⟩ hne hm hc
    exact ⟨cached_setCompatibles hcached hne (fun guid hguid => hkeys hentry guid (hm guid hguid)) hc,
      best_setCompatibles hbest _ _, hentry⟩

theorem findGroupsRound_best (hcached : Cached s.queue) (hbest : Best fresh s.queue) {front : ObjectGuid}
    (hfront : front ∈ s.queue.queueDataStore.keys) :
    Cached (findGroupsRound v front s).2.queue ∧ Best fresh (findGroupsRound v front s).2.queue := by
  obtain ⟨s₁, hs₁⟩ : ∃ s₁, s₁ = { s with queue := s.queue.removeFromNewQueue front } := ⟨_, rfl⟩
  have hcached₁ : Cached s₁.queue := by
    rw [hs₁]
    exact hcached.lists rfl rfl fun guid hguid => hcached.listed guid (hguid.imp_left fun hmem => (List.mem_filter.1 hmem).1)
  have hbest₁ : Best fresh s₁.queue := by
    rw [hs₁]
    exact hbest.lists rfl rfl
  have hfront₁ : ∀ guid ∈ [front], guid ∈ s₁.queue.queueDataStore.keys := fun guid hguid => by
    rw [List.mem_singleton.1 hguid, hs₁]
    exact hfront
  obtain ⟨hcached₂, hbest₂, hentry⟩ := (best_kept v fresh s₁).findNewGroups ⟨hcached₁, hbest₁, rfl⟩ hfront₁
    fun guid hguid => hcached₁.listed guid (.inr hguid)
  have hcurrent : s₁.queue.currentQueueStore = (s.queue.removeFromNewQueue front).currentQueueStore := by rw [hs₁]
  unfold findGroupsRound
  simp only
  rw [← hs₁, ← hcurrent]
  generalize findNewGroups v [front] s₁.queue.currentQueueStore s₁ = result at hcached₂ hbest₂ hentry ⊢
  obtain ⟨compatibles, check, all, s₂⟩ := result
  have hfront₂ : front ∈ s₂.queue.queueDataStore.keys := by
    rw [mem_keys_iff_entryOf, hentry, ← mem_keys_iff_entryOf]
    exact hfront₁ front List.mem_cons_self
  split
  · exact ⟨hcached₂, hbest₂⟩
  refine ⟨hcached₂.lists rfl rfl fun guid hguid => ?_, hbest₂.lists rfl rfl⟩
  rcases hguid with hnew | hcurrent
  · exact hcached₂.listed guid (.inl hnew)
  rcases List.mem_append.1 hcurrent with hcurrent | hmem
  · exact hcached₂.listed guid (.inr hcurrent)
  · rw [List.mem_singleton.1 hmem]
    exact hfront₂

theorem findGroupsLoop_best (n : Nat) : ∀ {s : Matching}, Cached s.queue → Best fresh s.queue →
    Cached (findGroupsLoop v n s).queue ∧ Best fresh (findGroupsLoop v n s).queue := by
  induction n with
  | zero => exact fun hcached hbest => ⟨hcached, hbest⟩
  | succ n ih =>
    intro s hcached hbest
    unfold findGroupsLoop
    split
    · exact ⟨hcached, hbest⟩
    next front rest hnew =>
    have hfront : front ∈ s.queue.queueDataStore.keys := hcached.listed front (.inl (hnew ▸ List.mem_cons_self))
    obtain ⟨hcached', hbest'⟩ := findGroupsRound_best (v := v) hcached hbest hfront
    exact ih hcached' hbest'

end Matching

/-- What does not change a guid's data does not change its roles. -/
theorem roles_dataOf (h : q'.entryOf guid = q.entryOf guid) : (q'.dataOf guid).roles = (q.dataOf guid).roles := by
  rw [LFGQueue.entryOf, LFGQueue.entryOf] at h
  rw [LFGQueue.dataOf, LFGQueue.dataOf]
  cases hq : q.queueDataStore.find? guid <;> cases hq' : q'.queueDataStore.find? guid <;> rw [hq, hq'] at h
  · cases h
  · cases h
  · exact (Prod.mk.inj (Option.some.inj h)).1

/-- The roles in a combination depend on its entries only. -/
theorem rolesIn_of_has (h : ∀ guid, key.Has guid → q'.entryOf guid = q.entryOf guid) : q'.rolesIn key = q.rolesIn key := by
  refine rolesIn_congr (members_congr fun guid hguid => ?_) fun guid hguid => roles_dataOf (h guid ?_)
  · rw [mem_keys_iff_entryOf, mem_keys_iff_entryOf, h guid hguid]
  · exact of_decide_eq_true (OMap.mem_keys_filter.1 hguid).1

/-- The guids of a cached key are queued. -/
theorem Cached.mem_keys (h : Cached q) (hkey : key ∈ q.compatibleMapStore.keys) (hguid : key.Has guid) :
    guid ∈ q.queueDataStore.keys := by
  obtain ⟨check, hne, rfl, hknown⟩ := h.known key hkey
  exact hknown guid ((has_concatenateGuids hne).1 hguid)

section add

variable {joinTime : Nat} {dungeons : LfgDungeonSet} {rolesMap : LfgRolesMap} {few : rolesMap.size ≤ MAXGROUPSIZE}
  {fresh : Prop}

theorem addQueueData_eq (q : LFGQueue) (guid : ObjectGuid) (joinTime : Nat) (dungeons : LfgDungeonSet)
    (rolesMap : LfgRolesMap) : q.addQueueData guid joinTime dungeons rolesMap =
      { q with
        queueDataStore := q.queueDataStore.insert guid (.make joinTime dungeons rolesMap)
        newToQueueStore := q.newToQueueStore ++ [guid] } := by
  rw [LFGQueue.addQueueData, LFGQueue.addToQueue]
  simp only [OMap.find?_insert_self]
  rfl

/-- An addition changes no combination that is cached. -/
theorem rolesIn_addQueueData (hcached : Cached q) (hcareful : q.Careful (.addQueueData guid joinTime dungeons rolesMap few))
    (hkey : key ∈ q.compatibleMapStore.keys) :
    (q.addQueueData guid joinTime dungeons rolesMap).rolesIn key = q.rolesIn key := by
  rw [addQueueData_eq]
  have hroles : key.Has guid → ∃ data, q.queueDataStore.find? guid = some data ∧ data.roles = rolesMap := by
    intro hguid
    obtain ⟨data, hdata⟩ := OMap.mem_keys.1 (hcached.mem_keys hkey hguid)
    exact ⟨data, hdata, (hcareful data hdata).resolve_right fun hnot => hnot key hkey hguid⟩
  refine rolesIn_congr (members_congr fun other hother => ?_) fun other hother => ?_
  · rw [OMap.mem_keys_insert]
    exact or_iff_right_of_imp fun heq => hcached.mem_keys hkey (heq ▸ hother)
  · have hhas : key.Has other := of_decide_eq_true (OMap.mem_keys_filter.1 hother).1
    rw [LFGQueue.dataOf, LFGQueue.dataOf, OMap.find?_insert]
    split
    next heq =>
      obtain ⟨data, hdata, hsame⟩ := hroles (heq ▸ hhas)
      rw [heq, hdata, Option.getD_some, Option.getD_some, hsame]
      rfl
    next => rfl

theorem cached_addQueueData (h : Cached q) (hcareful : q.Careful (.addQueueData guid joinTime dungeons rolesMap few)) :
    Cached (q.addQueueData guid joinTime dungeons rolesMap) := by
  have hrolesIn : ∀ key ∈ q.compatibleMapStore.keys,
      (q.addQueueData guid joinTime dungeons rolesMap).rolesIn key = q.rolesIn key := fun key hkey =>
    rolesIn_addQueueData h hcareful hkey
  rw [addQueueData_eq] at hrolesIn ⊢
  constructor
  · intro other e he
    rw [LFGQueue.entryOf, OMap.find?_insert] at he
    split at he
    · obtain rfl := Option.some.inj he
      exact few
    · exact h.small other e he
  · intro other hother
    rw [OMap.mem_keys_insert]
    rcases hother with hnew | hcurrent
    · rcases List.mem_append.1 hnew with hnew | hmem
      · exact .inr (h.listed other (.inl hnew))
      · exact .inl (List.mem_singleton.1 hmem)
    · exact .inr (h.listed other (.inr hcurrent))
  · intro key hkey
    obtain ⟨check, hne, rfl, hknown⟩ := h.known key hkey
    exact ⟨check, hne, rfl, fun other hother => OMap.mem_keys_insert.2 (.inr (hknown other hother))⟩
  · intro key cached hcached hless
    rw [hrolesIn key (OMap.mem_keys.2 ⟨cached, hcached⟩)]
    exact h.roles key cached hcached hless

theorem best_addQueueData (hcached : Cached q) (h : Best fresh q)
    (hcareful : q.Careful (.addQueueData guid joinTime dungeons rolesMap few)) :
    Best fresh (q.addQueueData guid joinTime dungeons rolesMap) := by
  have hrolesIn : ∀ key ∈ q.compatibleMapStore.keys,
      (q.addQueueData guid joinTime dungeons rolesMap).rolesIn key = q.rolesIn key := fun key hkey =>
    rolesIn_addQueueData hcached hcareful hkey
  rw [addQueueData_eq] at hrolesIn ⊢
  constructor
  · intro other data hdata
    rw [OMap.find?_insert] at hdata
    split at hdata
    · obtain rfl := Option.some.inj hdata
      exact .inl rfl
    refine (h.knows other data hdata).imp_right fun hknows => ⟨hknows.1, hknows.2.1, ?_⟩
    rw [hrolesIn _ hknows.1]
    exact hknows.2.2
  · intro hfresh other data hdata hnone
    rw [OMap.find?_insert] at hdata
    split at hdata
    · obtain rfl := Option.some.inj hdata
      rfl
    · exact h.fresh hfresh other data hdata hnone

end add

/-- A best combination that is found in the cache is known, if it is the entry's own. -/
theorem knows_found (hcached : Cached q') (hcompatible : q'.compatibleMapStore = q.compatibleMapStore)
    (hown : q.FindsOwn guid) (hnone : data.bestCompatible = []) :
    (q.findBestCompatible guid data).bestCompatible = [] ∨ q'.KnowsBest guid (q.findBestCompatible guid data) := by
  rcases findBestCompatible_spec q guid hnone with ⟨-, hsame⟩ | ⟨⟨key, cached⟩, hlongest, hset⟩
  · rw [hsame]
    exact .inl hnone
  right
  obtain ⟨hmem, hless⟩ := List.mem_filter.1 hlongest.mem
  have hfind : q'.compatibleMapStore.find? key = some cached := hcompatible ▸ OMap.mem_entries.1 hmem
  rw [hset]
  refine ⟨OMap.mem_keys.2 ⟨cached, hfind⟩, hown _ hlongest, ?_⟩
  rw [counters_setBest, bestCompatible_setBest,
    hcached.roles key cached hfind (of_decide_eq_true (Bool.and_eq_true_iff.1 hless).1)]

/-- Whoever finds nothing has no key to find, and stays as it is. -/
theorem findBestCompatible_none (hnone : data.bestCompatible = [])
    (h : (q.findBestCompatible guid data).bestCompatible = []) :
    (∀ e ∈ q.candidates guid, e.1.guids = 0) ∧ q.findBestCompatible guid data = data := by
  rcases findBestCompatible_spec q guid hnone with hsame | ⟨e, hlongest, hset⟩
  · exact hsame
  · rw [hset, bestCompatible_setBest] at h
    exact absurd h (ne_nil_of_candidate hlongest.mem)

section remove

variable {fresh : Prop}

theorem mem_keys_removeFromQueue {other : ObjectGuid} :
    other ∈ (q.removeFromQueue guid).queueDataStore.keys ↔ other ≠ guid ∧ other ∈ q.queueDataStore.keys := by
  rw [mem_keys_iff_entryOf, mem_keys_iff_entryOf, Matching.entryOf_removeFromQueue]
  split
  next heq => simp [heq]
  next hne => simp [hne]

theorem mem_cache_removeFromQueue : key ∈ (q.removeFromQueue guid).compatibleMapStore.keys ↔
    key.mentions guid = false ∧ key ∈ q.compatibleMapStore.keys := by
  rw [LFGQueue.removeFromQueue, LFGQueue.removeFromCompatibles]
  simp only [OMap.mem_keys_filter, Bool.not_eq_true']
  rfl

/-- A combination without the entry stays as it is. -/
theorem rolesIn_removeFromQueue (h : key.mentions guid = false) : (q.removeFromQueue guid).rolesIn key = q.rolesIn key := by
  refine rolesIn_of_has fun other hother => ?_
  rw [Matching.entryOf_removeFromQueue, if_neg]
  rintro rfl
  exact absurd hother.mentions (by simp [h])

theorem cached_removeFromQueue (h : Cached q) (guid : ObjectGuid) : Cached (q.removeFromQueue guid) := by
  constructor
  · intro other e he
    rw [Matching.entryOf_removeFromQueue] at he
    split at he
    · exact nomatch he
    · exact h.small other e he
  · intro other hother
    have hlists : other ≠ guid ∧ (other ∈ q.newToQueueStore ∨ other ∈ q.currentQueueStore) := by
      rcases hother with hmem | hmem <;> obtain ⟨hmem, hne⟩ := List.mem_filter.1 hmem
      · exact ⟨of_decide_eq_true hne, .inl hmem⟩
      · exact ⟨of_decide_eq_true hne, .inr hmem⟩
    exact mem_keys_removeFromQueue.2 ⟨hlists.1, h.listed other hlists.2⟩
  · intro key hkey
    obtain ⟨hmentions, hkey⟩ := mem_cache_removeFromQueue.1 hkey
    obtain ⟨check, hne, rfl, hknown⟩ := h.known key hkey
    refine ⟨check, hne, rfl, fun other hother => mem_keys_removeFromQueue.2 ⟨?_, hknown other hother⟩⟩
    rintro rfl
    exact absurd ((has_concatenateGuids hne).2 hother).mentions (by simp [hmentions])
  · intro key cached hfind hless
    have hmentions := (mem_cache_removeFromQueue.1 (OMap.mem_keys.2 ⟨cached, hfind⟩)).1
    rw [LFGQueue.removeFromQueue, LFGQueue.removeFromCompatibles] at hfind
    simp only [OMap.find?_filter, hmentions] at hfind
    rw [rolesIn_removeFromQueue hmentions]
    exact h.roles key cached hfind hless

theorem best_removeFromQueue (hcached : Cached q) (h : Best fresh q) (hcareful : q.Careful (.removeFromQueue guid))
    (hreplaced : fresh → q.Replaced (.removeFromQueue guid)) : Best fresh (q.removeFromQueue guid) := by
  have hcached' := cached_removeFromQueue hcached guid
  -- the data of another entry is what it was, or a best combination is looked for
  have hdata : ∀ other data', (q.removeFromQueue guid).queueDataStore.find? other = some data' →
      ∃ data, other ≠ guid ∧ q.queueDataStore.find? other = some data ∧
        (data.bestCompatible.mentions guid = false ∧ data' = data ∨ data.bestCompatible.mentions guid = true ∧
          data' = (q.removeFromCompatibles guid).findBestCompatible other { data with bestCompatible := [] }) := by
    intro other data' hdata'
    rw [LFGQueue.removeFromQueue] at hdata'
    simp only [OMap.find?_erase, OMap.find?_mapValues] at hdata'
    split at hdata'
    · cases hdata'
    next hne =>
    obtain ⟨data, hdata, hchange⟩ := Option.map_eq_some_iff.1 hdata'
    refine ⟨data, hne, hdata, ?_⟩
    cases hmentions : data.bestCompatible.mentions guid with
    | false => exact .inl ⟨rfl, by rw [← hchange, hmentions]; simp⟩
    | true => exact .inr ⟨rfl, by rw [← hchange, hmentions]; simp [hne]; rfl⟩
  constructor
  · intro other data' hdata'
    obtain ⟨data, hne, hfind, ⟨hmentions, rfl⟩ | ⟨hmentions, rfl⟩⟩ := hdata other data' hdata'
    · refine (h.knows other data' hfind).imp_right fun hknows => ⟨?_, hknows.2.1, ?_⟩
      · exact mem_cache_removeFromQueue.2 ⟨hmentions, hknows.1⟩
      · rw [rolesIn_removeFromQueue hmentions]
        exact hknows.2.2
    · exact knows_found hcached' rfl (hcareful other data hne hfind hmentions) rfl
  · intro hfresh other data' hdata' hnone
    obtain ⟨data, hne, hfind, ⟨-, rfl⟩ | ⟨hmentions, rfl⟩⟩ := hdata other data' hdata'
    · exact h.fresh hfresh other data' hfind hnone
    · obtain ⟨e, he, hpos⟩ := hreplaced hfresh other data hne hfind hmentions
      have hzero := (findBestCompatible_none rfl hnone).1 e he
      omega

end remove

section timers

theorem entryOf_updateQueueTimers (q : LFGQueue) : q.updateQueueTimers.entryOf = q.entryOf := by
  funext guid
  rw [LFGQueue.entryOf, LFGQueue.entryOf, LFGQueue.updateQueueTimers]
  simp only [OMap.find?_mapValues]
  cases q.queueDataStore.find? guid with
  | none => rfl
  | some data =>
    simp only [Option.map_some]
    split
    · exact congrArg some (Matching.entry_findBestCompatible q guid data)
    · rfl

theorem cached_updateQueueTimers (h : Cached q) : Cached q.updateQueueTimers := by
  have hkeys : ∀ guid, guid ∈ q.updateQueueTimers.queueDataStore.keys ↔ guid ∈ q.queueDataStore.keys := fun guid => by
    rw [mem_keys_iff_entryOf, mem_keys_iff_entryOf, entryOf_updateQueueTimers]
  constructor
  · exact small_congr (entryOf_updateQueueTimers q) h.small
  · exact fun guid hguid => (hkeys guid).2 (h.listed guid hguid)
  · intro key hkey
    obtain ⟨check, hne, rfl, hknown⟩ := h.known key hkey
    exact ⟨check, hne, rfl, fun guid hguid => (hkeys guid).2 (hknown guid hguid)⟩
  · intro key cached hcached hless
    rw [rolesIn_of_entryOf (entryOf_updateQueueTimers q)]
    exact h.roles key cached hcached hless

theorem best_updateQueueTimers {fresh : Prop} (hcached : Cached q) (h : Best fresh q)
    (hcareful : q.Careful .updateQueueTimers) : Best fresh q.updateQueueTimers := by
  -- an entry without a best combination looks for one
  have hdata : ∀ guid data', q.updateQueueTimers.queueDataStore.find? guid = some data' →
      ∃ data, q.queueDataStore.find? guid = some data ∧
        (data.bestCompatible ≠ [] ∧ data' = data ∨ data.bestCompatible = [] ∧ data' = q.findBestCompatible guid data) := by
    intro guid data' hdata'
    rw [LFGQueue.updateQueueTimers] at hdata'
    simp only [OMap.find?_mapValues] at hdata'
    obtain ⟨data, hdata, rfl⟩ := Option.map_eq_some_iff.1 hdata'
    refine ⟨data, hdata, ?_⟩
    split
    next hempty => exact .inr ⟨List.isEmpty_iff.1 hempty, rfl⟩
    next hempty => exact .inl ⟨fun hnil => hempty (List.isEmpty_iff.2 hnil), rfl⟩
  constructor
  · intro guid data' hdata'
    obtain ⟨data, hfind, ⟨-, rfl⟩ | ⟨hnone, rfl⟩⟩ := hdata guid data' hdata'
    · refine (h.knows guid data' hfind).imp_right fun hknows => ⟨hknows.1, hknows.2.1, ?_⟩
      rw [rolesIn_of_entryOf (entryOf_updateQueueTimers q)]
      exact hknows.2.2
    · exact knows_found (cached_updateQueueTimers hcached) rfl (hcareful guid data hfind hnone) hnone
  · intro hfresh guid data' hdata' hnone'
    obtain ⟨data, hfind, ⟨hsome, rfl⟩ | ⟨hnone, rfl⟩⟩ := hdata guid data' hdata'
    · exact absurd hnone' hsome
    · rw [(findBestCompatible_none hnone hnone').2]
      exact h.fresh hfresh guid data hfind hnone

end timers

/-! ## Runs -/

namespace Matching

variable {fresh : Prop} {s : Matching}

theorem applyCall_best (hcached : Cached s.queue) (hbest : Best fresh s.queue) (call : QueueCall)
    (hcareful : s.queue.Careful call) (hreplaced : fresh → s.queue.Replaced call) :
    Cached (s.applyCall call).queue ∧ Best fresh (s.applyCall call).queue := by
  cases call with
  | addQueueData guid joinTime dungeons rolesMap few =>
    exact ⟨cached_addQueueData hcached hcareful, best_addQueueData hcached hbest hcareful⟩
  | addToQueue guid =>
    simp only [applyCall, LFGQueue.addToQueue]
    split
    next => exact ⟨hcached, hbest⟩
    next data hdata =>
    refine ⟨hcached.lists rfl rfl fun other hother => ?_, hbest.lists rfl rfl⟩
    rcases hother with hnew | hcurrent
    · exact hcached.listed other (.inl hnew)
    rcases List.mem_cons.1 hcurrent with rfl | hcurrent
    · exact OMap.mem_keys.2 ⟨data, hdata⟩
    · exact hcached.listed other (.inr hcurrent)
  | removeFromQueue guid => exact ⟨cached_removeFromQueue hcached guid, best_removeFromQueue hcached hbest hcareful hreplaced⟩
  | findGroups v => exact findGroupsLoop_best _ hcached hbest
  | updateQueueTimers => exact ⟨cached_updateQueueTimers hcached, best_updateQueueTimers hcached hbest hcareful⟩

def runQueue (s : Matching) (calls : List QueueCall) : Matching := calls.foldl applyCall s

/-- Every call of a run is careful. -/
def CarefulRun : Matching → List QueueCall → Prop
  | _, [] => True
  | s, call :: calls => s.queue.Careful call ∧ CarefulRun (s.applyCall call) calls

/-- In every removal of a run, the entries that lose their best combination find another one. -/
def ReplacedRun : Matching → List QueueCall → Prop
  | _, [] => True
  | s, call :: calls => s.queue.Replaced call ∧ ReplacedRun (s.applyCall call) calls

theorem runQueue_best (calls : List QueueCall) : ∀ {s : Matching}, Cached s.queue → Best fresh s.queue →
    CarefulRun s calls → (fresh → ReplacedRun s calls) →
    Cached (s.runQueue calls).queue ∧ Best fresh (s.runQueue calls).queue := by
  induction calls with
  | nil => exact fun hcached hbest _ _ => ⟨hcached, hbest⟩
  | cons call calls ih =>
    intro s hcached hbest hcareful hreplaced
    obtain ⟨hcached', hbest'⟩ := applyCall_best hcached hbest call hcareful.1 fun hfresh => (hreplaced hfresh).1
    exact ih hcached' hbest' hcareful.2 fun hfresh => (hreplaced hfresh).2

/-- In a run whose calls are careful, each entry has no best combination or knows it; one without any has all its counters if
no entry ever lost its best combination without another one. -/
theorem knowsBest_of_careful (calls : List QueueCall) (h : CarefulRun .empty calls) (guid : ObjectGuid)
    (data : LfgQueueData) (hdata : (empty.runQueue calls).queue.queueDataStore.find? guid = some data) :
    (data.bestCompatible = [] ∨ (empty.runQueue calls).queue.KnowsBest guid data) ∧
      (ReplacedRun .empty calls → data.bestCompatible = [] → data.counters = neededLess .empty) := by
  have hcached : Cached empty.queue := by
    constructor
    · exact fun guid e he => nomatch he
    · rintro guid (hguid | hguid) <;> exact nomatch hguid
    · exact fun key hkey => nomatch hkey
    · exact fun key cached hcached => nomatch hcached
  have hbest : Best (ReplacedRun .empty calls) empty.queue :=
    ⟨fun guid data hdata => (nomatch hdata), fun _ guid data hdata => nomatch hdata⟩
  obtain ⟨-, hbest'⟩ := runQueue_best calls hcached hbest h id
  exact ⟨hbest'.knows guid data hdata, fun hreplaced hnone => hbest'.fresh hreplaced guid data hdata hnone⟩

/-- Two players for the same dungeon are found together; one leaves, and the other is best alone. -/
def aloneCalls : List QueueCall :=
  [.addQueueData 2 0 [1] (OMap.empty.insert 2 PLAYER_ROLE_TANK) (by decide),
    .addQueueData 3 0 [1] (OMap.empty.insert 3 PLAYER_ROLE_HEALER) (by decide), .findGroups quietView, .removeFromQueue 3]

theorem alone_knowsBest : ∃ data, (empty.runQueue aloneCalls).queue.queueDataStore.find? 2 = some data ∧
    data.bestCompatible ≠ [] ∧ (empty.runQueue aloneCalls).queue.KnowsBest 2 data := by
  have hsome : ((empty.runQueue aloneCalls).queue.queueDataStore.find? 2).any (·.bestCompatible ≠ []) = true := by decide
  obtain ⟨data, hdata, hne⟩ := (Option.any_eq_true _ _).1 hsome
  have hne := of_decide_eq_true hne
  have hcareful : CarefulRun .empty aloneCalls := by
    refine ⟨fun _ hdata => (nomatch hdata), fun _ hdata => (nomatch hdata), trivial, ?_, trivial⟩
    exact LFGQueue.Apart.careful_removeFromQueue (by decide) 3
  exact ⟨data, hdata, hne, (knowsBest_of_careful aloneCalls hcareful 2 data hdata).1.resolve_left hne⟩

/-- The same with a third player for another dungeon, whose number has the first one's inside. -/
def insideCalls : List QueueCall := .addQueueData 12 0 [2] (OMap.empty.insert 12 PLAYER_ROLE_DAMAGE) (by decide) :: aloneCalls

/-- The first player's best combination is the third one alone. -/
theorem inside_otherBest : ∃ data, (empty.runQueue insideCalls).queue.queueDataStore.find? 2 = some data ∧
    data.bestCompatible = concatenateGuids [12] ∧ ¬ data.bestCompatible.Has 2 := by
  have hsome : ((empty.runQueue insideCalls).queue.queueDataStore.find? 2).any
      (fun data => data.bestCompatible = concatenateGuids [12]) = true := by decide
  obtain ⟨data, hdata, hbest⟩ := (Option.any_eq_true _ _).1 hsome
  have hbest := of_decide_eq_true hbest
  refine ⟨data, hdata, hbest, ?_⟩
  rw [hbest]
  decide

end Matching

end AtlasWow.Lfg
