/-
What a guild keeps: ranks with their places as ids, members whose ranks exist,
one guild master and he the leader. Every operation keeps it, with the two
conditions the source does not ask for: nobody hands the guild to himself, and
a rank that is removed has no members.
-/
import AtlasWow.Guilds.Guild

namespace AtlasWow.Guild

variable {g g' : Guild} {guid player name : ObjectGuid} {rank rankId : UInt8}

/-! ## Lookups -/

theorem getMember_changeRank (g : Guild) (guid : ObjectGuid) (rank : UInt8) (k : ObjectGuid) :
    (g.changeRank guid rank).getMember k =
      (g.getMember k).map fun m => if k = guid then { m with rankId := rank } else m :=
  UMap.find?_mapValues _ _ _

theorem getMember_insertMember (pl : Placement ObjectGuid Member) (g : Guild) (guid : ObjectGuid) (rank : UInt8)
    (k : ObjectGuid) :
    (g.insertMember pl guid rank).getMember k = if k = guid then some ⟨rank, fun _ => 0⟩ else g.getMember k :=
  UMap.find?_insert pl _ _ _ _

theorem getMember_eraseMember (g : Guild) (guid k : ObjectGuid) :
    (g.eraseMember guid).getMember k = if k = guid then none else g.getMember k :=
  UMap.find?_erase _ _ _

theorem isSome_changeRank (g : Guild) (guid : ObjectGuid) (rank : UInt8) (k : ObjectGuid) :
    ((g.changeRank guid rank).getMember k).isSome = (g.getMember k).isSome := by
  rw [getMember_changeRank, Option.isSome_map]

theorem isSome_setLeaderGUID (g : Guild) (leader k : ObjectGuid) :
    ((g.setLeaderGUID leader).getMember k).isSome = (g.getMember k).isSome :=
  isSome_changeRank _ _ _ _

theorem newLeader_mem {l : ObjectGuid × Member} (h : g.newLeader guid = some l) :
    g.getMember l.1 = some l.2 ∧ l.1 ≠ guid := by
  have key : ∀ (entries : List (ObjectGuid × Member)) (best : Option (ObjectGuid × Member)),
      (∀ l, best = some l → l ∈ g.members.entries ∧ l.1 ≠ guid) → (∀ e ∈ entries, e ∈ g.members.entries) →
      ∀ l, entries.foldl (fun newLeader i =>
        if i.1 = guid then newLeader
        else if newLeader.all fun l => i.2.rankId < l.2.rankId then some i
        else newLeader) best = some l → l ∈ g.members.entries ∧ l.1 ≠ guid := by
    intro entries
    induction entries with
    | nil => exact fun best hbest _ l hl => hbest l hl
    | cons e entries ih =>
      intro best hbest hsub l hl
      rw [List.foldl_cons] at hl
      refine ih _ ?_ (fun e' he' => hsub e' (List.mem_cons_of_mem _ he')) l hl
      intro l' hl'
      split at hl'
      · exact hbest l' hl'
      next hne =>
      split at hl'
      · cases hl'
        exact ⟨hsub _ List.mem_cons_self, hne⟩
      · exact hbest l' hl'
  obtain ⟨hmem, hne⟩ := key g.members.entries none (fun l hl => by cases hl) (fun _ he => he) l h
  exact ⟨UMap.mem_entries.1 hmem, hne⟩

/-- Whoever is a member but not the one who goes could lead. -/
theorem newLeader_ne_none {m : Member} (hm : g.getMember player = some m) (hne : player ≠ guid) :
    g.newLeader guid ≠ none := by
  have key : ∀ (entries : List (ObjectGuid × Member)) (best : Option (ObjectGuid × Member)),
      (best ≠ none ∨ ∃ e ∈ entries, e.1 ≠ guid) →
      entries.foldl (fun newLeader i =>
        if i.1 = guid then newLeader
        else if newLeader.all fun l => i.2.rankId < l.2.rankId then some i
        else newLeader) best ≠ none := by
    intro entries
    induction entries with
    | nil =>
      intro best h
      rcases h with h | ⟨e, he, -⟩
      · exact h
      · cases he
    | cons e entries ih =>
      intro best h
      rw [List.foldl_cons]
      apply ih
      split
      next heq =>
        rcases h with h | ⟨e', he', hne'⟩
        · exact .inl h
        rcases List.mem_cons.1 he' with rfl | he'
        · exact absurd heq hne'
        · exact .inr ⟨e', he', hne'⟩
      next =>
      split
      · exact .inl (by simp)
      next hbest =>
      refine .inl fun hnone => hbest ?_
      rw [hnone]
      rfl
  exact key _ _ (.inr ⟨(player, m), UMap.mem_entries.2 hm, hne⟩)

theorem isSome_handOver (h : g.handOver guid = some g') (k : ObjectGuid) :
    (g'.getMember k).isSome = (g.getMember k).isSome := by
  unfold handOver at h
  split at h
  · obtain ⟨l, -, rfl⟩ := Option.map_eq_some_iff.1 h
    exact isSome_setLeaderGUID _ _ _
  · cases h
    rfl

/-! ## Ranks and leader -/

/-- The ranks are as many as there may be, each with its place as its id. -/
structure Numbered (g : Guild) : Prop where
  few : 5 ≤ g.ranks.length
  many : g.ranks.length ≤ 10
  ids : g.ranks.map (·.rankId) = (List.range g.ranks.length).map UInt8.ofNat

/-- No member has a rank that does not exist. -/
structure Ranked (g : Guild) : Prop extends Numbered g where
  ranks : ∀ guid m, g.getMember guid = some m → m.rankId.toNat < g.ranks.length

structure Sound (g : Guild) : Prop extends Ranked g where
  leader : ∃ m, g.getMember g.leaderGuid = some m ∧ m.rankId = GR_GUILDMASTER
  master : ∀ guid m, g.getMember guid = some m → m.rankId = GR_GUILDMASTER → guid = g.leaderGuid

theorem Numbered.toNat_getRanksSize (h : g.Numbered) : g.getRanksSize.toNat = g.ranks.length := by
  have := h.many
  exact UInt8.toNat_ofNat_of_lt' (by simp [UInt8.size]; omega)

theorem Numbered.toNat_getLowestRankId (h : g.Numbered) : g.getLowestRankId.toNat = g.ranks.length - 1 := by
  have hsize := h.toNat_getRanksSize
  have hfew := h.few
  have hmany := h.many
  show (g.getRanksSize - 1).toNat = _
  rw [UInt8.toNat_sub_of_le, hsize]
  · rfl
  · rw [UInt8.le_iff_toNat_le, hsize]
    show 1 ≤ _
    omega

/-- The rank ids are 0 to n - 1, no member has another, and the leader is the one guild master. -/
def Led (g : Guild) : Prop :=
  g.ranks.map (·.rankId) = (List.range g.ranks.length).map UInt8.ofNat ∧
  (∀ guid m, g.getMember guid = some m → m.rankId.toNat < g.ranks.length) ∧
  (∃ m, g.getMember g.leaderGuid = some m ∧ m.rankId = GR_GUILDMASTER) ∧
  ∀ guid m, g.getMember guid = some m → m.rankId = GR_GUILDMASTER → guid = g.leaderGuid

theorem Sound.led (h : g.Sound) : g.Led := ⟨h.ids, h.ranks, h.leader, h.master⟩

theorem Ranked.changeRank (h : g.Ranked) (hrank : rank.toNat < g.ranks.length) : (g.changeRank guid rank).Ranked where
  toNumbered := ⟨h.few, h.many, h.ids⟩
  ranks := by
    intro k m hk
    rw [getMember_changeRank] at hk
    obtain ⟨m', hm', rfl⟩ := Option.map_eq_some_iff.1 hk
    show _ < g.ranks.length
    split
    · exact hrank
    · exact h.ranks k m' hm'

theorem Ranked.setLeaderGUID (h : g.Ranked) (leader : ObjectGuid) : (g.setLeaderGUID leader).Ranked :=
  Ranked.changeRank (g := { g with leaderGuid := leader }) ⟨⟨h.few, h.many, h.ids⟩, h.ranks⟩
    (show 0 < g.ranks.length by have := h.few; omega)

theorem Ranked.eraseMember (h : g.Ranked) : (g.eraseMember guid).Ranked where
  toNumbered := ⟨h.few, h.many, h.ids⟩
  ranks := by
    intro k m hk
    rw [getMember_eraseMember] at hk
    split at hk
    · cases hk
    · exact h.ranks k m hk

/-- Another rank for somebody who does not lead. -/
theorem Sound.changeRank (h : g.Sound) (hrank : rank.toNat < g.ranks.length)
    (hne : guid ≠ g.leaderGuid) (hmaster : rank ≠ GR_GUILDMASTER) : (g.changeRank guid rank).Sound where
  toRanked := h.toRanked.changeRank hrank
  leader := by
    obtain ⟨m, hm, hr⟩ := h.leader
    refine ⟨m, ?_, hr⟩
    rw [getMember_changeRank]
    show Option.map _ (g.getMember g.leaderGuid) = _
    rw [hm, Option.map_some]
    exact congrArg some (if_neg (Ne.symm hne))
  master := by
    intro k m hk hr
    rw [getMember_changeRank] at hk
    obtain ⟨m', hm', rfl⟩ := Option.map_eq_some_iff.1 hk
    split at hr
    · exact absurd hr hmaster
    · exact h.master k m' hm' hr

theorem Sound.isLeader (h : g.Sound) (hl : g.isLeader player = true) : player = g.leaderGuid := by
  unfold Guild.isLeader at hl
  rw [Bool.or_eq_true, decide_eq_true_eq] at hl
  rcases hl with hl | hl
  · exact hl
  · obtain ⟨m, hm, hr⟩ := (Option.any_eq_true _ _).1 hl
    exact h.master player m hm (of_decide_eq_true hr)

theorem Sound.handleSetLeader (h : g.Sound) (hself : g.isLeader player = true → name ≠ player) :
    (g.handleSetLeader player name).Sound := by
  unfold Guild.handleSetLeader
  split
  · exact h
  next hl =>
  have hl : g.isLeader player = true := by simpa using hl
  have hne := hself hl
  have hplayer := h.isLeader hl
  split
  next memberMe member hme hname =>
    have hrank : (1 : Nat) < g.ranks.length := by have := h.few; omega
    refine ⟨(h.toRanked.setLeaderGUID name).changeRank hrank, ⟨{ member with rankId := GR_GUILDMASTER }, ?_, rfl⟩, ?_⟩
    · show ((g.setLeaderGUID name).changeRank player GR_OFFICER).getMember name = _
      rw [getMember_changeRank, Guild.setLeaderGUID, getMember_changeRank]
      show Option.map _ (Option.map _ (g.getMember name)) = _
      rw [hname, Option.map_some, Option.map_some, if_pos rfl, if_neg hne]
    · intro k m hk hr
      show k = name
      rw [getMember_changeRank, Guild.setLeaderGUID, getMember_changeRank] at hk
      obtain ⟨m', hm', rfl⟩ := Option.map_eq_some_iff.1 hk
      obtain ⟨m'', hm'', rfl⟩ := Option.map_eq_some_iff.1 hm'
      by_cases hkp : k = player
      · rw [if_pos hkp] at hr
        exact absurd (show GR_OFFICER = GR_GUILDMASTER from hr) (by decide)
      by_cases hkn : k = name
      · exact hkn
      · rw [if_neg hkp, if_neg hkn] at hr
        exact absurd ((h.master k m'' hm'' hr).trans hplayer.symm) hkp
  next => exact h

/-- Whoever hands the guild to himself is an officer then, and nobody is guild master. -/
theorem Sound.led_handleSetLeader (h : g.Sound) :
    (g.handleSetLeader player name).Led ↔ (g.isLeader player = true → name ≠ player) := by
  refine ⟨fun hled hl hself => ?_, fun hself => (h.handleSetLeader hself).led⟩
  subst hself
  obtain ⟨m, hm, -⟩ := h.leader
  rw [← h.isLeader hl] at hm
  have hself : g.handleSetLeader name name = (g.setLeaderGUID name).changeRank name GR_OFFICER := by
    rw [Guild.handleSetLeader, hm, hl]
    rfl
  obtain ⟨m', hm', hr⟩ := hled.2.2.1
  rw [hself] at hm'
  have hm' : ((g.setLeaderGUID name).changeRank name GR_OFFICER).getMember name = some m' := hm'
  rw [getMember_changeRank] at hm'
  obtain ⟨m'', -, rfl⟩ := Option.map_eq_some_iff.1 hm'
  rw [if_pos rfl] at hr
  exact absurd (show GR_OFFICER = GR_GUILDMASTER from hr) (by decide)

/-- What a change of rank comes to: nothing, or another rank below one's own for somebody below. -/
theorem Numbered.handleUpdateMemberRank_cases (hg : g.Numbered) (hbound : ∀ guid m, g.getMember guid = some m → m.rankId.toNat ≤ 10)
    (player name : ObjectGuid) (demote : Bool) :
    g.handleUpdateMemberRank player name demote = g ∨ ∃ member memberMe rank, g.getMember name = some member ∧
      g.getMember player = some memberMe ∧ memberMe.rankId < member.rankId ∧ memberMe.rankId < rank ∧
      (rank.toNat ≤ member.rankId.toNat ∨ rank.toNat < g.ranks.length) ∧
      g.handleUpdateMemberRank player name demote = g.changeRank name rank := by
  unfold Guild.handleUpdateMemberRank
  generalize (if demote then GR_RIGHT_DEMOTE else GR_RIGHT_PROMOTE) = right
  split
  · exact .inl rfl
  split
  next member memberMe hname hme =>
    have hmember := hbound name member hname
    have hmany := hg.many
    have hme' := hbound player memberMe hme
    split
    · exact .inl rfl
    next =>
    split
    · split
      · exact .inl rfl
      next hlow =>
      simp only [Member.isRankNotLower, Bool.or_eq_true, decide_eq_true_eq, not_or, UInt8.le_iff_toNat_le,
        hg.toNat_getLowestRankId, Nat.not_le] at hlow
      have hadd : (member.rankId + 1).toNat = member.rankId.toNat + 1 := by
        rw [UInt8.toNat_add]
        show (member.rankId.toNat + 1) % 256 = _
        omega
      refine .inr ⟨member, memberMe, member.rankId + 1, hname, hme, ?_, ?_, ?_, rfl⟩
      · rw [UInt8.lt_iff_toNat_lt]
        exact hlow.1
      · rw [UInt8.lt_iff_toNat_lt, hadd]
        omega
      · omega
    · split
      · exact .inl rfl
      next hlow =>
      have hadd : (memberMe.rankId + 1).toNat = memberMe.rankId.toNat + 1 := by
        rw [UInt8.toNat_add]
        show (memberMe.rankId.toNat + 1) % 256 = _
        omega
      simp only [Member.isRankNotLower, decide_eq_true_eq, UInt8.le_iff_toNat_le, hadd, Nat.not_le] at hlow
      have hsub : (member.rankId - 1).toNat = member.rankId.toNat - 1 := by
        rw [UInt8.toNat_sub_of_le]
        · rfl
        · rw [UInt8.le_iff_toNat_le]
          show 1 ≤ _
          omega
      refine .inr ⟨member, memberMe, member.rankId - 1, hname, hme, ?_, ?_, ?_, rfl⟩
      · rw [UInt8.lt_iff_toNat_lt]
        omega
      · rw [UInt8.lt_iff_toNat_lt, hsub]
        omega
      · omega
  next => exact .inl rfl

theorem Sound.handleUpdateMemberRank (h : g.Sound) (demote : Bool) :
    (g.handleUpdateMemberRank player name demote).Sound := by
  have hmany := h.many
  rcases h.handleUpdateMemberRank_cases (fun guid m hm => by have := h.ranks guid m hm; omega) player name demote with hsame |
    ⟨member, memberMe, rank, hname, -, hbelow, hrank, hle, heq⟩
  · rw [hsame]
    exact h
  · have hmember := h.ranks name member hname
    rw [heq]
    refine h.changeRank (by omega) (fun he => ?_) fun hmaster => ?_
    · -- whoever ranks below somebody does not lead
      obtain ⟨m, hm, hr⟩ := h.leader
      rw [← he, hname] at hm
      cases hm
      rw [UInt8.lt_iff_toNat_lt, hr] at hbelow
      exact Nat.not_lt_zero _ hbelow
    · rw [UInt8.lt_iff_toNat_lt, hmaster] at hrank
      exact Nat.not_lt_zero _ hrank

/-! ## The table of ranks -/

theorem createDefaultGuildRanks_nil (g : Guild) : { g with ranks := [] }.createDefaultGuildRanks =
    { g with
      ranks := [.create 0 GR_RIGHT_ALL, .create 1 GR_RIGHT_ALL, .create 2 (GR_RIGHT_GCHATLISTEN ||| GR_RIGHT_GCHATSPEAK),
        .create 3 (GR_RIGHT_GCHATLISTEN ||| GR_RIGHT_GCHATSPEAK),
        .create 4 (GR_RIGHT_GCHATLISTEN ||| GR_RIGHT_GCHATSPEAK)] } := rfl

/-- The ranks after one more. -/
theorem ids_append {ranks : List RankInfo} (h : ranks.map (·.rankId) = (List.range ranks.length).map UInt8.ofNat)
    (rights : UInt32) :
    (ranks ++ [RankInfo.create (UInt8.ofNat ranks.length) rights]).map (·.rankId) =
      (List.range (ranks ++ [RankInfo.create (UInt8.ofNat ranks.length) rights]).length).map UInt8.ofNat := by
  rw [List.map_append, h, List.length_append, List.length_singleton, List.range_succ, List.map_append]
  rfl

theorem Sound.handleAddNewRank (h : g.Sound) : (g.handleAddNewRank player).Sound := by
  unfold Guild.handleAddNewRank
  split
  · exact h
  next hroom =>
  split
  · rw [createRank, if_neg hroom]
    rw [UInt8.le_iff_toNat_le, h.toNat_getRanksSize] at hroom
    have hroom : g.ranks.length < 10 := Nat.lt_of_not_le hroom
    refine ⟨⟨⟨?_, ?_, ids_append h.ids _⟩, ?_⟩, h.leader, h.master⟩
    · have := h.few
      simp only [List.length_append, List.length_singleton]
      omega
    · simp only [List.length_append, List.length_singleton]
      omega
    · intro guid m hm
      have := h.ranks guid m hm
      simp only [List.length_append, List.length_singleton]
      omega
  · exact h

/-- No member has the lowest rank. -/
def lowestUnused (g : Guild) : Bool := g.members.entries.all fun e => e.2.rankId ≠ g.getLowestRankId

theorem Sound.handleRemoveRank (h : g.Sound)
    (hunused : g.canRemoveRank player rankId = true → g.lowestUnused = true) : (g.handleRemoveRank player rankId).Sound := by
  unfold Guild.handleRemoveRank
  split
  next hcan =>
    have hunused := hunused hcan
    simp only [canRemoveRank, Bool.and_eq_true, decide_eq_true_eq] at hcan
    have hmore : 5 < g.ranks.length := by
      have := UInt8.lt_iff_toNat_lt.1 hcan.1.1
      rwa [h.toNat_getRanksSize] at this
    refine ⟨⟨⟨?_, ?_, ?_⟩, ?_⟩, h.leader, h.master⟩
    · simp only [List.length_dropLast]
      omega
    · have := h.many
      simp only [List.length_dropLast]
      omega
    · show g.ranks.dropLast.map _ = (List.range g.ranks.dropLast.length).map _
      rw [List.map_dropLast, h.ids, ← List.map_dropLast, List.length_dropLast]
      congr 1
      have : g.ranks.length = (g.ranks.length - 1) + 1 := by omega
      rw [this, List.range_succ, List.dropLast_concat]
      rfl
    · intro guid m hm
      have hlow := of_decide_eq_true ((List.all_eq_true.1 hunused) (guid, m) (UMap.mem_entries.2 hm))
      have hrank := h.ranks guid m hm
      have hne : m.rankId.toNat ≠ g.getLowestRankId.toNat := fun he => hlow (UInt8.toNat_inj.1 he)
      rw [h.toNat_getLowestRankId] at hne
      simp only [List.length_dropLast]
      omega
  next => exact h

theorem Sound.led_handleRemoveRank (h : g.Sound) :
    (g.handleRemoveRank player rankId).Led ↔ (g.canRemoveRank player rankId = true → g.lowestUnused = true) := by
  refine ⟨fun hled hcan => ?_, fun hunused => (h.handleRemoveRank hunused).led⟩
  rw [Guild.handleRemoveRank, if_pos hcan] at hled
  refine List.all_eq_true.2 fun e he => decide_eq_true fun hlow => ?_
  have hrank : e.2.rankId.toNat < g.ranks.dropLast.length := hled.2.1 e.1 e.2 (UMap.mem_entries.1 he)
  rw [hlow, h.toNat_getLowestRankId, List.length_dropLast] at hrank
  omega

/-! ## Members -/

theorem sound_founded (pl : Placement ObjectGuid Member) (leader : ObjectGuid) :
    ((createDefaultGuildRanks ⟨leader, [], .empty, 0, 0⟩).insertMember pl leader GR_GUILDMASTER).Sound := by
  rw [createDefaultGuildRanks_nil ⟨leader, [], .empty, 0, 0⟩]
  refine ⟨⟨⟨Nat.le_refl 5, by show 5 ≤ 10; omega, rfl⟩, fun guid m hm => ?_⟩, ⟨⟨GR_GUILDMASTER, fun _ => 0⟩, ?_, rfl⟩,
    fun guid m hm _ => ?_⟩
  · rw [getMember_insertMember] at hm
    split at hm
    · cases hm
      show 0 < 5
      omega
    · cases hm
  · rw [getMember_insertMember]
    exact if_pos rfl
  · rw [getMember_insertMember] at hm
    split at hm
    next he => exact he
    next => cases hm

theorem Sound.insertMember (h : g.Sound) (pl : Placement ObjectGuid Member) (hnew : g.getMember guid = none) :
    (g.insertMember pl guid g.getLowestRankId).Sound := by
  have hlow := h.toNat_getLowestRankId
  have hfew := h.few
  refine ⟨⟨⟨h.few, h.many, h.ids⟩, ?_⟩, ?_, ?_⟩
  · intro k m hk
    rw [getMember_insertMember] at hk
    split at hk
    · cases hk
      show g.getLowestRankId.toNat < g.ranks.length
      omega
    · exact h.ranks k m hk
  · obtain ⟨m, hm, hr⟩ := h.leader
    refine ⟨m, ?_, hr⟩
    rw [getMember_insertMember]
    show (if g.leaderGuid = guid then _ else g.getMember g.leaderGuid) = _
    rw [if_neg fun he => ?_, hm]
    rw [← he, hm] at hnew
    cases hnew
  · intro k m hk hr
    rw [getMember_insertMember] at hk
    split at hk
    · cases hk
      have : g.getLowestRankId.toNat = 0 := congrArg UInt8.toNat hr
      omega
    · exact h.master k m hk hr

/-- Whoever goes, the guild has a leader if it has members. -/
theorem Sound.deleteMember (h : g.Sound) (hover : g.handOver guid = some g') : (g'.eraseMember guid).Sound := by
  unfold Guild.handOver at hover
  split at hover
  next hleads =>
    obtain ⟨l, hl, rfl⟩ := Option.map_eq_some_iff.1 hover
    obtain ⟨hmem, hne⟩ := newLeader_mem hl
    refine ⟨(h.toRanked.setLeaderGUID l.1).eraseMember, ⟨{ l.2 with rankId := GR_GUILDMASTER }, ?_, rfl⟩, ?_⟩
    · show ((g.setLeaderGUID l.1).eraseMember guid).getMember l.1 = _
      rw [getMember_eraseMember, if_neg hne, Guild.setLeaderGUID, getMember_changeRank]
      show Option.map _ (g.getMember l.1) = _
      rw [hmem, Option.map_some, if_pos rfl]
    · intro k m hk hr
      show k = l.1
      rw [getMember_eraseMember] at hk
      split at hk
      · cases hk
      next hkg =>
      rw [Guild.setLeaderGUID, getMember_changeRank] at hk
      obtain ⟨m', hm', rfl⟩ := Option.map_eq_some_iff.1 hk
      by_cases hkl : k = l.1
      · exact hkl
      · rw [if_neg hkl] at hr
        exact absurd ((h.master k m' hm' hr).trans hleads) hkg
  next hstays =>
  cases hover
  refine ⟨h.toRanked.eraseMember, ?_, ?_⟩
  · obtain ⟨m, hm, hr⟩ := h.leader
    refine ⟨m, ?_, hr⟩
    show (g.eraseMember guid).getMember g.leaderGuid = _
    rw [getMember_eraseMember, if_neg hstays, hm]
  · intro k m hk hr
    rw [getMember_eraseMember] at hk
    split at hk
    · cases hk
    · exact h.master k m hk hr

/-! ## Loading -/

/-- Who leads the guild after `Validate`. -/
def successor (g : Guild) : Option ObjectGuid :=
  if (g.getMember g.leaderGuid).isSome then some g.leaderGuid else (g.newLeader g.leaderGuid).map Prod.fst

/-- Nobody but the leader to be has the rank behind the lowest, or is a second guild master that may stay. -/
def loadsWell (allowMultiple : Bool) (g : Guild) : Bool :=
  let g := g.repairRanks.repairMembers
  g.members.entries.all fun e =>
    some e.1 = g.successor || e.2.rankId ≠ g.getRanksSize && !(allowMultiple && e.2.isRank GR_GUILDMASTER)

theorem numbered_of_ranksValid (h : g.ranksValid = true) (hrows : g.ranks.length ≤ 256) : g.Numbered := by
  simp only [ranksValid, Bool.and_eq_true, decide_eq_true_eq, UInt8.le_iff_toNat_le, List.all_eq_true,
    List.mem_range, Option.any_eq_true] at h
  obtain ⟨⟨hfew, hmany⟩, hids⟩ := h
  have hsize : g.getRanksSize.toNat = g.ranks.length % 256 := UInt8.toNat_ofNat'
  have hfew : 5 ≤ g.getRanksSize.toNat := hfew
  have hmany : g.getRanksSize.toNat ≤ 10 := hmany
  have hlength : g.getRanksSize.toNat = g.ranks.length := by omega
  refine ⟨by omega, by omega, ?_⟩
  apply List.ext_getElem
  · simp
  · intro i hi hi'
    rw [List.length_map] at hi
    obtain ⟨rank, hrank, hid⟩ := hids i (by omega)
    rw [List.getElem?_eq_getElem hi, Option.some.injEq] at hrank
    simp only [List.getElem_map, List.getElem_range, hrank]
    exact hid

theorem numbered_repairRanks (hrows : g.ranks.length ≤ 256) : g.repairRanks.Numbered := by
  unfold repairRanks
  split
  next h => exact numbered_of_ranksValid h hrows
  next =>
  rw [createDefaultGuildRanks_nil]
  exact ⟨Nat.le_refl 5, by show 5 ≤ 10; omega, rfl⟩

theorem getMember_repairMembers (g : Guild) (k : ObjectGuid) :
    g.repairMembers.getMember k = (g.getMember k).map fun m =>
      if g.getRanksSize < m.rankId then { m with rankId := g.getLowestRankId } else m :=
  UMap.find?_mapValues _ _ _

theorem getMember_repairMasters (g : Guild) (k : ObjectGuid) :
    (g.repairMasters false).getMember k = (g.getMember k).map fun m =>
      if m.isRank GR_GUILDMASTER && k ≠ g.leaderGuid then { m with rankId := GR_OFFICER } else m :=
  UMap.find?_mapValues _ _ _

/-- The successor leads, the others are as they were. -/
theorem repairLeader_spec (h : g.repairLeader = some g') : g.successor = some g'.leaderGuid ∧ g'.ranks = g.ranks ∧
    (∃ m, g'.getMember g'.leaderGuid = some m ∧ m.rankId = GR_GUILDMASTER) ∧
    ∀ k, k ≠ g'.leaderGuid → g'.getMember k = g.getMember k := by
  have lead : ∀ {leader m}, g.getMember leader = some m →
      (∃ m, (g.setLeaderGUID leader).getMember leader = some m ∧ m.rankId = GR_GUILDMASTER) ∧
      ∀ k, k ≠ leader → (g.setLeaderGUID leader).getMember k = g.getMember k := by
    intro leader m hm
    have hget : ∀ k, (g.setLeaderGUID leader).getMember k =
        (g.getMember k).map fun m => if k = leader then { m with rankId := GR_GUILDMASTER } else m :=
      fun k => getMember_changeRank { g with leaderGuid := leader } leader GR_GUILDMASTER k
    refine ⟨⟨{ m with rankId := GR_GUILDMASTER }, ?_, rfl⟩, fun k hk => ?_⟩
    · rw [hget, hm, Option.map_some, if_pos rfl]
    · rw [hget]
      simp only [if_neg hk, Option.map_id']
  unfold repairLeader at h
  split at h
  next hnone =>
    obtain ⟨g₁, hg₁, rfl⟩ := Option.map_eq_some_iff.1 h
    rw [handOver, if_pos rfl] at hg₁
    obtain ⟨l, hl, rfl⟩ := Option.map_eq_some_iff.1 hg₁
    obtain ⟨hmem, hne⟩ := newLeader_mem hl
    obtain ⟨hleads, hothers⟩ := lead hmem
    have herase : ∀ k, ((g.setLeaderGUID l.1).eraseMember g.leaderGuid).getMember k = (g.setLeaderGUID l.1).getMember k := by
      intro k
      rw [getMember_eraseMember]
      split
      next hk =>
        rw [hk, hothers _ (Ne.symm hne), hnone]
      next => rfl
    refine ⟨?_, rfl, ?_, fun k hk => ?_⟩
    · rw [successor, hnone, hl]
      rfl
    · rw [herase]
      exact hleads
    · rw [herase]
      exact hothers k hk
  next leader hleader =>
  have hsucc : g.successor = some g.leaderGuid := by
    rw [successor, hleader]
    rfl
  cases h
  split
  next hmaster => exact ⟨hsucc, rfl, ⟨leader, hleader, of_decide_eq_true hmaster⟩, fun _ _ => rfl⟩
  next => exact ⟨hsucc, rfl, lead hleader⟩

variable {allowMultiple : Bool}

/-- `Validate` neither adds nor removes members. -/
theorem isSome_validate (h : g.validate allowMultiple = some g') (k : ObjectGuid) :
    (g'.getMember k).isSome = (g.getMember k).isSome := by
  obtain ⟨g₃, hg₃, rfl⟩ := Option.map_eq_some_iff.1 h
  have hmasters : ((g₃.repairMasters allowMultiple).getMember k).isSome = (g₃.getMember k).isSome := by
    cases allowMultiple with
    | true => rfl
    | false => rw [getMember_repairMasters, Option.isSome_map]
  have hranks : (g.repairRanks.repairMembers.getMember k).isSome = (g.getMember k).isSome := by
    rw [getMember_repairMembers, Option.isSome_map, repairRanks]
    split
    · rfl
    · rw [createDefaultGuildRanks_nil]
      rfl
  rw [hmasters, ← hranks]
  generalize g.repairRanks.repairMembers = g₂ at hg₃
  unfold repairLeader at hg₃
  split at hg₃
  next hnone =>
    obtain ⟨g₁, hg₁, rfl⟩ := Option.map_eq_some_iff.1 hg₃
    rw [getMember_eraseMember]
    split
    next hk => rw [hk, hnone]
    next => exact isSome_handOver hg₁ k
  next =>
  cases hg₃
  split
  · rfl
  · exact isSome_setLeaderGUID _ _ _

/-- A guild with members is not deleted. -/
theorem validate_ne_none (h : (g.getMember player).isSome = true) : g.validate allowMultiple ≠ none := by
  have hranks : (g.repairRanks.repairMembers.getMember player).isSome = true := by
    rw [getMember_repairMembers, Option.isSome_map, repairRanks]
    split
    · exact h
    · rw [createDefaultGuildRanks_nil]
      exact h
  rw [validate, ne_eq, Option.map_eq_none_iff]
  generalize g.repairRanks.repairMembers = g₂ at hranks
  unfold repairLeader
  split
  next hnone =>
    obtain ⟨m, hm⟩ := Option.isSome_iff_exists.1 hranks
    have hne : player ≠ g₂.leaderGuid := by
      intro he
      rw [he, hnone] at hm
      cases hm
    rw [Option.map_eq_none_iff, handOver, if_pos rfl, Option.map_eq_none_iff]
    exact newLeader_ne_none hm hne
  next => simp

/-- What `Validate` makes of rows that load well. -/
theorem validate_sound (hrows : g.ranks.length ≤ 256) (hwell : g.loadsWell allowMultiple = true)
    (h : g.validate allowMultiple = some g') : g'.Sound := by
  obtain ⟨g₃, hg₃, rfl⟩ := Option.map_eq_some_iff.1 h
  have hnum := numbered_repairRanks hrows
  unfold loadsWell at hwell
  generalize hg₁ : g.repairRanks = g₁ at hg₃ hwell hnum
  obtain ⟨hsucc, hranks, hleads, hothers⟩ := repairLeader_spec hg₃
  have hwell : ∀ k m, g₁.repairMembers.getMember k = some m → k ≠ g₃.leaderGuid →
      m.rankId ≠ g₁.getRanksSize ∧ (allowMultiple = true → m.rankId ≠ GR_GUILDMASTER) := by
    intro k m hk hne
    have hall := List.all_eq_true.1 hwell (k, m) (UMap.mem_entries.2 hk)
    simp only [hsucc, Option.some.injEq, hne, decide_false, Bool.false_or, Bool.and_eq_true, decide_eq_true_eq] at hall
    refine ⟨hall.1, fun hmany hmaster => ?_⟩
    rw [hmany, Member.isRank, hmaster] at hall
    exact absurd hall.2 (by decide)
  -- ranks that do not exist are those behind the lowest
  have hexist : ∀ k m, g₁.repairMembers.getMember k = some m → k ≠ g₃.leaderGuid → m.rankId.toNat < g₁.ranks.length := by
    intro k m hk hne
    have hlast := (hwell k m hk hne).1
    have hfew := hnum.few
    rw [getMember_repairMembers] at hk
    obtain ⟨m', hm', rfl⟩ := Option.map_eq_some_iff.1 hk
    by_cases hover : g₁.getRanksSize < m'.rankId
    · rw [if_pos hover]
      show g₁.getLowestRankId.toNat < _
      rw [hnum.toNat_getLowestRankId]
      omega
    rw [if_neg hover] at hlast ⊢
    have hne' : m'.rankId.toNat ≠ g₁.getRanksSize.toNat := fun he => hlast (UInt8.toNat_inj.1 he)
    rw [UInt8.lt_iff_toNat_lt] at hover
    rw [hnum.toNat_getRanksSize] at hover hne'
    omega
  have hnum₃ : g₃.Numbered := ⟨hranks ▸ hnum.few, hranks ▸ hnum.many, hranks ▸ hnum.ids⟩
  have hranked : g₃.Ranked := by
    refine ⟨hnum₃, fun k m hk => ?_⟩
    by_cases hkl : k = g₃.leaderGuid
    · obtain ⟨m', hm', hr⟩ := hleads
      rw [hkl, hm'] at hk
      cases hk
      rw [hr]
      have := hnum₃.few
      show 0 < _
      omega
    rw [hothers k hkl] at hk
    rw [hranks]
    exact hexist k m hk hkl
  unfold repairMasters
  split
  next hmany =>
    refine ⟨hranked, hleads, fun k m hk hr => ?_⟩
    by_contra hne
    rw [hothers k hne] at hk
    exact (hwell k m hk hne).2 hmany hr
  next hone =>
  have hget : ∀ k, (g₃.repairMasters false).getMember k = _ := getMember_repairMasters g₃
  rw [repairMasters, if_neg (by decide)] at hget
  refine ⟨⟨⟨hnum₃.few, hnum₃.many, hnum₃.ids⟩, fun k m hk => ?_⟩, ?_, fun k m hk hr => ?_⟩
  · rw [hget] at hk
    obtain ⟨m', hm', rfl⟩ := Option.map_eq_some_iff.1 hk
    have hfew := hnum₃.few
    split
    · show 1 < g₃.ranks.length
      omega
    · exact hranked.ranks k m' hm'
  · obtain ⟨m, hm, hr⟩ := hleads
    refine ⟨m, ?_, hr⟩
    show Guild.getMember _ g₃.leaderGuid = _
    rw [hget, hm, Option.map_some, if_neg (by simp)]
  · rw [hget] at hk
    obtain ⟨m', hm', rfl⟩ := Option.map_eq_some_iff.1 hk
    show k = g₃.leaderGuid
    by_contra hne
    by_cases hmaster : m'.rankId = GR_GUILDMASTER
    · rw [if_pos (by simp [Member.isRank, hmaster, hne])] at hr
      exact absurd (show GR_OFFICER = GR_GUILDMASTER from hr) (by decide)
    · rw [if_neg (by simp [Member.isRank, hmaster])] at hr
      exact hmaster hr

end AtlasWow.Guild
