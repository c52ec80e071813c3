/-
The counters of a raid are exact in every run, and every sub group, slot and
leader as it should be, as long as nobody is put into a full group: every
caller of `AddMember` looks at `IsFull` but the dungeon finder.
-/
import AtlasWow.Groups.Group

namespace AtlasWow

namespace Group

/-- A raid has a counter for each sub group. -/
def exactCounts (raid : Bool) (slots : List MemberSlot) : Option (List UInt8) :=
  if raid then some (tally MemberSlot.subGroup MAX_RAID_SUBGROUPS slots) else none

theorem exactCounts_append (raid : Bool) (slots : List MemberSlot) (slot : MemberSlot) :
    (exactCounts raid slots).map (·.modify slot.subGroup (· + 1)) = exactCounts raid (slots ++ [slot]) := by
  cases raid with
  | false => rfl
  | true => exact congrArg some (tally_append _ _).symm

theorem exactCounts_remove (raid : Bool) (l₁ l₂ : List MemberSlot) (slot : MemberSlot) :
    (exactCounts raid (l₁ ++ slot :: l₂)).map (·.modify slot.subGroup (· - 1)) = exactCounts raid (l₁ ++ l₂) := by
  cases raid with
  | false => rfl
  | true => exact congrArg some (tally_remove _ _ _).symm

theorem exactCounts_replace (raid : Bool) (l₁ l₂ : List MemberSlot) (slot slot' : MemberSlot) :
    ((exactCounts raid (l₁ ++ slot :: l₂)).map (·.modify slot'.subGroup (· + 1))).map (·.modify slot.subGroup (· - 1)) =
      exactCounts raid (l₁ ++ slot' :: l₂) := by
  cases raid with
  | false => rfl
  | true => exact congrArg some (tally_replace _ _ _ _).symm

/-- The slots and the counters; nothing is said of the leader. -/
structure Exact (g : Group) : Prop where
  nodup : (g.memberSlots.map (·.guid)).Nodup
  counts : g.subGroupsCounts = exactCounts g.isRaidGroup g.memberSlots
  groups : ∀ slot ∈ g.memberSlots, slot.subGroup < MAX_RAID_SUBGROUPS
  places : ∀ i, inBucket MemberSlot.subGroup i g.memberSlots ≤ Group.MAXGROUPSIZE
  party : g.isRaidGroup = false → ∀ slot ∈ g.memberSlots, slot.subGroup = 0
  linked : ∀ player ∈ g.memberMgr, player ∈ g.memberSlots.map (·.guid)
  invited : ∀ player ∈ g.invitees, player ∉ g.memberSlots.map (·.guid)
  battle : (g.bgGroup || g.bfGroup) = true → g.isRaidGroup = true

structure Sound (g : Group) : Prop extends Exact g where
  leader : g.leaderGuid ∈ g.memberSlots.map (·.guid)

/-! ## Slots -/

variable {g : Group} {guid : ObjectGuid}

/-- The slot of a member is where it is changed or erased. -/
theorem split_slots {slots : List MemberSlot} {slot : MemberSlot} (h : slots.find? (·.guid = guid) = some slot)
    (f : MemberSlot → MemberSlot) : slot.guid = guid ∧ ∃ l₁ l₂, slots = l₁ ++ slot :: l₂ ∧
      modifySlot guid f slots = l₁ ++ f slot :: l₂ ∧ slots.eraseP (·.guid = guid) = l₁ ++ l₂ := by
  induction slots with
  | nil => cases h
  | cons s slots ih =>
    rw [List.find?_cons] at h
    by_cases hs : s.guid = guid
    · simp only [hs, decide_true, Option.some.injEq] at h
      subst h
      exact ⟨hs, [], slots, rfl, by simp [modifySlot, hs], by simp [hs]⟩
    simp only [hs, decide_false] at h
    obtain ⟨hg, l₁, l₂, h₁, h₂, h₃⟩ := ih h
    exact ⟨hg, s :: l₁, l₂, by rw [h₁]; rfl, by simp [modifySlot, hs, h₂], by simp [hs, h₃]⟩

theorem isMember_iff : g.isMember guid = true ↔ guid ∈ g.memberSlots.map (·.guid) := by
  simp [isMember, getMemberSlot, List.find?_isSome]

/-- A change of a slot that is not a move and keeps the guid keeps everything. -/
theorem Exact.modifySlot (h : g.Exact) {f : MemberSlot → MemberSlot} (hguid : ∀ s, (f s).guid = s.guid)
    (hgroup : ∀ s, (f s).group = s.group) : Exact { g with memberSlots := modifySlot guid f g.memberSlots } ∧
      (Group.modifySlot guid f g.memberSlots).map (·.guid) = g.memberSlots.map (·.guid) := by
  have hmap : ∀ {γ : Type} (k : MemberSlot → γ), (∀ s, k (f s) = k s) → ∀ slots : List MemberSlot,
      (Group.modifySlot guid f slots).map k = slots.map k := by
    intro γ k hk slots
    induction slots with
    | nil => rfl
    | cons s slots ih =>
      unfold Group.modifySlot
      split
      · rw [List.map_cons, List.map_cons, hk]
      · rw [List.map_cons, List.map_cons, ih]
  have hguids := hmap (·.guid) hguid g.memberSlots
  have hsub : ∀ s, (f s).subGroup = s.subGroup := fun s => by rw [MemberSlot.subGroup, hgroup, ← MemberSlot.subGroup]
  have hgroups := hmap MemberSlot.subGroup hsub g.memberSlots
  have hbucket : ∀ i, inBucket MemberSlot.subGroup i (Group.modifySlot guid f g.memberSlots) =
      inBucket MemberSlot.subGroup i g.memberSlots := by
    intro i
    have hcount : ∀ slots : List MemberSlot,
        inBucket MemberSlot.subGroup i slots = (slots.map MemberSlot.subGroup).countP (· = i) := fun slots => by
      rw [List.countP_map]
      rfl
    rw [hcount, hcount, hgroups]
  have hmem : ∀ {p : Nat → Prop}, (∀ slot ∈ g.memberSlots, p slot.subGroup) →
      ∀ slot ∈ Group.modifySlot guid f g.memberSlots, p slot.subGroup := by
    intro p hp slot hslot
    have hin : slot.subGroup ∈ g.memberSlots.map MemberSlot.subGroup := hgroups ▸ List.mem_map_of_mem hslot
    obtain ⟨slot', hslot', he⟩ := List.mem_map.1 hin
    exact he ▸ hp slot' hslot'
  refine ⟨⟨hguids ▸ h.nodup, h.counts.trans ?_, hmem (p := (· < MAX_RAID_SUBGROUPS)) h.groups,
    fun i => hbucket i ▸ h.places i, fun hr => hmem (p := (· = 0)) (h.party hr),
    fun player hp => hguids ▸ h.linked player hp, fun player hp => hguids ▸ h.invited player hp, h.battle⟩, hguids⟩
  show exactCounts g.isRaidGroup g.memberSlots = exactCounts g.isRaidGroup _
  simp only [exactCounts, tally, hbucket]

/-! ## Adding -/

theorem toNat_counter (h : g.Exact) {i : Nat} (hi : i < MAX_RAID_SUBGROUPS) :
    ((tally MemberSlot.subGroup MAX_RAID_SUBGROUPS g.memberSlots)[i]?).map UInt8.toNat =
      some (inBucket MemberSlot.subGroup i g.memberSlots) :=
  toNat_tally hi (Nat.lt_of_le_of_lt (h.places i) (by decide))

/-- The sub group `AddMember` finds has a place. -/
theorem freeSubGroup_spec (h : g.Exact) (hfull : g.isRaidGroup = false → g.memberSlots.length < Group.MAXGROUPSIZE)
    {subGroup : UInt8} (hf : g.freeSubGroup = some subGroup) :
    subGroup.toNat < MAX_RAID_SUBGROUPS ∧ (g.isRaidGroup = false → subGroup.toNat = 0) ∧
      inBucket MemberSlot.subGroup subGroup.toNat g.memberSlots < Group.MAXGROUPSIZE := by
  unfold freeSubGroup at hf
  rw [h.counts] at hf
  by_cases hr : g.isRaidGroup = true
  · rw [hr] at hf
    obtain ⟨i, hi, rfl⟩ := Option.map_eq_some_iff.1 hf
    obtain ⟨hlt, hfree, -⟩ := List.findIdx?_eq_some_iff_getElem.1 hi
    rw [length_tally] at hlt
    have hto : (UInt8.ofNat i).toNat = i := UInt8.toNat_ofNat_of_lt' (Nat.lt_trans hlt (by decide))
    have hcount := toNat_counter h hlt
    rw [List.getElem?_eq_getElem (by rwa [length_tally]), Option.map_some, Option.some.injEq] at hcount
    rw [hto]
    exact ⟨hlt, fun hn => absurd hr (by rw [hn]; decide), hcount ▸ of_decide_eq_true hfree⟩
  rw [Bool.eq_false_iff.2 hr] at hf
  cases hf
  exact ⟨by decide, fun _ => rfl, Nat.lt_of_le_of_lt List.countP_le_length (hfull (by simpa using hr))⟩

variable {player : ObjectGuid} {connected : ObjectGuid → Bool}

theorem Exact.addMember (h : g.Exact) (hnot : player ∉ g.memberSlots.map (·.guid))
    (hfull : g.isRaidGroup = false → g.memberSlots.length < Group.MAXGROUPSIZE) :
    (g.addMember player).Exact ∧ ∀ guid ∈ g.memberSlots.map (·.guid), guid ∈ (g.addMember player).memberSlots.map (·.guid) := by
  unfold Group.addMember
  split
  · exact ⟨h, fun _ hg => hg⟩
  next subGroup hf =>
  obtain ⟨hlt, hzero, hplace⟩ := freeSubGroup_spec h hfull hf
  have hslots : ((g.memberSlots ++ [(⟨player, subGroup, 0, 0⟩ : MemberSlot)]).map (·.guid)) =
      g.memberSlots.map (·.guid) ++ [player] := by rw [List.map_append]; rfl
  have hmem : ∀ slot ∈ g.memberSlots ++ [(⟨player, subGroup, 0, 0⟩ : MemberSlot)],
      slot ∈ g.memberSlots ∨ slot = ⟨player, subGroup, 0, 0⟩ := fun slot hs =>
    (List.mem_append.1 hs).imp_right List.mem_singleton.1
  refine ⟨⟨?_, ?_, fun slot hs => ?_, fun i => ?_, fun hr slot hs => ?_, fun p hp => ?_, fun p hp => ?_, h.battle⟩,
    fun guid hg => ?_⟩
  · exact hslots ▸ List.nodup_append.2 ⟨h.nodup, List.pairwise_singleton _ _, fun a ha b hb he => hnot (by
      rw [← List.mem_singleton.1 hb, ← he]; exact ha)⟩
  · exact (congrArg _ h.counts).trans (exactCounts_append _ _ ⟨player, subGroup, 0, 0⟩)
  · rcases hmem slot hs with hs | rfl
    · exact h.groups slot hs
    · exact hlt
  · rw [show (linkMember (subGroupCounterIncrease _ subGroup) player).memberSlots =
      g.memberSlots ++ [⟨player, subGroup, 0, 0⟩] from rfl, inBucket_append, inBucket_cons]
    by_cases hi : subGroup.toNat = i
    · have : inBucket MemberSlot.subGroup i g.memberSlots < Group.MAXGROUPSIZE := hi ▸ hplace
      simp only [MemberSlot.subGroup, hi, if_true, inBucket, List.countP_nil] at this ⊢
      omega
    have := h.places i
    simp only [MemberSlot.subGroup, hi, if_false, inBucket, List.countP_nil] at this ⊢
    omega
  · rcases hmem slot hs with hs | rfl
    · exact h.party hr slot hs
    · exact hzero hr
  · rcases List.mem_cons.1 hp with rfl | hp
    · exact hslots ▸ List.mem_append_right _ List.mem_cons_self
    · exact hslots ▸ List.mem_append_left _ (h.linked p (List.mem_of_mem_filter hp))
  · obtain ⟨hp, hne⟩ := List.mem_filter.1 hp
    have hp' : p ∉ g.memberSlots.map (·.guid) ++ [player] := fun hmem => (List.mem_append.1 hmem).elim (h.invited p hp)
      fun he => of_decide_eq_true hne (List.mem_singleton.1 he)
    exact hslots ▸ hp'
  · exact hslots ▸ List.mem_append_left _ hg

theorem Sound.addMember (h : g.Sound) (hnot : player ∉ g.memberSlots.map (·.guid))
    (hfull : g.isRaidGroup = false → g.memberSlots.length < Group.MAXGROUPSIZE) : (g.addMember player).Sound := by
  obtain ⟨he, hmem⟩ := h.toExact.addMember hnot hfull
  refine ⟨he, ?_⟩
  have hleader : (g.addMember player).leaderGuid = g.leaderGuid := by
    unfold Group.addMember
    split <;> rfl
  exact hleader ▸ hmem _ h.leader

/-- The counters are counted from the slots. -/
theorem initRaidSubGroupsCounter_eq (g : Group) :
    g.initRaidSubGroupsCounter = { g with subGroupsCounts := exactCounts true g.memberSlots } := by
  have hfold : ∀ slots done : List MemberSlot,
      slots.foldl (fun counts slot => counts.modify slot.subGroup (· + 1)) (tally MemberSlot.subGroup MAX_RAID_SUBGROUPS done) =
        tally MemberSlot.subGroup MAX_RAID_SUBGROUPS (done ++ slots) := by
    intro slots
    induction slots with
    | nil => intro done; rw [List.append_nil]; rfl
    | cons slot slots ih =>
      intro done
      rw [List.foldl_cons, ← tally_append, ih, List.append_assoc]
      rfl
  rw [initRaidSubGroupsCounter, exactCounts, if_pos rfl]
  exact congrArg (fun counts => { g with subGroupsCounts := some counts }) (hfold g.memberSlots [])

theorem isRaidGroup_or (g : Group) : (g.groupType ||| GROUPTYPE_RAID) &&& GROUPTYPE_RAID ≠ 0 := by
  have h : ∀ n : Fin 256, (UInt8.ofFin n ||| GROUPTYPE_RAID) &&& GROUPTYPE_RAID ≠ 0 := by decide +kernel
  have := h g.groupType.toFin
  rwa [UInt8.ofFin_toFin] at this

theorem Sound.convertToRaid (h : g.Sound) : g.convertToRaid.Sound := by
  have hraid : ({ g with groupType := g.groupType ||| GROUPTYPE_RAID } : Group).isRaidGroup = true :=
    decide_eq_true (isRaidGroup_or g)
  rw [Group.convertToRaid, initRaidSubGroupsCounter_eq]
  exact { h with
    counts := (congrArg (exactCounts · g.memberSlots) hraid).symm
    party := fun hr => absurd (hraid.symm.trans hr) (by decide)
    battle := fun _ => hraid }

theorem sound_create (leader : ObjectGuid) (bgGroup bfGroup lfg : Bool) : (create leader bgGroup bfGroup lfg).Sound := by
  have hempty : ∀ g : Group, g.memberSlots = [] → g.memberMgr = [] → g.invitees = [] →
      g.subGroupsCounts = exactCounts g.isRaidGroup [] → g.leaderGuid = leader →
      ((g.bgGroup || g.bfGroup) = true → g.isRaidGroup = true) → (g.addMember leader).Sound := by
    intro g hs hm hi hc hl hb
    have hexact : g.Exact := by
      refine ⟨?_, hs ▸ hc, ?_, ?_, ?_, ?_, ?_, hb⟩ <;> simp [hs, hm, hi, inBucket]
    refine ⟨(hexact.addMember (by simp [hs]) (by simp [hs, Group.MAXGROUPSIZE])).1, ?_⟩
    have hfree : ∃ subGroup, g.freeSubGroup = some subGroup := by
      rw [freeSubGroup, hc]
      cases g.isRaidGroup
      · exact ⟨0, rfl⟩
      · exact ⟨0, by decide⟩
    obtain ⟨subGroup, hf⟩ := hfree
    rw [Group.addMember, hf]
    simp [hs, hl, subGroupCounterIncrease, linkMember]
  unfold create
  extract_lets groupType g
  have hbattle : (g.bgGroup || g.bfGroup) = true → g.isRaidGroup = true := by
    intro hb
    have htype : g.groupType = GROUPTYPE_BGRAID := if_pos hb
    rw [isRaidGroup, htype]
    decide
  by_cases hr : g.isRaidGroup = true
  · rw [if_pos hr, initRaidSubGroupsCounter_eq]
    exact hempty _ rfl rfl rfl (congrArg (exactCounts · []) hr).symm rfl hbattle
  · rw [if_neg hr]
    exact hempty _ rfl rfl rfl (congrArg (exactCounts · []) (Bool.eq_false_iff.2 hr)).symm rfl hbattle

theorem memberMgr_addMember (hp : player ∈ (g.addMember guid).memberMgr) : player = guid ∨ player ∈ g.memberMgr := by
  unfold addMember at hp
  split at hp
  · exact .inr hp
  · exact (List.mem_cons.1 hp).imp_right List.mem_of_mem_filter

theorem memberMgr_create {leader : ObjectGuid} {bgGroup bfGroup lfg : Bool}
    (hp : player ∈ (create leader bgGroup bfGroup lfg).memberMgr) : player = leader := by
  unfold create at hp
  extract_lets groupType g at hp
  refine (memberMgr_addMember hp).elim id fun hp => absurd hp ?_
  split <;> exact List.not_mem_nil

/-! ## Leaders and moves -/

theorem Exact.changeLeader (h : g.Exact) (connected : ObjectGuid → Bool) (newLeader : ObjectGuid) :
    (g.changeLeader connected newLeader).Exact ∧
      (g.changeLeader connected newLeader).memberSlots.map (·.guid) = g.memberSlots.map (·.guid) ∧
      (g.changeLeader connected newLeader).memberMgr = g.memberMgr ∧
      (g.changeLeader connected newLeader).leaderGuid =
        if g.isMember newLeader && connected newLeader then newLeader else g.leaderGuid := by
  unfold Group.changeLeader Group.isMember
  cases g.getMemberSlot newLeader with
  | none => exact ⟨h, rfl, rfl, rfl⟩
  | some slot =>
    simp only [Option.isSome_some, Bool.true_and]
    cases hc : connected newLeader with
    | false => exact ⟨h, rfl, rfl, rfl⟩
    | true =>
      obtain ⟨he, hguids⟩ := @Exact.modifySlot g newLeader h
        (fun slot => { slot with flags := slot.flags &&& ~~~MEMBER_FLAG_ASSISTANT }) (fun _ => rfl) fun _ => rfl
      exact ⟨{ he with }, hguids, rfl, rfl⟩

theorem Sound.changeLeader (h : g.Sound) (connected : ObjectGuid → Bool) (newLeader : ObjectGuid) :
    (g.changeLeader connected newLeader).Sound := by
  obtain ⟨he, hguids, -, hleader⟩ := h.toExact.changeLeader connected newLeader
  refine ⟨he, ?_⟩
  rw [hguids, hleader]
  split
  next hnew => exact isMember_iff.1 (Bool.and_eq_true_iff.1 hnew).1
  next => exact h.leader

/-- With somebody in the game there is a leader. -/
theorem Exact.pickLeader (h : g.Exact) (hsome : ∃ player ∈ g.memberMgr, connected player = true) :
    (g.pickLeader connected).Sound := by
  unfold Group.pickLeader
  cases hf : g.memberSlots.find? (connected ·.guid) with
  | none =>
    obtain ⟨player, hp, hc⟩ := hsome
    obtain ⟨slot, hs, rfl⟩ := List.mem_map.1 (h.linked player hp)
    exact absurd hc (by simpa using List.find?_eq_none.1 hf slot hs)
  | some slot =>
    obtain ⟨he, hguids, -, hleader⟩ := h.changeLeader connected slot.guid
    have hmem := List.mem_map_of_mem (f := (·.guid)) (List.mem_of_find?_eq_some hf)
    refine ⟨he, ?_⟩
    rw [hguids, hleader, isMember_iff.2 hmem, List.find?_some hf]
    exact hmem

theorem pickLeader_memberMgr (h : g.Exact) (connected : ObjectGuid → Bool) :
    (g.pickLeader connected).memberMgr = g.memberMgr := by
  unfold Group.pickLeader
  split
  · rfl
  · exact (h.changeLeader connected _).2.2.1

theorem inBucket_replace (l₁ l₂ : List MemberSlot) (slot slot' : MemberSlot) (i : Nat) :
    inBucket MemberSlot.subGroup i (l₁ ++ slot' :: l₂) + (if slot.subGroup = i then 1 else 0) =
      inBucket MemberSlot.subGroup i (l₁ ++ slot :: l₂) + if slot'.subGroup = i then 1 else 0 := by
  simp only [inBucket_append, inBucket_cons]
  omega

theorem Sound.changeMembersGroup (h : g.Sound) {group : UInt8} (hlt : group.toNat < MAX_RAID_SUBGROUPS)
    (hfree : g.hasFreeSlotSubGroup group = true) : (g.changeMembersGroup guid group).Sound := by
  unfold Group.changeMembersGroup
  split
  · exact h
  next hraid =>
  have hraid : g.isRaidGroup = true := by simpa using hraid
  split
  · exact h
  next slot hslot =>
  split
  · exact h
  next hne =>
  obtain ⟨-, l₁, l₂, hs, hmod, -⟩ := split_slots hslot fun slot => { slot with group := group }
  -- there is a place
  have hplace : inBucket MemberSlot.subGroup group.toNat g.memberSlots < Group.MAXGROUPSIZE := by
    rw [hasFreeSlotSubGroup, h.counts, hraid] at hfree
    have hcount := toNat_counter h.toExact hlt
    simp only [exactCounts, if_true, Option.any_some] at hfree
    cases hget : (tally MemberSlot.subGroup MAX_RAID_SUBGROUPS g.memberSlots)[group.toNat]? with
    | none => rw [hget] at hfree; cases hfree
    | some count =>
      rw [hget] at hfree hcount
      rw [Option.map_some, Option.some.injEq] at hcount
      exact hcount ▸ of_decide_eq_true hfree
  have hmap : (l₁ ++ { slot with group := group } :: l₂).map (·.guid) = g.memberSlots.map (·.guid) := by
    rw [hs, List.map_append, List.map_append]
    rfl
  have hall : ∀ s ∈ l₁ ++ { slot with group := group } :: l₂, s ∈ g.memberSlots ∨ s.subGroup = group.toNat := by
    intro s hmem
    rw [hs]
    rcases List.mem_append.1 hmem with hmem | hmem
    · exact .inl (List.mem_append_left _ hmem)
    rcases List.mem_cons.1 hmem with rfl | hmem
    · exact .inr rfl
    · exact .inl (List.mem_append_right _ (List.mem_cons_of_mem _ hmem))
  simp only [hmod]
  refine ⟨⟨hmap ▸ h.nodup, ?_, fun s hmem => ?_, fun i => ?_,
    fun hr => absurd (hraid.symm.trans hr) (by decide), fun p hp => hmap ▸ h.linked p hp,
    fun p hp => hmap ▸ h.invited p hp, h.battle⟩, hmap ▸ h.leader⟩
  · have hcounts := exactCounts_replace g.isRaidGroup l₁ l₂ slot { slot with group := group }
    rw [← hs, ← h.counts] at hcounts
    exact hcounts
  · rcases hall s hmem with hmem | hmem
    · exact h.groups s hmem
    · exact hmem ▸ hlt
  · have hrep := inBucket_replace l₁ l₂ slot { slot with group := group } i
    rw [← hs] at hrep
    have hle := h.places i
    have hsub : MemberSlot.subGroup { slot with group := group } = group.toNat := rfl
    by_cases hi : group.toNat = i
    · rw [hsub, if_pos hi] at hrep
      have : inBucket MemberSlot.subGroup i g.memberSlots < Group.MAXGROUPSIZE := hi ▸ hplace
      show inBucket MemberSlot.subGroup i (l₁ ++ { slot with group := group } :: l₂) ≤ _
      omega
    rw [hsub, if_neg hi] at hrep
    show inBucket MemberSlot.subGroup i (l₁ ++ { slot with group := group } :: l₂) ≤ _
    omega

theorem changeMembersGroup_memberMgr (g : Group) (guid : ObjectGuid) (group : UInt8) :
    (g.changeMembersGroup guid group).memberMgr = g.memberMgr := by
  unfold changeMembersGroup
  split
  · rfl
  split
  · rfl
  split <;> rfl

/-! ## Removing -/

theorem Exact.eraseSlot (h : g.Exact) (hnot : guid ∉ g.memberMgr) : (g.eraseSlot guid).Exact ∧
    (∀ player ∈ g.memberSlots.map (·.guid), player ≠ guid → player ∈ (g.eraseSlot guid).memberSlots.map (·.guid)) ∧
    (g.eraseSlot guid).memberMgr = g.memberMgr ∧ (g.eraseSlot guid).leaderGuid = g.leaderGuid := by
  unfold Group.eraseSlot
  split
  · exact ⟨h, fun _ hp _ => hp, rfl, rfl⟩
  next slot hslot =>
  obtain ⟨hguid, l₁, l₂, hs, -, herase⟩ := split_slots hslot id
  simp only [herase]
  have hsub : (l₁ ++ l₂).Sublist g.memberSlots :=
    hs ▸ (List.Sublist.refl l₁).append (List.sublist_cons_self slot l₂)
  have hstay : ∀ player ∈ g.memberSlots.map (·.guid), player ≠ guid → player ∈ (l₁ ++ l₂).map (·.guid) := by
    intro player hp hne
    rw [hs] at hp
    simp only [List.map_append, List.map_cons, List.mem_append, List.mem_cons] at hp ⊢
    rcases hp with hp | hp | hp
    · exact .inl hp
    · exact absurd (hp.trans hguid) hne
    · exact .inr hp
  have hcounts := exactCounts_remove g.isRaidGroup l₁ l₂ slot
  rw [← hs, ← h.counts] at hcounts
  exact ⟨⟨h.nodup.sublist (hsub.map _), hcounts, fun s hm => h.groups s (hsub.subset hm),
    fun i => Nat.le_trans hsub.countP_le (h.places i), fun hr s hm => h.party hr s (hsub.subset hm),
    fun p hp => hstay p (h.linked p hp) fun he => hnot (he ▸ hp),
    fun p hp hm => h.invited p hp ((hsub.map _).subset hm), h.battle⟩, hstay, rfl, rfl⟩

theorem Sound.removeMember (h : g.Sound) (hc : ∀ player ∈ g.memberMgr, connected player = true)
    {method : RemoveMethod} {inDungeon : Bool} {g' : Group}
    (hr : g.removeMember connected guid method inDungeon = some g') :
    g'.Sound ∧ ∀ player ∈ g'.memberMgr, player ∈ g.memberMgr := by
  unfold Group.removeMember at hr
  split at hr
  · cases hr
    exact ⟨h, fun _ hp => hp⟩
  split at hr
  next =>
    -- nobody who is offline has a reference
    generalize hg₁ : (if connected guid || (!g.bgGroup && !g.bfGroup) then g.delinkMember guid else g) = g₁ at hr
    have hexact : g₁.Exact ∧ guid ∉ g₁.memberMgr ∧ (∀ player ∈ g₁.memberMgr, player ∈ g.memberMgr) ∧
        g₁.memberSlots = g.memberSlots ∧ g₁.leaderGuid = g.leaderGuid := by
      rw [← hg₁]
      split
      · exact ⟨{ h.toExact with linked := fun p hp => h.linked p (List.mem_of_mem_filter hp) },
          fun hm => absurd rfl (of_decide_eq_true (List.mem_filter.1 hm).2),
          fun p hp => List.mem_of_mem_filter hp, rfl, rfl⟩
      next hoff => exact ⟨h.toExact, fun hm => hoff (by rw [hc guid hm]; rfl), fun _ hp => hp, rfl, rfl⟩
    obtain ⟨he₁, hnot, hsub, hslots, hleader⟩ := hexact
    obtain ⟨he₂, hstay, hmgr, hleader₂⟩ := he₁.eraseSlot hnot
    simp only at hr
    generalize hg₂ : g₁.eraseSlot guid = g₂ at hr he₂ hstay hmgr hleader₂
    generalize hg₃ : (if g₂.leaderGuid = guid then g₂.pickLeader connected else g₂) = g₃ at hr
    have hmgr₃ : g₃.memberMgr = g₂.memberMgr := by
      rw [← hg₃]
      split
      · exact pickLeader_memberMgr he₂ connected
      · rfl
    generalize hleast : (if g₃.isLFGGroup || g₃.bgGroup then 1 else 2) = least at hr
    split at hr
    · cases hr
    split at hr
    · cases hr
    next hfew =>
    cases hr
    refine ⟨?_, fun p hp => hsub p (hmgr ▸ hmgr₃ ▸ hp)⟩
    -- somebody is left in the game
    have hpos : 0 < g₂.memberMgr.length := by
      rw [← hmgr₃]
      split at hleast <;> omega
    obtain ⟨player, hp⟩ := List.exists_mem_of_length_pos hpos
    rw [← hg₃]
    split
    · exact he₂.pickLeader ⟨player, hp, hc player (hsub player (hmgr ▸ hp))⟩
    next hother =>
    have hmem : g₁.leaderGuid ∈ g₁.memberSlots.map (·.guid) := by
      rw [hslots, hleader]
      exact h.leader
    exact ⟨he₂, hleader₂ ▸ hstay _ hmem fun he => hother (hleader₂.trans he)⟩
  · cases hr

end Group

namespace GroupWorld

/-- The group is as it should be, and the references are of players who are in the game. -/
def Sound (w : GroupWorld) : Prop :=
  ∀ g, w.group = some g → g.Sound ∧ ∀ player ∈ g.memberMgr, w.connected player = true

/-- The dungeon finder puts a new member into a full group that is no raid. -/
def overfills : Event → GroupWorld → Bool
  | .lfg player, w =>
    w.group.any fun g => !g.isMember player && w.connected player && !g.isRaidGroup && Group.MAXGROUPSIZE ≤ g.memberSlots.length
  | _, _ => false

def Allowed (event : Event) (w : GroupWorld) : Prop := overfills event w = false

instance (event : Event) (w : GroupWorld) : Decidable (Allowed event w) := inferInstanceAs (Decidable (_ = false))

variable {w : GroupWorld}

theorem sound_add {g : Group} (h : g.Sound) (hc : ∀ player ∈ g.memberMgr, w.connected player = true)
    (hw : w.Sound) {player : ObjectGuid} (hnot : player ∉ g.memberSlots.map (·.guid))
    (hfull : g.isRaidGroup = false → g.memberSlots.length < Group.MAXGROUPSIZE) : (w.add g player).Sound := by
  unfold add
  split
  next hp =>
    intro g' hg'
    cases hg'
    refine ⟨h.addMember hnot hfull, fun p hmem => ?_⟩
    rcases Group.memberMgr_addMember hmem with rfl | hmem
    · exact hp
    · exact hc p hmem
  · exact hw

theorem not_full {g : Group} (h : g.isFull ≠ true) : g.isRaidGroup = false → g.memberSlots.length < Group.MAXGROUPSIZE := by
  intro hr
  simpa [Group.isFull, hr] using h

theorem sound_some {g : Group} (h : g.Sound) (hc : ∀ player ∈ g.memberMgr, w.connected player = true) :
    Sound { w with group := some g } := by
  intro g' hg'
  cases hg'
  exact ⟨h, hc⟩

theorem linkMember_sound {g : Group} (h : g.Sound) (hc : ∀ player ∈ g.memberMgr, w.connected player = true)
    {guid : ObjectGuid} (hin : w.connected guid = true) (hmem : g.isMember guid = true) :
    (g.linkMember guid).Sound ∧ ∀ player ∈ (g.linkMember guid).memberMgr, w.connected player = true := by
  refine ⟨{ h with linked := fun player hp => ?_ }, fun player hp => ?_⟩
  · rcases List.mem_cons.1 hp with rfl | hp
    · exact Group.isMember_iff.1 hmem
    · exact h.linked player (List.mem_of_mem_filter hp)
  · rcases List.mem_cons.1 hp with rfl | hp
    · exact hin
    · exact hc player (List.mem_of_mem_filter hp)

theorem not_mem_of_not_isMember {g : Group} {guid : ObjectGuid} (h : ¬g.isMember guid = true) :
    guid ∉ g.memberSlots.map (·.guid) := fun hm => h (Group.isMember_iff.2 hm)

theorem onGroup_sound {event : Event} {g : Group} (hw : w.Sound) (hg : w.group = some g)
    (hok : Allowed event w) : (w.onGroup g event).Sound := by
  obtain ⟨h, hc⟩ := hw g hg
  cases event with
  | invite player =>
    rw [onGroup]
    split
    · exact hw
    next hnew =>
    have hnot : player ∉ g.memberSlots.map (·.guid) := not_mem_of_not_isMember fun hm => hnew (by rw [hm]; rfl)
    refine sound_some { h with invited := fun p hp => ?_ } hc
    rcases List.mem_cons.1 hp with rfl | hp
    · exact hnot
    · exact h.invited p (List.mem_of_mem_filter hp)
  | accept player =>
    rw [onGroup]
    split
    · exact hw
    next hinvited =>
    extract_lets g'
    have h' : g'.Sound := { h with invited := fun p hp => h.invited p (List.mem_of_mem_filter hp) }
    split
    · exact sound_some h' hc
    next hfull =>
    have hfull : ¬g'.isFull = true := fun hf => hfull (by rw [hf]; exact Bool.or_true _)
    exact sound_add h' hc hw (h.invited player (not_not.1 hinvited)) (not_full hfull)
  | join player =>
    rw [onGroup]
    split
    · exact hw
    next hcheck =>
    rw [Bool.or_eq_true, not_or] at hcheck
    exact sound_add h hc hw (not_mem_of_not_isMember hcheck.1) (not_full hcheck.2)
  | lfg player =>
    rw [onGroup]
    split
    · exact hw
    next hnew =>
    by_cases hin : w.connected player = true
    · have hroom : g.isRaidGroup = false → g.memberSlots.length < Group.MAXGROUPSIZE := by
        intro hraid
        simp only [Allowed, overfills, hg, Option.any_some, Bool.eq_false_iff.2 hnew, hin, hraid, Bool.not_false,
          Bool.true_and, decide_eq_false_iff_not, Nat.not_le] at hok
        exact hok
      exact sound_add h hc hw (not_mem_of_not_isMember hnew) hroom
    · rw [add, if_neg hin]
      exact hw
  | battleground player =>
    rw [onGroup]
    split
    · exact hw
    next hcheck =>
    split
    next hmem =>
      have hin : w.connected player = true := by
        cases hin : w.connected player with
        | true => rfl
        | false => exact absurd (by rw [hin]; exact Bool.or_true _) hcheck
      obtain ⟨h', hc'⟩ := linkMember_sound h hc hin hmem
      exact sound_some h' hc'
    next hnew =>
    -- the groups of battlegrounds and battlefields are raids
    have hbattle : (g.bgGroup || g.bfGroup) = true := by
      cases hb : g.bgGroup <;> cases hf : g.bfGroup <;> simp_all
    exact sound_add h hc hw (not_mem_of_not_isMember hnew) fun hr =>
      absurd ((h.battle hbattle).symm.trans hr) (by decide)
  | remove guid method inDungeon =>
    intro g' hg'
    obtain ⟨h', hsub⟩ := h.removeMember hc hg'
    exact ⟨h', fun p hp => hc p (hsub p hp)⟩
  | changeSubGroup guid groupNr =>
    rw [onGroup]
    split
    · exact hw
    next hcheck =>
    simp only [Bool.or_eq_true, decide_eq_true_eq, Bool.not_eq_true', not_or, Nat.not_le, Bool.not_eq_false] at hcheck
    refine sound_some (h.changeMembersGroup hcheck.1 hcheck.2) fun p hp => hc p ?_
    rwa [Group.changeMembersGroup_memberMgr] at hp
  | convertToRaid => exact sound_some h.convertToRaid hc
  | changeLeader guid =>
    refine sound_some (h.changeLeader w.connected guid) fun p hp => hc p ?_
    rwa [(h.toExact.changeLeader w.connected guid).2.2.1] at hp
  | disband =>
    intro g' hg'
    cases hg'
  | create leader bgGroup bfGroup lfg => exact hw
  | login guid => exact hw
  | logout guid => exact hw

theorem step_sound {event : Event} {w' : GroupWorld} (hw : w.Sound) (hok : Allowed event w) (hs : step event w = some w') :
    w'.Sound := by
  cases event with
  | login guid =>
    cases hs
    intro g' hg'
    obtain ⟨g, hg, rfl⟩ := Option.map_eq_some_iff.1 hg'
    obtain ⟨h, hc⟩ := hw g hg
    have hc' : ∀ player ∈ g.memberMgr, connected { w with players := guid :: w.players } player = true := by
      intro player hp
      exact decide_eq_true (List.mem_cons_of_mem _ (of_decide_eq_true (hc player hp)))
    split
    next hmem =>
      exact linkMember_sound (w := { w with players := guid :: w.players }) h hc' (decide_eq_true List.mem_cons_self) hmem
    next => exact ⟨h, hc'⟩
  | logout guid =>
    cases hs
    intro g' hg'
    obtain ⟨g, hg, rfl⟩ := Option.map_eq_some_iff.1 hg'
    obtain ⟨h, hc⟩ := hw g hg
    refine ⟨{ h with
      linked := fun player hp => h.linked player (List.mem_of_mem_filter hp)
      invited := fun player hp => h.invited player (List.mem_of_mem_filter hp) }, fun player hp => ?_⟩
    obtain ⟨hp, hne⟩ := List.mem_filter.1 hp
    exact decide_eq_true (List.mem_filter.2 ⟨of_decide_eq_true (hc player hp), hne⟩)
  | create leader bgGroup bfGroup lfg =>
    unfold step at hs
    rw [Option.some.injEq] at hs
    split at hs
    next hin =>
      subst hs
      rw [Bool.and_eq_true] at hin
      refine sound_some (Group.sound_create leader bgGroup bfGroup lfg) fun player hp => ?_
      rw [Group.memberMgr_create hp]
      exact hin.2
    next => exact hs ▸ hw
  | _ =>
    cases hs
    cases hg : w.group with
    | none => exact hw
    | some g => exact onGroup_sound hw hg hok

/-- Nobody is in the game, and there is no group. -/
def start : GroupWorld := ⟨none, []⟩

/-- In every run in which the dungeon finder puts nobody new into a full party, a raid counts its sub groups exactly, no
sub group is over full, every member has one slot and the leader is a member. -/
theorem reaches_raid {w : GroupWorld} (hr : Reaches step Allowed start w) {g : Group} (hg : w.group = some g)
    (hraid : g.isRaidGroup = true) :
    (∃ counts, g.subGroupsCounts = some counts ∧ counts.length = MAX_RAID_SUBGROUPS ∧
      ∀ i < MAX_RAID_SUBGROUPS, counts[i]?.map (·.toNat) = some (g.memberSlots.countP (·.group.toNat = i))) ∧
    (∀ i, g.memberSlots.countP (·.group.toNat = i) ≤ Group.MAXGROUPSIZE) ∧
    (g.memberSlots.map (·.guid)).Nodup ∧ g.leaderGuid ∈ g.memberSlots.map (·.guid) := by
  have hsound : w.Sound := hr.invariant Sound (fun _ _ _ ha hok hs => step_sound ha hok hs) fun _ h => by cases h
  obtain ⟨h, -⟩ := hsound g hg
  refine ⟨⟨_, h.counts.trans (congrArg (Group.exactCounts · g.memberSlots) hraid), length_tally _ _ _, fun i hi => ?_⟩,
    h.places, h.nodup, h.leader⟩
  exact Group.toNat_counter h.toExact hi

/-- A group of the dungeon finder that has lost one of its five. -/
def partyEvents : List Event :=
  [1, 2, 3, 4, 5, 6].map Event.login ++ [.create 1 false false true] ++
    [2, 3, 4].flatMap fun player => [.invite player, .accept player]

theorem reaches_raid_six : ∃ (w : GroupWorld) (g : Group), Reaches step Allowed start w ∧ w.group = some g ∧
    g.memberSlots.length = 6 ∧ (g.memberSlots.map (·.guid)).Nodup ∧ g.leaderGuid ∈ g.memberSlots.map (·.guid) := by
  have hrun : (runSteps (allowed step Allowed) (partyEvents ++ [.lfg 6, .convertToRaid, .join 5, .changeSubGroup 2 1])
      start).any (fun w => w.group.any fun g => g.isRaidGroup && g.memberSlots.length = 6) = true := by decide
  obtain ⟨w, hw, hany⟩ := (Option.any_eq_true _ _).1 hrun
  obtain ⟨g, hg, hraid⟩ := (Option.any_eq_true _ _).1 hany
  rw [Bool.and_eq_true, decide_eq_true_eq] at hraid
  have hr : Reaches step Allowed start w := .of_allowed (.of_runSteps hw)
  obtain ⟨-, -, hnodup, hleader⟩ := reaches_raid hr hg hraid.1
  exact ⟨w, g, hr, hg, hraid.2, hnodup, hleader⟩

/-- The leader invites a fifth player while the proposal to a sixth is open: the sixth is put into the full group, and
the first sub group of the raid it becomes has six. -/
theorem lfg_fills_a_full_group : ∃ (w : GroupWorld) (g : Group), Reaches step (fun _ _ => True) start w ∧
    w.group = some g ∧ g.isRaidGroup = true ∧ g.memberSlots.countP (·.group.toNat = 0) = 6 := by
  have hrun : (runSteps step (partyEvents ++ [.invite 5, .accept 5, .lfg 6, .convertToRaid]) start).any
      (fun w => w.group.any fun g => g.isRaidGroup && g.memberSlots.countP (·.group.toNat = 0) = 6) = true := by
    decide
  obtain ⟨w, hw, hany⟩ := (Option.any_eq_true _ _).1 hrun
  obtain ⟨g, hg, hraid⟩ := (Option.any_eq_true _ _).1 hany
  rw [Bool.and_eq_true, decide_eq_true_eq] at hraid
  exact ⟨w, g, .of_runSteps hw, hg, hraid⟩

end GroupWorld

end AtlasWow
