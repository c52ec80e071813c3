/-
A player is in one guild at most, and his guild id says in which, in every run
in which nobody declines an invite while he is in a guild; and every guild has
its leader and valid ranks, if besides nobody hands a guild to himself, a rank
that is removed has no members and the rows load well.

`Consistent` ties the players' guild ids to the tables of the guilds; what is
said of each guild is a predicate that its operations keep (`Kept`).
-/
import AtlasWow.Guilds.GuildRanks
import AtlasWow.Guilds.GuildWorld

namespace AtlasWow.GuildWorld

variable {pl : Placement ObjectGuid Member} {w w' : GuildWorld} {id : Nat} {g g' : Guild} {guid : ObjectGuid}

/-- A player's guild id says whose table he is in. -/
structure Consistent (w : GuildWorld) : Prop where
  next : 0 < w.nextGuildId
  ids : ∀ id g, w.guilds.find? id = some g → id ≠ 0 ∧ id < w.nextGuildId
  member : ∀ id g guid, w.guilds.find? id = some g → ((g.getMember guid).isSome = true ↔ w.guildId guid = id)
  known : ∀ guid, w.guildId guid ≠ 0 → ∃ g, w.guilds.find? (w.guildId guid) = some g

/-- What holds of every guild. -/
def All (P : Guild → Prop) (w : GuildWorld) : Prop := ∀ id g, w.guilds.find? id = some g → P g

/-! ## Guild ids -/

theorem find?_setGuild (w : GuildWorld) (id id' : Nat) (g : Guild) :
    (w.setGuild id g).guilds.find? id' = if id' = id then some g else w.guilds.find? id' := OMap.find?_insert _ _ _ _

theorem Consistent.setGuild (h : w.Consistent) (hg : w.guilds.find? id = some g)
    (hsome : ∀ k, (g'.getMember k).isSome = (g.getMember k).isSome) : (w.setGuild id g').Consistent where
  next := h.next
  ids := by
    intro id' g'' hfind
    rw [find?_setGuild] at hfind
    split at hfind
    next he => exact he ▸ h.ids id g hg
    next => exact h.ids id' g'' hfind
  member := by
    intro id' g'' k hfind
    rw [find?_setGuild] at hfind
    split at hfind
    next he =>
      cases hfind
      rw [hsome, he]
      exact h.member id g k hg
    next => exact h.member id' g'' k hfind
  known := by
    intro k hk
    obtain ⟨g₁, hg₁⟩ := h.known k hk
    show ∃ g, (w.setGuild id g').guilds.find? (w.guildId k) = some g
    rw [find?_setGuild]
    split
    · exact ⟨g', rfl⟩
    · exact ⟨g₁, hg₁⟩

theorem All.setGuild {P : Guild → Prop} (h : w.All P) (hP : P g) : (w.setGuild id g).All P := by
  intro id' g' hfind
  rw [find?_setGuild] at hfind
  split at hfind
  · cases hfind
    exact hP
  · exact h id' g' hfind

/-- Somebody without a guild becomes a member of one. -/
theorem Consistent.join (h : w.Consistent) (hg : w.guilds.find? id = some g) (hfree : w.guildId guid = 0) (rank : UInt8)
    (invited : ObjectGuid → Nat) :
    Consistent { w.setGuild id (g.insertMember pl guid rank) with
      guildId := Function.update w.guildId guid id
      guildIdInvited := invited } where
  next := h.next
  ids := by
    intro id' g' hfind
    rw [find?_setGuild] at hfind
    split at hfind
    next he => exact he ▸ h.ids id g hg
    next => exact h.ids id' g' hfind
  member := by
    intro id' g' k hfind
    have hid := (h.ids id g hg).1
    rw [find?_setGuild] at hfind
    show _ ↔ Function.update w.guildId guid id k = id'
    rw [Function.update_apply]
    split at hfind
    next he =>
      cases hfind
      rw [Guild.getMember_insertMember, he]
      by_cases hk : k = guid
      · simp [hk]
      · rw [if_neg hk, if_neg hk]
        exact h.member id g k hg
    next hne =>
    rw [h.member id' g' k hfind]
    by_cases hk : k = guid
    · rw [if_pos hk, hk, hfree]
      exact ⟨fun he => absurd he.symm (h.ids id' g' hfind).1, fun he => absurd he.symm hne⟩
    · rw [if_neg hk]
  known := by
    intro k
    show Function.update w.guildId guid id k ≠ 0 → ∃ g', (w.setGuild id _).guilds.find? (Function.update w.guildId guid id k) = _
    rw [Function.update_apply]
    intro hk
    split
    · exact ⟨_, by rw [find?_setGuild, if_pos rfl]⟩
    next hne =>
    rw [if_neg hne] at hk
    obtain ⟨g₁, hg₁⟩ := h.known k hk
    rw [find?_setGuild]
    split
    · exact ⟨_, rfl⟩
    · exact ⟨g₁, hg₁⟩

/-- Somebody leaves the guild he is in. -/
theorem Consistent.leave (h : w.Consistent) (hg : w.guilds.find? id = some g) (hmem : w.guildId guid = id)
    (hsome : ∀ k, (g'.getMember k).isSome = (g.getMember k).isSome) :
    Consistent { w.setGuild id (g'.eraseMember guid) with guildId := Function.update w.guildId guid 0 } where
  next := h.next
  ids := by
    intro id' g'' hfind
    rw [find?_setGuild] at hfind
    split at hfind
    next he => exact he ▸ h.ids id g hg
    next => exact h.ids id' g'' hfind
  member := by
    intro id' g'' k hfind
    rw [find?_setGuild] at hfind
    show _ ↔ Function.update w.guildId guid 0 k = id'
    rw [Function.update_apply]
    split at hfind
    next he =>
      cases hfind
      rw [Guild.getMember_eraseMember, he]
      by_cases hk : k = guid
      · rw [if_pos hk, if_pos hk]
        exact ⟨fun hf => absurd hf (by decide), fun hz => absurd hz.symm (h.ids id g hg).1⟩
      · rw [if_neg hk, if_neg hk, hsome]
        exact h.member id g k hg
    next hne =>
    rw [h.member id' g'' k hfind]
    by_cases hk : k = guid
    · rw [if_pos hk, hk, hmem]
      exact ⟨fun he => absurd he.symm hne, fun he => absurd he.symm (h.ids id' g'' hfind).1⟩
    · rw [if_neg hk]
  known := by
    intro k
    show Function.update w.guildId guid 0 k ≠ 0 → ∃ g'', (w.setGuild id _).guilds.find? (Function.update w.guildId guid 0 k) = _
    rw [Function.update_apply]
    intro hk
    split
    next hkg => exact absurd (if_pos hkg) hk
    next hne =>
    rw [if_neg hne] at hk
    obtain ⟨g₁, hg₁⟩ := h.known k hk
    rw [find?_setGuild]
    split
    · exact ⟨_, rfl⟩
    · exact ⟨g₁, hg₁⟩

theorem Consistent.disbandGuild (h : w.Consistent) (hg : w.guilds.find? id = some g) : (w.disbandGuild id g).Consistent where
  next := h.next
  ids := by
    intro id' g' hfind
    rw [GuildWorld.disbandGuild, OMap.find?_erase] at hfind
    split at hfind
    · cases hfind
    · exact h.ids id' g' hfind
  member := by
    intro id' g' k hfind
    rw [GuildWorld.disbandGuild, OMap.find?_erase] at hfind
    show _ ↔ (if (g.getMember k).isSome then 0 else w.guildId k) = id'
    split at hfind
    · cases hfind
    next hne =>
    rw [h.member id' g' k hfind]
    split
    next hk =>
      rw [(h.member id g k hg).1 hk]
      exact ⟨fun he => absurd he.symm hne, fun he => absurd he.symm (h.ids id' g' hfind).1⟩
    next => rfl
  known := by
    intro k
    show (if (g.getMember k).isSome then 0 else w.guildId k) ≠ 0 → ∃ g', (w.guilds.erase id).find?
      (if (g.getMember k).isSome then 0 else w.guildId k) = some g'
    split
    · exact fun hk => absurd rfl hk
    next hk =>
    intro hid
    obtain ⟨g₁, hg₁⟩ := h.known k hid
    refine ⟨g₁, ?_⟩
    rw [OMap.find?_erase, if_neg fun he => hk ((h.member id g k hg).2 he), hg₁]

theorem All.disbandGuild {P : Guild → Prop} (h : w.All P) : (w.disbandGuild id g).All P := by
  intro id' g' hfind
  rw [GuildWorld.disbandGuild, OMap.find?_erase] at hfind
  split at hfind
  · cases hfind
  · exact h id' g' hfind

/-! ## What every guild keeps -/

/-- A predicate that founding a guild, joining and leaving it and the changes of ranks keep. -/
structure Kept (pl : Placement ObjectGuid Member) (P : Guild → Prop) : Prop where
  founded : ∀ leader, P ((Guild.createDefaultGuildRanks ⟨leader, [], .empty, 0, 0⟩).insertMember pl leader GR_GUILDMASTER)
  joined : ∀ g guid, P g → g.getMember guid = none → P (g.insertMember pl guid g.getLowestRankId)
  left : ∀ g g' guid, P g → g.handOver guid = some g' → P (g'.eraseMember guid)
  ranked : ∀ g player name demote, P g → P (g.handleUpdateMemberRank player name demote)
  added : ∀ g player, P g → P (g.handleAddNewRank player)

variable {P : Guild → Prop} {player : ObjectGuid}

/-- The players' guild ids are right, and every guild is as it should be. -/
structure Fine (P : Guild → Prop) (w : GuildWorld) : Prop where
  consistent : w.Consistent
  all : w.All P

theorem Fine.addMember (hP : Kept pl P) (h : w.Fine P) (id : Nat) (guid : ObjectGuid) : (w.addMember pl id guid none).Fine P := by
  unfold GuildWorld.addMember
  split
  · exact h
  next g hg =>
  split
  · exact h
  next hfree =>
  have hfree : w.guildId guid = 0 := by simpa using hfree
  have hnew : g.getMember guid = none := by
    cases hm : g.getMember guid with
    | none => rfl
    | some m =>
      have hid := (h.consistent.member id g guid hg).1 (by rw [hm]; rfl)
      exact absurd (hid.symm.trans hfree) (h.consistent.ids id g hg).1
  exact ⟨h.consistent.join hg hfree _ _, All.setGuild h.all (hP.joined g guid (h.all id g hg) hnew)⟩

theorem Fine.deleteMember (hP : Kept pl P) (h : w.Fine P) (hg : w.guilds.find? (w.guildId guid) = some g) :
    (w.deleteMember (w.guildId guid) g guid).Fine P := by
  unfold GuildWorld.deleteMember
  split
  · exact ⟨h.consistent.disbandGuild hg, h.all.disbandGuild⟩
  next g' hg' =>
  exact ⟨h.consistent.leave hg rfl (Guild.isSome_handOver hg'),
    All.setGuild h.all (hP.left g g' guid (h.all _ g hg) hg')⟩

theorem Fine.createGuild (hP : Kept pl P) (h : w.Fine P) {leader : ObjectGuid} (hfree : w.guildId leader = 0)
    (hc : w.createGuild pl leader = some w') : w'.Fine P := by
  unfold GuildWorld.createGuild at hc
  split at hc
  · cases hc
  extract_lets g at hc
  cases hc
  have hnone : w.guilds.find? w.nextGuildId = none := by
    cases hfind : w.guilds.find? w.nextGuildId with
    | none => rfl
    | some g => exact absurd (h.consistent.ids _ g hfind).2 (Nat.lt_irrefl _)
  generalize hw₁ : ({ w with nextGuildId := w.nextGuildId + 1 }.setGuild w.nextGuildId g) = w₁
  have hfind : ∀ id', w₁.guilds.find? id' = if id' = w.nextGuildId then some g else w.guilds.find? id' := by
    intro id'
    rw [← hw₁]
    exact find?_setGuild { w with nextGuildId := w.nextGuildId + 1 } _ id' g
  have hids : w₁.guildId = w.guildId := by rw [← hw₁]; rfl
  have hnext : w₁.nextGuildId = w.nextGuildId + 1 := by rw [← hw₁]; rfl
  have hconsistent : w₁.Consistent := by
    have hpos := h.consistent.next
    refine ⟨by omega, fun id' g' hg' => ?_, fun id' g' k hg' => ?_, fun k hk => ?_⟩
    · rw [hfind] at hg'
      split at hg'
      · omega
      · have := h.consistent.ids id' g' hg'
        omega
    · rw [hfind] at hg'
      rw [hids]
      split at hg'
      next he =>
        cases hg'
        -- the new guild is empty, and nobody has its id
        refine ⟨fun hf => absurd (show false = true from hf) (by decide), fun hk => ?_⟩
        obtain ⟨g₁, hg₁⟩ := h.consistent.known k (by omega)
        rw [hk, he, hnone] at hg₁
        cases hg₁
      next => exact h.consistent.member id' g' k hg'
    · rw [hids] at hk ⊢
      obtain ⟨g₁, hg₁⟩ := h.consistent.known k hk
      rw [hfind]
      split
      · exact ⟨g, rfl⟩
      · exact ⟨g₁, hg₁⟩
  have hg : w₁.guilds.find? w.nextGuildId = some g := by rw [hfind, if_pos rfl]
  have hfree₁ : ¬w₁.guildId leader ≠ 0 := by rw [hids]; exact not_not.2 hfree
  rw [GuildWorld.addMember, hg]
  simp only [if_neg hfree₁]
  refine ⟨hconsistent.join hg (not_not.1 hfree₁) _ _, fun id' g' hg' => ?_⟩
  rw [find?_setGuild] at hg'
  split at hg'
  · cases hg'
    exact hP.founded leader
  next hne =>
  rw [hfind, if_neg hne] at hg'
  exact h.all id' g' hg'

/-! ## Loading -/

/-- No guild is without its leader while he is a member of another. -/
def leadersAtHome (tables : GuildTables) : Bool :=
  tables.guilds.entries.all fun e => tables.guilds.entries.all fun e' =>
    (e.2.getMember e.2.leaderGuid).isSome || (e'.2.getMember e.2.leaderGuid).isNone

theorem consistent_load {tables : GuildTables} {allowMultiple : Bool} (hhome : leadersAtHome tables = true) :
    (load tables allowMultiple).Consistent := by
  have hloses : ∀ guid id g, tables.guilds.find? id = some g → (g.getMember guid).isSome = true →
      losesRow tables.guilds guid = false := by
    intro guid id g hg hmem
    rw [Bool.eq_false_iff]
    intro hloses
    obtain ⟨e, he, hlost⟩ := List.any_eq_true.1 hloses
    rw [Bool.and_eq_true, decide_eq_true_eq] at hlost
    have hall := List.all_eq_true.1 (List.all_eq_true.1 hhome e he) (id, g) (OMap.mem_entries.2 hg)
    rw [hlost.1, Bool.or_eq_true] at hall
    rcases hall with hsome | hnone
    · rw [Option.isNone_iff_eq_none.1 hlost.2] at hsome
      cases hsome
    · rw [Option.isNone_iff_eq_none.1 hnone] at hmem
      cases hmem
  -- a member row says which guild
  have hrow : ∀ guid id g, tables.guilds.find? id = some g → (g.getMember guid).isSome = true →
      (load tables allowMultiple).guildId guid = id := by
    intro guid id g hg hmem
    show (if losesRow tables.guilds guid then 0 else _) = id
    rw [hloses guid id g hg hmem, if_neg (by decide)]
    cases hfind : tables.guilds.entries.find? fun e => (e.2.getMember guid).isSome with
    | none => exact absurd hmem (by simpa using List.find?_eq_none.1 hfind (id, g) (OMap.mem_entries.2 hg))
    | some e =>
      have he := List.find?_some hfind
      exact tables.unique guid e.1 id e.2 g (OMap.mem_entries.1 (List.mem_of_find?_eq_some hfind)) hg he hmem
  have hback : ∀ guid, (load tables allowMultiple).guildId guid ≠ 0 → ∃ g,
      tables.guilds.find? ((load tables allowMultiple).guildId guid) = some g ∧ (g.getMember guid).isSome = true := by
    intro guid hne
    have hdef : (load tables allowMultiple).guildId guid = if losesRow tables.guilds guid then 0 else
        ((tables.guilds.entries.find? fun e => (e.2.getMember guid).isSome).map Prod.fst).getD 0 := rfl
    split at hdef
    · exact absurd hdef hne
    cases hfind : tables.guilds.entries.find? fun e => (e.2.getMember guid).isSome with
    | none =>
      rw [hfind] at hdef
      exact absurd hdef hne
    | some e =>
      rw [hfind] at hdef
      rw [hdef]
      have he : (e.2.getMember guid).isSome = true :=
        List.find?_some (p := fun e : Nat × Guild => (e.2.getMember guid).isSome) hfind
      exact ⟨e.2, OMap.mem_entries.1 (List.mem_of_find?_eq_some hfind), he⟩
  have hguilds : ∀ id, (load tables allowMultiple).guilds.find? id =
      (tables.guilds.find? id).bind fun g => g.validate allowMultiple := fun id => OMap.find?_filterMap _ _ _
  refine ⟨tables.next, fun id g' hg' => ?_, fun id g' guid hg' => ?_, fun guid hne => ?_⟩
  · rw [hguilds] at hg'
    obtain ⟨g, hg, -⟩ := Option.bind_eq_some_iff.1 hg'
    exact tables.ids id g hg
  · rw [hguilds] at hg'
    obtain ⟨g, hg, hvalid⟩ := Option.bind_eq_some_iff.1 hg'
    rw [Guild.isSome_validate hvalid]
    refine ⟨hrow guid id g hg, fun hid => ?_⟩
    obtain ⟨g₁, hg₁, hmem⟩ := hback guid (hid ▸ (tables.ids id g hg).1)
    rw [hid, hg] at hg₁
    cases hg₁
    exact hmem
  · obtain ⟨g, hg, hmem⟩ := hback guid hne
    rw [hguilds, hg, Option.bind_some]
    exact Option.ne_none_iff_exists'.1 (Guild.validate_ne_none hmem)

/-! ## Runs -/

/-- What a step has to keep besides what every step does. -/
def Fits (P : Guild → Prop) (event : Event) (w : GuildWorld) : Prop :=
  match event with
  | .decline player => w.guildId player = 0
  | .restart tables allowMultiple => leadersAtHome tables = true ∧ ∀ id g g', tables.guilds.find? id = some g →
      g.validate allowMultiple = some g' → P g'
  | .setLeader player name => ∀ g, w.getGuild player = some g → P g → P (g.handleSetLeader player name)
  | .removeRank player rankId => ∀ g, w.getGuild player = some g → P g → P (g.handleRemoveRank player rankId)
  | _ => True

theorem isSome_handleSetLeader (g : Guild) (player name k : ObjectGuid) :
    ((g.handleSetLeader player name).getMember k).isSome = (g.getMember k).isSome := by
  unfold Guild.handleSetLeader
  split
  · rfl
  split
  · rw [Guild.isSome_changeRank, Guild.isSome_setLeaderGUID]
  · rfl

theorem isSome_handleUpdateMemberRank (g : Guild) (player name : ObjectGuid) (demote : Bool) (k : ObjectGuid) :
    ((g.handleUpdateMemberRank player name demote).getMember k).isSome = (g.getMember k).isSome := by
  unfold Guild.handleUpdateMemberRank
  generalize (if demote then GR_RIGHT_DEMOTE else GR_RIGHT_PROMOTE) = right
  split
  · rfl
  split
  · split
    · rfl
    split
    · split
      · rfl
      · exact Guild.isSome_changeRank _ _ _ _
    split
    · rfl
    · exact Guild.isSome_changeRank _ _ _ _
  · rfl

theorem getMember_handleAddNewRank (g : Guild) (player k : ObjectGuid) :
    (g.handleAddNewRank player).getMember k = g.getMember k := by
  unfold Guild.handleAddNewRank Guild.createRank
  split
  · rfl
  split <;> rfl

theorem getMember_handleRemoveRank (g : Guild) (player : ObjectGuid) (rankId : UInt8) (k : ObjectGuid) :
    (g.handleRemoveRank player rankId).getMember k = g.getMember k := by
  unfold Guild.handleRemoveRank
  split <;> rfl

theorem getGuild_eq_some (h : w.getGuild player = some g) : w.guilds.find? (w.guildId player) = some g := by
  unfold getGuild at h
  split at h
  · cases h
  · exact h

variable {event : Event}

/-- What a player does to his own guild. -/
theorem Fine.onGuild (hP : Kept pl P) (h : w.Fine P) (ha : actor event = some player)
    (hg : w.getGuild player = some g) (hok : Fits P event w) : (w.onGuild g event).Fine P := by
  have hfind := getGuild_eq_some hg
  have hmem : ∀ {name m}, g.getMember name = some m → w.guildId player = w.guildId name := by
    intro name m hm
    exact ((h.consistent.member _ g name hfind).1 (by rw [hm]; rfl)).symm
  have hset : ∀ {g'}, (∀ k, (g'.getMember k).isSome = (g.getMember k).isSome) → P g' →
      (w.setGuild (w.guildId player) g').Fine P := fun hsome hg' => ⟨h.consistent.setGuild hfind hsome, h.all.setGuild hg'⟩
  have hPg := h.all _ g hfind
  cases event with
  | invite player' invitee allied =>
    show (w.handleInviteMember player' invitee allied g).Fine P
    unfold handleInviteMember
    split
    · exact h
    · exact ⟨⟨h.consistent.next, h.consistent.ids, h.consistent.member, h.consistent.known⟩, h.all⟩
  | leave player' =>
    cases ha
    show (w.handleLeaveMember player g).Fine P
    unfold handleLeaveMember
    split
    · split
      · exact h
      · exact ⟨h.consistent.disbandGuild hfind, h.all.disbandGuild⟩
    · exact h.deleteMember hP hfind
  | remove player' name =>
    cases ha
    show (w.handleRemoveMember player name g).Fine P
    unfold handleRemoveMember
    split
    · exact h
    split
    next member memberMe hname hme =>
      split
      · exact h
      · rw [hmem hname] at hfind ⊢
        exact h.deleteMember hP hfind
    next => exact h
  | setLeader player' name =>
    cases ha
    exact hset (isSome_handleSetLeader g player name) (hok g hg hPg)
  | updateMemberRank player' name demote =>
    cases ha
    exact hset (isSome_handleUpdateMemberRank g player name demote) (hP.ranked g player name demote hPg)
  | addNewRank player' =>
    cases ha
    exact hset (fun k => congrArg _ (getMember_handleAddNewRank g player k)) (hP.added g player hPg)
  | removeRank player' rankId =>
    cases ha
    exact hset (fun k => congrArg _ (getMember_handleRemoveRank g player rankId k)) (hok g hg hPg)
  | disband player' =>
    cases ha
    show (if g.isLeader player then w.disbandGuild (w.guildId player) g else w).Fine P
    split
    · exact ⟨h.consistent.disbandGuild hfind, h.all.disbandGuild⟩
    · exact h
  | commandUninvite guid =>
    cases ha
    exact h.deleteMember hP hfind
  | _ => cases ha

theorem Fine.step (hP : Kept pl P) (h : w.Fine P) (hok : Fits P event w)
    (hs : step pl event w = some w') : w'.Fine P := by
  have own : ∀ {event : Event}, Fits P event w →
      (((actor event).bind w.getGuild).elim w fun g => w.onGuild g event).Fine P := by
    intro event hok
    cases ha : actor event with
    | none => exact h
    | some player =>
      cases hg : w.getGuild player with
      | none =>
        simp only [Option.bind_some, hg]
        exact h
      | some g =>
        simp only [Option.bind_some, hg]
        exact h.onGuild hP ha hg hok
  cases event with
  | create leader signatures =>
    unfold GuildWorld.step at hs
    simp only at hs
    split at hs
    · cases hs
      exact h
    next hfree =>
    obtain ⟨w₁, hc, rfl⟩ := Option.map_eq_some_iff.1 hs
    have h₁ := h.createGuild hP (not_not.1 hfree) hc
    generalize w₁.guildId leader = id
    clear hc hs hok
    induction signatures generalizing w₁ with
    | nil => exact h₁
    | cons guid signatures ih => exact ih _ (h₁.addMember hP id guid)
  | accept player allied =>
    cases hs
    show (if _ then _ else _ : GuildWorld).Fine P
    split
    · exact h.addMember hP _ _
    · exact h
  | decline player =>
    cases hs
    have hsame : Function.update w.guildId player 0 = w.guildId := by
      rw [← show w.guildId player = 0 from hok]
      exact Function.update_eq_self player w.guildId
    have hc := h.consistent
    rw [hsame]
    exact ⟨⟨hc.next, hc.ids, hc.member, hc.known⟩, h.all⟩
  | commandInvite guid id =>
    cases hs
    exact h.addMember hP id guid
  | commandDelete id =>
    cases hs
    cases hg : w.guilds.find? id with
    | none => exact h
    | some g => exact ⟨h.consistent.disbandGuild hg, h.all.disbandGuild⟩
  | restart tables allowMultiple =>
    cases hs
    refine ⟨consistent_load hok.1, fun id g' hg' => ?_⟩
    rw [show (load tables allowMultiple).guilds.find? id = _ from OMap.find?_filterMap _ _ _] at hg'
    obtain ⟨g, hg, hvalid⟩ := Option.bind_eq_some_iff.1 hg'
    exact hok.2 id g g' hg hvalid
  | _ =>
    cases hs
    exact own hok

/-- No guilds yet. -/
def start : GuildWorld := ⟨.empty, 1, fun _ => 0, fun _ => 0⟩

theorem fine_start : start.Fine P where
  consistent := {
    next := Nat.one_pos
    ids := fun _ _ h => by cases h
    member := fun _ _ _ h => by cases h
    known := fun _ h => absurd rfl h }
  all := fun _ _ h => by cases h

/-! ## One guild -/

/-- Every player is in one guild at most, and his guild id is that guild's, or 0. -/
def OneGuild (w : GuildWorld) : Prop := ∀ guid,
  (∀ id id' g g', w.guilds.find? id = some g → w.guilds.find? id' = some g' → (g.getMember guid).isSome = true →
    (g'.getMember guid).isSome = true → id = id') ∧
  (∀ id g, w.guilds.find? id = some g → (g.getMember guid).isSome = true → w.guildId guid = id) ∧
  ((∀ id g, w.guilds.find? id = some g → (g.getMember guid).isSome = false) → w.guildId guid = 0)

theorem Consistent.oneGuild (h : w.Consistent) : w.OneGuild := by
  intro guid
  have hid : ∀ id g, w.guilds.find? id = some g → (g.getMember guid).isSome = true → w.guildId guid = id :=
    fun id g hg => (h.member id g guid hg).1
  refine ⟨fun id id' g g' hg hg' hm hm' => (hid id g hg hm).symm.trans (hid id' g' hg' hm'), hid, fun hnone => ?_⟩
  by_contra hne
  obtain ⟨g, hg⟩ := h.known guid hne
  have hm := (h.member _ g guid hg).2 rfl
  rw [hnone _ g hg] at hm
  cases hm

/-- Nobody declines an invite while he is in a guild, and no guild is loaded without its leader while he is a member of
another. -/
def undeclined : Event → GuildWorld → Bool
  | .decline player, w => w.guildId player = 0
  | .restart tables _, _ => leadersAtHome tables
  | _, _ => true

def Undeclined (event : Event) (w : GuildWorld) : Prop := undeclined event w = true

instance (event : Event) (w : GuildWorld) : Decidable (Undeclined event w) := inferInstanceAs (Decidable (_ = true))

theorem kept_true (pl : Placement ObjectGuid Member) : Kept pl fun _ => True :=
  ⟨fun _ => trivial, fun _ _ _ _ => trivial, fun _ _ _ _ _ => trivial, fun _ _ _ _ _ => trivial, fun _ _ _ => trivial⟩

theorem fits_undeclined (hok : Undeclined event w) : Fits (fun _ => True) event w := by
  cases event with
  | decline player =>
    have hfree : w.guildId player = 0 := of_decide_eq_true hok
    exact hfree
  | restart tables allowMultiple => exact ⟨hok, fun _ _ _ _ _ => trivial⟩
  | setLeader player name => exact fun _ _ _ => trivial
  | removeRank player rankId => exact fun _ _ _ => trivial
  | _ => exact trivial

/-- In every run in which nobody declines an invite while he is in a guild, every player is in one guild at most and has
its id; a decline keeps this if and only if the player is in none. -/
theorem reaches_one_guild (pl : Placement ObjectGuid Member) {w : GuildWorld}
    (hr : Reaches (step pl) Undeclined start w) : w.OneGuild ∧
    ∀ player w', step pl (.decline player) w = some w' → (w'.OneGuild ↔ w.guildId player = 0) := by
  have hfine : w.Fine fun _ => True :=
    hr.invariant (Fine fun _ => True) (fun _ _ _ ha hok hs => ha.step (kept_true pl) (fits_undeclined hok) hs) fine_start
  refine ⟨hfine.consistent.oneGuild, fun player w' hs => ⟨fun hone => ?_, fun hfree => ?_⟩⟩
  · by_contra hne
    obtain ⟨g, hg⟩ := hfine.consistent.known player hne
    have hm := (hfine.consistent.member _ g player hg).2 rfl
    cases hs
    have hid : Function.update w.guildId player 0 player = w.guildId player := (hone player).2.1 _ g hg hm
    rw [Function.update_self] at hid
    exact hne hid.symm
  · have hfits : Fits (fun _ => True) (.decline player) w := hfree
    exact (hfine.step (kept_true pl) hfits hs).consistent.oneGuild

/-- Guild 1 of player 1 and guild 2 of player 3; player 2 joins the first. -/
def foundedEvents : List Event := [.create 1 [2], .create 3 []]

theorem reaches_one_guild_moves : ∃ w, Reaches (step (.front _ _)) Undeclined start w ∧ w.guildId 2 = 2 ∧ w.OneGuild := by
  have hrun : (runSteps (allowed (step (.front _ _)) Undeclined)
      (foundedEvents ++ [.leave 2, .decline 2, .invite 3 2 true, .accept 2 true]) start).any
      (fun w => w.guildId 2 = 2) = true := by decide
  obtain ⟨w, hw, hid⟩ := (Option.any_eq_true _ _).1 hrun
  have hr : Reaches (step (.front _ _)) Undeclined start w := .of_allowed (.of_runSteps hw)
  exact ⟨w, hr, of_decide_eq_true hid, (reaches_one_guild (.front _ _) hr).1⟩

/-- A member declines an invite nobody has made him: his guild id is gone, his row is not, and the next guild takes
him. -/
theorem declined_into_two_guilds : ∃ w, Reaches (step (.front _ _)) (fun _ _ => True) start w ∧
    ∃ g g', w.guilds.find? 1 = some g ∧ w.guilds.find? 2 = some g' ∧ (g.getMember 2).isSome = true ∧
      (g'.getMember 2).isSome = true := by
  have hrun : (runSteps (step (.front _ _)) (foundedEvents ++ [.decline 2, .invite 3 2 true, .accept 2 true]) start).any
      (fun w => (w.guilds.find? 1).any fun g => (w.guilds.find? 2).any fun g' =>
        (g.getMember 2).isSome && (g'.getMember 2).isSome) = true := by decide
  obtain ⟨w, hw, hany⟩ := (Option.any_eq_true _ _).1 hrun
  obtain ⟨g, hg, hany⟩ := (Option.any_eq_true _ _).1 hany
  obtain ⟨g', hg', hboth⟩ := (Option.any_eq_true _ _).1 hany
  rw [Bool.and_eq_true] at hboth
  exact ⟨w, .of_runSteps hw, g, g', hg, hg', hboth.1, hboth.2⟩

/-! ## One leader -/

/-- Besides: nobody hands a guild to himself, a rank that is removed has no members, and the rows load well. -/
def careful : Event → GuildWorld → Bool
  | .decline player, w => w.guildId player = 0
  | .setLeader player name, w => (w.getGuild player).all fun g => !g.isLeader player || name ≠ player
  | .removeRank player rankId, w => (w.getGuild player).all fun g => !g.canRemoveRank player rankId || g.lowestUnused
  | .restart tables allowMultiple, _ => leadersAtHome tables && tables.guilds.entries.all fun e => e.2.loadsWell allowMultiple
  | _, _ => true

def Careful (event : Event) (w : GuildWorld) : Prop := careful event w = true

instance (event : Event) (w : GuildWorld) : Decidable (Careful event w) := inferInstanceAs (Decidable (_ = true))

theorem kept_sound (pl : Placement ObjectGuid Member) : Kept pl Guild.Sound where
  founded := Guild.sound_founded pl
  joined := fun _ _ h hnew => h.insertMember pl hnew
  left := fun _ _ _ h hover => h.deleteMember hover
  ranked := fun _ _ _ demote h => h.handleUpdateMemberRank demote
  added := fun _ _ h => h.handleAddNewRank

theorem fits_careful (hok : Careful event w) : Fits Guild.Sound event w := by
  cases event with
  | decline player =>
    have hfree : w.guildId player = 0 := of_decide_eq_true hok
    exact hfree
  | restart tables allowMultiple =>
    obtain ⟨hhome, hwell⟩ := Bool.and_eq_true_iff.1 hok
    refine ⟨hhome, fun id g g' hg hvalid => ?_⟩
    exact Guild.validate_sound (tables.ranks id g hg) (List.all_eq_true.1 hwell (id, g) (OMap.mem_entries.2 hg)) hvalid
  | setLeader player name =>
    intro g hg h
    have hok : !g.isLeader player || name ≠ player := (Option.all_eq_true _ _).1 hok g hg
    exact h.handleSetLeader fun hl => by simpa [hl] using hok
  | removeRank player rankId =>
    intro g hg h
    have hok : !g.canRemoveRank player rankId || g.lowestUnused := (Option.all_eq_true _ _).1 hok g hg
    exact h.handleRemoveRank fun hcan => by simpa [hcan] using hok
  | _ => exact trivial

/-- In every careful run every guild is led by its one guild master and has ranks 0 to n - 1 that its members' ranks are
among; a new leader and the removal of a rank keep this if and only if they are careful. -/
theorem reaches_led (pl : Placement ObjectGuid Member) {w : GuildWorld} (hr : Reaches (step pl) Careful start w)
    {id : Nat} {g : Guild} (hg : w.guilds.find? id = some g) : g.Led ∧
    (∀ player name, (g.handleSetLeader player name).Led ↔ (g.isLeader player = true → name ≠ player)) ∧
    ∀ player rankId, (g.handleRemoveRank player rankId).Led ↔ (g.canRemoveRank player rankId = true → g.lowestUnused = true) := by
  have hfine : w.Fine Guild.Sound :=
    hr.invariant (Fine Guild.Sound) (fun _ _ _ ha hok hs => ha.step (kept_sound pl) (fits_careful hok) hs) fine_start
  have h := hfine.all id g hg
  exact ⟨h.led, fun _ _ => h.led_handleSetLeader, fun _ _ => h.led_handleRemoveRank⟩

/-- Player 1 hands his guild to player 2, who adds a rank and takes it away again after its one member has left. -/
theorem reaches_led_handed : ∃ w g, Reaches (step (.front _ _)) Careful start w ∧ w.guilds.find? 1 = some g ∧
    g.leaderGuid = 2 ∧ g.Led := by
  have hrun : (runSteps (allowed (step (.front _ _)) Careful)
      [.create 1 [2], .setLeader 1 2, .addNewRank 2, .invite 2 3 true, .accept 3 true, .leave 3, .removeRank 2 5] start).any
      (fun w => (w.guilds.find? 1).any fun g => g.leaderGuid = 2) = true := by decide
  obtain ⟨w, hw, hany⟩ := (Option.any_eq_true _ _).1 hrun
  obtain ⟨g, hg, hleader⟩ := (Option.any_eq_true _ _).1 hany
  have hr : Reaches (step (.front _ _)) Careful start w := .of_allowed (.of_runSteps hw)
  exact ⟨w, g, hr, hg, of_decide_eq_true hleader, (reaches_led (.front _ _) hr hg).1⟩

/-- (1) The leader names himself as the new leader, and the guild has no guild master. (2) A rank is removed while a
member has it. -/
theorem led_no_more :
    (∃ w g, Reaches (step (.front _ _)) (fun _ _ => True) start w ∧ w.guilds.find? 1 = some g ∧
      g.leaderGuid = 1 ∧ ∀ guid m, g.getMember guid = some m → m.rankId ≠ GR_GUILDMASTER) ∧
    ∃ w g m, Reaches (step (.front _ _)) (fun _ _ => True) start w ∧ w.guilds.find? 1 = some g ∧
      g.getMember 2 = some m ∧ g.ranks.length ≤ m.rankId.toNat := by
  have hself : (runSteps (step (.front _ _)) [.create 1 [2], .setLeader 1 1] start).any
      (fun w => (w.guilds.find? 1).any fun g => g.leaderGuid = 1 &&
        g.members.entries.all fun e => e.2.rankId ≠ GR_GUILDMASTER) = true := by decide
  have hlast : (runSteps (step (.front _ _)) [.create 1 [], .addNewRank 1, .invite 1 2 true, .accept 2 true, .removeRank 1 5]
      start).any (fun w => (w.guilds.find? 1).any fun g => (g.getMember 2).any fun m =>
        g.ranks.length ≤ m.rankId.toNat) = true := by decide
  constructor
  · obtain ⟨w, hw, hany⟩ := (Option.any_eq_true _ _).1 hself
    obtain ⟨g, hg, hany⟩ := (Option.any_eq_true _ _).1 hany
    rw [Bool.and_eq_true, decide_eq_true_eq] at hany
    exact ⟨w, g, .of_runSteps hw, hg, hany.1, fun guid m hm =>
      of_decide_eq_true (List.all_eq_true.1 hany.2 (guid, m) (UMap.mem_entries.2 hm))⟩
  · obtain ⟨w, hw, hany⟩ := (Option.any_eq_true _ _).1 hlast
    obtain ⟨g, hg, hany⟩ := (Option.any_eq_true _ _).1 hany
    obtain ⟨m, hm, hrank⟩ := (Option.any_eq_true _ _).1 hany
    exact ⟨w, g, m, .of_runSteps hw, hg, hm, of_decide_eq_true hrank⟩

end AtlasWow.GuildWorld
