/-
Who is listed in the games. Joins add to the lists and everything else takes
from them (`Takes`), so no player is ever listed twice if no join lists one
who is listed. The test whether a player is in a game is right for everybody
exactly while every listed player is in the world.
-/
import AtlasWow.World.Battleroyale

namespace AtlasWow.Battleroyale

variable {areas : Areas} {near : ObjectGuid → Bool} {b b' b'' : Battleroyale} {player : ObjectGuid} {gameId id g : Nat}
  {again : ObjectGuid → Battleroyale → Option Battleroyale}

/-! ## Games -/

theorem game_setGame (b : Battleroyale) (gameId : Nat) (game : Game) (id : Nat) :
    (b.setGame gameId game).game id = if id = gameId then game else b.game id := by
  simp only [Battleroyale.game, setGame, OMap.find?_insert]
  split <;> rfl

@[simp] theorem game_setGame_self (b : Battleroyale) (gameId : Nat) (game : Game) :
    (b.setGame gameId game).game gameId = game := by rw [game_setGame, if_pos rfl]

theorem game_setGame_of_ne (h : id ≠ gameId) (b : Battleroyale) (game : Game) :
    (b.setGame gameId game).game id = b.game id := by rw [game_setGame, if_neg h]

@[simp] theorem game_teleportTo (near : ObjectGuid → Bool) (player : ObjectGuid) (b : Battleroyale) (id : Nat) :
    (b.teleportTo near player).game id = b.game id := rfl

@[simp] theorem game_rewardPlayer (player : ObjectGuid) (position gameId : Nat) (b : Battleroyale) (id : Nat) :
    (b.rewardPlayer player position gameId).game id = b.game id := rfl

theorem game_foldl_teleportTo (near : ObjectGuid → Bool) (players : List ObjectGuid) (b : Battleroyale) (id : Nat) :
    (players.foldl (fun b player => b.teleportTo near player) b).game id = b.game id := by
  induction players generalizing b with
  | nil => rfl
  | cons player players ih => exact ih _

theorem mem_entries_game {game : Game} (h : (id, game) ∈ b.games.entries) : b.game id = game := by
  rw [Battleroyale.game, OMap.mem_entries.1 h, Option.getD_some]

theorem mem_listed : player ∈ b.listed ↔ ∃ id, player ∈ (b.game id).playersGuid := by
  rw [listed, List.mem_flatMap]
  constructor
  · intro h
    obtain ⟨⟨id, game⟩, hg, hp⟩ := h
    exact ⟨id, by rwa [mem_entries_game hg]⟩
  · intro h
    obtain ⟨id, hp⟩ := h
    cases hf : b.games.find? id with
    | none => rw [Battleroyale.game, hf] at hp; cases hp
    | some game => exact ⟨(id, game), OMap.mem_entries.2 hf, by rwa [Battleroyale.game, hf] at hp⟩

/-! ## What takes players out -/

/-- The members of groups that are left of others; some may have died. -/
def Sub (groups groups' : OMap Nat (List GroupMember)) : Prop :=
  ∀ g members, groups.find? g = some members → ∃ members', groups'.find? g = some members' ∧
    members.map (·.guid) = members'.map (·.guid)

theorem Sub.refl (groups : OMap Nat (List GroupMember)) : Sub groups groups := fun _ members h => ⟨members, h, rfl⟩

theorem Sub.trans {g₁ g₂ g₃ : OMap Nat (List GroupMember)} (h : Sub g₁ g₂) (h' : Sub g₂ g₃) : Sub g₁ g₃ := by
  intro g members hg
  obtain ⟨members', hg', he⟩ := h g members hg
  obtain ⟨members'', hg'', he'⟩ := h' g members' hg'
  exact ⟨members'', hg'', he.trans he'⟩

theorem Sub.isSome {groups groups' : OMap Nat (List GroupMember)} (h : Sub groups groups')
    (hg : (groups.find? g).isSome) : (groups'.find? g).isSome := by
  obtain ⟨members, hm⟩ := Option.isSome_iff_exists.1 hg
  obtain ⟨members', hm', -⟩ := h g members hm
  exact Option.isSome_iff_exists.2 ⟨members', hm'⟩

theorem Sub.eq_empty {groups : OMap Nat (List GroupMember)} (h : Sub groups .empty) : groups = .empty := by
  refine OMap.ext fun g => ?_
  cases hg : groups.find? g with
  | none => rfl
  | some members =>
    obtain ⟨_, hm, -⟩ := h g members hg
    cases hm

theorem map_guid_setDead (player : ObjectGuid) (members : List GroupMember) :
    (setDead player members).map (·.guid) = members.map (·.guid) := by
  induction members with
  | nil => rfl
  | cons member members ih =>
    unfold setDead
    split
    · rfl
    · rw [List.map_cons, ih, List.map_cons]

theorem sub_erase (groups : OMap Nat (List GroupMember)) (g : Nat) : Sub (groups.erase g) groups := by
  intro g' members h
  rw [OMap.find?_erase] at h
  split at h
  · cases h
  · exact ⟨members, h, rfl⟩

theorem sub_mapValues_setDead (groups : OMap Nat (List GroupMember)) (player : ObjectGuid) :
    Sub (groups.mapValues fun _ members => setDead player members) groups := by
  intro g members h
  rw [OMap.find?_mapValues] at h
  obtain ⟨members', hg, rfl⟩ := Option.map_eq_some_iff.1 h
  exact ⟨members', hg, map_guid_setDead player members'⟩

theorem sub_insert_setDead {groups : OMap Nat (List GroupMember)} {members : List GroupMember}
    (h : groups.find? g = some members) (player : ObjectGuid) : Sub (groups.insert g (setDead player members)) groups := by
  intro g' members' hg'
  rw [OMap.find?_insert] at hg'
  split at hg'
  next he =>
    cases hg'
    exact ⟨members, he ▸ h, map_guid_setDead player members⟩
  next => exact ⟨members', hg', rfl⟩

/-- What the removals do to the games of which `P` holds: rewards, resets, shorter lists with other groups; and
teleports. -/
inductive Takes (areas : Areas) (P : Nat → Prop) (b : Battleroyale) : Battleroyale → Prop
  | refl : Takes areas P b b
  | teleportTo {c : Battleroyale} (near : ObjectGuid → Bool) (player : ObjectGuid) : Takes areas P b c →
      Takes areas P b (c.teleportTo near player)
  | rewardPlayer {c : Battleroyale} {gameId : Nat} (player : ObjectGuid) (position : Nat) : Takes areas P b c → P gameId →
      Takes areas P b (c.rewardPlayer player position gameId)
  | reloadGameId {c : Battleroyale} {gameId : Nat} : Takes areas P b c → P gameId →
      Takes areas P b (c.reloadGameId areas gameId)
  | setGame {c : Battleroyale} {gameId : Nat} {playersGuid : List ObjectGuid} {groups : OMap Nat (List GroupMember)} :
      Takes areas P b c → P gameId → playersGuid.Sublist (c.game gameId).playersGuid →
      Sub groups (c.game gameId).groups →
      Takes areas P b (c.setGame gameId { c.game gameId with playersGuid := playersGuid, groups := groups })

variable {P : Nat → Prop}

theorem Takes.trans (h : Takes areas P b b') (h' : Takes areas P b' b'') : Takes areas P b b'' := by
  induction h' with
  | refl => exact h
  | teleportTo near player _ ih => exact .teleportTo near player ih
  | rewardPlayer player position _ hP ih => exact .rewardPlayer player position ih hP
  | reloadGameId _ hP ih => exact .reloadGameId ih hP
  | setGame _ hP hsub hgroups ih => exact .setGame ih hP hsub hgroups

theorem Takes.erasePlayer (h : Takes areas P b b') (hP : P gameId) (player : ObjectGuid) :
    Takes areas P b (b'.setGame gameId (erasePlayer player (b'.game gameId))) :=
  .setGame h hP List.filter_sublist (.refl _)

/-- Every list is what is left of the list it was. -/
theorem Takes.sublist (h : Takes areas P b b') (id : Nat) : (b'.game id).playersGuid.Sublist (b.game id).playersGuid := by
  induction h with
  | refl => exact .refl _
  | teleportTo _ _ _ ih => exact ih
  | rewardPlayer _ _ _ _ ih => exact ih
  | @reloadGameId c gameId _ _ ih =>
    unfold Battleroyale.reloadGameId
    split
    · exact ih
    rw [game_setGame]
    split
    · exact List.nil_sublist _
    · exact ih
  | setGame _ _ hsub _ ih =>
    rw [game_setGame]
    split
    next hid => exact hid ▸ hsub.trans (hid ▸ ih)
    next => exact ih

/-- With a game the games that share a player with it. -/
def Closed (P : Nat → Prop) (b : Battleroyale) : Prop :=
  ∀ id id' player, P id → player ∈ (b.game id).playersGuid → player ∈ (b.game id').playersGuid → P id'

theorem Closed.takes (hP : Closed P b) (h : Takes areas P b b') : Closed P b' := fun id id' player hid hp hp' =>
  hP id id' player hid ((h.sublist id).subset hp) ((h.sublist id').subset hp')

theorem takes_rewardAllPlayersInGroup {groupGuid position : Nat} {remove : Bool} (hid : P gameId)
    (h : b.rewardAllPlayersInGroup near groupGuid position gameId remove = some b') : Takes areas P b b' := by
  refine foldlM_invariant (Takes areas P b) (fun member a a' ha hs => ?_) .refl h
  unfold rewardMember at hs
  split at hs
  · cases hs
    exact ha
  obtain ⟨alive, -, rfl⟩ := Option.map_eq_some_iff.1 hs
  split
  · exact ((ha.rewardPlayer _ _ hid).teleportTo near _).erasePlayer hid _
  · exact ha.rewardPlayer _ _ hid

theorem takes_checkReward (hid : P gameId) (h : checkReward areas near again gameId b = some b')
    (hagain : ∀ player ∈ (b.game gameId).playersGuid, ∀ b', again player b = some b' → Takes areas P b b') :
    Takes areas P b b' := by
  obtain ⟨a, ha, h⟩ := Option.bind_eq_some_iff.1 h
  have hba : Takes areas P b a := by
    unfold checkSolo at ha
    extract_lets game at ha
    split at ha
    · obtain ⟨last, hlast, ha⟩ := Option.bind_eq_some_iff.1 ha
      obtain ⟨c, hc, rfl⟩ := Option.map_eq_some_iff.1 ha
      have hmem : last ∈ (b.game gameId).playersGuid :=
        List.mem_of_mem_head? (Option.filter_eq_some_iff.1 hlast).1
      exact (hagain last hmem c hc).reloadGameId hid
    · cases ha
      exact .refl
  unfold checkGroups at h
  extract_lets game at h
  split at h
  · obtain ⟨c, hc, rfl⟩ := Option.map_eq_some_iff.1 h
    obtain ⟨last, -, hc⟩ := Option.bind_eq_some_iff.1 hc
    refine Takes.reloadGameId (hba.trans ?_) hid
    split at hc
    · split at hc
      · cases hc
        exact .refl
      · cases hc
    · exact takes_rewardAllPlayersInGroup hid hc
  · cases h
    exact hba

theorem takes_removeFrom
    (hid : player ∈ (b.game gameId).playersGuid → P gameId) (h : removeFrom areas near again player b gameId = some b')
    (hagain : ∀ c last b', Takes areas P b c → last ∈ (c.game gameId).playersGuid → again last c = some b' →
      Takes areas P c b') : Takes areas P b b' := by
  unfold removeFrom at h
  split at h
  · cases h
    exact .refl
  next hin =>
  have hid : P gameId := hid (by
    by_contra hnot
    exact hin (by simp [hnot]))
  obtain ⟨game, hgame, h⟩ := Option.bind_eq_some_iff.1 h
  have herased : Takes areas P b (Battleroyale.setGame
      ((b.teleportTo near player).rewardPlayer player (b.game gameId).playersGuid.length gameId) gameId game) := by
    have hrewarded : Takes areas P b
        ((b.teleportTo near player).rewardPlayer player (b.game gameId).playersGuid.length gameId) :=
      (Takes.refl.teleportTo near player).rewardPlayer _ _ hid
    unfold dieInGroups at hgame
    split at hgame
    · split at hgame
      · cases hgame
      · cases hgame
        exact hrewarded.setGame hid List.filter_sublist (sub_mapValues_setDead _ player)
    · cases hgame
      exact hrewarded.erasePlayer hid player
  exact herased.trans (takes_checkReward hid h fun last hlast c hc => hagain _ last c herased hlast hc)

theorem takes_removePlayerRec {n : Nat} : ∀ {player : ObjectGuid} {b b' : Battleroyale}, Closed P b →
    (∀ id, player ∈ (b.game id).playersGuid → P id) → removePlayerRec areas near n player b = some b' →
    Takes areas P b b' := by
  induction n with
  | zero => intro player b b' _ _ h; cases h
  | succ n ih =>
    intro player b b' hP hplayer h
    refine foldlM_invariant (Takes areas P b) (fun id a a' ha hs => ha.trans ?_) .refl h
    have hPa := hP.takes ha
    have hlisted : player ∈ (a.game id).playersGuid → P id := fun hp => hplayer id ((ha.sublist id).subset hp)
    by_cases hmem : player ∈ (a.game id).playersGuid
    · exact takes_removeFrom hlisted hs fun c last a'' hc hlast h =>
        ih (hPa.takes hc) (fun id' hl => hPa.takes hc id id' last (hlisted hmem) hlast hl) h
    unfold removeFrom at hs
    rw [if_pos (by simp [hmem])] at hs
    cases hs
    exact .refl

theorem takes_removePlayer (hP : Closed P b) (hplayer : ∀ id, player ∈ (b.game id).playersGuid → P id)
    (h : b.removePlayer areas near player = some b') : Takes areas P b b' := takes_removePlayerRec hP hplayer h

theorem takes_rewardIfDead {groupGuid : Nat} (hid : P gameId) (h : b.rewardIfDead near groupGuid gameId = some b') :
    Takes areas P b b' := by
  unfold rewardIfDead at h
  split at h
  · obtain ⟨a, ha, rfl⟩ := Option.map_eq_some_iff.1 h
    exact (takes_rewardAllPlayersInGroup hid ha).setGame hid (.refl _) (sub_erase _ groupGuid)
  · cases h
    exact .refl

theorem takes_dieInGroup (hP : P gameId) (player : ObjectGuid) (g : Nat) (b : Battleroyale) :
    Takes areas P b (b.setGame gameId (dieInGroup player g (erasePlayer player (b.game gameId)))) := by
  unfold dieInGroup
  split
  · exact Takes.refl.erasePlayer hP player
  next members hmembers => exact Takes.refl.setGame hP List.filter_sublist (sub_insert_setDead hmembers player)

theorem takes_removeFromGroup (hP : Closed P b) (hplayer : player ∈ (b.game gameId).playersGuid → P gameId)
    (h : removeFromGroup areas near player b gameId = some b') : Takes areas P b b' := by
  unfold removeFromGroup at h
  split at h
  · cases h
    exact .refl
  next hin =>
  have hid : P gameId := hplayer (by
    by_contra hnot
    exact hin (by simp [hnot]))
  split at h
  · cases h
  next party _ =>
  obtain ⟨d, hd, rfl⟩ := Option.map_eq_some_iff.1 h
  obtain ⟨c, hc, hd⟩ := Option.bind_eq_some_iff.1 hd
  have hbc : Takes areas P b c := (takes_dieInGroup hid player party.guid b).trans (takes_rewardIfDead hid hc)
  have hclosed : Closed P c := hP.takes hbc
  have hcheck : Takes areas P c d := takes_checkReward hid hd fun last hlast _ h =>
    takes_removePlayer hclosed (fun id' hl => hclosed gameId id' last hid hlast hl) h
  exact (hbc.trans hcheck).teleportTo near player

theorem takes_removePlayerFromGroup (hP : Closed P b) (hplayer : ∀ id, player ∈ (b.game id).playersGuid → P id)
    (h : b.removePlayerFromGroup areas near player = some b') : Takes areas P b b' := by
  refine foldlM_invariant (Takes areas P b) (fun id a a' ha hs => ha.trans ?_) .refl h
  exact takes_removeFromGroup (hP.takes ha) (fun hp => hplayer id ((ha.sublist id).subset hp)) hs

theorem scan_found (b : Battleroyale) (player : ObjectGuid) : ∀ {guids : List ObjectGuid},
    b.scan player guids = .found → player ∈ guids ∧ b.inWorld player = true
  | [], h => by cases h
  | guid :: guids, h => by
    unfold scan at h
    split at h
    · cases h
    next hin =>
    split at h
    next he => exact ⟨he ▸ List.mem_cons_self, by simpa [← he] using hin⟩
    next =>
    obtain ⟨hmem, hw⟩ := scan_found b player h
    exact ⟨List.mem_cons_of_mem _ hmem, hw⟩

theorem Takes.groups (h : Takes areas P b b') (id : Nat) : Sub (b'.game id).groups (b.game id).groups := by
  induction h with
  | refl => exact .refl _
  | teleportTo _ _ _ ih => exact ih
  | rewardPlayer _ _ _ _ ih => exact ih
  | @reloadGameId c gameId _ _ ih =>
    unfold Battleroyale.reloadGameId
    split
    · exact ih
    rw [game_setGame]
    split
    next hid => exact hid ▸ ih
    next => exact ih
  | setGame _ _ _ hgroups ih =>
    rw [game_setGame]
    split
    next hid => exact hid ▸ hgroups.trans (hid ▸ ih)
    next => exact ih

theorem Takes.parties (h : Takes areas P b b') : b'.parties = b.parties := by
  induction h with
  | refl => rfl
  | teleportTo _ _ _ ih => exact ih
  | rewardPlayer _ _ _ _ ih => exact ih
  | reloadGameId _ _ ih =>
    unfold Battleroyale.reloadGameId
    split <;> exact ih
  | setGame _ _ _ _ ih => exact ih

theorem takes_leaveQueue (hplayer : ∀ id, player ∈ (b.game id).playersGuid → P id)
    (hgroups : ∀ party ∈ b.getGroup player, ∀ id, ((b.game id).groups.find? party.guid).isSome → P id) :
    Takes areas P b (b.leaveQueue player) := by
  have hgroup : ∀ {c : Battleroyale} (id : Nat), Takes areas P b c → Takes areas P b (leaveWithGroup player c id) := by
    intro c id hc
    unfold leaveWithGroup
    split
    · exact hc
    next party hparty =>
    extract_lets game
    split
    next hsome =>
      rw [Battleroyale.getGroup, hc.parties] at hparty
      exact hc.setGame (hgroups party hparty id ((hc.groups id).isSome hsome)) List.filter_sublist (sub_erase _ _)
    · exact hc
  have hall : ∀ (ids : List Nat) (c : Battleroyale), Takes areas P b c → Takes areas P b (leaveGames player ids c) := by
    intro ids
    induction ids with
    | nil => exact fun _ hc => hc
    | cons id ids ih =>
      intro c hc
      unfold leaveGames
      split
      · exact hc
      next hfound =>
        have hmem := (scan_found c player hfound).1
        exact ih _ (hgroup id (hc.erasePlayer (hplayer id ((hc.sublist id).subset hmem)) player))
      · exact ih _ (hgroup id hc)
  exact hall _ b .refl

/-- The game a player is found in has not started. -/
def waitsFor (b : Battleroyale) (player : ObjectGuid) : Bool :=
  0 < b.checkIfPlayerIsInBattleRoyale player && !b.gameIsStarted (b.checkIfPlayerIsInBattleRoyale player)

theorem takes_quit {inGroup : Bool} (hP : Closed P b) (hplayer : ∀ id, player ∈ (b.game id).playersGuid → P id)
    (hgroups : b.waitsFor player = true → ∀ party ∈ b.getGroup player, ∀ id,
      ((b.game id).groups.find? party.guid).isSome → P id) (h : b.quit areas near player inGroup = some b') : Takes areas P b b' := by
  unfold quit at h
  extract_lets id at h
  split at h
  · split at h
    · split at h
      · exact takes_removePlayerFromGroup hP hplayer h
      · exact takes_removePlayer hP hplayer h
    next hpos hwaits =>
    cases h
    exact takes_leaveQueue hplayer (hgroups (by simp [waitsFor, id, hpos, hwaits]))
  · cases h
    exact .refl

/-! ## Joins -/

theorem foldl_teleportTo_eq (near : ObjectGuid → Bool) (players : List ObjectGuid) (b : Battleroyale) :
    ∃ inWorld, players.foldl (fun b player => b.teleportTo near player) b = { b with inWorld := inWorld } := by
  induction players generalizing b with
  | nil => exact ⟨b.inWorld, rfl⟩
  | cons player players ih =>
    obtain ⟨inWorld, he⟩ := ih (b.teleportTo near player)
    exact ⟨inWorld, he⟩

/-- What a start changes: the game that is started, and who is in the world. -/
structure Started (gameId : Nat) (b b' : Battleroyale) : Prop where
  others : ∀ id, id ≠ gameId → b'.game id = b.game id
  game : ∃ spawns, b'.game gameId = { b.game gameId with
    isStarted := true
    starts := (b.game gameId).starts ++ [(b.game gameId).playersGuid]
    spawnsPlayers := spawns }
  rewards : b'.rewards = b.rewards
  kills : b'.kills = b.kills

variable {players : List ObjectGuid} {event : Event}

theorem Started.takeSpawn (h : Started gameId b b')
    (hs : b'.takeSpawn near gameId players = some b'') : Started gameId b b'' := by
  unfold Battleroyale.takeSpawn at hs
  extract_lets game at hs
  split at hs
  · cases hs
  obtain ⟨inWorld, he⟩ := foldl_teleportTo_eq near players
    (b'.setGame gameId { game with spawnsPlayers := game.spawnsPlayers - 1 })
  rw [he] at hs
  cases hs
  obtain ⟨spawns, hg⟩ := h.game
  refine ⟨fun id hid => (game_setGame_of_ne hid b' _).trans (h.others id hid), ⟨game.spawnsPlayers - 1, ?_⟩, h.rewards, h.kills⟩
  refine (game_setGame_self b' gameId _).trans ?_
  have hgame : game = _ := hg
  rw [hgame]

theorem start_started (h : b.start near gameId = some b') : Started gameId b b' := by
  unfold start at h
  extract_lets game c at h
  have hstarted : Started gameId b c :=
    ⟨fun id hid => game_setGame_of_ne hid b _, ⟨_, game_setGame_self b gameId _⟩, rfl, rfl⟩
  split at h
  · exact foldlM_invariant (Started gameId b) (fun _ _ _ ha hs => ha.takeSpawn hs) hstarted h
  refine foldlM_invariant (Started gameId b) (fun _ _ _ ha hs => ?_) hstarted h
  split at hs
  · exact ha.takeSpawn hs
  · cases hs
    exact ha

@[simp] theorem game_withGame (b : Battleroyale) (gameId id : Nat) : (b.withGame gameId).game id = b.game id := by
  rw [withGame, game_setGame]
  split
  next hid => rw [hid]
  next => rfl

/-- What a join changes: one game, and who is in the world. -/
theorem addPlayer_spec (h : b.addPlayer near player gameId = some b') :
    (b.withGame gameId).joining player gameId = none ∧ b' = b.withGame gameId ∨
    ∃ players, (b.withGame gameId).joining player gameId = some players ∧
      (b' = (b.withGame gameId).setGame gameId (join (b.getGroup player) players (b.game gameId)) ∨
        Started gameId ((b.withGame gameId).setGame gameId (join (b.getGroup player) players (b.game gameId))) b') := by
  unfold addPlayer at h
  extract_lets c at h
  split at h
  next hjoin => exact .inl ⟨hjoin, (Option.some.inj h).symm⟩
  next players hjoin =>
  refine .inr ⟨players, hjoin, ?_⟩
  extract_lets d currentPlayers at h
  have hd : d = (b.withGame gameId).setGame gameId (join (b.getGroup player) players (b.game gameId)) :=
    congrArg (fun game => (b.withGame gameId).setGame gameId (join (b.getGroup player) players game))
      (game_withGame b gameId gameId)
  rw [← hd]
  split at h
  · exact .inr (start_started h)
  · exact .inl (Option.some.inj h).symm

/-- A join adds the players who join at the end of the list of one game. -/
theorem addPlayer_playersGuid (h : b.addPlayer near player gameId = some b') :
    (∀ id, (b'.game id).playersGuid = (b.game id).playersGuid) ∨
    ∃ players, (b.withGame gameId).joining player gameId = some players ∧ ∀ id, (b'.game id).playersGuid =
      if id = gameId then (b.game id).playersGuid ++ players else (b.game id).playersGuid := by
  rcases addPlayer_spec h with ⟨-, rfl⟩ | ⟨players, hjoin, hb'⟩
  · exact .inl fun id => by rw [game_withGame]
  refine .inr ⟨players, hjoin, fun id => ?_⟩
  have hjoined : (((b.withGame gameId).setGame gameId (join (b.getGroup player) players (b.game gameId))).game id).playersGuid =
      if id = gameId then (b.game id).playersGuid ++ players else (b.game id).playersGuid := by
    rw [game_setGame, game_withGame]
    split
    next hid => exact hid ▸ rfl
    next => rfl
  rcases hb' with rfl | hstarted
  · exact hjoined
  rw [← hjoined]
  by_cases hid : id = gameId
  · obtain ⟨spawns, hg⟩ := hstarted.game
    rw [hid, hg]
  · rw [hstarted.others id hid]

/-! ## Nobody is listed twice -/

/-- Each game lists a player once, and two games have none in common. -/
structure Unique (b : Battleroyale) : Prop where
  nodup : ∀ id, (b.game id).playersGuid.Nodup
  disjoint : ∀ id id', id ≠ id' → ∀ p ∈ (b.game id).playersGuid, p ∉ (b.game id').playersGuid

theorem Unique.of_sublist (h : Unique b) (hs : ∀ id, (b'.game id).playersGuid.Sublist (b.game id).playersGuid) :
    Unique b' where
  nodup id := (h.nodup id).sublist (hs id)
  disjoint id id' hne p hp hp' := h.disjoint id id' hne p ((hs id).subset hp) ((hs id').subset hp')

theorem Unique.listed (h : Unique b) : b.listed.Nodup := by
  rw [Battleroyale.listed, List.nodup_flatMap]
  refine ⟨fun e he => mem_entries_game he ▸ h.nodup e.1, b.games.sorted.imp_of_mem fun {e e'} he he' hlt p hp hp' => ?_⟩
  refine h.disjoint e.1 e'.1 hlt.ne p ?_ ?_
  · rwa [mem_entries_game he]
  · rwa [mem_entries_game he']

/-- A join lists somebody who is listed already. -/
def relists : Event → Battleroyale → Bool
  | .join player gameId _, b => ((b.withGame gameId).joining player gameId).any (·.any (· ∈ b.listed))
  | _, _ => false

def Fresh (event : Event) (b : Battleroyale) : Prop := relists event b = false

instance (event : Event) (b : Battleroyale) : Decidable (Fresh event b) := inferInstanceAs (Decidable (_ = false))

theorem Fresh.join (h : Fresh (.join player gameId near) b)
    (hjoin : (b.withGame gameId).joining player gameId = some players) : ∀ p ∈ players, p ∉ b.listed := by
  intro p hp hl
  rw [Fresh, relists, hjoin, Option.any_some, List.any_eq_false] at h
  exact absurd hl (by simpa using h p hp)

theorem joining_nodup (h : b.joining player gameId = some players) : players.Nodup := by
  unfold joining at h
  extract_lets game at h
  split at h
  · cases h
  split at h
  · cases h
  split at h
  · split at h
    · cases h
    split at h
    · cases h
    split at h
    · cases h
    next party _ _ _ =>
    cases h
    exact party.nodup
  split at h
  · cases h
  · cases h
    exact List.pairwise_singleton _ _

theorem Unique.join (h : Unique b) (hnodup : players.Nodup) (hfresh : ∀ p ∈ players, p ∉ b.listed)
    (hb' : ∀ id, (b'.game id).playersGuid =
      if id = gameId then (b.game id).playersGuid ++ players else (b.game id).playersGuid) : Unique b' := by
  have hnew : ∀ id, ∀ p ∈ (b.game id).playersGuid, p ∉ players := fun id p hp hnew =>
    hfresh p hnew (mem_listed.2 ⟨id, hp⟩)
  refine ⟨fun id => ?_, fun id id' hne p hp hp' => ?_⟩
  · rw [hb']
    split
    · exact List.nodup_append.2 ⟨h.nodup id, hnodup, fun p hp q hq he => hnew id p hp (he ▸ hq)⟩
    · exact h.nodup id
  · rw [hb'] at hp hp'
    split at hp
    next hid =>
      rw [if_neg fun hid' => hne (hid.trans hid'.symm)] at hp'
      rcases List.mem_append.1 hp with hp | hp
      · exact h.disjoint id id' hne p hp hp'
      · exact hnew id' p hp' hp
    next =>
    split at hp'
    · rcases List.mem_append.1 hp' with hp' | hp'
      · exact h.disjoint id id' hne p hp hp'
      · exact hnew id p hp hp'
    · exact h.disjoint id id' hne p hp hp'

/-- Whom a step takes out, or tries to. -/
def Event.leaver : Event → Option ObjectGuid
  | .leave player | .repop player _ | .logout player _ | .removeMember player _ => some player
  | _ => none

/-- Who leaves the queue in a step. -/
def quitter : Event → Battleroyale → Option ObjectGuid
  | .leave player, b => if b.inWorld player then some player else none
  | .logout player _, b | .removeMember player _, b => if b.waitsFor player then some player else none
  | _, _ => none

/-- A step that is no join and no kill takes from the lists, and may change who is in the world and the groups. -/
theorem step_takes (hP : Closed P b) (hplayer : ∀ player ∈ event.leaver, ∀ id, player ∈ (b.game id).playersGuid → P id)
    (hgroups : ∀ player ∈ quitter event b, ∀ party ∈ b.getGroup player, ∀ id,
      ((b.game id).groups.find? party.guid).isSome → P id)
    (h : step areas event b = some b') :
    (∃ c, Takes areas P b c ∧ c.games = b'.games ∧ c.rewards = b'.rewards ∧ c.kills = b'.kills) ∨
    (∃ player gameId near, event = .join player gameId near) ∨ ∃ killed killer, event = .kill killed killer := by
  have htakes : ∀ {c : Battleroyale}, Takes areas P b c → some c = some b' →
      ∃ c, Takes areas P b c ∧ c.games = b'.games ∧ c.rewards = b'.rewards ∧ c.kills = b'.kills := by
    intro c hc he
    cases he
    exact ⟨_, hc, rfl, rfl, rfl⟩
  cases event with
  | join player gameId near => exact .inr (.inl ⟨player, gameId, near, rfl⟩)
  | kill killed killer => exact .inr (.inr ⟨killed, killer, rfl⟩)
  | leave player =>
    refine .inl (htakes ?_ h)
    split
    next hin => exact takes_leaveQueue (hplayer player rfl) (hgroups player (by rw [quitter, if_pos hin]; rfl))
    · exact .refl
  | repop player near =>
    rw [step] at h
    split at h
    · exact .inl (htakes (takes_removePlayerFromGroup hP (hplayer player rfl) h) rfl)
    · exact .inl (htakes (takes_removePlayer hP (hplayer player rfl) h) rfl)
  | logout player near =>
    obtain ⟨a, ha, rfl⟩ := Option.map_eq_some_iff.1 h
    have hwaits := fun hwaits => hgroups player (by rw [quitter, if_pos hwaits]; rfl)
    exact .inl ⟨a, takes_quit hP (hplayer player rfl) hwaits ha, rfl, rfl, rfl⟩
  | removeMember player near =>
    have hwaits := fun hwaits => hgroups player (by rw [quitter, if_pos hwaits]; rfl)
    exact .inl (htakes (takes_quit hP (hplayer player rfl) hwaits h) rfl)
  | world inWorld =>
    cases h
    exact .inl ⟨b, .refl, rfl, rfl, rfl⟩
  | parties parties =>
    cases h
    exact .inl ⟨b, .refl, rfl, rfl, rfl⟩

/-- `step_takes`, with nothing said of the games. -/
theorem step_takes_any (h : step areas event b = some b') :
    (∃ c, Takes areas (fun _ => True) b c ∧ c.games = b'.games ∧ c.rewards = b'.rewards ∧ c.kills = b'.kills) ∨
    (∃ player gameId near, event = .join player gameId near) ∨ ∃ killed killer, event = .kill killed killer :=
  step_takes (fun _ _ _ _ _ _ => trivial) (fun _ _ _ _ => trivial) (fun _ _ _ _ _ _ => trivial) h

theorem game_congr (h : b.games = b'.games) (id : Nat) : b.game id = b'.game id := by
  rw [Battleroyale.game, h, ← Battleroyale.game]

theorem game_kill {killed killer : ObjectGuid} (h : step areas (.kill killed killer) b = some b') (id : Nat) :
    b'.game id = if id = b.checkIfPlayerIsInBattleRoyale killed ∧ 0 < id then addKill killer (b.game id) else b.game id := by
  cases h
  show (onPlayerDie killed killer b).game id = _
  unfold onPlayerDie
  extract_lets gameId
  split
  next hpos =>
    rw [game_setGame]
    by_cases hid : id = gameId
    · rw [if_pos hid, if_pos ⟨hid, hid ▸ hpos⟩, hid]
    · rw [if_neg hid, if_neg fun h => hid h.1]
  next hzero =>
  rw [if_neg]
  intro h
  exact hzero (lt_of_lt_of_eq h.2 h.1)

theorem step_unique (hu : Unique b) (hok : Fresh event b) (h : step areas event b = some b') : Unique b' := by
  rcases step_takes_any h with ⟨c, hc, hg, -⟩ | ⟨player, gameId, near, rfl⟩ | ⟨killed, killer, rfl⟩
  · exact hu.of_sublist fun id => game_congr hg id ▸ hc.sublist id
  · rw [step] at h
    split at h
    · rcases addPlayer_playersGuid h with hsame | ⟨players, hjoin, hb'⟩
      · exact hu.of_sublist fun id => by rw [hsame id]
      · exact hu.join (joining_nodup hjoin) (hok.join hjoin) hb'
    · cases h
      exact hu
  · refine hu.of_sublist fun id => ?_
    rw [game_kill h]
    split <;> exact .refl _

/-! ## The test -/

theorem scan_eq (player : ObjectGuid) : ∀ {guids : List ObjectGuid}, (∀ guid ∈ guids, b.inWorld guid = true) →
    b.scan player guids = if player ∈ guids then .found else .absent
  | [], _ => rfl
  | guid :: guids, h => by
    unfold scan
    rw [h guid List.mem_cons_self]
    by_cases he : guid = player
    · simp [he]
    · simp [he, Ne.symm he, scan_eq player fun g hg => h g (List.mem_cons_of_mem _ hg)]

/-- What the test finds is a game that lists the player, who is in the world. -/
theorem checkGames_spec (b : Battleroyale) (player : ObjectGuid) : ∀ (games : List (Nat × Game)) (gameId : Nat),
    b.checkGames player games gameId = gameId ∨ b.inWorld player = true ∧
      ∃ e ∈ games, e.1 = b.checkGames player games gameId ∧ player ∈ e.2.playersGuid
  | [], _ => .inl rfl
  | (id, game) :: games, gameId => by
    unfold checkGames
    split
    · exact .inl rfl
    next hfound =>
      obtain ⟨hmem, hw⟩ := scan_found b player hfound
      rcases checkGames_spec b player games id with h | ⟨_, e, he, hid, hp⟩
      · exact .inr ⟨hw, (id, game), List.mem_cons_self, h.symm, hmem⟩
      · exact .inr ⟨hw, e, List.mem_cons_of_mem _ he, hid, hp⟩
    next =>
    rcases checkGames_spec b player games gameId with h | ⟨hw, e, he, hid, hp⟩
    · exact .inl h
    · exact .inr ⟨hw, e, List.mem_cons_of_mem _ he, hid, hp⟩

/-- With everybody in the world, the test misses no game. -/
theorem checkGames_pos {player : ObjectGuid} : ∀ {games : List (Nat × Game)} {gameId : Nat},
    (∀ e ∈ games, ∀ guid ∈ e.2.playersGuid, b.inWorld guid = true) →
    (∀ e ∈ games, player ∈ e.2.playersGuid → 0 < e.1) →
    0 < gameId ∨ (∃ e ∈ games, player ∈ e.2.playersGuid) → 0 < b.checkGames player games gameId
  | [], gameId, _, _, h => by simpa [checkGames] using h
  | (id, game) :: games, gameId, hin, hid, h => by
    unfold checkGames
    rw [scan_eq player (hin _ List.mem_cons_self)]
    have ih : ∀ {gameId : Nat}, 0 < gameId ∨ (∃ e ∈ games, player ∈ e.2.playersGuid) →
        0 < b.checkGames player games gameId :=
      checkGames_pos (fun e he => hin e (List.mem_cons_of_mem _ he)) fun e he => hid e (List.mem_cons_of_mem _ he)
    by_cases hp : player ∈ game.playersGuid
    · rw [if_pos hp]
      exact ih (.inl (hid _ List.mem_cons_self hp))
    rw [if_neg hp]
    refine ih (h.imp_right fun h => ?_)
    obtain ⟨e, he, hpe⟩ := h
    rcases List.mem_cons.1 he with rfl | he
    · exact absurd hpe hp
    · exact ⟨e, he, hpe⟩

/-- Only games with an id list players. -/
def Numbered (b : Battleroyale) : Prop := ∀ id, (b.game id).playersGuid ≠ [] → 0 < id

/-- The test is right for everybody exactly if every listed player is in the world. -/
theorem check_iff (hn : Numbered b) : (∀ player, b.checkIfPlayerIsInBattleRoyale player ≠ 0 ↔ player ∈ b.listed) ↔
    ∀ player ∈ b.listed, b.inWorld player = true := by
  constructor
  · intro h player hp
    rcases checkGames_spec b player b.games.entries 0 with h0 | ⟨hw, -⟩
    · exact absurd h0 ((h player).2 hp)
    · exact hw
  · intro h player
    constructor
    · intro hne
      rcases checkGames_spec b player b.games.entries 0 with h0 | ⟨-, e, he, -, hp⟩
      · exact absurd h0 hne
      · exact List.mem_flatMap.2 ⟨e, he, hp⟩
    · intro hp
      obtain ⟨e, he, hpe⟩ := List.mem_flatMap.1 hp
      refine Nat.pos_iff_ne_zero.1 (checkGames_pos (fun e he guid hg => h guid (List.mem_flatMap.2 ⟨e, he, hg⟩))
        (fun e he hpe => hn e.1 ?_) (.inr ⟨e, he, hpe⟩))
      rw [mem_entries_game he]
      exact List.ne_nil_of_mem hpe

/-! ## The areas -/

/-- The games of the areas are as their areas say; any other is as it is made, and nobody is listed in it. -/
structure Configured (areas : Areas) (b : Battleroyale) : Prop where
  known : ∀ id area, areas.rows.find? id = some area →
    (b.game id).category = area.category ∧ (b.game id).minPlayer = area.minPlayer
  unknown : ∀ id, areas.rows.find? id = none → (b.game id).playersGuid = [] ∧ (b.game id).isStarted = false ∧
    (b.game id).category = SOLO ∧ (b.game id).minPlayer = 0 ∧ (b.game id).spawnsPlayers = 0

theorem Configured.setGame (hc : Configured areas b) {game : Game} (hcat : game.category = (b.game gameId).category)
    (hmin : game.minPlayer = (b.game gameId).minPlayer) (hnone : areas.rows.find? gameId = none → game.playersGuid = [] ∧
      game.isStarted = false ∧ game.spawnsPlayers = 0) : Configured areas (b.setGame gameId game) := by
  refine ⟨fun id area ha => ?_, fun id ha => ?_⟩
  · by_cases hid : id = gameId
    · rw [hid, game_setGame_self, hcat, hmin]
      exact hid ▸ hc.known id area ha
    · rw [game_setGame_of_ne hid]
      exact hc.known id area ha
  · by_cases hid : id = gameId
    · obtain ⟨-, -, hsolo, hzero, -⟩ := hc.unknown id ha
      obtain ⟨hp, hs, hspawn⟩ := hnone (hid ▸ ha)
      rw [hid, game_setGame_self, hcat, hmin]
      exact ⟨hp, hs, hid ▸ hsolo, hid ▸ hzero, hspawn⟩
    · rw [game_setGame_of_ne hid]
      exact hc.unknown id ha

theorem Takes.configured (h : Takes areas P b b') (hc : Configured areas b) : Configured areas b' := by
  induction h with
  | refl => exact hc
  | teleportTo _ _ _ ih => exact { ih with }
  | rewardPlayer _ _ _ _ ih => exact { ih with }
  | @reloadGameId c gameId _ _ ih =>
    unfold Battleroyale.reloadGameId
    split
    · exact ih
    next area harea =>
    obtain ⟨hcat, hmin⟩ := ih.known gameId area harea
    exact ih.setGame hcat.symm hmin.symm fun hn => absurd (harea.symm.trans hn) (by simp)
  | @setGame c gameId playersGuid groups _ _ hsub _ ih =>
    refine ih.setGame rfl rfl fun hn => ?_
    obtain ⟨hp, hs, -, -, hspawn⟩ := ih.unknown gameId hn
    rw [hp] at hsub
    exact ⟨List.sublist_nil.1 hsub, hs, hspawn⟩

theorem start_no_spawn (hcat : (b.game gameId).category = SOLO) (hspawn : (b.game gameId).spawnsPlayers = 0)
    (hp : (b.game gameId).playersGuid = [player]) (hin : b.inWorld player = true) : b.start near gameId = none := by
  unfold start
  extract_lets game c
  have hgame : c.game gameId = { game with isStarted := true, starts := game.starts ++ [game.playersGuid] } :=
    game_setGame_self b gameId _
  rw [if_neg (by rw [show game.category = SOLO from hcat]; decide), show game.playersGuid = [player] from hp,
    List.foldlM_cons, if_pos (show c.inWorld player = true from hin)]
  unfold takeSpawn
  rw [hgame]
  simp only [show game.spawnsPlayers = 0 from hspawn, if_true]
  rfl

/-- Nobody who is in the world can be listed in a game of no area: he would start it, and there is no place to spawn. -/
theorem addPlayer_unknown (hc : Configured areas b) (hid : areas.rows.find? gameId = none) (hin : b.inWorld player = true)
    (h : b.addPlayer near player gameId = some b') : b' = b.withGame gameId := by
  obtain ⟨hp, -, hcat, hmin, hspawn⟩ := hc.unknown gameId hid
  cases hjoin : (b.withGame gameId).joining player gameId with
  | none =>
    unfold addPlayer at h
    simp only [hjoin] at h
    exact (Option.some.inj h).symm
  | some players =>
    have hplayers : players = [player] ∧ (b.withGame gameId).getGroup player = none := by
      unfold joining at hjoin
      extract_lets game at hjoin
      have hsolo : ¬SOLO < game.category := by
        rw [show game = b.game gameId from game_withGame b gameId gameId, hcat]
        decide
      rw [if_neg hsolo] at hjoin
      split at hjoin
      · cases hjoin
      split at hjoin
      · cases hjoin
      split at hjoin
      · cases hjoin
      next hgroup =>
      cases hjoin
      exact ⟨rfl, by simpa using hgroup⟩
    unfold addPlayer at h
    simp only [hjoin, hplayers.1, hplayers.2, game_withGame, game_setGame_self, join, hmin, UInt8.zero_le, if_true] at h
    refine absurd h ?_
    rw [@start_no_spawn near ((b.withGame gameId).setGame gameId _) player gameId]
    · simp
    · rw [game_setGame_self]
      exact hcat
    · rw [game_setGame_self]
      exact hspawn
    · rw [game_setGame_self]
      exact congrArg (· ++ [player]) hp
    · exact hin

theorem Configured.congr (hc : Configured areas b) (h : ∀ id, b'.game id = b.game id) : Configured areas b' :=
  ⟨fun id area ha => h id ▸ hc.known id area ha, fun id ha => h id ▸ hc.unknown id ha⟩

theorem step_configured (hc : Configured areas b) (h : step areas event b = some b') : Configured areas b' := by
  rcases step_takes_any h with ⟨c, hb, hg, -⟩ | ⟨player, gameId, near, rfl⟩ | ⟨killed, killer, rfl⟩
  · exact (hb.configured hc).congr fun id => (game_congr hg id).symm
  · rw [step] at h
    split at h
    next hin =>
      cases hid : areas.rows.find? gameId with
      | none =>
        rw [addPlayer_unknown hc hid hin h]
        exact hc.congr (game_withGame b gameId)
      | some area =>
        have hknown : areas.rows.find? gameId ≠ none := by simp [hid]
        rcases addPlayer_spec h with ⟨-, rfl⟩ | ⟨players, -, hb'⟩
        · exact hc.congr (game_withGame b gameId)
        have hjoined := @Configured.setGame areas _ gameId (hc.congr (game_withGame b gameId))
          (join (b.getGroup player) players (b.game gameId)) (by rw [game_withGame]; rfl) (by rw [game_withGame]; rfl)
          fun hn => absurd hn hknown
        rcases hb' with rfl | hstarted
        · exact hjoined
        obtain ⟨spawns, hg⟩ := hstarted.game
        refine (@Configured.setGame areas _ gameId hjoined (b'.game gameId) (by rw [hg]) (by rw [hg])
          fun hn => absurd hn hknown).congr fun id => ?_
        rw [game_setGame]
        split
        next he => rw [he]
        next he => rw [hstarted.others id he]
    next =>
    cases h
    exact hc
  · refine ⟨fun id area ha => ?_, fun id ha => ?_⟩
    · rw [game_kill h]
      split <;> exact hc.known id area ha
    · rw [game_kill h]
      split <;> exact hc.unknown id ha

theorem Configured.numbered (hc : Configured areas b) : Numbered b := by
  intro id hp
  cases ha : areas.rows.find? id with
  | none => exact absurd (hc.unknown id ha).1 hp
  | some area => exact areas.ids id (OMap.mem_keys.2 ⟨area, ha⟩)

theorem game_prepareGames (areas : Areas) (id : Nat) : (prepareGames areas).game id =
    match areas.rows.find? id with
    | none => .new
    | some area =>
      { Game.new with minPlayer := area.minPlayer, category := area.category, spawnsPlayers := area.spawnsPlayers } := by
  unfold Battleroyale.game prepareGames
  rw [OMap.find?_mapValues]
  cases areas.rows.find? id <;> rfl

theorem configured_prepareGames (areas : Areas) : Configured areas (prepareGames areas) := by
  refine ⟨fun id area ha => ?_, fun id ha => ?_⟩
  · rw [game_prepareGames, ha]
    exact ⟨rfl, rfl⟩
  · rw [game_prepareGames, ha]
    exact ⟨rfl, rfl, rfl, rfl, rfl⟩

theorem playersGuid_prepareGames (areas : Areas) (id : Nat) : ((prepareGames areas).game id).playersGuid = [] := by
  rw [game_prepareGames]
  split <;> rfl

theorem unique_prepareGames (areas : Areas) : Unique (prepareGames areas) where
  nodup id := playersGuid_prepareGames areas id ▸ .nil
  disjoint id _ _ p hp := by
    rw [playersGuid_prepareGames] at hp
    cases hp

/-! ## Every run -/

/-- In every run in which nobody a join lists is listed already, nobody is ever listed twice. The test is right for every
player in those of its states in which every listed player is in the world, and in no others. -/
theorem reaches_listed_once {areas : Areas} {b : Battleroyale} (hr : Reaches (step areas) Fresh (prepareGames areas) b) :
    b.listed.Nodup ∧ ((∀ player, b.checkIfPlayerIsInBattleRoyale player ≠ 0 ↔ player ∈ b.listed) ↔
      ∀ player ∈ b.listed, b.inWorld player = true) := by
  have hunique : Unique b := hr.invariant Unique (fun _ _ _ hu hok hs => step_unique hu hok hs) (unique_prepareGames areas)
  have hconf : Configured areas b :=
    hr.invariant (Configured areas) (fun _ _ _ hc _ hs => step_configured hc hs) (configured_prepareGames areas)
  exact ⟨hunique.listed, check_iff hconf.numbered⟩

/-- A game of three single players, and one of three groups of two. -/
def twoAreas : Areas := ⟨(OMap.empty.insert 1 ⟨3, SOLO, 5⟩).insert 2 ⟨6, 2, 5⟩, by decide⟩

def everybody : ObjectGuid → Bool := fun _ => true

theorem reaches_listed_once_two : ∃ b : Battleroyale, Reaches (step twoAreas) Fresh (prepareGames twoAreas) b ∧
    b.listed = [1, 2] ∧ b.listed.Nodup ∧ ∀ player, b.checkIfPlayerIsInBattleRoyale player ≠ 0 ↔ player ∈ b.listed := by
  have hrun : (runSteps (allowed (step twoAreas) Fresh) [.world everybody, .join 1 1 everybody, .join 2 1 everybody]
      (prepareGames twoAreas)).any (fun b => b.listed = [1, 2] && b.listed.all b.inWorld) = true := by decide
  obtain ⟨b, hb, hand⟩ := (Option.any_eq_true _ _).1 hrun
  rw [Bool.and_eq_true, decide_eq_true_eq, List.all_eq_true] at hand
  have hr : Reaches (step twoAreas) Fresh (prepareGames twoAreas) b := .of_allowed (.of_runSteps hb)
  obtain ⟨hnodup, hiff⟩ := reaches_listed_once hr
  exact ⟨b, hr, hand.1, hnodup, hiff.2 hand.2⟩

/-- A player who waits for a game of single players accepts an older invite to a group, and the group joins another
game; a player whose game has started is on the way to its map. -/
theorem listed_twice_or_missed :
    (∃ b : Battleroyale, Reaches (step twoAreas) (fun _ _ => True) (prepareGames twoAreas) b ∧ ¬b.listed.Nodup) ∧
    ∃ b : Battleroyale, Reaches (step twoAreas) (fun _ _ => True) (prepareGames twoAreas) b ∧
      3 ∈ b.listed ∧ b.checkIfPlayerIsInBattleRoyale 3 = 0 := by
  constructor
  · have hrun : (runSteps (step twoAreas) [.world everybody, .join 2 1 everybody, .parties [⟨7, [1, 2], 2, by decide⟩],
        .join 1 2 everybody] (prepareGames twoAreas)).any (fun b => decide (¬b.listed.Nodup)) = true := by decide
    obtain ⟨b, hb, hnot⟩ := (Option.any_eq_true _ _).1 hrun
    exact ⟨b, .of_runSteps hb, of_decide_eq_true hnot⟩
  · have hrun : (runSteps (step twoAreas) [.world everybody, .join 1 1 everybody, .join 2 1 everybody,
        .join 3 1 fun _ => false] (prepareGames twoAreas)).any
        (fun b => decide (3 ∈ b.listed) && b.checkIfPlayerIsInBattleRoyale 3 = 0) = true := by decide
    obtain ⟨b, hb, hand⟩ := (Option.any_eq_true _ _).1 hrun
    rw [Bool.and_eq_true, decide_eq_true_eq, decide_eq_true_eq] at hand
    exact ⟨b, .of_runSteps hb, hand⟩

end AtlasWow.Battleroyale
