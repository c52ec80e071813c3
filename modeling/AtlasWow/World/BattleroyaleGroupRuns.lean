/-
The groups of a game over whole runs. A step keeps its books if nobody joins
under a guid that others are alive under, who dies is alive in no group but
his party's, and who leaves the queue leaves with all who are alive in it.
With one group left the test of `checkReward` is true, and the game ends.
-/
import AtlasWow.World.BattleroyaleGroups

namespace AtlasWow.Battleroyale

variable {areas : Areas} {near : ObjectGuid → Bool} {b b' : Battleroyale} {game game' : Game} {player : ObjectGuid} {id : Nat}
  {P : ObjectGuid → Prop}

/-! ## The test for the last group -/

/-- The test of `checkReward`. -/
def lastGroup (game : Game) : Bool := game.isStarted && SOLO < game.category && game.groups.size ≤ 1

/-- With the last group the game is over, and somebody was listed. -/
theorem checkGroups_game {groupCount : Nat} (harea : (areas.rows.find? id).isSome = true)
    (h : b.checkGroups areas near groupCount id = some b') :
    if lastGroup (b.game id) then (b'.game id).isStarted = false ∧ (b.game id).playersGuid ≠ [] else b' = b := by
  unfold checkGroups at h
  extract_lets game at h
  unfold lastGroup
  split at h
  next hlast =>
    rw [if_pos hlast]
    obtain ⟨c, hc, rfl⟩ := Option.map_eq_some_iff.1 h
    obtain ⟨last, hhead, -⟩ := Option.bind_eq_some_iff.1 hc
    have hmem : last ∈ (b.game id).playersGuid := List.mem_of_mem_head? (Option.filter_eq_some_iff.1 hhead).1
    obtain ⟨area, hrow⟩ := Option.isSome_iff_exists.1 harea
    refine ⟨?_, List.ne_nil_of_mem hmem⟩
    unfold reloadGameId
    rw [hrow]
    dsimp only
    rw [game_setGame_self]
  next hmore =>
  rw [if_neg hmore]
  exact (Option.some.inj h).symm

variable {g gameId : Nat} {event : Event} {again : ObjectGuid → Battleroyale → Option Battleroyale} {inGroup : Bool}
  {c : Battleroyale}

theorem games_rewardAllPlayersInGroup {position : Nat}
    (h : b.rewardAllPlayersInGroup near g position id false = some b') : b'.games = b.games := by
  refine foldlM_invariant (fun c => c.games = b.games) (fun member a a' ha hs => ?_) rfl h
  unfold rewardMember at hs
  split at hs
  · cases hs
    exact ha
  obtain ⟨alive, -, rfl⟩ := Option.map_eq_some_iff.1 hs
  rw [Bool.and_false]
  exact ha

theorem rewardIfDead_game (h : b.rewardIfDead near g id = some b') : b'.game id =
    if getGroupMemberAlive (b.game id) g = 0 then { b.game id with groups := (b.game id).groups.erase g } else b.game id := by
  unfold rewardIfDead at h
  split at h
  next hzero =>
    obtain ⟨c, hc, rfl⟩ := Option.map_eq_some_iff.1 h
    rw [if_pos hzero, game_setGame_self, game_congr (games_rewardAllPlayersInGroup hc) id]
  next hsome =>
  cases h
  rw [if_neg hsome]

/-- A player dies: the game goes on without him, or it is over and one group is left. -/
inductive Dies (player : ObjectGuid) (game game' : Game) : Prop
  | goesOn : Gone (· = player) game game' → game'.isStarted = game.isStarted →
      (game.isStarted = true → 1 < game'.groups.size) → Dies player game game'
  | ends {after : Game} : Gone (· = player) game after → game.isStarted = true → after.groups.size = 1 →
      game'.isStarted = false → Dies player game game'

/-- The test decides which. -/
theorem dies_checkReward (harea : (areas.rows.find? id).isSome = true)
    (hcategory : SOLO < (b.game id).category) (h : Books game) (hg : Gone (· = player) game (b.game id))
    (hstarted : (b.game id).isStarted = game.isStarted) (hs : checkReward areas near again id b = some b') :
    Dies player game (b'.game id) := by
  have hgroups : (b.game id).category ≠ SOLO := fun he => absurd hcategory (by rw [he]; decide)
  rw [checkReward_groups hgroups] at hs
  have hcheck := checkGroups_game harea hs
  split at hcheck
  next hlast =>
    obtain ⟨hover, hlisted⟩ := hcheck
    unfold lastGroup at hlast
    simp only [Bool.and_eq_true, decide_eq_true_eq] at hlast
    refine .ends hg (hstarted ▸ hlast.1.1) ?_ hover
    -- who is listed is alive in a group
    obtain ⟨p, hp⟩ := List.exists_mem_of_ne_nil _ hlisted
    obtain ⟨hp, hstays⟩ := (hg.playersGuid p).1 hp
    obtain ⟨g, halive⟩ := h.covered p hp
    have hkey := ((hg.alive g p).2 ⟨halive, hstays⟩).mem_keys
    have hpos := List.length_pos_of_mem hkey
    rw [OMap.length_keys] at hpos
    have hone := hlast.2
    omega
  next hmore =>
  rw [hcheck]
  refine .goesOn hg hstarted fun hon => ?_
  unfold lastGroup at hmore
  simp only [Bool.and_eq_true, decide_eq_true_eq, not_and] at hmore
  exact Nat.lt_of_not_le (hmore ⟨hstarted.trans hon, hcategory⟩)

theorem dieInGroups_rest (hd : dieInGroups player game = some game') :
    game'.isStarted = game.isStarted ∧ game'.category = game.category := by
  unfold dieInGroups at hd
  split at hd
  · split at hd
    · cases hd
    · cases hd
      exact ⟨rfl, rfl⟩
  · cases hd
    exact ⟨rfl, rfl⟩

theorem lost_rest (player : ObjectGuid) (g : Nat) (game : Game) :
    (lost player g game).isStarted = game.isStarted ∧ (lost player g game).category = game.category := by
  obtain ⟨hstarted, hcategory, -⟩ := dieInGroup_rest player g (erasePlayer player game)
  unfold lost
  dsimp only
  split <;> exact ⟨hstarted, hcategory⟩

theorem removeFromGroup_dies (harea : (areas.rows.find? id).isSome = true) (hcategory : SOLO < (b.game id).category)
    (h : Books (b.game id)) (hmem : player ∈ (b.game id).playersGuid) (hin : b.inWorld player = true)
    (halone : ∀ party ∈ b.getGroup player, ∀ g, Alive (b.game id) g player → g = party.guid)
    (hs : removeFromGroup areas near player b id = some b') : Dies player (b.game id) (b'.game id) := by
  unfold removeFromGroup at hs
  rw [if_neg (by simp [hmem, hin])] at hs
  split at hs
  next => cases hs
  next party hparty =>
  dsimp only at hs
  obtain ⟨d, hd, rfl⟩ := Option.map_eq_some_iff.1 hs
  obtain ⟨c, hc, hcheck⟩ := Option.bind_eq_some_iff.1 hd
  have hgame : c.game id = lost player party.guid (b.game id) := by
    rw [rewardIfDead_game hc, game_setGame_self]
    rfl
  obtain ⟨hstarted, hcat⟩ := lost_rest player party.guid (b.game id)
  have hgroups : SOLO < (c.game id).category := by
    rw [hgame, hcat]
    exact hcategory
  have hgone : Gone (· = player) (b.game id) (c.game id) := by
    rw [hgame]
    exact gone_lost h (halone party hparty)
  have hdies : Dies player (b.game id) (d.game id) := dies_checkReward harea hgroups h hgone (hgame ▸ hstarted) hcheck
  exact hdies

theorem removeFrom_dies (harea : (areas.rows.find? id).isSome = true)
    (hcategory : SOLO < (b.game id).category) (h : Books (b.game id)) (hmem : player ∈ (b.game id).playersGuid)
    (hin : b.inWorld player = true) (hs : removeFrom areas near again player b id = some b') :
    Dies player (b.game id) (b'.game id) := by
  unfold removeFrom at hs
  rw [if_neg (by simp [hmem, hin])] at hs
  dsimp only at hs
  obtain ⟨after, hafter, hcheck⟩ := Option.bind_eq_some_iff.1 hs
  obtain ⟨hstarted, hcat⟩ := dieInGroups_rest hafter
  obtain ⟨c, hc⟩ : ∃ c, c = ((b.teleportTo near player).rewardPlayer player (b.game id).playersGuid.length id).setGame id after :=
    ⟨_, rfl⟩
  have hgame : c.game id = after := hc ▸ game_setGame_self _ id after
  have hgroups : SOLO < (c.game id).category := by
    rw [hgame, hcat]
    exact hcategory
  have hgone : Gone (· = player) (b.game id) (c.game id) := by
    rw [hgame]
    exact gone_dieInGroups h hcategory hafter
  have hon : (c.game id).isStarted = (b.game id).isStarted := hgame ▸ hstarted
  exact dies_checkReward harea hgroups h hgone hon (hc ▸ hcheck)

/-! ## Who leaves the queue -/

/-- The games that are looked at: those before a listed player who is not in the world. -/
def reached (b : Battleroyale) (player : ObjectGuid) : List Nat → List Nat
  | [] => []
  | id :: ids => if b.scan player (b.game id).playersGuid = .offline then [] else id :: reached b player ids

theorem scan_congr (h : b'.inWorld = b.inWorld) (player : ObjectGuid) : ∀ guids, b'.scan player guids = b.scan player guids
  | [] => rfl
  | guid :: guids => by
    unfold scan
    rw [h, scan_congr h player guids]

theorem scan_absent (player : ObjectGuid) : ∀ {guids : List ObjectGuid}, b.scan player guids = .absent → player ∉ guids
  | [], _, hp => nomatch hp
  | guid :: guids, h, hp => by
    unfold scan at h
    split at h
    · cases h
    split at h
    next => cases h
    next hne =>
    rcases List.mem_cons.1 hp with he | hp
    · exact hne he.symm
    · exact scan_absent player h hp

theorem reached_congr (hworld : b'.inWorld = b.inWorld) (player : ObjectGuid) : ∀ {ids : List Nat},
    (∀ id ∈ ids, b'.game id = b.game id) → reached b' player ids = reached b player ids
  | [], _ => rfl
  | id :: ids, h => by
    unfold reached
    rw [h id List.mem_cons_self, scan_congr hworld, reached_congr hworld player fun i hi => h i (List.mem_cons_of_mem _ hi)]

theorem leaveWithGroup_spec (player : ObjectGuid) (b : Battleroyale) (id : Nat) :
    (∀ i, (leaveWithGroup player b id).game i = if i = id then leaveGroup (b.getGroup player) (b.game id) else b.game i) ∧
      (leaveWithGroup player b id).inWorld = b.inWorld ∧ (leaveWithGroup player b id).parties = b.parties := by
  have hself : ∀ i, b.game i = if i = id then b.game id else b.game i := fun i => by
    by_cases hid : i = id
    · rw [if_pos hid, hid]
    · rw [if_neg hid]
  unfold leaveWithGroup leaveGroup
  cases b.getGroup player with
  | none => exact ⟨hself, rfl, rfl⟩
  | some party =>
    dsimp only
    by_cases hsome : ((b.game id).groups.find? party.guid).isSome = true
    · rw [if_pos hsome, if_pos hsome]
      exact ⟨game_setGame b id _, rfl, rfl⟩
    · rw [if_neg hsome, if_neg hsome]
      exact ⟨hself, rfl, rfl⟩

theorem erasePlayer_absent (h : player ∉ game.playersGuid) : erasePlayer player game = game := by
  have hall : game.playersGuid.filter (· ≠ player) = game.playersGuid :=
    List.filter_eq_self.2 fun p hp => decide_eq_true (fun he : p = player => h (he ▸ hp))
  unfold erasePlayer
  rw [hall]

theorem leaveGames_game (player : ObjectGuid) : ∀ {ids : List Nat} {b : Battleroyale}, ids.Nodup → ∀ id,
    (leaveGames player ids b).game id = if id ∈ reached b player ids then left player (b.getGroup player) (b.game id) else b.game id
  | [], b, _, id => rfl
  | i :: ids, b, hnodup, id => by
    obtain ⟨hnot, hnodup⟩ := List.nodup_cons.1 hnodup
    -- the games that come later are as they were
    have hrest : ∀ c : Battleroyale, (∀ j, c.game j = if j = i then left player (b.getGroup player) (b.game i) else b.game j) →
        c.inWorld = b.inWorld → c.parties = b.parties → (leaveGames player ids c).game id =
          if id ∈ i :: reached b player ids then left player (b.getGroup player) (b.game id) else b.game id := by
      intro c hgame hworld hparties
      have hgroup : c.getGroup player = b.getGroup player := by
        unfold getGroup
        rw [hparties]
      have hlater : reached c player ids = reached b player ids := reached_congr hworld player fun j hj => by
        rw [hgame, if_neg (fun he : j = i => hnot (he ▸ hj))]
      rw [leaveGames_game player hnodup, hlater, hgroup, hgame]
      have hout : i ∉ reached b player ids := fun hi => hnot (mem_of_reached hi)
      by_cases he : id = i
      · rw [he, if_neg hout, if_pos rfl, if_pos List.mem_cons_self]
      · rw [if_neg he]
        simp only [List.mem_cons, he, false_or]
    unfold leaveGames reached
    split
    next hscan => rw [if_pos hscan, if_neg List.not_mem_nil]
    next hscan =>
      have hon : b.scan player (b.game i).playersGuid ≠ .offline := by
        rw [hscan]
        decide
      rw [if_neg hon]
      obtain ⟨hgame, hworld, hparties⟩ := leaveWithGroup_spec player (b.setGame i (erasePlayer player (b.game i))) i
      refine hrest _ (fun j => ?_) hworld hparties
      rw [hgame, game_setGame_self]
      split
      next => rfl
      next hne => exact game_setGame_of_ne hne b _
    next hscan =>
    have hon : b.scan player (b.game i).playersGuid ≠ .offline := by
      rw [hscan]
      decide
    rw [if_neg hon]
    obtain ⟨hgame, hworld, hparties⟩ := leaveWithGroup_spec player b i
    refine hrest _ (fun j => ?_) hworld hparties
    rw [hgame]
    unfold left
    rw [erasePlayer_absent (scan_absent player hscan)]
where
  mem_of_reached {b : Battleroyale} {player : ObjectGuid} {i : Nat} : ∀ {ids : List Nat}, i ∈ reached b player ids → i ∈ ids
  | [], h => nomatch h
  | j :: ids, h => by
    unfold reached at h
    split at h
    · cases h
    rcases List.mem_cons.1 h with rfl | h
    · exact List.mem_cons_self
    · exact List.mem_cons_of_mem _ (mem_of_reached h)

/-! ## What a step does to a game -/

theorem removal_game (hu : Unique b) (id : Nat)
    (hs : (if inGroup then b.removePlayerFromGroup areas near player else b.removePlayer areas near player) = some b') :
    b'.game id = b.game id ∨ player ∈ (b.game id).playersGuid ∧ b.inWorld player = true ∧
      (removeFromGroup areas near player b id = some b' ∨ ∃ again, removeFrom areas near again player b id = some b') := by
  by_cases hmem : player ∈ (b.game id).playersGuid
  · by_cases hin : b.inWorld player = true
    · refine .inr ⟨hmem, hin, ?_⟩
      split at hs
      · exact .inl ((removePlayerFromGroup_eq hu hmem).symm.trans hs)
      · exact .inr ⟨_, (removePlayerRec_eq hu hmem).symm.trans hs⟩
    · have hsame : b' = b := by
        split at hs
        · rw [removePlayerFromGroup_eq hu hmem, removeFromGroup, if_pos (by simp [hin])] at hs
          exact (Option.some.inj hs).symm
        · rw [removePlayer, removePlayerRec_eq hu hmem, removeFrom, if_pos (by simp [hin])] at hs
          exact (Option.some.inj hs).symm
      exact .inl (hsame ▸ rfl)
  · have hclosed : Closed (· ≠ id) b := fun i i' p hi hp hp' he => hi ((hu.eq hp hp').trans he)
    have helse : ∀ i, player ∈ (b.game i).playersGuid → i ≠ id := fun i hp he => hmem (he ▸ hp)
    have htakes : Takes areas (· ≠ id) b b' := by
      split at hs
      · exact takes_removePlayerFromGroup hclosed helse hs
      · exact takes_removePlayer hclosed helse hs
    exact .inl (htakes.other fun h => h rfl)

/-- A game is as it was, but for its kills; or a join, a death or a leave has changed it. -/
inductive Turn (areas : Areas) (event : Event) (b b' : Battleroyale) (id : Nat) : Prop
  | same : (b'.game id).groups = (b.game id).groups → (b'.game id).playersGuid = (b.game id).playersGuid →
      (b'.game id).isStarted = (b.game id).isStarted → Turn areas event b b' id
  | joins {player : ObjectGuid} {gameId : Nat} {near : ObjectGuid → Bool} : event = .join player gameId near →
      b.inWorld player = true → b.addPlayer near player gameId = some b' → Turn areas event b b' id
  | dies {player : ObjectGuid} {near : ObjectGuid → Bool} {c : Battleroyale} : casualty event b = some player →
      player ∈ (b.game id).playersGuid → b.inWorld player = true →
      (removeFromGroup areas near player b id = some c ∨ ∃ again, removeFrom areas near again player b id = some c) →
      b'.game id = c.game id → Turn areas event b b' id
  | leaves {player : ObjectGuid} : quitter event b = some player → b'.game id = (b.leaveQueue player).game id →
      Turn areas event b b' id

theorem quit_turn (hu : Unique b) (hcasualty : casualty event b = if 0 < b.checkIfPlayerIsInBattleRoyale player &&
      b.gameIsStarted (b.checkIfPlayerIsInBattleRoyale player) then some player else none)
    (hquitter : quitter event b = if b.waitsFor player then some player else none)
    (hs : b.quit areas near player inGroup = some c) (hgame : b'.game id = c.game id) : Turn areas event b b' id := by
  unfold quit at hs
  dsimp only at hs
  split at hs
  next hpos =>
    split at hs
    next hon =>
      rw [if_pos (by simp [hpos, hon])] at hcasualty
      rcases removal_game hu id hs with hsame | ⟨hmem, hin, hremoved⟩
      · exact .same (by rw [hgame, hsame]) (by rw [hgame, hsame]) (by rw [hgame, hsame])
      · exact .dies hcasualty hmem hin hremoved hgame
    next hoff =>
    rw [if_pos (by simp [waitsFor, hpos, hoff])] at hquitter
    cases hs
    exact .leaves hquitter hgame
  next =>
  cases hs
  exact .same (by rw [hgame]) (by rw [hgame]) (by rw [hgame])

theorem step_turn (hu : Unique b) (hs : step areas event b = some b') (id : Nat) : Turn areas event b b' id := by
  cases event with
  | join player gameId near =>
    rw [step] at hs
    split at hs
    next hin => exact .joins rfl hin hs
    next =>
    cases hs
    exact .same rfl rfl rfl
  | leave player =>
    cases hs
    by_cases hin : b.inWorld player = true
    · have hquitter : quitter (.leave player) b = some player := if_pos hin
      rw [if_pos hin]
      exact .leaves hquitter rfl
    · rw [if_neg hin]
      exact .same rfl rfl rfl
  | repop player near =>
    rcases removal_game hu id hs with hsame | ⟨hmem, hin, hremoved⟩
    · exact .same (by rw [hsame]) (by rw [hsame]) (by rw [hsame])
    · exact .dies (if_pos hin) hmem hin hremoved rfl
  | logout player near =>
    obtain ⟨c, hc, rfl⟩ := Option.map_eq_some_iff.1 hs
    exact quit_turn hu rfl rfl hc rfl
  | removeMember player near => exact quit_turn hu rfl rfl hs rfl
  | kill killed killer =>
    have hgame := game_kill hs id
    split at hgame
    next => exact .same (by rw [hgame]; rfl) (by rw [hgame]; rfl) (by rw [hgame]; rfl)
    next => exact .same (by rw [hgame]) (by rw [hgame]) (by rw [hgame])
  | world inWorld =>
    cases hs
    exact .same rfl rfl rfl
  | parties parties =>
    cases hs
    exact .same rfl rfl rfl

/-! ## Steps that keep the books -/

/-- A step keeps the books of a game: in particular, a group is taken out with the last of it who is alive. -/
structure Kept (game game' : Game) : Prop where
  books : Books game'
  removed : ∀ g ∈ game.groups.keys, (g ∉ game'.groups.keys ↔ ∀ p, Alive game g p → p ∉ game'.playersGuid)

theorem Kept.gone (hg : Gone P game game') (h : Books game) (hbegun : game'.isStarted = true → game'.groups.keys ≠ []) :
    Kept game game' := ⟨hg.books h hbegun, fun g _ => hg.removed h g⟩

/-- Nobody goes. -/
theorem Kept.grows (h : Books game) (h' : Books game') (hkeys : ∀ g ∈ game.groups.keys, g ∈ game'.groups.keys)
    (hlist : ∀ p ∈ game.playersGuid, p ∈ game'.playersGuid) : Kept game game' := by
  refine ⟨h', fun g hk => ⟨fun hnot => absurd (hkeys g hk) hnot, fun hall => ?_⟩⟩
  obtain ⟨p, hp⟩ := h.living g hk
  exact absurd (hlist p (h.listed g p hp)) (hall p hp)

theorem Kept.same (h : Books game) (hgroups : game'.groups = game.groups) (hplayers : game'.playersGuid = game.playersGuid)
    (hstarted : game'.isStarted = game.isStarted) : Kept game game' :=
  .grows h (h.congr hgroups hplayers fun hon => h.begun (hstarted ▸ hon)) (fun _ hk => hgroups ▸ hk)
    fun _ hp => hplayers ▸ hp

/-- The groups with somebody alive but for a player. -/
def survivors (player : ObjectGuid) (game : Game) : OMap Nat (List GroupMember) :=
  game.groups.filter fun g => ((game.groups.find? g).getD []).any fun member => member.isAlive && member.guid ≠ player

theorem mem_keys_survivors : g ∈ (survivors player game).keys ↔ ∃ p, Alive game g p ∧ p ≠ player := by
  unfold survivors
  rw [OMap.mem_keys_filter, List.any_eq_true]
  constructor
  · rintro ⟨⟨member, hm, hlives⟩, hk⟩
    obtain ⟨members, hg⟩ := OMap.mem_keys.1 hk
    rw [Bool.and_eq_true, decide_eq_true_eq] at hlives
    rw [hg] at hm
    refine ⟨member.guid, ⟨members, hg, ?_⟩, hlives.2⟩
    rw [← hlives.1]
    exact hm
  · rintro ⟨p, ⟨members, hg, hm⟩, hne⟩
    refine ⟨⟨⟨p, true⟩, by rwa [hg], ?_⟩, OMap.mem_keys.2 ⟨members, hg⟩⟩
    rw [Bool.true_and]
    exact decide_eq_true hne

theorem Gone.mem_keys (hg : Gone (· = player) game game') (g : Nat) : g ∈ game'.groups.keys ↔ ∃ p, Alive game g p ∧ p ≠ player := by
  constructor
  · intro hk
    obtain ⟨p, hp⟩ := hg.keys g hk
    exact ⟨p, (hg.alive g p).1 hp⟩
  · rintro ⟨p, hp⟩
    exact ((hg.alive g p).2 hp).mem_keys

theorem Gone.size (hg : Gone (· = player) game game') : game'.groups.size = (survivors player game).size := by
  rw [← OMap.length_keys, ← OMap.length_keys, OMap.keys_eq fun g => (hg.mem_keys g).trans mem_keys_survivors.symm]

/-- The party that joins a game in a step. -/
def joiner (id : Nat) : Event → Battleroyale → Option Party
  | .join player gameId _, b =>
    if gameId = id && b.inWorld player && ((b.withGame gameId).joining player gameId).isSome then b.getGroup player else none
  | _, _ => none

/-- Nobody joins under the guid of others who are alive, dies out of another group than the one he is alive in, or leaves others
who are alive behind. -/
structure Registered (id : Nat) (event : Event) (b : Battleroyale) : Prop where
  joins : ∀ party ∈ joiner id event b, ∀ g p, Alive (b.game id) g p → g = party.guid → p ∈ party.members
  dies : ∀ player ∈ casualty event b, player ∈ (b.game id).playersGuid → ∀ party ∈ b.getGroup player,
    ∀ g p, Alive (b.game id) g p → p = player → g = party.guid
  leaves : ∀ player ∈ quitter event b, id ∈ reached b player b.games.keys → Whole player (b.getGroup player) (b.game id)

/-- A started game goes on: two groups are left after a death, and one after a leave. -/
structure GoesOn (id : Nat) (event : Event) (b : Battleroyale) : Prop where
  dies : (b.game id).isStarted = true → ∀ player ∈ casualty event b, player ∈ (b.game id).playersGuid →
    1 < (survivors player (b.game id)).size
  leaves : (b.game id).isStarted = true → ∀ player ∈ quitter event b, id ∈ reached b player b.games.keys →
    ∃ g ∈ (b.game id).groups.keys, ∀ party ∈ b.getGroup player, g ≠ party.guid

def Orderly (id : Nat) (event : Event) (b : Battleroyale) : Prop := Fresh event b ∧ Registered id event b ∧ GoesOn id event b

theorem joining_groups {players : List ObjectGuid} (h : b.joining player gameId = some players)
    (hcategory : SOLO < (b.game gameId).category) : ∃ party, b.getGroup player = some party ∧ players = party.members := by
  unfold joining at h
  extract_lets game at h
  split at h
  · cases h
  split at h
  · cases h
  split at h
  · cases h
  next party hparty =>
  split at h
  · cases h
  split at h
  · cases h
  · exact ⟨party, hparty, (Option.some.inj h).symm⟩

theorem left_rest (player : ObjectGuid) (party : Option Party) (game : Game) : (left player party game).isStarted = game.isStarted := by
  unfold left leaveGroup
  split
  · rfl
  · split <;> rfl

theorem area_isSome (hc : Configured areas b) (hcategory : SOLO < (b.game id).category) : (areas.rows.find? id).isSome = true := by
  cases harea : areas.rows.find? id with
  | none =>
    rw [(hc.unknown id harea).2.2.1] at hcategory
    exact absurd hcategory (by decide)
  | some => rfl

theorem category_eq (hc : Configured areas b) (hc' : Configured areas b') (id : Nat) :
    (b'.game id).category = (b.game id).category := by
  cases harea : areas.rows.find? id with
  | none => rw [(hc'.unknown id harea).2.2.1, (hc.unknown id harea).2.2.1]
  | some area => rw [(hc'.known id area harea).1, (hc.known id area harea).1]

/-- A death, of whom the event says that he dies. -/
theorem removed_dies (hc : Configured areas b) (hcategory : SOLO < (b.game id).category) (h : Books (b.game id))
    (hok : Registered id event b) (hcasualty : casualty event b = some player)
    (hmem : player ∈ (b.game id).playersGuid) (hin : b.inWorld player = true)
    (hremoved : removeFromGroup areas near player b id = some c ∨ ∃ again, removeFrom areas near again player b id = some c) :
    Dies player (b.game id) (c.game id) := by
  have harea := area_isSome hc hcategory
  rcases hremoved with hs | ⟨again, hs⟩
  · have halone : ∀ party ∈ b.getGroup player, ∀ g, Alive (b.game id) g player → g = party.guid := fun party hparty g hp =>
      hok.dies player hcasualty hmem party hparty g player hp rfl
    exact removeFromGroup_dies harea hcategory h hmem hin halone hs
  · exact removeFrom_dies harea hcategory h hmem hin hs

theorem addPlayer_kept (hcategory : SOLO < (b.game id).category) (h : Books (b.game id))
    (hok : Registered id (.join player gameId near) b) (hin : b.inWorld player = true)
    (hs : b.addPlayer near player gameId = some b') : Kept (b.game id) (b'.game id) := by
  rcases addPlayer_spec hs with ⟨-, rfl⟩ | ⟨players, hjoin, hb'⟩
  · rw [game_withGame]
    exact .same h rfl rfl rfl
  by_cases hid : id = gameId
  · subst hid
    obtain ⟨party, hparty, rfl⟩ := joining_groups hjoin (by rwa [game_withGame])
    have hgroup : b.getGroup player = some party := hparty
    have hjoiner : joiner id (.join player id near) b = some party := by
      simp [joiner, hin, hjoin, hgroup]
    have hmember : player ∈ party.members := by
      unfold getGroup at hgroup
      simpa using List.find?_some hgroup
    have hbooks : Books (join (some party) party.members (b.game id)) :=
      h.join hmember fun p hp => hok.joins party hjoiner party.guid p hp rfl
    have hjoined : (((b.withGame id).setGame id (join (b.getGroup player) party.members (b.game id))).game id) =
        join (some party) party.members (b.game id) := by rw [game_setGame_self, hgroup]
    have hkey : (join (some party) party.members (b.game id)).groups.keys ≠ [] :=
      List.ne_nil_of_mem (OMap.mem_keys_insert.2 (.inl rfl))
    have hkept : ∀ game', game'.groups = (join (some party) party.members (b.game id)).groups →
        game'.playersGuid = (join (some party) party.members (b.game id)).playersGuid → Kept (b.game id) game' :=
      fun game' hgroups hplayers => .grows h (hbooks.congr hgroups hplayers fun _ => hkey)
        (fun g hk => hgroups ▸ OMap.mem_keys_insert.2 (.inr hk)) fun p hp => hplayers ▸ List.mem_append_left _ hp
    rcases hb' with rfl | hstarted
    · exact hkept _ (congrArg Game.groups hjoined) (congrArg Game.playersGuid hjoined)
    obtain ⟨spawns, hgame⟩ := hstarted.game
    rw [hjoined] at hgame
    exact hkept _ (by rw [hgame]) (by rw [hgame])
  · have hsame : b'.game id = b.game id := by
      rcases hb' with rfl | hstarted
      · rw [game_setGame_of_ne hid, game_withGame]
      · rw [hstarted.others id hid, game_setGame_of_ne hid, game_withGame]
    exact .same h (congrArg Game.groups hsame) (congrArg Game.playersGuid hsame) (congrArg Game.isStarted hsame)

theorem leaveQueue_kept (h : Books (b.game id)) (hok : Registered id event b) (hgo : GoesOn id event b)
    (hquitter : quitter event b = some player) : Kept (b.game id) ((b.leaveQueue player).game id) := by
  unfold leaveQueue
  rw [leaveGames_game player b.games.nodup_keys]
  split
  next hreached =>
    have hwhole := hok.leaves player hquitter hreached
    have hgone := gone_left h hwhole
    refine .gone hgone h fun hon => ?_
    rw [left_rest] at hon
    -- a group of others is left
    obtain ⟨g, hk, hother⟩ := hgo.leaves hon player hquitter hreached
    obtain ⟨p, hp⟩ := h.living g hk
    have hstays : ¬Leaves player (b.getGroup player) (b.game id) p := fun hleaves => by
      obtain ⟨party, hparty, he⟩ := (hwhole g p hp).1 hleaves
      exact hother party hparty he
    exact List.ne_nil_of_mem ((hgone.alive g p).2 ⟨hp, hstays⟩).mem_keys
  next => exact .same h rfl rfl rfl

theorem step_kept (hu : Unique b) (hc : Configured areas b) (hcategory : SOLO < (b.game id).category)
    (h : Books (b.game id)) (hok : Registered id event b) (hgo : GoesOn id event b) (hs : step areas event b = some b') :
    Kept (b.game id) (b'.game id) := by
  cases step_turn hu hs id with
  | same hgroups hplayers hstarted => exact .same h hgroups hplayers hstarted
  | joins he hin hadd =>
    subst he
    exact addPlayer_kept hcategory h hok hin hadd
  | dies hcasualty hmem hin hremoved hgame =>
    rw [hgame]
    cases removed_dies hc hcategory h hok hcasualty hmem hin hremoved with
    | goesOn hgone hstarted hmore =>
      refine .gone hgone h fun hon => ?_
      have hsize := hmore (hstarted ▸ hon)
      rw [← OMap.length_keys] at hsize
      exact List.ne_nil_of_length_pos (by omega)
    | ends hgone hon hone _ =>
      have hmore := hgo.dies hon _ hcasualty hmem
      rw [← hgone.size] at hmore
      omega
  | leaves hquitter hgame =>
    rw [hgame]
    exact leaveQueue_kept h hok hgo hquitter

/-! ## Runs -/

instance (id : Nat) (event : Event) (b : Battleroyale) : Decidable (Registered id event b) :=
  decidable_of_iff ((∀ party ∈ joiner id event b, ∀ e ∈ (b.game id).groups.entries, ∀ member ∈ e.2, member.isAlive = true →
      e.1 = party.guid → member.guid ∈ party.members) ∧
    (∀ player ∈ casualty event b, player ∈ (b.game id).playersGuid → ∀ party ∈ b.getGroup player,
      ∀ e ∈ (b.game id).groups.entries, ∀ member ∈ e.2, member.isAlive = true → member.guid = player → e.1 = party.guid) ∧
    ∀ player ∈ quitter event b, id ∈ reached b player b.games.keys → Whole player (b.getGroup player) (b.game id))
    ⟨fun h => ⟨fun party hparty => forall_alive.1 (h.1 party hparty),
        fun player hplayer hmem party hparty => forall_alive.1 (h.2.1 player hplayer hmem party hparty), h.2.2⟩,
      fun h => ⟨fun party hparty => forall_alive.2 (h.joins party hparty),
        fun player hplayer hmem party hparty => forall_alive.2 (h.dies player hplayer hmem party hparty), h.leaves⟩⟩

instance (id : Nat) (event : Event) (b : Battleroyale) : Decidable (GoesOn id event b) :=
  decidable_of_iff (((b.game id).isStarted = true → ∀ player ∈ casualty event b, player ∈ (b.game id).playersGuid →
      1 < (survivors player (b.game id)).size) ∧
    ((b.game id).isStarted = true → ∀ player ∈ quitter event b, id ∈ reached b player b.games.keys →
      ∃ g ∈ (b.game id).groups.keys, ∀ party ∈ b.getGroup player, g ≠ party.guid))
    ⟨fun h => ⟨h.1, h.2⟩, fun h => ⟨h.dies, h.leaves⟩⟩

instance (id : Nat) (event : Event) (b : Battleroyale) : Decidable (Orderly id event b) :=
  inferInstanceAs (Decidable (_ ∧ _ ∧ _))

theorem books_prepareGames (areas : Areas) (id : Nat) : Books ((prepareGames areas).game id) := by
  have hgame : ((prepareGames areas).game id).groups = .empty ∧ ((prepareGames areas).game id).playersGuid = [] ∧
      ((prepareGames areas).game id).isStarted = false := by
    rw [game_prepareGames]
    split <;> exact ⟨rfl, rfl, rfl⟩
  obtain ⟨hgroups, hplayers, hstarted⟩ := hgame
  have hnone : ∀ g, ((prepareGames areas).game id).groups.find? g = none := fun g => by
    rw [hgroups]
    rfl
  refine ⟨fun g members hg => ?_, fun g hk => ?_, fun g p hp => ?_, fun p hp => ?_, fun hon => ?_⟩
  · rw [hnone g] at hg
    cases hg
  · rw [hgroups] at hk
    cases hk
  · obtain ⟨members, hg, -⟩ := hp
    rw [hnone g] at hg
    cases hg
  · rw [hplayers] at hp
    cases hp
  · rw [hstarted] at hon
    cases hon

theorem quitter_of_casualty (h : casualty event b = some player) : quitter event b = none := by
  cases event with
  | repop => rfl
  | logout p near | removeMember p near =>
    rw [casualty] at h
    split at h
    next hand =>
      rw [Bool.and_eq_true] at hand
      simp [quitter, waitsFor, hand.2]
    next => cases h
  | join | leave | kill | world | parties => cases h

/-- Someone is taken out of a started game of groups: it ends if one group is left, and only then. -/
theorem gameEnds_iff (hu : Unique b) (hc : Configured areas b) (hcategory : SOLO < (b.game id).category)
    (h : Books (b.game id)) (hok : Registered id event b) (hs : step areas event b = some b')
    (hcasualty : casualty event b = some player) (hmem : player ∈ (b.game id).playersGuid)
    (hout : player ∉ (b'.game id).playersGuid) (hon : (b.game id).isStarted = true) :
    (b'.game id).isStarted = false ↔ ∃! g, ∃ p, Alive (b.game id) g p ∧ p ≠ player := by
  cases step_turn hu hs id with
  | same _ hplayers _ => exact absurd (hplayers ▸ hmem) hout
  | joins he =>
    subst he
    cases hcasualty
  | leaves hquitter =>
    rw [quitter_of_casualty hcasualty] at hquitter
    cases hquitter
  | dies hcasualty' _ hin hremoved hgame =>
    cases hcasualty.symm.trans hcasualty'
    rw [hgame]
    cases removed_dies hc hcategory h hok hcasualty hmem hin hremoved with
    | goesOn hgone hstarted hmore =>
      have hlarge := hmore hon
      refine ⟨fun hover => absurd (hstarted.symm.trans hover) (by rw [hon]; decide), fun hone => ?_⟩
      have hsize := OMap.size_eq_one.2 ((existsUnique_congr hgone.mem_keys).2 hone)
      omega
    | ends hgone _ hone hover => exact ⟨fun _ => (existsUnique_congr hgone.mem_keys).1 (OMap.size_eq_one.1 hone), fun _ => hover⟩

theorem lastGroup_iff (hcategory : SOLO < game.category) (h : Books game) (hon : game.isStarted = true) :
    lastGroup game = true ↔ ∃! g, ∃ p, Alive game g p := by
  have hkeys : ∀ g, g ∈ game.groups.keys ↔ ∃ p, Alive game g p := fun g => ⟨h.living g, fun ⟨_, hp⟩ => hp.mem_keys⟩
  have hpos := List.length_pos_iff.2 (h.begun hon)
  rw [OMap.length_keys] at hpos
  rw [← existsUnique_congr hkeys, ← OMap.size_eq_one]
  unfold lastGroup
  simp only [Bool.and_eq_true, decide_eq_true_eq, hon, hcategory, true_and]
  omega

/-- In every run in which nobody joins who is listed, or under the guid of others who are alive, who dies is alive in no group but
his party's, who leaves the queue takes with him those and only those who are alive in it, and the game goes on with two groups
after a death and with one after a leave: everybody who is alive in a group is listed, the test for the last group is right, and a
group is taken out with the last of it who is alive. The game ends with a death exactly if one group is left. -/
theorem reaches_books {areas : Areas} {b : Battleroyale} {id : Nat} (hr : Reaches (step areas) (Orderly id) (prepareGames areas) b)
    (hcategory : SOLO < (b.game id).category) :
    (∀ g p, Alive (b.game id) g p → p ∈ (b.game id).playersGuid) ∧
    ((b.game id).isStarted = true → (lastGroup (b.game id) = true ↔ ∃! g, ∃ p, Alive (b.game id) g p)) ∧
    (∀ event b', Orderly id event b → step areas event b = some b' → ∀ g ∈ (b.game id).groups.keys,
      (g ∉ (b'.game id).groups.keys ↔ ∀ p, Alive (b.game id) g p → p ∉ (b'.game id).playersGuid)) ∧
    ∀ event b' player, Registered id event b → step areas event b = some b' → casualty event b = some player →
      player ∈ (b.game id).playersGuid → player ∉ (b'.game id).playersGuid → (b.game id).isStarted = true →
      ((b'.game id).isStarted = false ↔ ∃! g, ∃ p, Alive (b.game id) g p ∧ p ≠ player) := by
  have hinv := hr.invariant (fun b => Unique b ∧ Configured areas b ∧ (SOLO < (b.game id).category → Books (b.game id)))
    (fun event c c' hinv hok hs => by
      obtain ⟨hu, hc, hbooks⟩ := hinv
      have hc' := step_configured hc hs
      refine ⟨step_unique hu hok.1 hs, hc', fun hcat => ?_⟩
      rw [category_eq hc hc' id] at hcat
      exact (step_kept hu hc hcat (hbooks hcat) hok.2.1 hok.2.2 hs).books)
    ⟨unique_prepareGames areas, configured_prepareGames areas, fun _ => books_prepareGames areas id⟩
  obtain ⟨hu, hc, hbooks⟩ := hinv
  have h := hbooks hcategory
  refine ⟨h.listed, lastGroup_iff hcategory h, fun event b' hok hs g hk => ?_, fun event b' player hok hs hcasualty hmem hout hon => ?_⟩
  · exact (step_kept hu hc hcategory h hok.2.1 hok.2.2 hs).removed g hk
  · exact gameEnds_iff hu hc hcategory h hok hs hcasualty hmem hout hon

/-- Three groups of two play, and one of them is out. -/
def threeGroups : List Event :=
  [.world everybody, .parties [⟨7, [1, 2], 2, by decide⟩, ⟨8, [3, 4], 2, by decide⟩, ⟨9, [5, 6], 2, by decide⟩],
    .join 1 2 everybody, .join 3 2 everybody, .join 5 2 everybody, .repop 3 everybody, .repop 4 everybody]

theorem reaches_books_three : ∃ b : Battleroyale, Reaches (step twoAreas) (Orderly 2) (prepareGames twoAreas) b ∧
    (b.game 2).groups.keys = [7, 9] ∧ (b.game 2).isStarted = true ∧ (∀ g p, Alive (b.game 2) g p → p ∈ (b.game 2).playersGuid) ∧
    (lastGroup (b.game 2) = true ↔ ∃! g, ∃ p, Alive (b.game 2) g p) := by
  have hrun : (runSteps (allowed (step twoAreas) (Orderly 2)) threeGroups (prepareGames twoAreas)).any (fun b =>
      (b.game 2).groups.keys = [7, 9] && (b.game 2).isStarted && decide (SOLO < (b.game 2).category)) = true := by decide
  obtain ⟨b, hb, hand⟩ := (Option.any_eq_true _ _).1 hrun
  simp only [Bool.and_eq_true, decide_eq_true_eq] at hand
  obtain ⟨⟨hkeys, hon⟩, hcategory⟩ := hand
  have hr : Reaches (step twoAreas) (Orderly 2) (prepareGames twoAreas) b := .of_allowed (.of_runSteps hb)
  obtain ⟨hlisted, hlast, -⟩ := reaches_books hr hcategory
  exact ⟨b, hr, hkeys, hon, hlisted, hlast hon⟩

/-- The third group dies: the winners are alive in their group, and nobody is listed. -/
theorem winners_unlisted : ∃ b : Battleroyale, Reaches (step twoAreas) (fun _ _ => True) (prepareGames twoAreas) b ∧
    Alive (b.game 2) 7 1 ∧ 1 ∉ (b.game 2).playersGuid := by
  have hrun : (runSteps (step twoAreas) (threeGroups ++ [.repop 5 everybody, .repop 6 everybody]) (prepareGames twoAreas)).any
      (fun b => decide (Alive (b.game 2) 7 1) && decide (1 ∉ (b.game 2).playersGuid)) = true := by decide
  obtain ⟨b, hb, hand⟩ := (Option.any_eq_true _ _).1 hrun
  simp only [Bool.and_eq_true, decide_eq_true_eq] at hand
  exact ⟨b, .of_runSteps hb, hand⟩

end AtlasWow.Battleroyale
