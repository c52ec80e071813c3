/-
A game of single players from its start to its end. Who dies or logs out alone
and in the world is rewarded with the number of players there were
(`removePlayer_many`); the second to last ends the game, with the reward of the
last and the reset (`removePlayer_last`). So the rewards of a start are its
ranking (`Ranks`), as long as everybody leaves that way.
-/
import AtlasWow.World.BattleroyaleLists

namespace AtlasWow.Battleroyale

variable {areas : Areas} {near : ObjectGuid → Bool} {b b' b'' : Battleroyale} {player : ObjectGuid} {gameId : Nat}
  {P : Nat → Prop}

/-! ## What a removal does to a game of single players -/

/-- A player has been rewarded and is off the list. -/
def eliminated (near : ObjectGuid → Bool) (player : ObjectGuid) (gameId : Nat) (b : Battleroyale) : Battleroyale :=
  ((b.teleportTo near player).rewardPlayer player (b.game gameId).playersGuid.length gameId).setGame gameId
    (erasePlayer player (b.game gameId))

@[simp] theorem game_eliminated (near : ObjectGuid → Bool) (player : ObjectGuid) (gameId : Nat) (b : Battleroyale) :
    (b.eliminated near player gameId).game gameId = erasePlayer player (b.game gameId) :=
  game_setGame_self _ gameId _

theorem takes_eliminated (near : ObjectGuid → Bool) (player : ObjectGuid) (b : Battleroyale) (hid : P gameId) :
    Takes areas P b (b.eliminated near player gameId) :=
  ((Takes.refl.teleportTo near player).rewardPlayer player _ hid).erasePlayer hid player

theorem Unique.takes (hu : Unique b) (h : Takes areas P b b') : Unique b' := hu.of_sublist h.sublist

theorem Unique.closed (hu : Unique b) (gameId : Nat) : Closed (· = gameId) b := by
  intro id id' player hid hp hp'
  by_contra hne
  exact hu.disjoint id id' (fun he => hne (he ▸ hid)) player hp hp'

variable {id n k : Nat} {players l : List ObjectGuid} {event : Event}
  {again : ObjectGuid → Battleroyale → Option Battleroyale} {game : Game} {rs : List Reward}

theorem Unique.eq (hu : Unique b) {id' : Nat} (hp : player ∈ (b.game id).playersGuid)
    (hp' : player ∈ (b.game id').playersGuid) : id = id' := by
  by_contra hne
  exact hu.disjoint id id' hne player hp hp'

theorem removeFrom_of_not_mem
    (h : player ∉ (b.game gameId).playersGuid) : removeFrom areas near again player b gameId = some b := by
  unfold removeFrom
  rw [if_pos (by simp [h])]

theorem mem_keys_of_listed (h : player ∈ (b.game gameId).playersGuid) : gameId ∈ b.games.keys := by
  by_contra hnot
  rw [Battleroyale.game, OMap.find?_eq_none.2 hnot] at h
  cases h

theorem dieInGroups_solo (h : game.category = SOLO) : dieInGroups player (erasePlayer player game) =
    some (erasePlayer player game) := by
  unfold dieInGroups
  rw [if_neg]
  rw [show (erasePlayer player game).category = SOLO from h]
  decide

/-- Only the game that lists the player is looked at. -/
theorem removePlayerRec_eq (hu : Unique b) (hmem : player ∈ (b.game gameId).playersGuid) :
    removePlayerRec areas near (n + 1) player b = removeFrom areas near (removePlayerRec areas near n) player b gameId := by
  have hother : ∀ id, id ≠ gameId → player ∉ (b.game id).playersGuid := fun id hne hp => hne (hu.eq hp hmem)
  refine foldlM_single (mem_keys_of_listed hmem) b.games.nodup_keys
    (fun id _ hne => removeFrom_of_not_mem (hother id hne)) fun b' hb' id _ hne => removeFrom_of_not_mem fun hp => ?_
  have htakes : Takes areas (· = gameId) b b' := takes_removeFrom (fun _ => rfl) hb'
    fun c last b' hc hlast h => takes_removePlayerRec ((hu.closed gameId).takes hc)
      (fun id hp => (hu.takes hc).eq hp hlast) h
  exact hother id hne ((htakes.sublist id).subset hp)

theorem removePlayerRec_solo (hu : Unique b) (hsolo : (b.game gameId).category = SOLO)
    (hmem : player ∈ (b.game gameId).playersGuid) (hin : b.inWorld player = true) :
    removePlayerRec areas near (n + 1) player b =
      checkReward areas near (removePlayerRec areas near n) gameId (b.eliminated near player gameId) := by
  rw [removePlayerRec_eq hu hmem]
  unfold removeFrom
  rw [if_neg (by simp [hmem, hin])]
  show (dieInGroups player (erasePlayer player (b.game gameId))).bind (fun game =>
    checkReward areas near (removePlayerRec areas near n) gameId (((b.teleportTo near player).rewardPlayer player
      (b.game gameId).playersGuid.length gameId).setGame gameId game)) = _
  rw [dieInGroups_solo hsolo]
  rfl

/-- With no player left, or with more than one, the game goes on. -/
theorem checkReward_solo (hsolo : (b.game gameId).category = SOLO)
    (hlen : (b.game gameId).playersGuid.length ≠ 1) : checkReward areas near again gameId b = some b := by
  unfold checkReward checkSolo
  simp only [hlen, decide_false, Bool.false_and, Bool.false_eq_true, if_false, Option.bind_some]
  unfold checkGroups
  simp [hsolo, SOLO]

theorem checkReward_solo_last (hu : Unique b) (hc : Configured areas b) {last : ObjectGuid}
    (hsolo : (b.game gameId).category = SOLO) (hstarted : (b.game gameId).isStarted = true)
    (hlist : (b.game gameId).playersGuid = [last]) (hin : b.inWorld last = true) :
    checkReward areas near (removePlayerRec areas near (n + 1)) gameId b =
      some ((b.eliminated near last gameId).reloadGameId areas gameId) := by
  have hagain : removePlayerRec areas near (n + 1) last b = some (b.eliminated near last gameId) := by
    rw [removePlayerRec_solo hu hsolo (by rw [hlist]; exact List.mem_singleton_self last) hin]
    exact checkReward_solo (by rw [game_eliminated]; exact hsolo) (by rw [game_eliminated, erasePlayer, hlist]; simp)
  have hlast : b.getTheLastPlayer gameId = some last := by
    rw [getTheLastPlayer, hlist, List.head?_cons, Option.filter_some, hin, if_pos rfl]
  have hconf : Configured areas ((b.eliminated near last gameId).reloadGameId areas gameId) :=
    Takes.configured ((takes_eliminated (P := fun _ => True) near last b trivial).reloadGameId trivial) hc
  have hcat : (((b.eliminated near last gameId).reloadGameId areas gameId).game gameId).category = SOLO := by
    cases ha : areas.rows.find? gameId with
    | none => exact (hconf.unknown gameId ha).2.2.1
    | some area => rw [(hconf.known gameId area ha).1, ← (hc.known gameId area ha).1, hsolo]
  unfold checkReward checkSolo
  simp only [hlist, List.length_singleton, hstarted, hsolo, decide_true, Bool.and_self, if_true, hlast, hagain,
    Option.bind_some, Option.map_some]
  unfold checkGroups
  simp [hcat, SOLO]

section

variable (hu : Unique b) (hsolo : (b.game gameId).category = SOLO) (hmem : player ∈ (b.game gameId).playersGuid)
  (hin : b.inWorld player = true)

include hu hsolo hmem hin

/-- A player leaves more than one other, or none. -/
theorem removePlayer_many (hlen : ((b.game gameId).playersGuid.filter (· ≠ player)).length ≠ 1) :
    b.removePlayer areas near player = some (b.eliminated near player gameId) := by
  refine (removePlayerRec_solo hu hsolo hmem hin).trans (checkReward_solo ?_ ?_)
  · rw [game_eliminated]
    exact hsolo
  · rw [game_eliminated]
    exact hlen

/-- A player leaves one other, who is in the world. -/
theorem removePlayer_last (hc : Configured areas b) (hstarted : (b.game gameId).isStarted = true) {last : ObjectGuid}
    (hlist : (b.game gameId).playersGuid.filter (· ≠ player) = [last]) (hlast : b.inWorld last = true) :
    b.removePlayer areas near player =
      some (((b.eliminated near player gameId).eliminated near last gameId).reloadGameId areas gameId) := by
  have hb := @takes_eliminated areas gameId (fun _ => True) near player b trivial
  have hkept : last ∈ (b.game gameId).playersGuid.filter (· ≠ player) := hlist ▸ List.mem_singleton_self last
  have hne : last ≠ player := of_decide_eq_true (List.mem_filter.1 hkept).2
  have hpos : 0 < b.listed.length := List.length_pos_of_mem (mem_listed.2 ⟨gameId, hmem⟩)
  obtain ⟨n, hn⟩ : ∃ n, b.listed.length = n + 1 := ⟨b.listed.length - 1, by omega⟩
  rw [removePlayer, hn, removePlayerRec_solo hu hsolo hmem hin]
  refine checkReward_solo_last (hu.takes hb) (hb.configured hc) ?_ ?_ ?_ ?_
  · rw [game_eliminated]
    exact hsolo
  · rw [game_eliminated]
    exact hstarted
  · rw [game_eliminated]
    exact hlist
  · show (b.inWorld last && (decide (last ≠ player) || near last)) = true
    rw [hlast, decide_eq_true hne]
    rfl

end

/-! ## What other steps leave alone -/

theorem Takes.other (h : Takes areas P b b') (hid : ¬P id) : b'.game id = b.game id := by
  induction h with
  | refl => rfl
  | teleportTo _ _ _ ih => exact ih
  | rewardPlayer _ _ _ _ ih => exact ih
  | @reloadGameId c gameId _ hP ih =>
    unfold Battleroyale.reloadGameId
    split
    · exact ih
    · exact (game_setGame_of_ne (fun he : id = gameId => hid (he ▸ hP)) c _).trans ih
  | @setGame c gameId _ _ _ hP _ _ ih => exact (game_setGame_of_ne (fun he : id = gameId => hid (he ▸ hP)) c _).trans ih

/-- A removal starts no game. -/
theorem Takes.starts (h : Takes areas P b b') (id : Nat) : (b'.game id).starts = (b.game id).starts ∧
    ((b'.game id).isStarted = true → (b.game id).isStarted = true) := by
  induction h with
  | refl => exact ⟨rfl, fun h => h⟩
  | teleportTo _ _ _ ih => exact ih
  | rewardPlayer _ _ _ _ ih => exact ih
  | @reloadGameId c gameId _ hP ih =>
    unfold Battleroyale.reloadGameId
    split
    · exact ih
    rw [game_setGame]
    split
    next hid => exact ⟨hid ▸ ih.1, fun h => by cases h⟩
    next => exact ih
  | @setGame c gameId _ _ _ hP _ _ ih =>
    rw [game_setGame]
    split
    next hid => exact ⟨hid ▸ ih.1, fun h => ih.2 (hid ▸ h)⟩
    next => exact ih

/-- What is rewarded in a start of a game is rewarded while the game is on. -/
theorem Takes.rewards (h : Takes areas P b b') : ∃ rs, b'.rewards = b.rewards ++ rs ∧ ∀ r ∈ rs, P r.gameId ∧
    ∀ k, r.start = some k → (b.game r.gameId).isStarted = true ∧ k = (b.game r.gameId).starts.length - 1 := by
  induction h with
  | refl => exact ⟨[], (List.append_nil _).symm, fun r hr => by cases hr⟩
  | teleportTo _ _ _ ih => exact ih
  | @rewardPlayer c gameId player position hbc hP ih =>
    obtain ⟨rs, hrs, hall⟩ := ih
    refine ⟨rs ++ _, by rw [Battleroyale.rewardPlayer, hrs, List.append_assoc], fun r hr => ?_⟩
    rcases List.mem_append.1 hr with hr | hr
    · exact hall r hr
    rw [List.mem_singleton.1 hr]
    refine ⟨hP, fun k hk => ?_⟩
    obtain ⟨hstarts, hstarted⟩ := hbc.starts gameId
    split at hk
    next hon => exact ⟨hstarted hon, hstarts ▸ (Option.some.inj hk).symm⟩
    next => cases hk
  | @reloadGameId c gameId _ _ ih =>
    unfold Battleroyale.reloadGameId
    split <;> exact ih
  | setGame _ _ _ _ ih => exact ih

theorem Takes.kills (h : Takes areas P b b') : b'.kills = b.kills := by
  induction h with
  | refl => rfl
  | teleportTo _ _ _ ih => exact ih
  | rewardPlayer _ _ _ _ ih => exact ih
  | reloadGameId _ _ ih =>
    unfold Battleroyale.reloadGameId
    split <;> exact ih
  | setGame _ _ _ _ ih => exact ih

/-! ## Rankings -/

/-- The rewards of a start of a game. -/
def ranking (b : Battleroyale) (id k : Nat) : List Reward := b.rewards.filter fun r => r.gameId = id && r.start = some k

/-- Of the players of a start, those not left have been rewarded, once each, with the places from the last one up. -/
structure Ranks (rs : List Reward) (players left : List ObjectGuid) : Prop where
  perm : (rs.map (·.player) ++ left).Perm players
  positions : rs.map (·.position) = (List.range rs.length).map (players.length - ·)

theorem erase_eq_filter_ne (h : l.Nodup) (player : ObjectGuid) : l.erase player = l.filter (· ≠ player) := by
  rw [h.erase_eq_filter]
  exact List.filter_congr fun x _ => by simp [bne, beq_eq_decide]

theorem length_filter_ne (h : l.Nodup) (hmem : player ∈ l) : (l.filter (· ≠ player)).length + 1 = l.length := by
  rw [← erase_eq_filter_ne h, List.length_erase_of_mem hmem]
  have := List.length_pos_of_mem hmem
  omega

theorem ranks_start (players : List ObjectGuid) : Ranks [] players players := ⟨.refl _, rfl⟩

theorem Ranks.next {left : List ObjectGuid} (h : Ranks rs players left) (hnodup : left.Nodup)
    (hmem : player ∈ left) {r : Reward} (hr : r.player = player) (hpos : r.position = left.length) :
    Ranks (rs ++ [r]) players (left.filter (· ≠ player)) := by
  have hleft : (player :: left.filter (· ≠ player)).Perm left :=
    erase_eq_filter_ne hnodup player ▸ (List.perm_cons_erase hmem).symm
  have hlen : players.length - rs.length = left.length := by
    have := h.perm.length_eq
    rw [List.length_append, List.length_map] at this
    omega
  refine ⟨?_, ?_⟩
  · rw [List.map_append, List.append_assoc, List.map_singleton, hr]
    exact (List.Perm.append_left _ hleft).trans h.perm
  · rw [List.map_append, List.length_append, List.length_singleton, List.range_succ, List.map_append, h.positions,
      List.map_singleton, List.map_singleton, hlen, hpos]

/-- The starts of a game and the rewards that name them. -/
structure Log (b : Battleroyale) (id : Nat) : Prop where
  begun : (b.game id).isStarted = true → (b.game id).starts ≠ []
  bound : ∀ r ∈ b.rewards, r.gameId = id → ∀ k, r.start = some k → k < (b.game id).starts.length
  nodup : ∀ players ∈ (b.game id).starts, players.Nodup
  alone : (b.game id).category = SOLO → (b.game id).groups = .empty

/-- The starts that are over have their whole ranking, and in one that is on at least two are left. -/
structure Rounds (b : Battleroyale) (id : Nat) : Prop extends Log b id where
  past : (b.game id).category = SOLO → ∀ k players, (b.game id).starts[k]? = some players → 2 ≤ players.length →
    ((b.game id).isStarted = true → k + 1 < (b.game id).starts.length) → Ranks (b.ranking id k) players []
  now : (b.game id).category = SOLO → (b.game id).isStarted = true → ∀ k players, (b.game id).starts[k]? = some players →
    k + 1 = (b.game id).starts.length → 2 ≤ players.length →
    Ranks (b.ranking id k) players (b.game id).playersGuid ∧ 2 ≤ (b.game id).playersGuid.length

theorem ranking_append (h : b'.rewards = b.rewards ++ rs)
    (hrs : ∀ r ∈ rs, ¬(r.gameId = id ∧ r.start = some k)) : b'.ranking id k = b.ranking id k := by
  have hnil : rs.filter (fun r => decide (r.gameId = id) && decide (r.start = some k)) = [] :=
    List.filter_eq_nil_iff.2 fun r hr => by simpa using hrs r hr
  rw [ranking, h, List.filter_append, hnil, List.append_nil, ← ranking]

theorem Takes.ranking (ht : Takes areas P b b') (hid : (b.game id).isStarted = true → ¬P id) (k : Nat) :
    b'.ranking id k = b.ranking id k := by
  obtain ⟨rs, hrs, hall⟩ := ht.rewards
  refine ranking_append hrs fun r hr he => ?_
  obtain ⟨hP, hon⟩ := hall r hr
  exact hid (he.1 ▸ (hon k he.2).1) (he.1 ▸ hP)

/-- What is rewarded in a game that is on is rewarded in its last start. -/
theorem Takes.ranking_old (ht : Takes areas P b b') (hk : k + 1 < (b.game id).starts.length) :
    b'.ranking id k = b.ranking id k := by
  obtain ⟨rs, hrs, hall⟩ := ht.rewards
  refine ranking_append hrs fun r hr he => ?_
  have hlast := ((hall r hr).2 k he.2).2
  rw [he.1] at hlast
  omega

theorem Takes.category (ht : Takes areas P b b') (hc : Configured areas b) (id : Nat) :
    (b'.game id).category = (b.game id).category := by
  have hc' := ht.configured hc
  cases ha : areas.rows.find? id with
  | none => rw [(hc'.unknown id ha).2.2.1, (hc.unknown id ha).2.2.1]
  | some area => rw [(hc'.known id area ha).1, (hc.known id area ha).1]

theorem Log.takes (h : Log b id) (hc : Configured areas b) (ht : Takes areas P b b') : Log b' id := by
  obtain ⟨hstarts, hstarted⟩ := ht.starts id
  obtain ⟨rs, hrs, hall⟩ := ht.rewards
  refine ⟨fun hon => hstarts ▸ h.begun (hstarted hon), fun r hr he k hk => ?_, fun players hp => h.nodup players (hstarts ▸ hp),
    fun hsolo => Sub.eq_empty (h.alone (ht.category hc id ▸ hsolo) ▸ ht.groups id)⟩
  rw [hstarts]
  rw [hrs] at hr
  rcases List.mem_append.1 hr with hr | hr
  · exact h.bound r hr he k hk
  obtain ⟨hon, hk⟩ := (hall r hr).2 k hk
  have hpos := List.length_pos_iff.2 (h.begun (he ▸ hon))
  rw [he] at hk
  omega

/-- A removal elsewhere, or from a game that has not started. -/
theorem Rounds.takes (h : Rounds b id) (hc : Configured areas b) (ht : Takes areas P b b')
    (hid : (b.game id).category = SOLO → (b.game id).isStarted = true → ¬P id) : Rounds b' id := by
  obtain ⟨hstarts, hstarted⟩ := ht.starts id
  have hcat := ht.category hc id
  have hranking : (b.game id).category = SOLO → ∀ k, b'.ranking id k = b.ranking id k := fun hsolo =>
    ht.ranking (hid hsolo)
  refine ⟨h.toLog.takes hc ht, fun hsolo k players hk hlen hpast => ?_, fun hsolo hon k players hk hlast hlen => ?_⟩
  · have hsolo : (b.game id).category = SOLO := hcat ▸ hsolo
    rw [hranking hsolo]
    refine h.past hsolo k players (hstarts ▸ hk) hlen fun hon => ?_
    rw [← hstarts]
    exact hpast (by rw [ht.other (hid hsolo hon)]; exact hon)
  · have hsolo : (b.game id).category = SOLO := hcat ▸ hsolo
    have hsame := ht.other (hid hsolo (hstarted hon))
    rw [hranking hsolo, hsame]
    exact h.now hsolo (hstarted hon) k players (hstarts ▸ hk) (hstarts ▸ hlast) hlen

/-! ## A player of a started game is out -/

/-- `removePlayer` of a player of a started game of single players. -/
def eliminate (areas : Areas) (near : ObjectGuid → Bool) (player : ObjectGuid) (gameId : Nat) (b : Battleroyale) :
    Battleroyale :=
  match (b.game gameId).playersGuid.filter (· ≠ player) with
  | [last] => ((b.eliminated near player gameId).eliminated near last gameId).reloadGameId areas gameId
  | _ => b.eliminated near player gameId

theorem removePlayer_eq (hu : Unique b) (hc : Configured areas b) (hsolo : (b.game gameId).category = SOLO)
    (hstarted : (b.game gameId).isStarted = true) (hmem : player ∈ (b.game gameId).playersGuid)
    (hin : b.inWorld player = true)
    (htwo : (b.game gameId).playersGuid.length = 2 → ∀ p ∈ (b.game gameId).playersGuid, b.inWorld p = true) :
    b.removePlayer areas near player = some (b.eliminate areas near player gameId) := by
  unfold eliminate
  split
  next last hlist =>
    have hkept : last ∈ (b.game gameId).playersGuid.filter (· ≠ player) := hlist ▸ List.mem_singleton_self last
    refine removePlayer_last hu hsolo hmem hin hc hstarted hlist (htwo ?_ last (List.mem_of_mem_filter hkept))
    rw [← length_filter_ne (hu.nodup gameId) hmem, hlist]
    rfl
  next hmany =>
  refine removePlayer_many hu hsolo hmem hin fun hlen => ?_
  obtain ⟨last, hlast⟩ := List.length_eq_one_iff.1 hlen
  exact hmany last hlast

theorem takes_eliminate (near : ObjectGuid → Bool) (player : ObjectGuid) (gameId : Nat) (b : Battleroyale) :
    Takes areas (· = gameId) b (b.eliminate areas near player gameId) := by
  unfold eliminate
  split
  · exact ((takes_eliminated (P := (· = gameId)) near player b rfl).trans (takes_eliminated near _ _ rfl)).reloadGameId rfl
  · exact takes_eliminated near player b rfl

theorem eliminate_cases (hu : Unique b) (hmem : player ∈ (b.game gameId).playersGuid) (near : ObjectGuid → Bool) :
    (∃ last, (b.game gameId).playersGuid.filter (· ≠ player) = [last] ∧ (b.game gameId).playersGuid.length = 2 ∧
      b.eliminate areas near player gameId =
        ((b.eliminated near player gameId).eliminated near last gameId).reloadGameId areas gameId) ∨
    (b.game gameId).playersGuid.length ≠ 2 ∧ b.eliminate areas near player gameId = b.eliminated near player gameId := by
  have hleft := length_filter_ne (hu.nodup gameId) hmem
  unfold eliminate
  split
  next last hlast => exact .inl ⟨last, hlast, by rw [← hleft, hlast]; rfl, rfl⟩
  next hmany =>
  refine .inr ⟨fun htwo => ?_, rfl⟩
  obtain ⟨last, hlast⟩ := List.length_eq_one_iff.1 (show ((b.game gameId).playersGuid.filter (· ≠ player)).length = 1 by
    omega)
  exact hmany last hlast

theorem game_reset (hc : Configured areas b) (hstarted : (b.game gameId).isStarted = true) (b' : Battleroyale) :
    ((b'.reloadGameId areas gameId).game gameId).isStarted = false ∧
      ((b'.reloadGameId areas gameId).game gameId).playersGuid = [] := by
  unfold reloadGameId
  split
  next ha => exact absurd ((hc.unknown gameId ha).2.1.symm.trans hstarted) (by decide)
  next area _ =>
  rw [game_setGame_self]
  exact ⟨rfl, rfl⟩

/-- With the second to last player the game ends. -/
theorem game_eliminate (hu : Unique b) (hc : Configured areas b) (hstarted : (b.game gameId).isStarted = true)
    (hmem : player ∈ (b.game gameId).playersGuid) (near : ObjectGuid → Bool) :
    if (b.game gameId).playersGuid.length = 2 then
      ((b.eliminate areas near player gameId).game gameId).isStarted = false ∧
        ((b.eliminate areas near player gameId).game gameId).playersGuid = []
    else ((b.eliminate areas near player gameId).game gameId).isStarted = true ∧
      ((b.eliminate areas near player gameId).game gameId).playersGuid =
        (b.game gameId).playersGuid.filter (· ≠ player) := by
  rcases @eliminate_cases areas _ _ _ hu hmem near with ⟨last, -, htwo, he⟩ | ⟨hmore, he⟩
  · rw [if_pos htwo, he]
    exact game_reset hc hstarted _
  · rw [if_neg hmore, he, game_eliminated]
    exact ⟨hstarted, rfl⟩

theorem rewards_eliminated (near : ObjectGuid → Bool) (player : ObjectGuid) (hstarted : (b.game gameId).isStarted = true) :
    (b.eliminated near player gameId).rewards = b.rewards ++ [⟨gameId, some ((b.game gameId).starts.length - 1), player,
      (b.game gameId).playersGuid.length, ((b.game gameId).mPlayersKills.find? player).getD 0⟩] := by
  show (rewardPlayer player _ gameId (b.teleportTo near player)).rewards = _
  simp only [rewardPlayer, game_teleportTo, hstarted, if_true]
  rfl

theorem ranking_reloadGameId (areas : Areas) (gameId : Nat) (b : Battleroyale) (id k : Nat) :
    (b.reloadGameId areas gameId).ranking id k = b.ranking id k := by
  unfold reloadGameId
  split <;> rfl

theorem Ranks.eliminated {players : List ObjectGuid} {k : Nat} (hr : Ranks (b.ranking gameId k) players (b.game gameId).playersGuid)
    (hnodup : (b.game gameId).playersGuid.Nodup) (near : ObjectGuid → Bool) (hmem : player ∈ (b.game gameId).playersGuid)
    (hstarted : (b.game gameId).isStarted = true) (hk : k + 1 = (b.game gameId).starts.length) :
    Ranks ((b.eliminated near player gameId).ranking gameId k) players
      ((b.game gameId).playersGuid.filter (· ≠ player)) := by
  rw [ranking, rewards_eliminated near player hstarted, List.filter_append, ← ranking]
  have hk : (b.game gameId).starts.length - 1 = k := by omega
  rw [List.filter_cons_of_pos (by simp [hk]), List.filter_nil]
  exact hr.next hnodup hmem rfl rfl

theorem Rounds.eliminate (h : Rounds b gameId) (hc : Configured areas b) (hu : Unique b)
    (hsolo : (b.game gameId).category = SOLO) (hstarted : (b.game gameId).isStarted = true)
    (hmem : player ∈ (b.game gameId).playersGuid) (near : ObjectGuid → Bool) :
    Rounds (b.eliminate areas near player gameId) gameId := by
  have hlog := h.toLog.takes hc (takes_eliminate near player gameId b)
  have hgame := game_eliminated near player gameId b
  have hon : ((b.eliminated near player gameId).game gameId).isStarted = true := by rw [hgame]; exact hstarted
  rcases @eliminate_cases areas _ _ _ hu hmem near with ⟨last, hlist, -, he⟩ | ⟨hmore, he⟩
  · -- the last two are out, and the game waits again
    have hlast : ((b.eliminated near player gameId).game gameId).playersGuid = [last] := by rw [hgame]; exact hlist
    have hout : Takes areas (· = gameId) b ((b.eliminated near player gameId).eliminated near last gameId) :=
      Takes.trans (takes_eliminated near player b rfl) (takes_eliminated near last _ rfl)
    have hreset := game_reset hc hstarted ((b.eliminated near player gameId).eliminated near last gameId)
    refine ⟨hlog, ?_, fun _ hon' => absurd ((he ▸ hreset.1).symm.trans hon') (by decide)⟩
    intro _ k players hk hlen _
    have hk : (b.game gameId).starts[k]? = some players := by
      rw [((takes_eliminate near player gameId b).starts gameId).1] at hk
      exact hk
    rw [he, ranking_reloadGameId]
    by_cases hnow : k + 1 = (b.game gameId).starts.length
    · have hr := (h.now hsolo hstarted k players hk hnow hlen).1.eliminated (hu.nodup gameId) near hmem hstarted hnow
      have hr' := @Ranks.eliminated (b.eliminated near player gameId) last gameId players k
        (by rw [hgame]; exact hr) (by rw [hlast]; exact List.pairwise_singleton _ _) near
        (by rw [hlast]; exact List.mem_singleton_self last) hon (by rw [hgame]; exact hnow)
      rw [hlast] at hr'
      simpa using hr'
    have hlt : k + 1 < (b.game gameId).starts.length := by
      have := (List.getElem?_eq_some_iff.1 hk).1
      omega
    rw [hout.ranking_old hlt]
    exact h.past hsolo k players hk hlen fun _ => hlt
  · rw [he] at hlog ⊢
    refine ⟨hlog, fun _ k players hk hlen hpast => ?_, fun _ _ k players hk hnow hlen => ?_⟩
    · rw [hgame] at hk hpast
      have hlt := hpast hstarted
      rw [(@takes_eliminated areas _ (fun _ => True) near player b trivial).ranking_old hlt]
      exact h.past hsolo k players hk hlen fun _ => hlt
    · rw [hgame] at hk hnow ⊢
      obtain ⟨hr, htwo⟩ := h.now hsolo hstarted k players hk hnow hlen
      refine ⟨hr.eliminated (hu.nodup gameId) near hmem hstarted hnow, ?_⟩
      have hleft := length_filter_ne (hu.nodup gameId) hmem
      show 2 ≤ ((b.game gameId).playersGuid.filter (· ≠ player)).length
      omega

/-! ## Steps -/

/-- The started games of single players that list a player. -/
def soloGames (b : Battleroyale) (player : ObjectGuid) : List Game :=
  ((b.playing player).map (·.2)).filter (·.category = SOLO)

theorem mem_soloGames (hsolo : (b.game id).category = SOLO) (hstarted : (b.game id).isStarted = true)
    (hmem : player ∈ (b.game id).playersGuid) : b.game id ∈ b.soloGames player := by
  obtain ⟨game, hf⟩ : ∃ game, b.games.find? id = some game := by
    cases hf : b.games.find? id with
    | none => rw [Battleroyale.game, hf] at hmem; cases hmem
    | some game => exact ⟨game, rfl⟩
  have hg : b.game id = game := by rw [Battleroyale.game, hf, Option.getD_some]
  rw [soloGames, playing]
  refine List.mem_filter.2 ⟨List.mem_map.2 ⟨(id, game), List.mem_filter.2 ⟨OMap.mem_entries.2 hf, ?_⟩, hg.symm⟩, ?_⟩
  · rw [← hg]
    simp [hstarted, hmem]
  · simp [hsolo]

/-- The player is in the world and in no group, and so is in the world the other one of the last two. -/
def goesAlone (b : Battleroyale) (player : ObjectGuid) (game : Game) : Bool :=
  b.inWorld player && (b.getGroup player).isNone && (game.playersGuid.length ≠ 2 || game.playersGuid.all b.inWorld)

/-- Somebody leaves a started game of single players in another way than alone, by his death or his logout. -/
def spoils : Event → Battleroyale → Bool
  | .leave player, b => b.inWorld player && !(b.soloGames player).isEmpty
  | .repop player _, b => (b.soloGames player).any (!b.goesAlone player ·)
  | .logout player _, b =>
    (b.soloGames player).any fun game => !b.goesAlone player game || b.checkIfPlayerIsInBattleRoyale player = 0
  | .removeMember player _, b => !(b.soloGames player).isEmpty && b.checkIfPlayerIsInBattleRoyale player ≠ 0
  | _, _ => false

def Played (event : Event) (b : Battleroyale) : Prop := Fresh event b ∧ spoils event b = false

instance (event : Event) (b : Battleroyale) : Decidable (Played event b) := inferInstanceAs (Decidable (_ ∧ _))

/-- The death or the logout of a player of a started game of single players. -/
inductive Event.Eliminates (player : ObjectGuid) (near : ObjectGuid → Bool) : Event → Prop
  | repop : Eliminates player near (.repop player near)
  | logout : Eliminates player near (.logout player near)

theorem goesAlone_spec (h : b.goesAlone player game = true) : b.inWorld player = true ∧
    b.getGroup player = none ∧ (game.playersGuid.length = 2 → ∀ p ∈ game.playersGuid, b.inWorld p = true) := by
  simp only [goesAlone, Bool.and_eq_true, Option.isNone_iff_eq_none, Bool.or_eq_true, decide_eq_true_eq,
    List.all_eq_true] at h
  exact ⟨h.1.1, h.1.2, fun hlen => h.2.resolve_left fun hne => hne hlen⟩

theorem step_eliminates (hu : Unique b) (hc : Configured areas b) (hsolo : (b.game gameId).category = SOLO)
    (hstarted : (b.game gameId).isStarted = true) (hmem : player ∈ (b.game gameId).playersGuid)
    (he : event.Eliminates player near) (hok : spoils event b = false) : ∃ b', step areas event b = some b' ∧
      b'.games = (b.eliminate areas near player gameId).games ∧
      b'.rewards = (b.eliminate areas near player gameId).rewards ∧ b'.kills = b.kills := by
  have hgame := mem_soloGames hsolo hstarted hmem
  cases he with
  | repop =>
    have halone := List.any_eq_false.1 hok _ hgame
    obtain ⟨hin, hgroup, htwo⟩ := goesAlone_spec (by simpa using halone)
    refine ⟨_, ?_, rfl, rfl, (takes_eliminate near player gameId b).kills⟩
    rw [step, hgroup]
    exact removePlayer_eq hu hc hsolo hstarted hmem hin htwo
  | logout =>
    have halone := List.any_eq_false.1 hok _ hgame
    rw [Bool.not_eq_true, Bool.or_eq_false_iff] at halone
    obtain ⟨hin, hgroup, htwo⟩ := goesAlone_spec (by simpa using halone.1)
    have hcheck : b.checkIfPlayerIsInBattleRoyale player = gameId := by
      rcases checkGames_spec b player b.games.entries 0 with h0 | ⟨-, e, hmem', hid, hp⟩
      · exact absurd h0 (of_decide_eq_false halone.2)
      · exact hid.symm.trans (hu.eq (by rwa [mem_entries_game hmem']) hmem)
    have hne : b.checkIfPlayerIsInBattleRoyale player ≠ 0 := of_decide_eq_false halone.2
    refine ⟨{ b.eliminate areas near player gameId with
      inWorld := fun guid => (b.eliminate areas near player gameId).inWorld guid && guid ≠ player }, ?_, rfl, rfl,
      (takes_eliminate near player gameId b).kills⟩
    rw [step, quit, if_pos (Nat.pos_of_ne_zero hne), hcheck, gameIsStarted, hstarted, hgroup]
    simp only [if_true, Option.isSome_none, Bool.false_eq_true, if_false]
    rw [removePlayer_eq hu hc hsolo hstarted hmem hin htwo]
    rfl

theorem Rounds.congr (h : Rounds b id) (hg : (b'.game id).playersGuid = (b.game id).playersGuid ∧
      (b'.game id).groups = (b.game id).groups ∧ (b'.game id).isStarted = (b.game id).isStarted ∧
      (b'.game id).category = (b.game id).category ∧ (b'.game id).starts = (b.game id).starts)
    (hr : b'.rewards = b.rewards) : Rounds b' id := by
  obtain ⟨hp, hgroups, hstarted, hcat, hstarts⟩ := hg
  have hranking : ∀ k, b'.ranking id k = b.ranking id k := fun k => by rw [ranking, hr, ← ranking]
  refine ⟨⟨?_, ?_, ?_, ?_⟩, ?_, ?_⟩
  · rw [hstarted, hstarts]
    exact h.begun
  · rw [hstarts, hr]
    exact h.bound
  · rw [hstarts]
    exact h.nodup
  · rw [hcat, hgroups]
    exact h.alone
  · simp only [hcat, hstarted, hstarts, hranking]
    exact h.past
  · simp only [hcat, hstarted, hstarts, hranking, hp]
    exact h.now

/-- In a new start nobody has been rewarded. -/
theorem Rounds.start (h : Rounds b gameId) (hs : Started gameId b b') (hwaits : (b.game gameId).isStarted = false)
    (hnodup : (b.game gameId).playersGuid.Nodup) : Rounds b' gameId := by
  obtain ⟨spawns, hg⟩ := hs.game
  have hranking : ∀ k, b'.ranking gameId k = b.ranking gameId k := fun k => by rw [ranking, hs.rewards, ← ranking]
  refine ⟨⟨?_, ?_, ?_, ?_⟩, ?_, ?_⟩
  all_goals simp only [hg, hs.rewards, hranking, List.length_append, List.length_singleton]
  · intro _ he
    exact absurd (congrArg List.length he) (by simp)
  · intro r hr he k hk
    exact Nat.lt_succ_of_lt (h.bound r hr he k hk)
  · intro players hp
    rcases List.mem_append.1 hp with hp | hp
    · exact h.nodup players hp
    · exact List.mem_singleton.1 hp ▸ hnodup
  · exact h.alone
  · intro hsolo k players hk hlen hpast
    have hlt : k < (b.game gameId).starts.length := by
      have := hpast trivial
      omega
    rw [List.getElem?_append_left hlt] at hk
    exact h.past hsolo k players hk hlen fun hon => absurd (hwaits.symm.trans hon) (by decide)
  · intro _ _ k players hk hlast hlen
    have hk' : k = (b.game gameId).starts.length := by omega
    rw [hk', List.getElem?_concat_length, Option.some.injEq] at hk
    subst hk
    have hnone : b.ranking gameId k = [] := List.filter_eq_nil_iff.2 fun r hr => by
      simp only [Bool.and_eq_true, decide_eq_true_eq, not_and]
      intro he hstart
      have := h.bound r hr he k hstart
      omega
    rw [hnone]
    exact ⟨ranks_start _, hlen⟩

/-- Nobody who joins a game of single players is in a group. -/
theorem joining_solo (h : b.joining player gameId = some players)
    (hsolo : (b.game gameId).category = SOLO) : b.getGroup player = none := by
  unfold joining at h
  extract_lets game at h
  split at h
  · cases h
  split at h
  · cases h
  split at h
  next hgroups =>
    rw [show game.category = SOLO from hsolo] at hgroups
    exact absurd hgroups (by decide)
  · split at h
    · cases h
    next hnone => simpa using hnone

theorem joining_waits (h : b.joining player gameId = some players) : (b.game gameId).isStarted = false := by
  unfold joining at h
  extract_lets game at h
  split at h
  · cases h
  next hnot => simpa [game] using hnot

theorem Rounds.addPlayer (h : ∀ id, Rounds b id) (hu' : Unique b')
    (hb' : b.addPlayer near player gameId = some b') : Rounds b' id := by
  have hwith : ∀ id, Rounds (b.withGame gameId) id := fun id =>
    (h id).congr (by rw [game_withGame]; exact ⟨rfl, rfl, rfl, rfl, rfl⟩) rfl
  rcases addPlayer_spec hb' with ⟨-, rfl⟩ | ⟨players, hjoin, hb'⟩
  · exact hwith id
  have hwaits := joining_waits hjoin
  have halone : (b.game gameId).category = SOLO → b.getGroup player = none := fun hsolo =>
    joining_solo (b := b.withGame gameId) hjoin (by rw [game_withGame]; exact hsolo)
  generalize hc : (b.withGame gameId).setGame gameId (join (b.getGroup player) players (b.game gameId)) = c at hb'
  have hcgame : c.game gameId = join (b.getGroup player) players (b.game gameId) := by rw [← hc, game_setGame_self]
  rw [game_withGame] at hwaits
  -- the game has not started, and lists those who join
  have hjoined : Rounds c id := by
    by_cases hid : id = gameId
    · subst hid
      have hcwaits : (c.game id).isStarted = false := by rw [hcgame]; exact hwaits
      have hrewards : c.rewards = b.rewards := by rw [← hc]; rfl
      have hranking : ∀ k, c.ranking id k = b.ranking id k := fun k => by rw [ranking, hrewards, ← ranking]
      refine ⟨⟨fun hon => absurd (hcwaits.symm.trans hon) (by decide), ?_, ?_, ?_⟩, ?_,
        fun _ hon => absurd (hcwaits.symm.trans hon) (by decide)⟩
      all_goals rw [hcgame]
      · rw [hrewards]
        exact (h id).bound
      · exact (h id).nodup
      · intro hsolo
        rw [halone hsolo]
        exact (h id).alone hsolo
      · intro hsolo k players' hk hlen _
        rw [hranking]
        exact (h id).past hsolo k players' hk hlen fun hon => absurd (hwaits.symm.trans hon) (by decide)
    · refine (hwith id).congr ?_ (by rw [← hc]; rfl)
      rw [← hc, game_setGame_of_ne hid]
      exact ⟨rfl, rfl, rfl, rfl, rfl⟩
  rcases hb' with rfl | hs
  · exact hjoined
  by_cases hid : id = gameId
  · subst hid
    refine hjoined.start hs (by rw [hcgame]; exact hwaits) ?_
    obtain ⟨spawns, hg⟩ := hs.game
    have hnodup := hu'.nodup id
    rwa [hg] at hnodup
  refine hjoined.congr ?_ hs.rewards
  rw [hs.others id hid]
  exact ⟨rfl, rfl, rfl, rfl, rfl⟩

/-- What a step keeps. -/
structure Good (areas : Areas) (b : Battleroyale) : Prop where
  unique : Unique b
  configured : Configured areas b
  rounds : ∀ id, Rounds b id

/-- A player of a started game of single players leaves: he is out, or nothing happens. -/
theorem step_out (h : Good areas b) (hok : Played event b) (hs : step areas event b = some b')
    (hsolo : (b.game id).category = SOLO) (hstarted : (b.game id).isStarted = true) (hp : player ∈ event.leaver)
    (hmem : player ∈ (b.game id).playersGuid) : ∃ c, b'.games = c.games ∧ b'.rewards = c.rewards ∧ b'.kills = c.kills ∧
      (c = b ∨ ∃ near, c = b.eliminate areas near player id) := by
  have hgame := mem_soloGames hsolo hstarted hmem
  have hne : (b.soloGames player).isEmpty = false := by
    cases he : b.soloGames player with
    | nil => rw [he] at hgame; cases hgame
    | cons => rfl
  have hok := hok.2
  have hout : ∀ near, event.Eliminates player near → ∃ c, b'.games = c.games ∧ b'.rewards = c.rewards ∧
      b'.kills = c.kills ∧ (c = b ∨ ∃ near, c = b.eliminate areas near player id) := by
    intro near he
    obtain ⟨c, hc, hgames, hrewards, hkills⟩ := step_eliminates h.unique h.configured hsolo hstarted hmem he hok
    cases hs.symm.trans hc
    exact ⟨_, hgames, hrewards, hkills.trans (takes_eliminate near player id b).kills.symm, .inr ⟨near, rfl⟩⟩
  cases event with
  | leave p =>
    cases hp
    have hin : b.inWorld player = false := by simpa [spoils, hne] using hok
    rw [step, hin] at hs
    cases hs
    exact ⟨b, rfl, rfl, rfl, .inl rfl⟩
  | repop p near =>
    cases hp
    exact hout near .repop
  | logout p near =>
    cases hp
    exact hout near .logout
  | removeMember p near =>
    cases hp
    have hcheck : b.checkIfPlayerIsInBattleRoyale player = 0 := by simpa [spoils, hne] using hok
    rw [step, quit, hcheck] at hs
    cases hs
    exact ⟨b, rfl, rfl, rfl, .inl rfl⟩
  | join | kill | world | parties => cases hp

theorem step_good (h : Good areas b) (hok : Played event b) (hs : step areas event b = some b') : Good areas b' := by
  have hu' := step_unique h.unique hok.1 hs
  refine ⟨hu', step_configured h.configured hs, fun id => ?_⟩
  by_cases hout : (b.game id).category = SOLO ∧ (b.game id).isStarted = true ∧
      ∃ player ∈ event.leaver, player ∈ (b.game id).playersGuid
  · obtain ⟨hsolo, hstarted, player, hp, hmem⟩ := hout
    obtain ⟨c, hgames, hrewards, -, hc⟩ := step_out h hok hs hsolo hstarted hp hmem
    refine Rounds.congr (b := c) ?_ (by rw [game_congr hgames]; exact ⟨rfl, rfl, rfl, rfl, rfl⟩) hrewards
    obtain rfl | ⟨near, rfl⟩ := hc
    · exact h.rounds id
    · exact (h.rounds id).eliminate h.configured h.unique hsolo hstarted hmem near
  · -- a started game of single players whose players all stay is left alone
    have hclosed : Closed (fun i => (b.game id).category = SOLO → (b.game id).isStarted = true → i ≠ id) b :=
      fun i i' p hi hp hp' hsolo hstarted he => hi hsolo hstarted ((h.unique.eq hp hp').trans he)
    have hstays : ∀ p ∈ event.leaver, ∀ i, p ∈ (b.game i).playersGuid → (b.game id).category = SOLO →
        (b.game id).isStarted = true → i ≠ id := by
      intro p hp i hmem hsolo hstarted he
      exact hout ⟨hsolo, hstarted, p, hp, he ▸ hmem⟩
    have halone : ∀ p ∈ quitter event b, ∀ party ∈ b.getGroup p, ∀ i, ((b.game i).groups.find? party.guid).isSome →
        (b.game id).category = SOLO → (b.game id).isStarted = true → i ≠ id := by
      intro p _ party _ i hsome hsolo _ he
      rw [he, (h.rounds id).alone hsolo] at hsome
      cases hsome
    rcases step_takes hclosed hstays halone hs with ⟨c, hc, hg, hr, -⟩ | ⟨player, gameId, near, rfl⟩ | ⟨killed, killer, rfl⟩
    · refine ((h.rounds id).takes h.configured hc fun hsolo hstarted hP => hP hsolo hstarted rfl).congr ?_ hr.symm
      rw [game_congr hg]
      exact ⟨rfl, rfl, rfl, rfl, rfl⟩
    · rw [step] at hs
      split at hs
      · exact Rounds.addPlayer h.rounds hu' hs
      · cases hs
        exact h.rounds id
    · have hrewards : b'.rewards = b.rewards := by
        cases hs
        show (onPlayerDie killed killer b).rewards = _
        unfold onPlayerDie
        extract_lets gameId
        split <;> rfl
      refine (h.rounds id).congr ?_ hrewards
      rw [game_kill hs]
      split <;> exact ⟨rfl, rfl, rfl, rfl, rfl⟩

theorem good_prepareGames (areas : Areas) : Good areas (prepareGames areas) := by
  refine ⟨unique_prepareGames areas, configured_prepareGames areas, fun id => ?_⟩
  have hgame : ((prepareGames areas).game id).isStarted = false ∧ ((prepareGames areas).game id).starts = [] ∧
      ((prepareGames areas).game id).groups = .empty := by
    rw [game_prepareGames]
    split <;> exact ⟨rfl, rfl, rfl⟩
  obtain ⟨hstarted, hstarts, hgroups⟩ := hgame
  refine ⟨⟨?_, fun r hr => (List.not_mem_nil hr).elim, ?_, fun _ => hgroups⟩, ?_, ?_⟩
  all_goals simp [hstarted, hstarts]

theorem reaches_good (hr : Reaches (step areas) Played (prepareGames areas) b) : Good areas b :=
  hr.invariant (Good areas) (fun _ _ _ h hok hs => step_good h hok hs) (good_prepareGames areas)

/-- In every run in which everybody who leaves a started game of single players dies or logs out alone, in the world, with
the other of the last two in the world, the starts of a game that are over have their whole ranking. In one that is on,
at least two are left and the others are ranked; who dies or logs out is ranked next, and the second to last
ends the game. -/
theorem reaches_ranking {areas : Areas} {b : Battleroyale} (hr : Reaches (step areas) Played (prepareGames areas) b)
    {id k : Nat} {players : List ObjectGuid} (hsolo : (b.game id).category = SOLO)
    (hstart : (b.game id).starts[k]? = some players) (hlen : 2 ≤ players.length) :
    players.Nodup ∧
    ((b.game id).isStarted = false ∨ k + 1 ≠ (b.game id).starts.length → Ranks (b.ranking id k) players []) ∧
    ((b.game id).isStarted = true ∧ k + 1 = (b.game id).starts.length →
      Ranks (b.ranking id k) players (b.game id).playersGuid ∧ 2 ≤ (b.game id).playersGuid.length ∧
      ∀ player ∈ (b.game id).playersGuid, ∀ event near, event.Eliminates player near → Played event b →
        ∃ b', step areas event b = some b' ∧
          if (b.game id).playersGuid.length = 2 then (b'.game id).isStarted = false ∧ (b'.game id).playersGuid = []
          else (b'.game id).isStarted = true ∧ (b'.game id).playersGuid = (b.game id).playersGuid.filter (· ≠ player)) := by
  have h := reaches_good hr
  have hrounds := h.rounds id
  refine ⟨hrounds.nodup players (List.mem_of_getElem? hstart), fun hpast => ?_, fun hnow => ?_⟩
  · refine hrounds.past hsolo k players hstart hlen fun hon => ?_
    have hlt := (List.getElem?_eq_some_iff.1 hstart).1
    have hne := hpast.resolve_left (by rw [hon]; decide)
    omega
  · obtain ⟨hon, hlast⟩ := hnow
    obtain ⟨hranks, htwo⟩ := hrounds.now hsolo hon k players hstart hlast hlen
    refine ⟨hranks, htwo, fun player hmem event near he hok => ?_⟩
    obtain ⟨b', hs, hg, -⟩ := step_eliminates h.unique h.configured hsolo hon hmem he hok.2
    refine ⟨b', hs, ?_⟩
    rw [game_congr hg]
    exact game_eliminate h.unique h.configured hon hmem near

def threePlay : List Event :=
  [.world everybody, .join 1 1 everybody, .join 2 1 everybody, .join 3 1 everybody]

theorem reaches_ranking_three : ∃ b : Battleroyale, Reaches (step twoAreas) Played (prepareGames twoAreas) b ∧
    Ranks (b.ranking 1 0) [1, 2, 3] [] ∧
      (b.ranking 1 0).map (fun r => (r.player, r.position)) = [(1, 3), (2, 2), (3, 1)] := by
  have hrun : (runSteps (allowed (step twoAreas) Played) (threePlay ++ [.repop 1 everybody, .logout 2 everybody])
      (prepareGames twoAreas)).any (fun b => (b.game 1).category = SOLO && (b.game 1).starts[0]? = some [1, 2, 3] &&
        (b.game 1).isStarted = false &&
        (b.ranking 1 0).map (fun r => (r.player, r.position)) = [(1, 3), (2, 2), (3, 1)]) = true := by decide
  obtain ⟨b, hb, hand⟩ := (Option.any_eq_true _ _).1 hrun
  simp only [Bool.and_eq_true, decide_eq_true_eq] at hand
  obtain ⟨⟨⟨hsolo, hstart⟩, hover⟩, hmap⟩ := hand
  have hr : Reaches (step twoAreas) Played (prepareGames twoAreas) b := .of_allowed (.of_runSteps hb)
  obtain ⟨-, hpast, -⟩ := reaches_ranking hr hsolo hstart (by decide)
  exact ⟨b, hr, hpast (.inl hover), hmap⟩

/-- The second of three leaves through the queue and is never rewarded; the last of three is not in the world when the
other two are dead. -/
theorem unranked_or_lost :
    (∃ b : Battleroyale, Reaches (step twoAreas) (fun _ _ => True) (prepareGames twoAreas) b ∧
      (b.game 1).starts = [[1, 2, 3]] ∧ (b.game 1).isStarted = false ∧
      (b.ranking 1 0).map (fun r => (r.player, r.position)) = [(1, 2), (3, 1)]) ∧
    ∃ b : Battleroyale, Reaches (step twoAreas) (fun _ _ => True) (prepareGames twoAreas) b ∧
      (b.game 1).starts = [[1, 2, 3]] ∧ (b.game 1).playersGuid = [2, 3] ∧ step twoAreas (.repop 2 everybody) b = none := by
  constructor
  · have hrun : (runSteps (step twoAreas) (threePlay ++ [.leave 2, .repop 1 everybody]) (prepareGames twoAreas)).any
        (fun b => (b.game 1).starts = [[1, 2, 3]] && (b.game 1).isStarted = false &&
          (b.ranking 1 0).map (fun r => (r.player, r.position)) = [(1, 2), (3, 1)]) = true := by decide
    obtain ⟨b, hb, hand⟩ := (Option.any_eq_true _ _).1 hrun
    simp only [Bool.and_eq_true, decide_eq_true_eq] at hand
    exact ⟨b, .of_runSteps hb, hand.1.1, hand.1.2, hand.2⟩
  · have hrun : (runSteps (step twoAreas) (threePlay ++ [.repop 1 everybody, .world (· ≠ 3)]) (prepareGames twoAreas)).any
        (fun b => (b.game 1).starts = [[1, 2, 3]] && (b.game 1).playersGuid = [2, 3] &&
          (step twoAreas (.repop 2 everybody) b).isNone) = true := by decide
    obtain ⟨b, hb, hand⟩ := (Option.any_eq_true _ _).1 hrun
    simp only [Bool.and_eq_true, decide_eq_true_eq, Option.isNone_iff_eq_none] at hand
    exact ⟨b, .of_runSteps hb, hand.1.1, hand.1.2, hand.2⟩

end AtlasWow.Battleroyale
