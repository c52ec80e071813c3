/-
Kills and rewards. A kill of a player of a started game is recorded for the
killer under the id of the game, and credited with his reward; the records are
never cleared. While a player remains in a game, his record is what he has
made in this start and he has no reward (`Owed`); once he is out, he has been
credited with what he made (`Paid`).
-/
import AtlasWow.World.BattleroyaleRanking
import Mathlib.Algebra.GroupWithZero.Nat

namespace AtlasWow.Battleroyale

variable {areas : Areas} {near : ObjectGuid → Bool} {b b' : Battleroyale} {player : ObjectGuid} {gameId id k : Nat}
  {P : Nat → Prop}

/-- The kills a player was credited with in a start of a game. -/
def credited (b : Battleroyale) (id k : Nat) (player : ObjectGuid) : Nat :=
  (((b.ranking id k).filter (·.player = player)).map (·.killCount)).sum

/-- The kills he made in it. -/
def made (b : Battleroyale) (id k : Nat) (player : ObjectGuid) : Nat :=
  b.kills.countP fun kill => kill.gameId = id && kill.start = k && kill.killer = player

def recorded (game : Game) (player : ObjectGuid) : Nat := (game.mPlayersKills.find? player).getD 0

def inGroups (groups : OMap Nat (List GroupMember)) (player : ObjectGuid) : Prop :=
  ∃ g members, groups.find? g = some members ∧ player ∈ members.map (·.guid)

instance (groups : OMap Nat (List GroupMember)) (player : ObjectGuid) : Decidable (inGroups groups player) :=
  decidable_of_iff (∃ e ∈ groups.entries, player ∈ e.2.map (·.guid))
    ⟨fun ⟨(g, members), hg, hp⟩ => ⟨g, members, OMap.mem_entries.1 hg, hp⟩,
      fun ⟨g, members, hg, hp⟩ => ⟨(g, members), OMap.mem_entries.2 hg, hp⟩⟩

/-- A single player remains as long as he is listed, a member as long as his group does. -/
def Remains (game : Game) (player : ObjectGuid) : Prop :=
  if game.category = SOLO then player ∈ game.playersGuid else inGroups game.groups player

instance (game : Game) (player : ObjectGuid) : Decidable (Remains game player) := inferInstanceAs (Decidable (ite ..))

def Owed (b : Battleroyale) (id k : Nat) (player : ObjectGuid) : Prop :=
  (∀ r ∈ b.ranking id k, r.player ≠ player) ∧ recorded (b.game id) player = b.made id k player

def Paid (b : Battleroyale) (id k : Nat) (player : ObjectGuid) : Prop := b.credited id k player = b.made id k player

/-- The groups of a game have no member in common. -/
structure Parted (groups : OMap Nat (List GroupMember)) : Prop where
  nodup : ∀ g members, groups.find? g = some members → (members.map (·.guid)).Nodup
  disjoint : ∀ g g' members members', groups.find? g = some members → groups.find? g' = some members' → g ≠ g' →
    ∀ p ∈ members.map (·.guid), p ∉ members'.map (·.guid)

variable {groups : OMap Nat (List GroupMember)} {game game' : Game} {players : List ObjectGuid} {g position : Nat}
  {members : List GroupMember} {event : Event}

theorem Parted.sub {groups' : OMap Nat (List GroupMember)} (h : Parted groups') (hs : Sub groups groups') :
    Parted groups := by
  refine ⟨fun g members hg => ?_, fun g g' members members' hg hg' hne => ?_⟩
  · obtain ⟨_, hm, he⟩ := hs g members hg
    exact he ▸ h.nodup g _ hm
  · obtain ⟨_, hm, he⟩ := hs g members hg
    obtain ⟨_, hm', he'⟩ := hs g' members' hg'
    exact he ▸ he' ▸ h.disjoint g g' _ _ hm hm' hne

structure Accounts (b : Battleroyale) (id : Nat) : Prop where
  bound : ∀ kill ∈ b.kills, kill.gameId = id → kill.start < (b.game id).starts.length
  groups : Parted (b.game id).groups
  /-- Nobody who waits has a kill on record. -/
  waiting : (b.game id).isStarted = false → ∀ p ∈ (b.game id).playersGuid, recorded (b.game id) p = 0
  past : ∀ k players, (b.game id).starts[k]? = some players →
    ((b.game id).isStarted = true → k + 1 < (b.game id).starts.length) → ∀ p ∈ players, Paid b id k p
  now : (b.game id).isStarted = true → ∀ k players, (b.game id).starts[k]? = some players →
    k + 1 = (b.game id).starts.length → ∀ p ∈ players,
      (Remains (b.game id) p → Owed b id k p) ∧ (¬Remains (b.game id) p → Paid b id k p)

theorem remains_solo (h : game.category = SOLO) : Remains game player ↔ player ∈ game.playersGuid := by
  rw [Remains, if_pos h]

theorem remains_groups (h : game.category ≠ SOLO) : Remains game player ↔ inGroups game.groups player := by
  rw [Remains, if_neg h]

/-! ## Rewards -/

theorem paid_congr (hr : b'.ranking id k = b.ranking id k) (hk : b'.kills = b.kills) :
    Paid b' id k player ↔ Paid b id k player := by
  unfold Paid credited made
  rw [hr, hk]

theorem owed_congr (hr : b'.ranking id k = b.ranking id k) (hk : b'.kills = b.kills)
    (hg : (b'.game id).mPlayersKills = (b.game id).mPlayersKills) : Owed b' id k player ↔ Owed b id k player := by
  unfold Owed made recorded
  rw [hr, hk, hg]

/-- Some players are rewarded once each, with what is on record. -/
structure Rewarded (id k : Nat) (players : List ObjectGuid) (b b' : Battleroyale) : Prop where
  nodup : players.Nodup
  rewards : ∃ position, b'.rewards = b.rewards ++
    players.map fun p => ⟨id, some k, p, position, recorded (b.game id) p⟩
  kills : b'.kills = b.kills
  record : (b'.game id).mPlayersKills = (b.game id).mPlayersKills

theorem Rewarded.ranking (h : Rewarded id k players b b') : ∃ position,
    b'.ranking id k = b.ranking id k ++ players.map fun p => ⟨id, some k, p, position, recorded (b.game id) p⟩ := by
  obtain ⟨position, hr⟩ := h.rewards
  refine ⟨position, ?_⟩
  rw [Battleroyale.ranking, hr, List.filter_append, ← Battleroyale.ranking, List.filter_eq_self.2]
  intro r hr
  obtain ⟨p, -, rfl⟩ := List.mem_map.1 hr
  simp

/-- A player's own rewards among some of which there is one for each player. -/
theorem filter_rewards (hnodup : players.Nodup) (f : ObjectGuid → Reward)
    (hf : ∀ p, (f p).player = p) (player : ObjectGuid) :
    (players.map f).filter (·.player = player) = if player ∈ players then [f player] else [] := by
  induction players with
  | nil => rfl
  | cons p players ih =>
    obtain ⟨hp, hnodup⟩ := List.nodup_cons.1 hnodup
    rw [List.map_cons, List.filter_cons, hf, ih hnodup]
    by_cases he : p = player
    · subst he
      simp [hp]
    · simp [he, Ne.symm he]

theorem Rewarded.paid (h : Rewarded id k players b b') (ho : Owed b id k player)
    (hmem : player ∈ players) : Paid b' id k player := by
  obtain ⟨position, hr⟩ := h.ranking
  have hold : (b.ranking id k).filter (·.player = player) = [] :=
    List.filter_eq_nil_iff.2 fun r hr => by simpa using ho.1 r hr
  unfold Paid credited
  rw [hr, List.filter_append, hold, List.nil_append, filter_rewards h.nodup _ (fun _ => rfl), if_pos hmem, made, h.kills,
    ← made, ← ho.2]
  exact Nat.add_zero _

theorem Rewarded.other (h : Rewarded id k players b b') (hmem : player ∉ players) :
    (Owed b id k player → Owed b' id k player) ∧ (Paid b id k player → Paid b' id k player) := by
  obtain ⟨position, hr⟩ := h.ranking
  refine ⟨fun ho => ⟨fun r hr' => ?_, ?_⟩, fun hp => ?_⟩
  · rw [hr] at hr'
    rcases List.mem_append.1 hr' with hr' | hr'
    · exact ho.1 r hr'
    · obtain ⟨p, hp, rfl⟩ := List.mem_map.1 hr'
      exact fun he => hmem (he ▸ hp)
  · rw [recorded, h.record, made, h.kills]
    exact ho.2
  · unfold Paid credited
    rw [hr, List.filter_append, filter_rewards h.nodup _ (fun _ => rfl), if_neg hmem, List.append_nil, made, h.kills]
    exact hp

/-- Who is owed or paid, of the players of a start. -/
def Now (b : Battleroyale) (id k : Nat) (players : List ObjectGuid) (game : Game) : Prop :=
  ∀ p ∈ players, (Remains game p → Owed b id k p) ∧ (¬Remains game p → Paid b id k p)

/-- Those who are rewarded remain no longer. -/
theorem Now.rewarded {rewarded : List ObjectGuid} (h : Now b id k players game)
    (hr : Rewarded id k rewarded b b') (hmem : ∀ p ∈ rewarded, Remains game p)
    (hout : ∀ p, Remains game' p ↔ Remains game p ∧ p ∉ rewarded) : Now b' id k players game' := by
  intro p hp
  obtain ⟨howed, hpaid⟩ := h p hp
  constructor
  · intro hremains
    obtain ⟨hgame, hnot⟩ := (hout p).1 hremains
    exact (hr.other hnot).1 (howed hgame)
  · intro hremains
    by_cases hin : p ∈ rewarded
    · exact hr.paid (howed (hmem p hin)) hin
    · exact (hr.other hin).2 (hpaid fun hgame => hremains ((hout p).2 ⟨hgame, hin⟩))

/-! ## What other steps leave alone -/

theorem Takes.mPlayersKills (h : Takes areas P b b') (id : Nat) :
    (b'.game id).mPlayersKills = (b.game id).mPlayersKills := by
  induction h with
  | refl => rfl
  | teleportTo _ _ _ ih => exact ih
  | rewardPlayer _ _ _ _ ih => exact ih
  | @reloadGameId c gameId _ _ ih =>
    unfold Battleroyale.reloadGameId
    split
    · exact ih
    rw [game_setGame]
    split
    next hid => exact hid ▸ ih
    next => exact ih
  | setGame _ _ _ _ ih =>
    rw [game_setGame]
    split
    next hid => exact hid ▸ ih
    next => exact ih

theorem Accounts.takes (h : Accounts b id) (ht : Takes areas P b b') (hid : (b.game id).isStarted = true → ¬P id) :
    Accounts b' id := by
  obtain ⟨hstarts, hstarted⟩ := ht.starts id
  refine ⟨?_, h.groups.sub (ht.groups id), fun hwaits p hp => ?_, fun k players hk hpast p hp => ?_,
    fun hon k players hk hlast p hp => ?_⟩
  · rw [ht.kills, hstarts]
    exact h.bound
  · have hwaits : (b.game id).isStarted = false := by
      cases hon : (b.game id).isStarted with
      | false => rfl
      | true => exact absurd ((ht.other (hid hon)) ▸ hwaits) (by rw [hon]; decide)
    rw [recorded, ht.mPlayersKills]
    exact h.waiting hwaits p ((ht.sublist id).subset hp)
  · rw [paid_congr (ht.ranking hid k) ht.kills]
    refine h.past k players (hstarts ▸ hk) (fun hon => ?_) p hp
    rw [← hstarts]
    exact hpast (by rw [ht.other (hid hon)]; exact hon)
  · have hsame := ht.other (hid (hstarted hon))
    rw [paid_congr (ht.ranking hid k) ht.kills, owed_congr (ht.ranking hid k) ht.kills (ht.mPlayersKills id), hsame]
    exact h.now (hstarted hon) k players (hstarts ▸ hk) (hstarts ▸ hlast) p hp

/-- A removal from a started game: what is to be shown is of its last start. -/
theorem Accounts.touched (h : Accounts b id) (ht : Takes areas P b b')
    (hover : (b'.game id).isStarted = false → (b'.game id).playersGuid = [])
    (hnow : ∀ k players, (b.game id).starts[k]? = some players → k + 1 = (b.game id).starts.length →
      if (b'.game id).isStarted then Now b' id k players (b'.game id) else ∀ p ∈ players, Paid b' id k p) :
    Accounts b' id := by
  have hstarts := (ht.starts id).1
  refine ⟨?_, h.groups.sub (ht.groups id), fun hwaits p hp => ?_, fun k players hk hpast p hp => ?_,
    fun hon k players hk hlast => ?_⟩
  · rw [ht.kills, hstarts]
    exact h.bound
  · rw [hover hwaits] at hp
    cases hp
  · rw [hstarts] at hk hpast
    by_cases hlast : k + 1 = (b.game id).starts.length
    · have := hnow k players hk hlast
      rw [if_neg fun hon => (hpast hon).ne hlast] at this
      exact this p hp
    have hlt : k + 1 < (b.game id).starts.length := by
      have := (List.getElem?_eq_some_iff.1 hk).1
      omega
    rw [paid_congr (ht.ranking_old hlt) ht.kills]
    exact h.past k players hk (fun _ => hlt) p hp
  · rw [hstarts] at hk hlast
    have := hnow k players hk hlast
    rwa [if_pos hon] at this

theorem kills_reloadGameId (areas : Areas) (gameId : Nat) (b : Battleroyale) :
    (b.reloadGameId areas gameId).kills = b.kills := by
  unfold reloadGameId
  split <;> rfl

/-! ## Games of single players -/

theorem rewarded_eliminated (near : ObjectGuid → Bool) (player : ObjectGuid) (hstarted : (b.game id).isStarted = true)
    (hk : k + 1 = (b.game id).starts.length) : Rewarded id k [player] b (b.eliminated near player id) where
  nodup := List.pairwise_singleton _ _
  rewards := ⟨_, by
    rw [rewards_eliminated near player hstarted, show (b.game id).starts.length - 1 = k by omega]
    rfl⟩
  kills := rfl
  record := by rw [game_eliminated]; rfl

theorem Now.eliminated {players : List ObjectGuid} (h : Now b id k players (b.game id)) (near : ObjectGuid → Bool)
    (hsolo : (b.game id).category = SOLO) (hstarted : (b.game id).isStarted = true)
    (hk : k + 1 = (b.game id).starts.length) (hmem : player ∈ (b.game id).playersGuid) :
    Now (b.eliminated near player id) id k players ((b.eliminated near player id).game id) := by
  refine h.rewarded (rewarded_eliminated near player hstarted hk) (fun p hp => ?_) fun p => ?_
  · rw [remains_solo hsolo, List.mem_singleton.1 hp]
    exact hmem
  · have hleft : (erasePlayer player (b.game id)).category = SOLO := hsolo
    rw [remains_solo hsolo, game_eliminated, remains_solo hleft, List.mem_singleton]
    exact List.mem_filter.trans (and_congr_right fun _ => decide_eq_true_iff)

theorem Accounts.eliminate (h : Accounts b id) (hu : Unique b) (hc : Configured areas b)
    (hsolo : (b.game id).category = SOLO) (hstarted : (b.game id).isStarted = true)
    (hmem : player ∈ (b.game id).playersGuid) (near : ObjectGuid → Bool) :
    Accounts (b.eliminate areas near player id) id := by
  have hgame := game_eliminated near player id b
  have hon : ((b.eliminated near player id).game id).isStarted = true := by rw [hgame]; exact hstarted
  have hnow : ∀ k players, (b.game id).starts[k]? = some players → k + 1 = (b.game id).starts.length →
      Now (b.eliminated near player id) id k players ((b.eliminated near player id).game id) :=
    fun k players hk hlast => Now.eliminated (h.now hstarted k players hk hlast) near hsolo hstarted hlast hmem
  rcases @eliminate_cases areas _ _ _ hu hmem near with ⟨last, hlist, -, he⟩ | ⟨-, he⟩
  · have hover := game_reset hc hstarted ((b.eliminated near player id).eliminated near last id)
    refine h.touched (takes_eliminate near player id b) (fun _ => he ▸ hover.2) fun k players hk hlast => ?_
    rw [he, hover.1, if_neg (by decide)]
    intro p hp
    -- nobody is left who is not paid
    have hboth := Now.eliminated (hnow k players hk hlast) near (by rw [hgame]; exact hsolo) hon (by rw [hgame]; exact hlast)
      (show last ∈ _ by rw [hgame, erasePlayer, hlist]; exact List.mem_singleton_self last)
    rw [paid_congr (ranking_reloadGameId ..) (kills_reloadGameId ..)]
    refine (hboth p hp).2 fun hremains => ?_
    have hleft : (erasePlayer last (erasePlayer player (b.game id))).category = SOLO := hsolo
    rw [game_eliminated, hgame, remains_solo hleft] at hremains
    have hnone : (erasePlayer last (erasePlayer player (b.game id))).playersGuid = [last].filter (· ≠ last) := by
      rw [← hlist]
      rfl
    rw [hnone] at hremains
    simp at hremains
  · refine h.touched (takes_eliminate near player id b) (fun hwaits => ?_) fun k players hk hlast => ?_
    · exact absurd ((he ▸ hwaits).symm.trans hon) (by decide)
    · rw [he, if_pos hon]
      exact hnow k players hk hlast

/-! ## Games of groups -/

/-- The rewards of the members of a group who are all in the world. -/
theorem foldlM_rewardMember {position : Nat} {remove : Bool} : ∀ {members : List GroupMember} {b b' : Battleroyale},
    (b.game id).isStarted = true → k + 1 = (b.game id).starts.length →
    (∀ m ∈ members, b.inWorld m.guid = true) → (members.map (·.guid)).Nodup →
    members.foldlM (rewardMember near position id remove) b = some b' →
    b'.rewards = b.rewards ++ (members.map (·.guid)).map (fun p => ⟨id, some k, p, position, recorded (b.game id) p⟩) ∧
      b'.kills = b.kills ∧ (∃ playersGuid, b'.game id = { b.game id with playersGuid := playersGuid }) ∧
      (remove = false → b'.games = b.games ∧ b'.inWorld = b.inWorld ∧ b'.parties = b.parties)
  | [], b, b', _, _, _, _, h => by
    cases h
    exact ⟨(List.append_nil _).symm, rfl, ⟨_, rfl⟩, fun _ => ⟨rfl, rfl, rfl⟩⟩
  | m :: members, b, b', hon, hk, hin, hnodup, h => by
    obtain ⟨hm, hnodup⟩ := List.nodup_cons.1 hnodup
    rw [List.foldlM_cons, Option.bind_eq_bind, Option.bind_eq_some_iff] at h
    obtain ⟨c, hc, h⟩ := h
    unfold rewardMember at hc
    rw [hin m List.mem_cons_self] at hc
    simp only [Bool.not_true, Bool.false_eq_true, if_false] at hc
    obtain ⟨alive, -, rfl⟩ := Option.map_eq_some_iff.1 hc
    have hreward : (b.rewardPlayer m.guid position id).rewards =
        b.rewards ++ [⟨id, some k, m.guid, position, recorded (b.game id) m.guid⟩] := by
      have hstart : (b.game id).starts.length - 1 = k := by omega
      simp only [rewardPlayer, hon, if_true, hstart]
      rfl
    by_cases hremove : (alive && remove) = true
    · -- he is teleported, the others are where they were
      rw [if_pos hremove] at h
      have hin' : ∀ m' ∈ members, (b.inWorld m'.guid && (decide (m'.guid ≠ m.guid) || near m'.guid)) = true := by
        intro m' hm'
        have hne : m'.guid ≠ m.guid := fun he => hm (List.mem_map.2 ⟨m', hm', he⟩)
        rw [hin m' (List.mem_cons_of_mem _ hm'), decide_eq_true hne]
        rfl
      obtain ⟨hr, hkills, ⟨playersGuid, hg⟩, -⟩ := foldlM_rewardMember (by rw [game_setGame_self]; exact hon)
        (by rw [game_setGame_self]; exact hk) hin' hnodup h
      rw [game_setGame_self] at hr hg
      refine ⟨?_, hkills, ⟨playersGuid, hg⟩, fun hf => ?_⟩
      · rw [hr, show (setGame _ id _).rewards = (b.rewardPlayer m.guid position id).rewards from rfl, hreward,
          List.append_assoc]
        rfl
      · rw [hf, Bool.and_false] at hremove
        cases hremove
    · rw [if_neg hremove] at h
      obtain ⟨hr, hkills, hg, hsame⟩ := foldlM_rewardMember (b := b.rewardPlayer m.guid position id) hon hk
        (fun m' hm' => hin m' (List.mem_cons_of_mem _ hm')) hnodup h
      refine ⟨?_, hkills, hg, hsame⟩
      rw [hr, hreward, List.append_assoc]
      rfl

theorem rewarded_group {remove : Bool} (hp : Parted (b.game id).groups)
    (hg : ((b.game id).groups.find? g).getD [] = members) (hstarted : (b.game id).isStarted = true)
    (hk : k + 1 = (b.game id).starts.length) (hin : ∀ m ∈ members, b.inWorld m.guid = true)
    (h : b.rewardAllPlayersInGroup near g position id remove = some b') : Rewarded id k (members.map (·.guid)) b b' ∧
      (remove = false → b'.games = b.games ∧ b'.inWorld = b.inWorld ∧ b'.parties = b.parties) := by
  have hnodup : (members.map (·.guid)).Nodup := by
    cases hf : (b.game id).groups.find? g with
    | none =>
      rw [← hg, hf]
      exact List.nodup_nil
    | some members' =>
      rw [← hg, hf]
      exact hp.nodup g members' hf
  unfold rewardAllPlayersInGroup at h
  rw [hg] at h
  obtain ⟨hr, hkills, ⟨playersGuid, hgame⟩, hsame⟩ := foldlM_rewardMember hstarted hk hin hnodup h
  exact ⟨⟨hnodup, ⟨position, hr⟩, hkills, by rw [hgame]⟩, hsame⟩

/-- The last group is in the world when it is rewarded. -/
def winnersPresent (b : Battleroyale) (game : Game) : Bool :=
  1 < game.groups.size || game.groups.isEmpty || (game.playersGuid.head?.bind b.getGroup).all fun party =>
    (game.groups.find? party.guid).any (·.all (b.inWorld ·.guid))

/-- So are the members of a group when the last of them alive goes. -/
def groupGoes (b : Battleroyale) (player : ObjectGuid) (game : Game) : Bool :=
  (b.getGroup player).any fun party =>
    let game := dieInGroup player party.guid (erasePlayer player game)
    if getGroupMemberAlive game party.guid = 0 then
      ((game.groups.find? party.guid).getD []).all (b.inWorld ·.guid) &&
        winnersPresent b { game with groups := game.groups.erase party.guid }
    else winnersPresent b game

theorem checkGroups_over (hc : Configured areas b) (hstarted : (b.game id).isStarted = true)
    (hs : b.checkGroups areas near position id = some b') :
    (b'.game id).isStarted = false → (b'.game id).playersGuid = [] := by
  unfold Battleroyale.checkGroups at hs
  extract_lets game at hs
  split at hs
  · obtain ⟨c, -, rfl⟩ := Option.map_eq_some_iff.1 hs
    exact fun _ => (game_reset hc hstarted c).2
  · cases hs
    exact fun hwaits => absurd (hwaits.symm.trans hstarted) (by decide)

/-- With one group left, its rewards are the last. -/
theorem Now.checkGroups (h : Now b id k players (b.game id))
    (hp : Parted (b.game id).groups) (hcat : (b.game id).category ≠ SOLO) (hstarted : (b.game id).isStarted = true)
    (hk : k + 1 = (b.game id).starts.length) (hc : Configured areas b) (hpresent : winnersPresent b (b.game id) = true)
    (hs : b.checkGroups areas near position id = some b') :
    if (b'.game id).isStarted then Now b' id k players (b'.game id) else ∀ p ∈ players, Paid b' id k p := by
  unfold Battleroyale.checkGroups at hs
  extract_lets game at hs
  split at hs
  next hend =>
    obtain ⟨c, hc', rfl⟩ := Option.map_eq_some_iff.1 hs
    rw [if_neg (by rw [(game_reset hc hstarted c).1]; decide)]
    intro p hpl
    rw [paid_congr (ranking_reloadGameId ..) (kills_reloadGameId ..)]
    obtain ⟨howed, hpaid⟩ := h p hpl
    rw [remains_groups hcat] at howed hpaid
    simp only [Bool.and_eq_true, decide_eq_true_eq] at hend
    have hempty : game.groups.isEmpty = true → ¬inGroups game.groups p := by
      intro he hin
      obtain ⟨g, members, hg, -⟩ := hin
      have hkeys := OMap.isEmpty_iff.1 he
      exact List.not_mem_nil (hkeys ▸ OMap.mem_keys.2 ⟨members, hg⟩)
    obtain ⟨last, hlast, hc'⟩ := Option.bind_eq_some_iff.1 hc'
    have hhead : (b.game id).playersGuid.head? = some last := (Option.filter_eq_some_iff.1 hlast).1
    split at hc'
    · split at hc'
      next he =>
        cases hc'
        exact hpaid (hempty he)
      next => cases hc'
    next party hparty =>
    simp only [winnersPresent, Bool.or_eq_true, decide_eq_true_eq, hhead, Option.bind_some, hparty, Option.all_some] at hpresent
    rcases hpresent with (hmore | he) | hall
    · exact absurd hend.2 (Nat.not_le.2 hmore)
    · have hnone : (b.game id).groups.find? party.guid = none := by
        rw [OMap.find?_eq_none, OMap.isEmpty_iff.1 he]
        exact List.not_mem_nil
      unfold rewardAllPlayersInGroup at hc'
      rw [hnone] at hc'
      cases hc'
      exact hpaid (hempty he)
    · obtain ⟨members, hg, hin⟩ := (Option.any_eq_true _ _).1 hall
      obtain ⟨hr, -⟩ := rewarded_group hp (by rw [hg, Option.getD_some]) hstarted hk (fun m hm => List.all_eq_true.1 hin m hm) hc'
      by_cases hmem : p ∈ members.map (·.guid)
      · exact hr.paid (howed ⟨party.guid, members, hg, hmem⟩) hmem
      refine (hr.other hmem).2 (hpaid fun hin => ?_)
      obtain ⟨g', members', hg', hmem'⟩ := hin
      have hone : ∀ e ∈ (b.game id).groups.entries, ∀ e' ∈ (b.game id).groups.entries, e = e' := by
        intro e he e' he'
        have hlen : (b.game id).groups.entries.length ≤ 1 := hend.2
        match hentries : (b.game id).groups.entries with
        | [] => rw [hentries] at he; cases he
        | [x] =>
          rw [hentries] at he he'
          rw [List.mem_singleton.1 he, List.mem_singleton.1 he']
        | x :: y :: l => rw [hentries] at hlen; simp at hlen
      have he : (party.guid, members) = (g', members') := hone _ (OMap.mem_entries.2 hg) _ (OMap.mem_entries.2 hg')
      rw [(Prod.mk.inj he).2] at hmem
      exact hmem hmem'
  next hmore =>
  cases hs
  rw [if_pos hstarted]
  exact h

theorem winnersPresent_congr (hin : b'.inWorld = b.inWorld) (hp : b'.parties = b.parties) (game : Game) :
    b'.winnersPresent game = b.winnersPresent game := by
  unfold winnersPresent getGroup
  rw [hin, hp]

theorem inGroups_dieInGroup (p : ObjectGuid) :
    inGroups (dieInGroup player g game).groups p ↔ inGroups game.groups p := by
  unfold dieInGroup
  split
  · exact Iff.rfl
  next members hg =>
  constructor
  · intro hin
    obtain ⟨g', members', hg', hp⟩ := hin
    obtain ⟨members'', hg'', he⟩ := sub_insert_setDead hg player g' members' hg'
    exact ⟨g', members'', hg'', he ▸ hp⟩
  · intro hin
    obtain ⟨g', members', hg', hp⟩ := hin
    by_cases he : g' = g
    · subst he
      cases hg.symm.trans hg'
      exact ⟨g', _, OMap.find?_insert_self .., (map_guid_setDead player members).symm ▸ hp⟩
    · exact ⟨g', members', (OMap.find?_insert_of_ne he ..).trans hg', hp⟩

/-- Who is in the groups without one of them. -/
theorem inGroups_erase (h : Parted groups) (g : Nat) (p : ObjectGuid) :
    inGroups (groups.erase g) p ↔ inGroups groups p ∧ p ∉ ((groups.find? g).getD []).map (·.guid) := by
  constructor
  · intro hin
    obtain ⟨g', members', hg', hp⟩ := hin
    rw [OMap.find?_erase] at hg'
    split at hg'
    · cases hg'
    next hne =>
    refine ⟨⟨g', members', hg', hp⟩, fun hmem => ?_⟩
    cases hg : groups.find? g with
    | none => rw [hg] at hmem; cases hmem
    | some members =>
      rw [hg] at hmem
      exact h.disjoint g' g members' members hg' hg hne p hp hmem
  · intro hin
    obtain ⟨⟨g', members', hg', hp⟩, hnot⟩ := hin
    refine ⟨g', members', ?_, hp⟩
    rw [OMap.find?_erase, if_neg]
    · exact hg'
    · intro he
      rw [← he, hg', Option.getD_some] at hnot
      exact hnot hp

theorem Now.congr (h : Now b id k players game) (hr : b'.ranking id k = b.ranking id k) (hk : b'.kills = b.kills)
    (hg : (b'.game id).mPlayersKills = (b.game id).mPlayersKills) (hgame : ∀ p, Remains game' p ↔ Remains game p) :
    Now b' id k players game' := by
  intro p hp
  rw [hgame, owed_congr hr hk hg, paid_congr hr hk]
  exact h p hp

/-- What a death leaves of a game of groups. -/
theorem dieInGroup_rest (player : ObjectGuid) (g : Nat) (game : Game) :
    (dieInGroup player g game).isStarted = game.isStarted ∧ (dieInGroup player g game).category = game.category ∧
      (dieInGroup player g game).starts = game.starts ∧ (dieInGroup player g game).mPlayersKills = game.mPlayersKills := by
  unfold dieInGroup
  split <;> exact ⟨rfl, rfl, rfl, rfl⟩

/-- A group without a member alive is rewarded, and remains no longer. -/
theorem Now.rewardIfDead (h : Now b id k players (b.game id))
    (hp : Parted (b.game id).groups) (hcat : (b.game id).category ≠ SOLO) (hstarted : (b.game id).isStarted = true)
    (hk : k + 1 = (b.game id).starts.length) (hok : (if getGroupMemberAlive (b.game id) g = 0 then
      (((b.game id).groups.find? g).getD []).all (b.inWorld ·.guid) &&
        b.winnersPresent { b.game id with groups := (b.game id).groups.erase g }
      else b.winnersPresent (b.game id)) = true)
    (hs : b.rewardIfDead near g id = some b') :
    Now b' id k players (b'.game id) ∧ (b'.game id).isStarted = true ∧ b'.winnersPresent (b'.game id) = true := by
  unfold Battleroyale.rewardIfDead at hs
  split at hs
  next hdead =>
    rw [if_pos hdead, Bool.and_eq_true] at hok
    obtain ⟨hin, hpresent⟩ := hok
    obtain ⟨c, hc, rfl⟩ := Option.map_eq_some_iff.1 hs
    obtain ⟨hr, hsame⟩ := rewarded_group hp rfl hstarted hk (fun m hm => List.all_eq_true.1 hin m hm) hc
    obtain ⟨hgames, hinWorld, hparties⟩ := hsame rfl
    have hgame : c.game id = b.game id := game_congr hgames id
    have hremains : ∀ p, Remains { b.game id with groups := (b.game id).groups.erase g } p ↔
        inGroups ((b.game id).groups.erase g) p := fun p => remains_groups hcat
    rw [game_setGame_self, hgame]
    constructor
    · refine (h.rewarded hr (fun p hm => ?_) fun p => ?_).congr rfl rfl ?_ fun p => Iff.rfl
      · rw [remains_groups hcat]
        cases hf : (b.game id).groups.find? g with
        | none => rw [hf] at hm; cases hm
        | some members => exact ⟨g, members, hf, by rwa [hf] at hm⟩
      · rw [hremains, remains_groups hcat]
        exact inGroups_erase hp g p
      · rw [game_setGame_self, hgame]
    · refine ⟨hstarted, ?_⟩
      rw [← hpresent]
      exact winnersPresent_congr hinWorld hparties _
  next halive =>
  cases hs
  rw [if_neg halive] at hok
  exact ⟨h, hstarted, hok⟩

theorem checkReward_groups {again : ObjectGuid → Battleroyale → Option Battleroyale} (hcat : (b.game id).category ≠ SOLO) :
    checkReward areas near again id b = b.checkGroups areas near (b.game id).groups.size id := by
  unfold checkReward checkSolo
  extract_lets game
  rw [if_neg]
  · rfl
  · simp only [Bool.and_eq_true, decide_eq_true_eq, not_and]
    exact fun _ => hcat

/-- A player of a started game of groups dies in the group he is in. -/
theorem Accounts.removeFromGroup (h : Accounts b id) (hlog : Log b id) (hu : Unique b) (hc : Configured areas b)
    (hcat : (b.game id).category ≠ SOLO) (hstarted : (b.game id).isStarted = true)
    (hok : b.groupGoes player (b.game id) = true)
    (hs : Battleroyale.removeFromGroup areas near player b id = some b') : Accounts b' id := by
  have htakes : Takes areas (· = id) b b' := takes_removeFromGroup (hu.closed id) (fun _ => rfl) hs
  unfold Battleroyale.removeFromGroup at hs
  split at hs
  · cases hs
    exact h
  split at hs
  · cases hs
  next party hparty =>
  rw [groupGoes, hparty, Option.any_some] at hok
  obtain ⟨e, he, rfl⟩ := Option.map_eq_some_iff.1 hs
  obtain ⟨d, hd, he⟩ := Option.bind_eq_some_iff.1 he
  obtain ⟨hon, hcat', hstarts, hkills⟩ := dieInGroup_rest player party.guid (erasePlayer player (b.game id))
  have hbc := @takes_dieInGroup areas _ (· = id) rfl player party.guid b
  have hcd := @takes_rewardIfDead areas _ _ _ _ (· = id) _ rfl hd
  have hcd' := hcd.category (hbc.configured hc) id
  have hpd := (h.groups.sub (hbc.groups id)).sub (hcd.groups id)
  have hsd := (hcd.starts id).1
  rw [game_setGame_self] at hcd' hsd
  have hnow : ∀ k players, (b.game id).starts[k]? = some players → k + 1 = (b.game id).starts.length →
      Now d id k players (d.game id) ∧ (d.game id).isStarted = true ∧ d.winnersPresent (d.game id) = true := by
    intro k players hk hlast
    refine Now.rewardIfDead ?_ (h.groups.sub (hbc.groups id)) ?_ ?_ ?_ ?_ hd
    all_goals rw [game_setGame_self]
    · refine Now.congr (b := b) (h.now hstarted k players hk hlast) rfl rfl ?_ fun p => ?_
      · rw [game_setGame_self]
        exact hkills
      · rw [remains_groups (hcat'.symm ▸ hcat), remains_groups hcat]
        exact inGroups_dieInGroup p
    · exact hcat'.symm ▸ hcat
    · exact hon.trans hstarted
    · exact hlast.trans (congrArg List.length hstarts).symm
    · exact hok
  have hde : d.checkGroups areas near (d.game id).groups.size id = some e := by
    rw [← checkReward_groups (hcd'.trans hcat' ▸ hcat)]
    exact he
  have hdc := hcd.configured (hbc.configured hc)
  have hdon : (d.game id).isStarted = true := by
    obtain ⟨players, hlast⟩ := Option.ne_none_iff_exists'.1 (mt List.getLast?_eq_none_iff.1 (hlog.begun hstarted))
    rw [List.getLast?_eq_getElem?] at hlast
    have hpos := List.length_pos_iff.2 (hlog.begun hstarted)
    exact (hnow _ players hlast (by omega)).2.1
  have hover := checkGroups_over hdc hdon hde
  refine h.touched htakes hover fun k players hk hlast => ?_
  obtain ⟨hnow, -, hpresent⟩ := hnow k players hk hlast
  have hlen : k + 1 = (d.game id).starts.length :=
    hlast.trans (congrArg List.length (hsd.trans hstarts)).symm
  have hover := Now.checkGroups hnow hpd (hcd'.trans hcat' ▸ hcat) hdon hlen hdc hpresent hde
  exact hover

theorem removePlayerFromGroup_eq (hu : Unique b) (hmem : player ∈ (b.game id).playersGuid) :
    b.removePlayerFromGroup areas near player = Battleroyale.removeFromGroup areas near player b id := by
  have hother : ∀ {c : Battleroyale}, ∀ i, player ∉ (c.game i).playersGuid →
      Battleroyale.removeFromGroup areas near player c i = some c := by
    intro c i hnot
    unfold Battleroyale.removeFromGroup
    rw [if_pos (by simp [hnot])]
  refine foldlM_single (mem_keys_of_listed hmem) b.games.nodup_keys
    (fun i _ hne => hother i fun hp => hne (hu.eq hp hmem)) fun b' hb' i _ hne => hother i fun hp => ?_
  have htakes : Takes areas (· = id) b b' := takes_removeFromGroup (hu.closed id) (fun _ => rfl) hb'
  exact hne (hu.eq ((htakes.sublist i).subset hp) hmem)

/-! ## Joins -/

theorem Accounts.congr (h : Accounts b id) (hg : b'.game id = b.game id) (hr : b'.rewards = b.rewards)
    (hk : b'.kills = b.kills) : Accounts b' id := by
  have hranking : ∀ k, b'.ranking id k = b.ranking id k := fun k => by rw [ranking, hr, ← ranking]
  refine ⟨?_, ?_, ?_, ?_, ?_⟩
  · rw [hg, hk]
    exact h.bound
  · rw [hg]
    exact h.groups
  · rw [hg]
    exact h.waiting
  · rw [hg]
    intro k players hp hpast p hmem
    rw [paid_congr (hranking k) hk]
    exact h.past k players hp hpast p hmem
  · rw [hg]
    intro hon k players hp hlast p hmem
    rw [paid_congr (hranking k) hk, owed_congr (hranking k) hk (by rw [hg])]
    exact h.now hon k players hp hlast p hmem

/-- In a new start nobody has been rewarded, and nobody has a kill on record. -/
theorem Accounts.start (h : Accounts b id)
    (hbound : ∀ r ∈ b.rewards, r.gameId = id → ∀ k, r.start = some k → k < (b.game id).starts.length)
    (hs : Started id b b') (hwaits : (b.game id).isStarted = false) : Accounts b' id := by
  obtain ⟨spawns, hg⟩ := hs.game
  have hranking : ∀ k, b'.ranking id k = b.ranking id k := fun k => by rw [ranking, hs.rewards, ← ranking]
  have hoff : (b.game id).isStarted = true → ∀ {p : Prop}, p := fun hon => absurd (hwaits.symm.trans hon) (by decide)
  refine ⟨?_, ?_, fun hoff => ?_, fun k players hk hpast p hp => ?_, fun _ k players hk hlast p hp => ?_⟩
  · rw [hg, hs.kills]
    intro kill hkill he
    rw [List.length_append]
    exact Nat.lt_succ_of_lt (h.bound kill hkill he)
  · rw [hg]
    exact h.groups
  · rw [hg] at hoff
    cases hoff
  · rw [hg] at hk hpast
    have hlt : k < (b.game id).starts.length := by
      have := hpast rfl
      rw [List.length_append, List.length_singleton] at this
      omega
    rw [List.getElem?_append_left hlt] at hk
    rw [paid_congr (hranking k) hs.kills]
    exact h.past k players hk (fun hon => hoff hon) p hp
  · rw [hg, List.length_append, List.length_singleton] at hlast
    have hk' : k = (b.game id).starts.length := by omega
    rw [hg, hk', List.getElem?_concat_length, Option.some.injEq] at hk
    have hnone : b.ranking id k = [] := List.filter_eq_nil_iff.2 fun r hr => by
      simp only [Bool.and_eq_true, decide_eq_true_eq, not_and]
      intro he hstart
      have := hbound r hr he k hstart
      omega
    have hmade : b.made id k p = 0 := List.countP_eq_zero.2 fun kill hkill => by
      simp only [Bool.and_eq_true, decide_eq_true_eq, not_and]
      intro hkept
      obtain ⟨he, hstart⟩ := hkept
      have := h.bound kill hkill he
      omega
    have hrecorded : recorded (b'.game id) p = 0 := by
      rw [hg]
      exact h.waiting hwaits p (hk ▸ hp)
    have hmade' : b'.made id k p = 0 := by
      rw [made, hs.kills]
      exact hmade
    refine ⟨fun _ => ⟨?_, hrecorded.trans hmade'.symm⟩, fun _ => ?_⟩
    · rw [hranking, hnone]
      exact fun r hr => (List.not_mem_nil hr).elim
    · rw [Paid, hmade', credited, hranking, hnone]
      rfl

/-- Somebody who joins has a kill on record, or is in another group of the game. -/
def rejoins (b : Battleroyale) (player : ObjectGuid) (gameId : Nat) : Bool :=
  ((b.withGame gameId).joining player gameId).any (·.any fun p => recorded (b.game gameId) p ≠ 0 ||
    (b.getGroup player).any fun party => (b.game gameId).groups.entries.any fun (g, members) =>
      g ≠ party.guid && p ∈ members.map (·.guid))

theorem Parted.insert (h : Parted groups) (hnodup : (members.map (·.guid)).Nodup)
    (hnew : ∀ p ∈ members.map (·.guid), ∀ g' members', groups.find? g' = some members' → g' ≠ g →
      p ∉ members'.map (·.guid)) : Parted (groups.insert g members) := by
  have hcases : ∀ {g' members'}, (groups.insert g members).find? g' = some members' →
      g' = g ∧ members' = members ∨ g' ≠ g ∧ groups.find? g' = some members' := by
    intro g' members' hg'
    rw [OMap.find?_insert] at hg'
    split at hg'
    next he => exact .inl ⟨he, (Option.some.inj hg').symm⟩
    next hne => exact .inr ⟨hne, hg'⟩
  refine ⟨fun g' members' hg' => ?_, fun g₁ g₂ members₁ members₂ h₁ h₂ hne p hp hp' => ?_⟩
  · rcases hcases hg' with ⟨-, rfl⟩ | ⟨-, hg'⟩
    · exact hnodup
    · exact h.nodup g' members' hg'
  · rcases hcases h₁ with ⟨rfl, rfl⟩ | ⟨hne₁, hold₁⟩
    · rcases hcases h₂ with ⟨he, -⟩ | ⟨hne₂, hold₂⟩
      · exact hne he.symm
      · exact hnew p hp g₂ members₂ hold₂ hne₂ hp'
    · rcases hcases h₂ with ⟨rfl, rfl⟩ | ⟨-, hold₂⟩
      · exact hnew p hp' g₁ members₁ hold₁ hne₁ hp
      · exact h.disjoint g₁ g₂ members₁ members₂ hold₁ hold₂ hne p hp hp'

theorem Accounts.addPlayer (h : ∀ id, Accounts b id) (hlog : ∀ id, Log b id)
    (hok : b.rejoins player gameId = false) (hb' : b.addPlayer near player gameId = some b') : Accounts b' id := by
  have hwith : Accounts (b.withGame gameId) id := (h id).congr (game_withGame b gameId id) rfl rfl
  rcases addPlayer_spec hb' with ⟨-, rfl⟩ | ⟨players, hjoin, hb'⟩
  · exact hwith
  have hwaits := joining_waits hjoin
  have hnodup := joining_nodup hjoin
  rw [game_withGame] at hwaits
  rw [rejoins, hjoin, Option.any_some, List.any_eq_false] at hok
  generalize hc : (b.withGame gameId).setGame gameId (join (b.getGroup player) players (b.game gameId)) = c at hb'
  have hrewards : c.rewards = b.rewards := by rw [← hc]; rfl
  have hkills : c.kills = b.kills := by rw [← hc]; rfl
  by_cases hid : id = gameId
  · subst hid
    have hcgame : c.game id = join (b.getGroup player) players (b.game id) := by rw [← hc, game_setGame_self]
    have hcwaits : (c.game id).isStarted = false := by rw [hcgame]; exact hwaits
    have hranking : ∀ k, c.ranking id k = b.ranking id k := fun k => by rw [ranking, hrewards, ← ranking]
    have hjoined : Accounts c id := by
      refine ⟨?_, ?_, fun _ p hp => ?_, fun k players' hk _ p hp => ?_,
        fun hon => absurd (hcwaits.symm.trans hon) (by decide)⟩
      · rw [hkills, hcgame]
        exact (h id).bound
      · rw [hcgame]
        unfold join
        cases hgroup : b.getGroup player with
        | none => exact (h id).groups
        | some party =>
          have hmap : (players.map (⟨·, true⟩ : ObjectGuid → GroupMember)).map (·.guid) = players := by
            rw [List.map_map]
            exact List.map_id _
          refine (h id).groups.insert (hmap.symm ▸ hnodup) fun p hp g' members' hg' hne hmem => ?_
          rw [hmap] at hp
          refine hok p hp ?_
          rw [hgroup, Option.any_some, Bool.or_eq_true, List.any_eq_true]
          exact .inr ⟨(g', members'), OMap.mem_entries.2 hg', by simpa [hne] using hmem⟩
      · rw [hcgame] at hp ⊢
        rcases List.mem_append.1 hp with hp | hp
        · exact (h id).waiting hwaits p hp
        · by_contra hne
          exact hok p hp (by simp [show recorded (b.game id) p ≠ 0 from hne])
      · rw [hcgame] at hk
        rw [paid_congr (hranking k) hkills]
        exact (h id).past k players' hk (fun hon => absurd (hwaits.symm.trans hon) (by decide)) p hp
    rcases hb' with rfl | hs
    · exact hjoined
    refine hjoined.start ?_ hs hcwaits
    rw [hrewards, hcgame]
    exact (hlog id).bound
  · have hcother : Accounts c id := hwith.congr (by rw [← hc, game_setGame_of_ne hid]) hrewards hkills
    rcases hb' with rfl | hs
    · exact hcother
    · exact hcother.congr (hs.others id hid) hs.rewards hs.kills

/-! ## Kills -/

/-- A player is killed in a started game by one of its players who no longer remains, or the test does not find the game; or
he waits for a game that lists his killer. -/
def misrecorded (b : Battleroyale) (killed killer : ObjectGuid) : Bool :=
  b.games.entries.any fun (id, game) => killed ∈ game.playersGuid &&
    if game.isStarted then
      game.starts.getLast?.any (killer ∈ ·) && (b.checkIfPlayerIsInBattleRoyale killed ≠ id || ¬Remains game killer)
    else b.checkIfPlayerIsInBattleRoyale killed = id && killer ∈ game.playersGuid

theorem entry_of_listed (h : player ∈ (b.game id).playersGuid) : (id, b.game id) ∈ b.games.entries := by
  cases hf : b.games.find? id with
  | none => rw [Battleroyale.game, hf] at h; cases h
  | some game =>
    rw [Battleroyale.game, hf]
    exact OMap.mem_entries.2 hf

theorem entry_of_started (h : (b.game id).isStarted = true) : (id, b.game id) ∈ b.games.entries := by
  cases hf : b.games.find? id with
  | none => rw [Battleroyale.game, hf] at h; cases h
  | some game =>
    rw [Battleroyale.game, hf]
    exact OMap.mem_entries.2 hf

/-- One game at most is played by a player. -/
theorem playing_eq (hu : Unique b) (hmem : player ∈ (b.game id).playersGuid) (hstarted : (b.game id).isStarted = true) :
    b.playing player = [(id, b.game id)] := by
  have hone : ∀ e ∈ b.playing player, e = (id, b.game id) := by
    intro e he
    obtain ⟨he, hp⟩ := List.mem_filter.1 he
    have hgame := mem_entries_game he
    rw [Bool.and_eq_true, decide_eq_true_eq, ← hgame] at hp
    have hid : e.1 = id := hu.eq hp.2 hmem
    exact Prod.ext hid (hid ▸ hgame.symm)
  have hin : (id, b.game id) ∈ b.playing player :=
    List.mem_filter.2 ⟨entry_of_listed hmem, by simp [hstarted, hmem]⟩
  have hnodup : (b.playing player).Nodup := (List.Nodup.of_map _ b.games.nodup_keys).filter _
  have hrep := List.eq_replicate_iff.2 ⟨rfl, hone⟩
  rw [hrep] at hnodup
  have hle := List.nodup_replicate.1 hnodup
  have hpos := List.length_pos_of_mem hin
  rw [hrep, show (b.playing player).length = 1 by omega]
  rfl

/-- A kill is made in the game that the killed player plays. -/
theorem made_kill (hu : Unique b) {killed killer : ObjectGuid} (hs : step areas (.kill killed killer) b = some b')
    (k : Nat) (p : ObjectGuid) : b'.made id k p = b.made id k p +
      if killed ∈ (b.game id).playersGuid ∧ (b.game id).isStarted = true ∧ k = (b.game id).starts.length - 1 ∧ killer = p
      then 1 else 0 := by
  cases hs
  show List.countP _ (b.kills ++ _) = _
  rw [List.countP_append, ← made]
  congr 1
  by_cases hplays : killed ∈ (b.game id).playersGuid ∧ (b.game id).isStarted = true
  · rw [playing_eq hu hplays.1 hplays.2, List.map_singleton, List.countP_singleton]
    simp [hplays.1, hplays.2, @eq_comm Nat k]
  rw [if_neg fun h => hplays ⟨h.1, h.2.1⟩, List.countP_eq_zero]
  intro kill hkill
  obtain ⟨⟨i, game⟩, he, rfl⟩ := List.mem_map.1 hkill
  obtain ⟨he, hp⟩ := List.mem_filter.1 he
  simp only [Bool.and_eq_true, decide_eq_true_eq] at hp ⊢
  intro h
  have hgame : b.game id = game := mem_entries_game (h.1.1 ▸ he)
  exact hplays ⟨hgame ▸ hp.2, hgame ▸ hp.1⟩

theorem recorded_kill {killed killer : ObjectGuid} (hs : step areas (.kill killed killer) b = some b') (p : ObjectGuid) :
    recorded (b'.game id) p = recorded (b.game id) p +
      if id = b.checkIfPlayerIsInBattleRoyale killed ∧ 0 < id ∧ killer = p then 1 else 0 := by
  rw [game_kill hs]
  by_cases hfound : id = b.checkIfPlayerIsInBattleRoyale killed ∧ 0 < id
  · rw [if_pos hfound, recorded, addKill, OMap.find?_insert]
    by_cases he : p = killer
    · rw [if_pos he, if_pos ⟨hfound.1, hfound.2, he.symm⟩, he]
      rfl
    · rw [if_neg he, if_neg fun h => he h.2.2.symm]
      rfl
  · rw [if_neg hfound, if_neg fun h => hfound ⟨h.1, h.2.1⟩]
    rfl

theorem Accounts.kill (h : Accounts b id) (hu : Unique b) (hc : Configured areas b)
    (hbegun : (b.game id).isStarted = true → (b.game id).starts ≠ []) {killed killer : ObjectGuid}
    (hok : b.misrecorded killed killer = false) (hs : step areas (.kill killed killer) b = some b') : Accounts b' id := by
  have hmade := fun k p => @made_kill _ b b' id hu _ _ hs k p
  have hrecorded := fun p => @recorded_kill _ b b' id _ _ hs p
  have hranking : ∀ k, b'.ranking id k = b.ranking id k := by
    have hrewards : b'.rewards = b.rewards := by
      cases hs
      show (onPlayerDie killed killer b).rewards = _
      unfold onPlayerDie
      extract_lets gameId
      split <;> rfl
    exact fun k => by rw [ranking, hrewards, ← ranking]
  obtain ⟨kills, hgame⟩ : ∃ kills, b'.game id = { b.game id with mPlayersKills := kills } := by
    rw [game_kill hs]
    split <;> exact ⟨_, rfl⟩
  -- who is found to be in a game is listed in it
  have hfound : id = b.checkIfPlayerIsInBattleRoyale killed → 0 < id → killed ∈ (b.game id).playersGuid := by
    intro hid hpos
    rcases checkGames_spec b killed b.games.entries 0 with h0 | ⟨-, e, he, heid, hp⟩
    · rw [checkIfPlayerIsInBattleRoyale, h0] at hid
      omega
    · have : e.1 = id := heid.trans hid.symm
      rwa [← mem_entries_game he, this] at hp
  have hentry : killed ∈ (b.game id).playersGuid → ¬(if (b.game id).isStarted then
      (b.game id).starts.getLast?.any (killer ∈ ·) &&
        (b.checkIfPlayerIsInBattleRoyale killed ≠ id || ¬Remains (b.game id) killer)
      else b.checkIfPlayerIsInBattleRoyale killed = id && killer ∈ (b.game id).playersGuid) = true := by
    intro hmem hbad
    have := List.any_eq_false.1 hok _ (entry_of_listed hmem)
    exact this (by rw [Bool.and_eq_true]; exact ⟨decide_eq_true hmem, hbad⟩)
  have hpaid : ∀ k p, (killed ∈ (b.game id).playersGuid → (b.game id).isStarted = true →
      k = (b.game id).starts.length - 1 → killer ≠ p) → Paid b id k p → Paid b' id k p := by
    intro k p hnot hp
    unfold Paid credited
    rw [hranking, hmade, if_neg fun h => hnot h.1 h.2.1 h.2.2.1 h.2.2.2]
    exact hp
  have hkills : b'.kills = b.kills ++ (b.playing killed).map fun (id, game) => ⟨id, game.starts.length - 1, killer⟩ := by
    cases hs
    rfl
  have hremains : ∀ p, Remains (b'.game id) p ↔ Remains (b.game id) p := fun p => by rw [hgame]; exact Iff.rfl
  have hstarts : (b'.game id).starts = (b.game id).starts := by rw [hgame]
  have hstarted : (b'.game id).isStarted = (b.game id).isStarted := by rw [hgame]
  refine ⟨fun kill hkill he => ?_, by rw [hgame]; exact h.groups, fun hwaits p hp => ?_, fun k players hk hpast p hp => ?_,
    fun hon k players hk hlast p hp => ?_⟩
  · rw [hkills] at hkill
    rw [hstarts]
    rcases List.mem_append.1 hkill with hkill | hkill
    · exact h.bound kill hkill he
    obtain ⟨⟨i, game⟩, hplays, rfl⟩ := List.mem_map.1 hkill
    obtain ⟨hplays, hp⟩ := List.mem_filter.1 hplays
    obtain rfl : i = id := he
    have hg : b.game i = game := mem_entries_game hplays
    simp only [Bool.and_eq_true] at hp
    have := List.length_pos_iff.2 (hbegun (hg ▸ hp.1))
    show game.starts.length - 1 < _
    rw [← hg]
    omega
  · rw [hstarted] at hwaits
    have hp : p ∈ (b.game id).playersGuid := by rwa [hgame] at hp
    rw [hrecorded, h.waiting hwaits p hp, if_neg]
    intro hrec
    obtain ⟨hid, hpos, he⟩ := hrec
    refine hentry (hfound hid hpos) ?_
    rw [hwaits]
    simp [← hid, he, hp]
  · rw [hstarts] at hk hpast
    rw [hstarted] at hpast
    refine hpaid k p (fun _ hon he => ?_) (h.past k players hk hpast p hp)
    have := hpast hon
    omega
  · rw [hstarts] at hk hlast
    rw [hstarted] at hon
    obtain ⟨howed, hpaid'⟩ := h.now hon k players hk hlast p hp
    have hlast' : (b.game id).starts.getLast? = some players := by
      rw [List.getLast?_eq_getElem?, ← hk]
      congr
      omega
    -- a player who kills remains, and the game is found
    have hkiller : killed ∈ (b.game id).playersGuid → killer = p →
        b.checkIfPlayerIsInBattleRoyale killed = id ∧ Remains (b.game id) p := by
      intro hmem he
      have := hentry hmem
      rw [hon, hlast', he] at this
      simpa [hp] using this
    rw [hremains]
    refine ⟨fun hr => ⟨?_, ?_⟩, fun hr => hpaid k p (fun hmem _ _ he => hr (hkiller hmem he).2) (hpaid' hr)⟩
    · rw [hranking]
      exact (howed hr).1
    · rw [hrecorded, hmade, (howed hr).2]
      congr 1
      refine if_congr ⟨fun hrec => ⟨hfound hrec.1 hrec.2.1, hon, by omega, hrec.2.2⟩, fun hm => ?_⟩ rfl rfl
      refine ⟨(hkiller hm.1 hm.2.2.2).1.symm, hc.numbered id fun hnil => ?_, hm.2.2.2⟩
      rw [hnil] at hm
      cases hm.1

/-! ## Runs -/

/-- Who is taken out of a started game in a step. -/
def casualty : Event → Battleroyale → Option ObjectGuid
  | .repop player _, b => if b.inWorld player then some player else none
  | .logout player _, b | .removeMember player _, b =>
    if 0 < b.checkIfPlayerIsInBattleRoyale player && b.gameIsStarted (b.checkIfPlayerIsInBattleRoyale player) then some player
    else none
  | _, _ => none

/-- Somebody leaves a started game of groups through the queue, or not with his group. -/
def deserts (event : Event) (b : Battleroyale) : Bool :=
  b.games.entries.any fun (_, game) => game.isStarted && game.category ≠ SOLO &&
    ((quitter event b).any (fun player => player ∈ game.playersGuid ||
        (b.getGroup player).any fun party => (game.groups.find? party.guid).isSome) ||
      (casualty event b).any fun player => player ∈ game.playersGuid && !b.groupGoes player game)

/-- A record that will not be the kills of a player in one game. -/
def miscounts : Event → Battleroyale → Bool
  | .join player gameId _, b => b.inWorld player && b.rejoins player gameId
  | .kill killed killer, b => b.misrecorded killed killer
  | _, _ => false

def Counted (event : Event) (b : Battleroyale) : Prop :=
  Played event b ∧ deserts event b = false ∧ miscounts event b = false

instance (event : Event) (b : Battleroyale) : Decidable (Counted event b) := inferInstanceAs (Decidable (_ ∧ _))

theorem groupGoes_isSome (h : b.groupGoes player game = true) : (b.getGroup player).isSome = true := by
  unfold groupGoes at h
  cases hgroup : b.getGroup player with
  | none => rw [hgroup] at h; cases h
  | some => rfl

/-- A player of a started game of groups leaves: he dies in the group he is in, or nothing happens. -/
theorem step_dies (hu : Unique b) (hok : deserts event b = false) (hs : step areas event b = some b')
    (hcat : (b.game id).category ≠ SOLO) (hstarted : (b.game id).isStarted = true) (hp : player ∈ event.leaver)
    (hmem : player ∈ (b.game id).playersGuid) : ∃ c, b'.games = c.games ∧ b'.rewards = c.rewards ∧ b'.kills = c.kills ∧
      (c = b ∨ b.groupGoes player (b.game id) = true ∧
        ∃ near, Battleroyale.removeFromGroup areas near player b id = some c) := by
  have hgame := List.any_eq_false.1 hok _ (entry_of_listed hmem)
  simp only [hstarted, hcat, ne_eq, not_false_eq_true, decide_true, Bool.and_self, Bool.true_and, Bool.or_eq_true,
    not_or, Bool.not_eq_true] at hgame
  obtain ⟨hquit, hdies⟩ := hgame
  have hstays : quitter event b ≠ some player := fun he => by
    rw [he, Option.any_some, decide_eq_true hmem] at hquit
    cases hquit
  have hgoes : casualty event b = some player → b.groupGoes player (b.game id) = true := fun he => by
    rw [he, Option.any_some, decide_eq_true hmem] at hdies
    simpa using hdies
  have hleaves : ∀ {near inGroup a}, b.quit areas near player inGroup = some a → b.waitsFor player = false →
      (0 < b.checkIfPlayerIsInBattleRoyale player ∧ b.gameIsStarted (b.checkIfPlayerIsInBattleRoyale player) = true →
        b.groupGoes player (b.game id) = true ∧ inGroup = true) →
      a = b ∨ b.groupGoes player (b.game id) = true ∧
        ∃ near, Battleroyale.removeFromGroup areas near player b id = some a := by
    intro near inGroup a ha hwaits hplays
    unfold quit at ha
    extract_lets gameId at ha
    split at ha
    next hpos =>
      split at ha
      next hon =>
        obtain ⟨hgroup, rfl⟩ := hplays ⟨hpos, hon⟩
        rw [if_pos rfl, removePlayerFromGroup_eq hu hmem] at ha
        exact .inr ⟨hgroup, near, ha⟩
      next hoff =>
      rw [waitsFor, Bool.and_eq_false_iff] at hwaits
      exact absurd hwaits (by simp [gameId] at hpos hoff; simp [hpos, hoff])
    · exact .inl (Option.some.inj ha).symm
  cases event with
  | leave p =>
    cases hp
    have hin : b.inWorld player = false := by
      by_contra hin
      exact hstays (if_pos (by simpa using hin))
    rw [step, hin] at hs
    cases hs
    exact ⟨b, rfl, rfl, rfl, .inl rfl⟩
  | repop p near =>
    cases hp
    by_cases hin : b.inWorld player = true
    · have hgroup := hgoes (if_pos hin)
      rw [step, groupGoes_isSome hgroup, if_pos rfl, removePlayerFromGroup_eq hu hmem] at hs
      exact ⟨b', rfl, rfl, rfl, .inr ⟨hgroup, near, hs⟩⟩
    rw [step] at hs
    split at hs
    · rw [removePlayerFromGroup_eq hu hmem, Battleroyale.removeFromGroup, if_pos (by simp [hin])] at hs
      cases hs
      exact ⟨b, rfl, rfl, rfl, .inl rfl⟩
    rw [removePlayer, removePlayerRec_eq hu hmem, removeFrom, if_pos (by simp [hin])] at hs
    cases hs
    exact ⟨b, rfl, rfl, rfl, .inl rfl⟩
  | logout p near =>
    cases hp
    obtain ⟨a, ha, rfl⟩ := Option.map_eq_some_iff.1 hs
    refine ⟨a, rfl, rfl, rfl, hleaves ha ?_ fun hplays => ?_⟩
    · by_contra hwaits
      exact hstays (if_pos (by simpa using hwaits))
    · have hgroup := hgoes (if_pos (by simpa using hplays))
      exact ⟨hgroup, groupGoes_isSome hgroup⟩
  | removeMember p near =>
    cases hp
    refine ⟨b', rfl, rfl, rfl, hleaves hs ?_ fun hplays => ?_⟩
    · by_contra hwaits
      exact hstays (if_pos (by simpa using hwaits))
    · exact ⟨hgoes (if_pos (by simpa using hplays)), rfl⟩
  | join | kill | world | parties => cases hp

theorem step_accounts (h : Good areas b) (ha : ∀ id, Accounts b id) (hok : Counted event b)
    (hs : step areas event b = some b') (id : Nat) : Accounts b' id := by
  obtain ⟨hplayed, hdeserts, hmiscounts⟩ := hok
  have hrest : ∀ {P : Nat → Prop}, ((b.game id).isStarted = true → ¬P id) →
      ((∃ c, Takes areas P b c ∧ c.games = b'.games ∧ c.rewards = b'.rewards ∧ c.kills = b'.kills) ∨
        (∃ player gameId near, event = .join player gameId near) ∨ ∃ killed killer, event = .kill killed killer) →
      Accounts b' id := by
    intro P hid hstep
    rcases hstep with ⟨c, hc, hg, hr, hk⟩ | ⟨player, gameId, near, rfl⟩ | ⟨killed, killer, rfl⟩
    · exact ((ha id).takes hc hid).congr (game_congr hg id).symm hr.symm hk.symm
    · rw [step] at hs
      split at hs
      next hin =>
        have hok : b.rejoins player gameId = false := by simpa [miscounts, hin] using hmiscounts
        exact Accounts.addPlayer ha (fun id => (h.rounds id).toLog) hok hs
      next =>
      cases hs
      exact ha id
    · exact (ha id).kill h.unique h.configured (h.rounds id).begun hmiscounts hs
  by_cases hon : (b.game id).isStarted = true
  · by_cases hout : ∃ player ∈ event.leaver, player ∈ (b.game id).playersGuid
    · obtain ⟨player, hp, hmem⟩ := hout
      by_cases hsolo : (b.game id).category = SOLO
      · obtain ⟨c, hgames, hrewards, hkills, hc⟩ := step_out h hplayed hs hsolo hon hp hmem
        refine Accounts.congr (b := c) ?_ (game_congr hgames id) hrewards hkills
        obtain rfl | ⟨near, rfl⟩ := hc
        · exact ha id
        · exact (ha id).eliminate h.unique h.configured hsolo hon hmem near
      obtain ⟨c, hgames, hrewards, hkills, hc⟩ := step_dies h.unique hdeserts hs hsolo hon hp hmem
      refine Accounts.congr (b := c) ?_ (game_congr hgames id) hrewards hkills
      obtain rfl | ⟨hgoes, near, hc⟩ := hc
      · exact ha id
      · exact (ha id).removeFromGroup (h.rounds id).toLog h.unique h.configured hsolo hon hgoes hc
    · -- a started game whose players all stay is left alone
      have hclosed : Closed (· ≠ id) b := fun i i' p hi hp hp' he => hi ((h.unique.eq hp hp').trans he)
      have hstays : ∀ p ∈ event.leaver, ∀ i, p ∈ (b.game i).playersGuid → i ≠ id :=
        fun p hp i hmem he => hout ⟨p, hp, he ▸ hmem⟩
      have hqueue : ∀ p ∈ quitter event b, ∀ party ∈ b.getGroup p, ∀ i,
          ((b.game i).groups.find? party.guid).isSome → i ≠ id := by
        intro p hp party hparty i hsome he
        rw [he] at hsome
        by_cases hsolo : (b.game id).category = SOLO
        · rw [(h.rounds id).alone hsolo] at hsome
          cases hsome
        · have hno := List.any_eq_false.1 hdeserts _ (entry_of_started hon)
          simp [hon, hsolo, Option.mem_def.1 hp, Option.mem_def.1 hparty, hsome] at hno
      exact hrest (fun _ hne => hne rfl) (step_takes hclosed hstays hqueue hs)
  · exact hrest (fun hon' => absurd hon' hon) (step_takes_any hs)

theorem accounts_prepareGames (areas : Areas) (id : Nat) : Accounts (prepareGames areas) id := by
  have hstarts : ((prepareGames areas).game id).starts = [] ∧ ((prepareGames areas).game id).groups = .empty ∧
      ((prepareGames areas).game id).playersGuid = [] := by
    rw [game_prepareGames]
    split <;> exact ⟨rfl, rfl, rfl⟩
  obtain ⟨hstarts, hgroups, hplayers⟩ := hstarts
  refine ⟨fun kill hkill => (List.not_mem_nil hkill).elim, ?_, ?_, ?_, ?_⟩
  · rw [hgroups]
    exact ⟨nofun, nofun⟩
  · rw [hplayers]
    exact fun _ p hp => (List.not_mem_nil hp).elim
  · rw [hstarts]
    nofun
  · rw [hstarts]
    nofun

/-- In every run in which nobody takes a record into another start, everybody who leaves a started game is rewarded for it
once, and the kills of its players are recorded while they remain, each player of a start that is over has been credited
with the kills he made in it. While it is on, so has been everybody who is out of it; who remains has no reward, and his record
is the kills he has made in it. -/
theorem reaches_credited {areas : Areas} {b : Battleroyale} (hr : Reaches (step areas) Counted (prepareGames areas) b)
    {id k : Nat} {players : List ObjectGuid} (hstart : (b.game id).starts[k]? = some players) {player : ObjectGuid}
    (hmem : player ∈ players) :
    ((b.game id).isStarted = false ∨ k + 1 ≠ (b.game id).starts.length →
      b.credited id k player = b.made id k player) ∧
    ((b.game id).isStarted = true ∧ k + 1 = (b.game id).starts.length →
      if Remains (b.game id) player then
        (∀ r ∈ b.ranking id k, r.player ≠ player) ∧ recorded (b.game id) player = b.made id k player
      else b.credited id k player = b.made id k player) := by
  have hinv := hr.invariant (fun b => Good areas b ∧ ∀ id, Accounts b id)
    (fun _ _ _ h hok hs => ⟨step_good h.1 hok.1 hs, step_accounts h.1 h.2 hok hs⟩)
    ⟨good_prepareGames areas, accounts_prepareGames areas⟩
  have h := hinv.2 id
  refine ⟨fun hpast => h.past k players hstart (fun hon => ?_) player hmem, fun hnow => ?_⟩
  · have hlt := (List.getElem?_eq_some_iff.1 hstart).1
    have hne := hpast.resolve_left (by rw [hon]; decide)
    omega
  · obtain ⟨howed, hpaid⟩ := h.now hnow.1 k players hstart hnow.2 player hmem
    split
    next hremains => exact howed hremains
    next hremains => exact hpaid hremains

/-- Three play, then three others; the winner of each start has killed somebody. -/
theorem reaches_credited_twice : ∃ b : Battleroyale, Reaches (step twoAreas) Counted (prepareGames twoAreas) b ∧
    (b.credited 1 0 1 = b.made 1 0 1 ∧ b.made 1 0 1 = 2) ∧ b.credited 1 1 4 = b.made 1 1 4 ∧ b.made 1 1 4 = 1 := by
  have hrun : (runSteps (allowed (step twoAreas) Counted) (threePlay ++
      [.kill 2 1, .repop 2 everybody, .kill 3 1, .repop 3 everybody,
        .join 4 1 everybody, .join 5 1 everybody, .join 6 1 everybody,
        .kill 5 4, .repop 5 everybody, .repop 6 everybody]) (prepareGames twoAreas)).any (fun b =>
      (b.game 1).starts[0]? = some [1, 2, 3] && (b.game 1).starts[1]? = some [4, 5, 6] && (b.game 1).isStarted = false &&
        b.made 1 0 1 = 2 && b.made 1 1 4 = 1) = true := by decide
  obtain ⟨b, hb, hand⟩ := (Option.any_eq_true _ _).1 hrun
  simp only [Bool.and_eq_true, decide_eq_true_eq] at hand
  obtain ⟨⟨⟨⟨hfirst, hsecond⟩, hover⟩, htwo⟩, hone⟩ := hand
  have hr : Reaches (step twoAreas) Counted (prepareGames twoAreas) b := .of_allowed (.of_runSteps hb)
  exact ⟨b, hr, ⟨(reaches_credited hr hfirst (by decide : (1 : ObjectGuid) ∈ [1, 2, 3])).1 (.inl hover), htwo⟩,
    (reaches_credited hr hsecond (by decide : (4 : ObjectGuid) ∈ [4, 5, 6])).1 (.inl hover), hone⟩

/-- The same three play again: the winner is credited with the kill of the game before. -/
theorem credited_again : ∃ b : Battleroyale, Reaches (step twoAreas) Played (prepareGames twoAreas) b ∧
    (b.game 1).starts = [[1, 2, 3], [1, 2, 3]] ∧ (b.game 1).isStarted = false ∧
      b.made 1 0 1 = 1 ∧ b.credited 1 0 1 = 1 ∧ b.made 1 1 1 = 0 ∧ b.credited 1 1 1 = 1 := by
  have hrun : (runSteps (allowed (step twoAreas) Played) (threePlay ++
      [.kill 2 1, .repop 2 everybody, .repop 3 everybody,
        .join 1 1 everybody, .join 2 1 everybody, .join 3 1 everybody,
        .repop 2 everybody, .repop 3 everybody]) (prepareGames twoAreas)).any (fun b =>
      (b.game 1).starts = [[1, 2, 3], [1, 2, 3]] && (b.game 1).isStarted = false &&
        b.made 1 0 1 = 1 && b.credited 1 0 1 = 1 && b.made 1 1 1 = 0 && b.credited 1 1 1 = 1) = true := by decide
  obtain ⟨b, hb, hand⟩ := (Option.any_eq_true _ _).1 hrun
  simp only [Bool.and_eq_true, decide_eq_true_eq] at hand
  obtain ⟨⟨⟨⟨⟨hstarts, hover⟩, hmade⟩, hcredited⟩, hnone⟩, hagain⟩ := hand
  exact ⟨b, .of_allowed (.of_runSteps hb), hstarts, hover, hmade, hcredited, hnone, hagain⟩

end AtlasWow.Battleroyale
