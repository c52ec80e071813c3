/-
The start of a game with the places where its players appear
(`Battleroyale::start`, `removeSpawn`). It is the start of the games with the
places named (`startGame_start`): what is drawn and what is left are together
the places there were, so that nobody is put where another has been.

A game of groups puts each group in one place. It goes over the groups of
every game, so what is said of it is said for when no other game has groups.
-/
import AtlasWow.World.BattleroyaleLists

namespace AtlasWow.Battleroyale

/-- A row of places, with its coordinates as numbers. -/
structure Spawn where
  mapId : UInt16
  x : Int
  y : Int
  z : Int
deriving DecidableEq

/-- `urand(0, size - 1)`: below the size, unless that is zero. -/
structure Urand where
  choose (size : Nat) : Nat
  lt : ∀ size, 0 < size → choose size < size

structure Starting where
  b : Battleroyale
  /-- `spawnsPlayers` of the game that is started. -/
  spawns : List Spawn
  /-- Who was teleported, and where to. -/
  moves : List (List ObjectGuid × Spawn)

namespace Starting

variable (near : ObjectGuid → Bool) (urand : Urand) (gameId : Nat)

/-- Some players go to a place, and no others go there; past the end of the list nothing can be read. -/
def spawnPlayers (players : List ObjectGuid) (s : Starting) : Option Starting :=
  match s.spawns[urand.choose s.spawns.length]?, s.b.takeSpawn near gameId players with
  | some spawn, some b => some {
      b := b
      -- `removeSpawn`
      spawns := s.spawns.erase spawn
      moves := s.moves ++ [(players.filter s.b.inWorld, spawn)] }
  | _, _ => none

def startGame (s : Starting) : Option Starting :=
  let game := s.b.game gameId
  let s := { s with b := s.b.setGame gameId { game with isStarted := true, starts := game.starts ++ [game.playersGuid] } }
  if SOLO < game.category then
    (s.b.games.entries.flatMap (·.2.groups.entries)).foldlM (fun s e => s.spawnPlayers near urand gameId (e.2.map (·.guid))) s
  else
    game.playersGuid.foldlM (fun s player => if s.b.inWorld player then s.spawnPlayers near urand gameId [player] else some s) s

end Starting

namespace Starting

variable {near : ObjectGuid → Bool} {urand : Urand} {gameId : Nat} {s s' s'' : Starting} {news news' : List (List ObjectGuid × Spawn)}

/-! ## The start without places -/

theorem spawnPlayers_takeSpawn {players : List ObjectGuid} (h : s.spawnPlayers near urand gameId players = some s') :
    s.b.takeSpawn near gameId players = some s'.b := by
  unfold spawnPlayers at h
  split at h
  next b _ hb =>
    cases h
    exact hb
  next => cases h

theorem foldlM_b {α : Type} {f : Starting → α → Option Starting} {g : Battleroyale → α → Option Battleroyale}
    (hfg : ∀ s a s', f s a = some s' → g s.b a = some s'.b) : ∀ {l : List α} {s : Starting}, l.foldlM f s = some s' →
    l.foldlM g s.b = some s'.b
  | [], _, h => by
    cases h
    rfl
  | a :: l, s, h => by
    rw [List.foldlM_cons] at h ⊢
    obtain ⟨next, hnext, hrest⟩ := Option.bind_eq_some_iff.1 h
    show (g s.b a).bind _ = _
    rw [hfg s a next hnext]
    exact foldlM_b hfg hrest

/-- A start is a start. -/
theorem startGame_start (h : s.startGame near urand gameId = some s') : s.b.start near gameId = some s'.b := by
  unfold startGame at h
  unfold Battleroyale.start
  dsimp only at h ⊢
  split at h
  next hgroups =>
    rw [if_pos hgroups]
    exact foldlM_b (fun _ _ _ hs => spawnPlayers_takeSpawn hs) h
  next hsolo =>
  rw [if_neg hsolo]
  refine foldlM_b (fun s player s' hs => ?_) h
  split at hs
  next hin =>
    rw [if_pos hin]
    exact spawnPlayers_takeSpawn hs
  next hout =>
  cases hs
  rw [if_neg hout]

/-! ## What is drawn -/

/-- There are as many places as the game counts. -/
def Ready (gameId : Nat) (s : Starting) : Prop := (s.b.game gameId).spawnsPlayers = s.spawns.length

/-- Some moves: places are drawn and taken away, and those who are moved were in the world. -/
structure Moved (gameId : Nat) (news : List (List ObjectGuid × Spawn)) (s s' : Starting) : Prop where
  ready : s'.Ready gameId
  moves : s'.moves = s.moves ++ news
  drawn : (news.map (·.2) ++ s'.spawns).Perm s.spawns
  present : ∀ move ∈ news, ∀ player ∈ move.1, s.b.inWorld player = true
  away : ∀ player, (∀ move ∈ news, player ∉ move.1) → s'.b.inWorld player = s.b.inWorld player
  stays : ∀ player, s'.b.inWorld player = true → s.b.inWorld player = true

theorem Moved.refl (h : s.Ready gameId) : Moved gameId [] s s where
  ready := h
  moves := (List.append_nil _).symm
  drawn := .refl _
  present _ hm := nomatch hm
  away _ _ := rfl
  stays _ h := h

theorem Moved.trans (h : Moved gameId news s s') (h' : Moved gameId news' s' s'') : Moved gameId (news ++ news') s s'' where
  ready := h'.ready
  moves := by rw [h'.moves, h.moves, List.append_assoc]
  drawn := by
    rw [List.map_append, List.append_assoc]
    exact (h'.drawn.append_left _).trans h.drawn
  present move hm player hp := by
    rcases List.mem_append.1 hm with hm | hm
    · exact h.present move hm player hp
    · exact h.stays player (h'.present move hm player hp)
  away player hp := (h'.away player fun move hm => hp move (List.mem_append_right _ hm)).trans
    (h.away player fun move hm => hp move (List.mem_append_left _ hm))
  stays player hp := h.stays player (h'.stays player hp)

theorem inWorld_foldl (near : ObjectGuid → Bool) (player : ObjectGuid) : ∀ (players : List ObjectGuid) (b : Battleroyale),
    (players.foldl (fun b player => b.teleportTo near player) b).inWorld player =
      (b.inWorld player && (!decide (player ∈ players) || near player))
  | [], b => by simp
  | other :: players, b => by
    have hteleport : (b.teleportTo near other).inWorld player = (b.inWorld player && (!decide (player = other) || near player)) := by
      unfold teleportTo
      rw [← decide_not]
    have hmem : decide (player ∈ other :: players) = (decide (player = other) || decide (player ∈ players)) := by
      rw [← Bool.decide_or]
      exact decide_eq_decide.2 List.mem_cons
    rw [List.foldl_cons, inWorld_foldl near player players, hteleport, hmem]
    cases b.inWorld player <;> cases near player <;> cases decide (player = other) <;> cases decide (player ∈ players) <;> rfl

/-- A place is drawn while there is one. -/
theorem spawnPlayers_spec (hready : s.Ready gameId) (hpos : 0 < s.spawns.length) (near : ObjectGuid → Bool) (urand : Urand)
    (players : List ObjectGuid) : ∃ s' spawn, s.spawnPlayers near urand gameId players = some s' ∧
      Moved gameId [(players.filter s.b.inWorld, spawn)] s s' ∧ s'.spawns.length + 1 = s.spawns.length := by
  have hlt := urand.lt _ hpos
  have hspawn : s.spawns[urand.choose s.spawns.length]? = some s.spawns[urand.choose s.spawns.length] := List.getElem?_eq_getElem hlt
  obtain ⟨spawn, hs⟩ : ∃ spawn, spawn = s.spawns[urand.choose s.spawns.length] := ⟨_, rfl⟩
  have hmem : spawn ∈ s.spawns := hs ▸ List.getElem_mem hlt
  rw [← hs] at hspawn
  have hroom : (s.b.game gameId).spawnsPlayers ≠ 0 := by
    rw [hready]
    omega
  have hlength : (s.spawns.erase spawn).length + 1 = s.spawns.length := by
    rw [List.length_erase_of_mem hmem]
    omega
  unfold spawnPlayers takeSpawn
  rw [hspawn]
  dsimp only
  rw [if_neg hroom]
  refine ⟨_, spawn, rfl, ?_, hlength⟩
  refine ⟨?_, rfl, (List.perm_cons_erase hmem).symm, fun move hm player hp => ?_, fun player hp => ?_, fun player hp => ?_⟩
  · unfold Ready
    dsimp only
    rw [game_foldl_teleportTo, game_setGame_self]
    dsimp only
    rw [hready]
    omega
  · cases List.mem_singleton.1 hm
    exact (List.mem_filter.1 hp).2
  · have hnot := hp _ List.mem_cons_self
    rw [inWorld_foldl]
    show (s.b.inWorld player && _) = s.b.inWorld player
    by_cases hin : s.b.inWorld player = true
    · have hplayers : player ∉ players := fun h => hnot (List.mem_filter.2 ⟨h, hin⟩)
      rw [decide_eq_false hplayers, hin]
      rfl
    · rw [Bool.eq_false_iff.2 hin]
      rfl
  · rw [inWorld_foldl] at hp
    exact (Bool.and_eq_true_iff.1 hp).1

/-! ## All players of a game -/

/-- Everybody of some players who is in the world is moved. -/
def Everybody (players : List ObjectGuid) (s : Starting) (news : List (List ObjectGuid × Spawn)) : Prop :=
  ∀ player ∈ players, s.b.inWorld player = true → ∃ move ∈ news, player ∈ move.1

/-- Those who are not moved first are moved later. -/
theorem Everybody.append {players players' : List ObjectGuid} (h : Everybody players s news) (hmoved : Moved gameId news s s')
    (h' : Everybody players' s' news') : Everybody (players ++ players') s (news ++ news') := by
  intro player hp hin
  by_cases hfirst : ∃ move ∈ news, player ∈ move.1
  · obtain ⟨move, hm, hp⟩ := hfirst
    exact ⟨move, List.mem_append_left _ hm, hp⟩
  have hstill : s'.b.inWorld player = true := by
    rw [hmoved.away player fun move hm hp => hfirst ⟨move, hm, hp⟩]
    exact hin
  rcases List.mem_append.1 hp with hp | hp
  · exact absurd (h player hp hin) hfirst
  · obtain ⟨move, hm, hp⟩ := h' player hp hstill
    exact ⟨move, List.mem_append_right _ hm, hp⟩

/-- One place for each team. -/
theorem spawnTeams {α : Type} (team : α → List ObjectGuid) (near : ObjectGuid → Bool) (urand : Urand) : ∀ {teams : List α}
    {s : Starting}, s.Ready gameId → teams.length ≤ s.spawns.length →
    ∃ s' news, teams.foldlM (fun s e => s.spawnPlayers near urand gameId (team e)) s = some s' ∧ Moved gameId news s s' ∧
      List.Forall₂ (fun e move => ∀ player ∈ move.1, player ∈ team e) teams news ∧ Everybody (teams.flatMap team) s news
  | [], s, hready, _ => ⟨s, [], rfl, .refl hready, .nil, fun _ hp => (nomatch hp)⟩
  | e :: teams, s, hready, hroom => by
    rw [List.length_cons] at hroom
    obtain ⟨s₁, spawn, hstep, hmoved, hlength⟩ := spawnPlayers_spec hready (by omega) near urand (team e)
    obtain ⟨s', news, hrest, hmoved', hteams, hall⟩ := @spawnTeams _ team near urand teams s₁ hmoved.ready (by omega)
    refine ⟨s', (_, spawn) :: news, ?_, hmoved.trans hmoved', .cons (fun player hp => (List.mem_filter.1 hp).1) hteams, ?_⟩
    · rw [List.foldlM_cons, hstep]
      exact hrest
    · have hfirst : Everybody (team e) s [((team e).filter s.b.inWorld, spawn)] := fun player hp hin =>
        ⟨_, List.mem_cons_self, List.mem_filter.2 ⟨hp, hin⟩⟩
      exact hfirst.append hmoved hall

/-- One place for each player who is there. -/
theorem spawnSingles (near : ObjectGuid → Bool) (urand : Urand) : ∀ {players : List ObjectGuid} {s : Starting}, s.Ready gameId →
    players.length ≤ s.spawns.length →
    ∃ s' news, players.foldlM (fun s player => if s.b.inWorld player then s.spawnPlayers near urand gameId [player] else some s) s =
        some s' ∧ Moved gameId news s s' ∧ (∀ move ∈ news, ∃ player ∈ players, move.1 = [player]) ∧ Everybody players s news
  | [], s, hready, _ => ⟨s, [], rfl, .refl hready, fun _ hm => (nomatch hm), fun _ hp => (nomatch hp)⟩
  | player :: players, s, hready, hroom => by
    rw [List.length_cons] at hroom
    rw [List.foldlM_cons]
    by_cases hin : s.b.inWorld player = true
    · obtain ⟨s₁, spawn, hstep, hmoved, hlength⟩ := spawnPlayers_spec hready (by omega) near urand [player]
      obtain ⟨s', news, hrest, hmoved', hsingle, hall⟩ := @spawnSingles near urand players s₁ hmoved.ready (by omega)
      have hone : [player].filter s.b.inWorld = [player] := List.filter_cons_of_pos hin
      rw [if_pos hin, hstep]
      refine ⟨s', (_, spawn) :: news, hrest, hmoved.trans hmoved', fun move hm => ?_, ?_⟩
      · rcases List.mem_cons.1 hm with rfl | hm
        · exact ⟨player, List.mem_cons_self, hone⟩
        · obtain ⟨other, ho, he⟩ := hsingle move hm
          exact ⟨other, List.mem_cons_of_mem _ ho, he⟩
      · have hfirst : Everybody [player] s [([player].filter s.b.inWorld, spawn)] := fun other ho hin =>
          ⟨_, List.mem_cons_self, List.mem_filter.2 ⟨ho, hin⟩⟩
        exact hfirst.append hmoved hall
    · obtain ⟨s', news, hrest, hmoved, hsingle, hall⟩ := @spawnSingles near urand players s hready (by omega)
      rw [if_neg hin]
      refine ⟨s', news, hrest, hmoved, fun move hm => ?_, fun other ho hin' => ?_⟩
      · obtain ⟨other, ho, he⟩ := hsingle move hm
        exact ⟨other, List.mem_cons_of_mem _ ho, he⟩
      · rcases List.mem_cons.1 ho with rfl | ho
        · exact absurd hin' hin
        · exact hall other ho hin'

/-! ## Starts that leave other games alone -/

/-- The players of a game's groups. -/
def members (game : Game) : List ObjectGuid := game.groups.entries.flatMap fun e => e.2.map (·.guid)

/-- There is a place for each player, or for each group where no other game has groups, and the groups are of players of the
game. -/
structure Enough (gameId : Nat) (s : Starting) : Prop where
  ready : s.Ready gameId
  singles : ¬ SOLO < (s.b.game gameId).category → (s.b.game gameId).playersGuid.length ≤ s.spawns.length
  groups : SOLO < (s.b.game gameId).category → (s.b.game gameId).groups.size ≤ s.spawns.length ∧
    (∀ player ∈ members (s.b.game gameId), player ∈ (s.b.game gameId).playersGuid) ∧
    ∀ id, id ≠ gameId → (s.b.game id).groups.entries = []

/-- A start that is the game's own: it alone is marked, those of its players who are in the world are moved and nobody else, and
each place is given once: to a player, or to a group. -/
structure Own (gameId : Nat) (news : List (List ObjectGuid × Spawn)) (s s' : Starting) : Prop where
  started : Battleroyale.Started gameId s.b s'.b
  moves : s'.moves = s.moves ++ news
  drawn : (news.map (·.2) ++ s'.spawns).Perm s.spawns
  players : ∀ move ∈ news, ∀ player ∈ move.1, player ∈ (s.b.game gameId).playersGuid ∧ s.b.inWorld player = true
  away : ∀ player, (∀ move ∈ news, player ∉ move.1) → s'.b.inWorld player = s.b.inWorld player
  singles : ¬ SOLO < (s.b.game gameId).category → (∀ move ∈ news, ∃ player, move.1 = [player]) ∧
    Everybody (s.b.game gameId).playersGuid s news
  groups : SOLO < (s.b.game gameId).category → Everybody (members (s.b.game gameId)) s news ∧
    List.Forall₂ (fun e move => ∀ player ∈ move.1, player ∈ e.2.map (·.guid)) (s.b.game gameId).groups.entries news

theorem mem_of_forall₂ {α β : Type} {R : α → β → Prop} {y : β} : ∀ {xs : List α} {ys : List β}, List.Forall₂ R xs ys → y ∈ ys →
    ∃ x ∈ xs, R x y
  | _, _, .cons hR hRs, hy => by
    rcases List.mem_cons.1 hy with rfl | hy
    · exact ⟨_, List.mem_cons_self, hR⟩
    · obtain ⟨x, hx, hR⟩ := mem_of_forall₂ hRs hy
      exact ⟨x, List.mem_cons_of_mem _ hx, hR⟩

/-- The groups of all games are those of one, if the others have none. -/
theorem groups_of_one {b : Battleroyale} {game : Game} (hgame : b.games.find? gameId = some game)
    (hothers : ∀ id, id ≠ gameId → (b.game id).groups.entries = []) :
    b.games.entries.flatMap (·.2.groups.entries) = game.groups.entries := by
  obtain ⟨before, after, hentries⟩ := List.append_of_mem (OMap.mem_entries.2 hgame)
  have hnodup := OMap.nodup_keys b.games
  unfold OMap.keys at hnodup
  rw [hentries, List.map_append, List.map_cons, List.nodup_middle, List.nodup_cons, ← List.map_append] at hnodup
  have hempty : ∀ e ∈ before ++ after, e.2.groups.entries = [] := fun e he => by
    have hkey : e.1 ∈ (before ++ after).map Prod.fst := List.mem_map_of_mem he
    have hne : e.1 ≠ gameId := fun h => hnodup.1 (h ▸ hkey)
    have hmem : (e.1, e.2) ∈ b.games.entries := by
      rw [hentries]
      rcases List.mem_append.1 he with he | he
      · exact List.mem_append_left _ he
      · exact List.mem_append_right _ (List.mem_cons_of_mem _ he)
    have h := hothers e.1 hne
    rwa [mem_entries_game hmem] at h
  rw [hentries, List.flatMap_append, List.flatMap_cons,
    List.flatMap_eq_nil_iff.2 fun e he => hempty e (List.mem_append_left _ he),
    List.flatMap_eq_nil_iff.2 fun e he => hempty e (List.mem_append_right _ he), List.append_nil]
  rfl

/-- The first of the places that are left. -/
def first : Urand := ⟨fun _ => 0, fun _ h => h⟩

def places : List Spawn := [⟨0, 10, 0, 0⟩, ⟨0, 20, 0, 0⟩, ⟨0, 30, 0, 0⟩, ⟨0, 40, 0, 0⟩]

/-- A game of two groups of two, on the map with four places, and another game with the groups given. -/
def pairs (others : OMap Nat (List GroupMember)) : Starting where
  b := {
    games := (OMap.empty.insert 1 ⟨others.entries.flatMap (·.2.map (·.guid)), others, false, 4, 2, 4, .empty, []⟩).insert 2
      ⟨[3, 4, 5, 6], (OMap.empty.insert 20 [⟨3, true⟩, ⟨4, true⟩]).insert 30 [⟨5, true⟩, ⟨6, true⟩], false, 4, 2, 4, .empty, []⟩
    inWorld := everybody
    parties := []
    rewards := []
    kills := [] }
  spawns := places
  moves := []

end Starting

end AtlasWow.Battleroyale
