/-
How the queue judges that a group has waited: a rated team joins a match outside
its rating range after the discard time, a premade group goes to the normal
queue after the premade time. Both rules compare the stamp of the join with the
clock minus the delay, the first with signs, the second without. The clock is
the milliseconds since the start, in 32 bits; `now` and `joined` are those
milliseconds before they are cut.
-/
import AtlasWow.Battlegrounds.BattlegroundQueue

namespace AtlasWow.Battlegrounds.BattlegroundQueue

/-! The comparisons -/

section Stamps

variable {joined now delay : Nat}

/-- Without signs: what has waited less than the delay passes for it, unless the clock has come that far since it was last 0. -/
theorem uint32_before_iff (hjoined : joined ≤ now) (hwait : now - joined < 2 ^ 31) (hdelay : delay < 2 ^ 32) :
    (uint32 joined < uint32 (uint32 now - delay) → delay ≤ now - joined) ↔ delay ≤ now - joined + uint32 joined := by
  simp only [uint32_eq]
  omega

/-- With signs: the same, since the clock last went from the greatest number to the least. -/
theorem int32_before_iff (hjoined : joined ≤ now) (hwait : now - joined < 2 ^ 31) (hdelay : delay < 2 ^ 32) :
    (int32 (uint32 joined) < int32 (uint32 now - delay) → delay ≤ now - joined) ↔
      delay ≤ now - joined + uint32 (joined + 2 ^ 31) := by
  simp only [uint32_eq, int32_eq]
  split_ifs <;> omega

end Stamps

/-! Rated teams -/

variable {u : UpdateRequest} {q : BattlegroundQueue}

/-- The rating that the teams of the next match are to be near. -/
def ratingOf (u : UpdateRequest) (q : BattlegroundQueue) : Option Nat :=
  if u.arenaRating = 0 then q.longestWaitRating u else some u.arenaRating

def inRatingRange (u : UpdateRequest) (arenaRating : Nat) (ginfo : GroupQueueInfo) : Bool :=
  (if arenaRating ≤ u.maxRatingDifference then 0 else arenaRating - u.maxRatingDifference) ≤ ginfo.arenaMatchmakerRating &&
    ginfo.arenaMatchmakerRating ≤ uint32 (arenaRating + u.maxRatingDifference)

theorem matchesRating_eq (arenaRating : Nat) (ginfo : GroupQueueInfo) :
    matchesRating u arenaRating ginfo = (!ginfo.isInvited && (inRatingRange u arenaRating ginfo ||
      decide (int32 ginfo.joinTime < int32 (u.gameTimeMS - u.ratingDiscardTimer)))) := rfl

theorem findTeams_matches {arenaRating a h : Nat} (hfound : findTeams u arenaRating q = some (a, h)) :
    matchesRating u arenaRating (q.info a) = true ∧ matchesRating u arenaRating (q.info h) = true := by
  unfold findTeams at hfound
  extract_lets l fits opponent at hfound
  have hopponent {team : Team} {first : Nat} (hfirst : (l team).find? fits = some first)
      (heq : opponent team first = some (a, h)) : fits a = true ∧ fits h = true := by
    obtain ⟨g, hg, hpair⟩ := Option.map_eq_some_iff.1 heq
    cases hpair
    have hfits := List.find?_some hg
    rw [Bool.and_eq_true] at hfits
    exact ⟨List.find?_some hfirst, hfits.1⟩
  split at hfound
  next a' h' ha hh =>
    cases hfound
    have hfits : fits a = true ∧ fits h = true := ⟨List.find?_some ha, List.find?_some hh⟩
    exact hfits
  next a' ha _ => exact hopponent ha hfound
  next h' _ hh => exact hopponent hh hfound
  next => cases hfound

variable {g minPlayersPerTeam ginfo : Nat} {side team : Team} {bg : Battleground}

theorem invited_inviteGroupToBG {gameTimeMS : Nat} {s : BattlegroundQueue × Battleground}
    (h : g ∈ (inviteGroupToBG gameTimeMS ginfo side s).2.invited.map (·.ginfo)) :
    g = ginfo ∨ g ∈ s.2.invited.map (·.ginfo) := by
  unfold inviteGroupToBG at h
  extract_lets q bg info at h
  split at h
  next =>
    rw [List.map_append, List.mem_append, List.map_singleton, List.mem_singleton] at h
    exact h.symm
  next => exact .inr h

theorem invited_startRated {aTeam hTeam : Nat} {inst : {n : Nat // 0 < n}}
    (h : g ∈ (startRated u aTeam hTeam inst q).2.invited.map (·.ginfo)) : g = aTeam ∨ g = hTeam := by
  unfold startRated at h
  extract_lets a b q₁ q₂ q₃ at h
  rcases invited_inviteGroupToBG h with hg | hg
  · exact .inr hg
  rcases invited_inviteGroupToBG hg with hg | hg
  · exact .inl hg
  · exact (nomatch hg)

/-- The teams of a rated match. -/
theorem invited_updateRated (h : (updateRated u q).game = some bg) (hg : g ∈ bg.invited.map (·.ginfo)) :
    ∃ arenaRating, ratingOf u q = some arenaRating ∧ matchesRating u arenaRating (q.info g) = true := by
  unfold updateRated at h
  split at h
  next => cases h
  next arenaRating hrating =>
  refine ⟨arenaRating, hrating, ?_⟩
  split at h
  next aTeam hTeam inst hfound hinst =>
    obtain ⟨ha, hh⟩ := findTeams_matches hfound
    rw [← Option.some.inj h] at hg
    rcases invited_startRated hg with rfl | rfl
    · exact ha
    · exact hh
  next => cases h

/-- An update for rated arenas. -/
structure IsRatedArena (u : UpdateRequest) : Prop where
  isRated : u.isRated = true
  isArena : u.bgTemplate.any (·.isArena) = true

theorem game_of_rated {updated : Updated} (harena : IsRatedArena u)
    (h : q.battlegroundQueueUpdate u = some updated) (hbg : updated.game = some bg) :
    (updateRated u q.initPools).game = some bg := by
  unfold battlegroundQueueUpdate at h
  split at h
  next =>
    cases h
    cases hbg
  next =>
  split at h
  next => cases h
  next =>
  obtain ⟨t, ht, hisArena⟩ := Option.any_eq_true _ _ |>.1 harena.isArena
  rw [u.arena_full t ht hisArena, List.foldlM_nil, ht] at h
  change (if u.bracketEntry then updateTemplate u t q else some ⟨q, none, none⟩) = some updated at h
  split at h
  next =>
    unfold updateTemplate at h
    extract_lets n m q' at h
    rw [if_pos hisArena, if_pos harena.isRated] at h
    rw [← hbg, ← Option.some.inj h]
  next =>
  cases h
  cases hbg

/-- In every queue, a rated team outside the rating range plays only if it has waited for the delay. -/
def RatedAfter (now joined delay : Nat) : Prop :=
  ∀ (u : UpdateRequest) (q : BattlegroundQueue) (updated : Updated) (bg : Battleground) (g arenaRating : Nat),
    u.gameTimeMS = uint32 now → u.ratingDiscardTimer = delay → IsRatedArena u →
    q.battlegroundQueueUpdate u = some updated → updated.game = some bg → g ∈ bg.invited.map (·.ginfo) →
    (q.info g).joinTime = uint32 joined → ratingOf u q = some arenaRating →
    inRatingRange u arenaRating (q.info g) = false → delay ≤ now - joined

theorem ratedAfter_of {now joined delay : Nat}
    (h : int32 (uint32 joined) < int32 (uint32 now - delay) → delay ≤ now - joined) : RatedAfter now joined delay := by
  intro u q updated bg g arenaRating hnow hdelay harena hupdate hbg hg hstamp hrating hrange
  obtain ⟨arenaRating', hrating', hmatches⟩ := invited_updateRated (game_of_rated harena hupdate hbg) hg
  have heq : arenaRating' = arenaRating := by
    rw [← Option.some_inj, ← hrating', ← hrating]
    rfl
  have hmatches : matchesRating u arenaRating (q.info g) = true := heq ▸ hmatches
  rw [matchesRating_eq, hrange, Bool.false_or, Bool.and_eq_true, decide_eq_true_eq, hstamp, hnow, hdelay] at hmatches
  exact h hmatches.2

/-- A rated arena of two a side is looked for at a rating of 1500. -/
def ratedRequest (now delay : Nat) : UpdateRequest :=
  { bgTypeId := 6, bracketId := ⟨0, by decide⟩, arenaType := 2, isRated := true, arenaRating := 1500, gameTimeMS := uint32 now
    bgFreeSlotQueue := [], bgTemplate := some { isArena := true, minPlayersPerTeam := 0, maxPlayersPerTeam := 2 }
    bracketEntry := true, newPremade := none, newBattleground := some ⟨1, Nat.one_pos⟩, isTesting := false
    isArenaTesting := false, invitationType := .balanced, premadeGroupWaitForMatch := 1800000, maxRatingDifference := 150
    ratingDiscardTimer := delay, arena_full := fun _ _ _ => rfl }

/-- A group of two joins, as a rated team or as a premade group. -/
def joinPair (team : Team) (isRated : Bool) (rating time : Nat) : JoinRequest :=
  { players := if team = .alliance then [1, 2] else [3, 4], team := team, bgTypeId := 6
    bracketId := ⟨0, by decide⟩, arenaType := 2, isRated := isRated, isPremade := true, arenaRating := rating, matchmakerRating := rating
    arenaTeamId := if team = .alliance then 1 else 2, gameTimeMS := uint32 time }

/-- A team of a rating of 2500 has joined, then one of 1500. -/
def unequalTeams (joined now : Nat) : BattlegroundQueue :=
  (empty.addGroup (joinPair .alliance true 2500 joined)).addGroup (joinPair .horde true 1500 now)

theorem findTeams_unequal {now joined delay : Nat} (h : int32 (uint32 joined) < int32 (uint32 now - delay)) :
    findTeams (ratedRequest now delay) 1500 (unequalTeams joined now).initPools = some (0, 1) := by
  have hfirst : matchesRating (ratedRequest now delay) 1500 ((unequalTeams joined now).initPools.info 0) = true := by
    rw [matchesRating_eq, Bool.and_eq_true, Bool.or_eq_true, decide_eq_true_eq]
    exact ⟨rfl, .inr h⟩
  have hsecond : matchesRating (ratedRequest now delay) 1500 ((unequalTeams joined now).initPools.info 1) = true := by
    rw [matchesRating_eq, Bool.and_eq_true, Bool.or_eq_true]
    have hrange : (decide (1350 ≤ 1500) && decide (1500 ≤ uint32 (1500 + 150))) = true := by decide
    exact ⟨rfl, .inl hrange⟩
  unfold findTeams
  extract_lets l fits opponent
  have ha : (l .alliance).find? fits = some 0 := List.find?_cons_of_pos hfirst
  have hh : (l .horde).find? fits = some 1 := List.find?_cons_of_pos hsecond
  rw [ha, hh]

/-- The team of the other rating plays, when it passes for one that has waited. -/
theorem ratedAfter_iff {now joined delay : Nat} (hjoined : joined ≤ now) (hwait : now - joined < 2 ^ 31)
    (hdelay : delay < 2 ^ 32) :
    RatedAfter now joined delay ↔ delay ≤ now - joined + uint32 (joined + 2 ^ 31) := by
  rw [← int32_before_iff hjoined hwait hdelay]
  constructor
  · intro h hlt
    have hupdate : (unequalTeams joined now).battlegroundQueueUpdate (ratedRequest now delay) =
        some (updateRated (ratedRequest now delay) (unequalTeams joined now).initPools) := rfl
    have hgame : (updateRated (ratedRequest now delay) (unequalTeams joined now).initPools).game =
        some (startRated (ratedRequest now delay) 0 1 ⟨1, Nat.one_pos⟩ (unequalTeams joined now).initPools).2 := by
      unfold updateRated
      rw [show (if (ratedRequest now delay).arenaRating = 0 then _ else some (ratedRequest now delay).arenaRating) =
        some 1500 from rfl]
      dsimp only
      rw [findTeams_unequal hlt]
      rfl
    have hinvited : (startRated (ratedRequest now delay) 0 1 ⟨1, Nat.one_pos⟩
        (unequalTeams joined now).initPools).2.invited.map (·.ginfo) = [0, 1] := rfl
    have hrange : (decide (1350 ≤ 2500) && decide (2500 ≤ uint32 (1500 + 150))) = false := by decide
    exact h (ratedRequest now delay) (unequalTeams joined now) _ _ 0 1500 rfl rfl ⟨rfl, rfl⟩ hupdate hgame
      (by rw [hinvited]; exact List.mem_cons_self) rfl rfl hrange
  · exact ratedAfter_of

/-! Premade groups -/

theorem mem_movePremade (h : g ∈ (movePremade u minPlayersPerTeam q side).m_QueuedGroups u.bracketId (.normal team)) :
    g ∈ q.m_QueuedGroups u.bracketId (.normal team) ∨ (q.info g).size < minPlayersPerTeam ∨
      (q.info g).joinTime < uint32 (u.gameTimeMS - u.premadeGroupWaitForMatch) := by
  unfold movePremade at h
  split at h
  next => exact .inl h
  next ginfo rest hlist =>
  extract_lets timeBefore at h
  split at h
  next hmoves =>
    simp only [Bool.and_eq_true, Bool.or_eq_true, decide_eq_true_eq] at hmoves
    by_cases hg : g = ginfo
    · subst hg
      exact .inr hmoves.2.symm
    refine .inl ?_
    by_cases hteam : team = side
    · subst hteam
      simp only [setList, Function.update_self] at h
      rw [Function.update_of_ne (by simp), Function.update_self] at h
      exact (List.mem_cons.1 h).resolve_left hg
    simp only [setList, Function.update_self] at h
    rw [Function.update_of_ne (by simp), Function.update_of_ne (by simpa using hteam)] at h
    exact h
  next => exact .inl h

/-- A group that is in the normal queue stays there. -/
theorem movePremade_keeps (h : g ∈ q.m_QueuedGroups u.bracketId (.normal team)) :
    g ∈ (movePremade u minPlayersPerTeam q side).m_QueuedGroups u.bracketId (.normal team) := by
  unfold movePremade
  split
  next => exact h
  next ginfo rest hlist =>
  extract_lets timeBefore
  split
  next =>
    simp only [setList, Function.update_self]
    rw [Function.update_of_ne (by simp)]
    by_cases hteam : team = side
    · subst hteam
      rw [Function.update_self]
      exact List.mem_cons_of_mem _ h
    · rw [Function.update_of_ne (by simpa using hteam)]
      exact h
  next => exact h

/-- The first premade group, once its stamp is before the deadline. -/
theorem movePremade_late {rest : List Nat}
    (hlist : q.m_QueuedGroups u.bracketId (.premade side) = ginfo :: rest) (hinvited : (q.info ginfo).isInvited = false)
    (hlate : (q.info ginfo).joinTime < uint32 (u.gameTimeMS - u.premadeGroupWaitForMatch)) :
    ginfo ∈ (movePremade u minPlayersPerTeam q side).m_QueuedGroups u.bracketId (.normal side) := by
  unfold movePremade
  rw [hlist]
  dsimp only
  rw [if_pos (by simp [hinvited, hlate])]
  simp only [setList, Function.update_self]
  rw [Function.update_of_ne (by simp), Function.update_self]
  exact List.mem_cons_self

theorem info_movePremade (minPlayersPerTeam : Nat) (side : Team) (g : Nat) :
    (movePremade u minPlayersPerTeam q side).info g = q.info g := by
  unfold movePremade
  split
  next => rfl
  next =>
  dsimp only
  split <;> rfl

/-- In every queue, a premade group that is large enough goes to the normal queue only if it has waited for the delay. -/
def MovedAfter (now joined delay : Nat) : Prop :=
  ∀ (u : UpdateRequest) (q : BattlegroundQueue) (minPlayersPerTeam maxPlayersPerTeam g : Nat) (team : Team),
    u.gameTimeMS = uint32 now → u.premadeGroupWaitForMatch = delay →
    g ∉ q.m_QueuedGroups u.bracketId (.normal team) →
    g ∈ (checkPremadeMatch u minPlayersPerTeam maxPlayersPerTeam q).1.m_QueuedGroups u.bracketId (.normal team) →
    minPlayersPerTeam ≤ (q.info g).size → (q.info g).joinTime = uint32 joined → delay ≤ now - joined

theorem movedAfter_of {now joined delay : Nat}
    (h : uint32 joined < uint32 (uint32 now - delay) → delay ≤ now - joined) : MovedAfter now joined delay := by
  intro u q minPlayersPerTeam maxPlayersPerTeam g team hnow hdelay hbefore hafter hsize hstamp
  unfold checkPremadeMatch at hafter
  split at hafter
  next => exact absurd hafter hbefore
  next =>
  have hmoves : (q.info g).size < minPlayersPerTeam ∨
      (q.info g).joinTime < uint32 (u.gameTimeMS - u.premadeGroupWaitForMatch) := by
    rcases mem_movePremade hafter with hmem | hmoves
    · rcases mem_movePremade hmem with hmem | hmoves
      · exact absurd hmem hbefore
      · exact hmoves
    · rwa [info_movePremade] at hmoves
  rw [hstamp, hnow, hdelay] at hmoves
  exact h (hmoves.resolve_left (by omega))

def premadeRequest (now delay : Nat) : UpdateRequest :=
  { ratedRequest now 600000 with
    isRated := false, bgTemplate := some { isArena := false, minPlayersPerTeam := 2, maxPlayersPerTeam := 10 }
    premadeGroupWaitForMatch := delay, arena_full := fun _ _ _ => rfl }

/-- A premade group of two, alone in the queue. -/
def premadePair (joined : Nat) : BattlegroundQueue := empty.addGroup (joinPair .alliance false 0 joined)

theorem movedAfter_iff {now joined delay : Nat} (hjoined : joined ≤ now) (hwait : now - joined < 2 ^ 31)
    (hdelay : delay < 2 ^ 32) : MovedAfter now joined delay ↔ delay ≤ now - joined + uint32 joined := by
  rw [← uint32_before_iff hjoined hwait hdelay]
  constructor
  · intro h hlt
    have hmoves : 0 ∈ (movePremade (premadeRequest now delay) 2 (premadePair joined) .alliance).m_QueuedGroups
        (premadeRequest now delay).bracketId (.normal .alliance) := movePremade_late rfl rfl hlt
    have hchecked : (checkPremadeMatch (premadeRequest now delay) 2 10 (premadePair joined)).1 =
        movePremade (premadeRequest now delay) 2
          (movePremade (premadeRequest now delay) 2 (premadePair joined) .alliance) .horde := rfl
    refine h (premadeRequest now delay) (premadePair joined) 2 10 0 .alliance rfl rfl List.not_mem_nil ?_
      (Nat.le_refl 2) rfl
    rw [hchecked]
    exact movePremade_keeps hmoves
  · exact movedAfter_of

/-! The waiting times -/

/-- Both rules judge the time right exactly when neither passes a wrap: of the clock without a sign for the premade groups, of
the clock with a sign for the rated teams. -/
theorem waits_exact_iff {now joined ratingDiscardTimer premadeWait : Nat} (hjoined : joined ≤ now)
    (hwait : now - joined < 2 ^ 31) (hdiscard : ratingDiscardTimer < 2 ^ 32) (hpremade : premadeWait < 2 ^ 32) :
    (RatedAfter now joined ratingDiscardTimer ∧ MovedAfter now joined premadeWait) ↔
      ratingDiscardTimer ≤ now - joined + uint32 (joined + 2 ^ 31) ∧ premadeWait ≤ now - joined + uint32 joined :=
  and_congr (ratedAfter_iff hjoined hwait hdiscard) (movedAfter_iff hjoined hwait hpremade)

/-- An hour after the start, for who has waited for half of it, with the delays of the default configuration. -/
theorem waits_exact_hour : (RatedAfter 3600000 1800000 600000 ∧ MovedAfter 3600000 1800000 1800000) ↔
    600000 ≤ 3600000 - 1800000 + uint32 (1800000 + 2 ^ 31) ∧ 1800000 ≤ 3600000 - 1800000 + uint32 1800000 :=
  waits_exact_iff (by decide) (by decide) (by decide) (by decide)

/-- A premade group joins a second after the start and goes to the normal queue a second later. -/
theorem premade_at_start : ¬ ∀ now joined ratingDiscardTimer premadeWait : Nat, joined ≤ now → now - joined < 2 ^ 31 →
    ratingDiscardTimer < 2 ^ 32 → premadeWait < 2 ^ 32 →
    RatedAfter now joined ratingDiscardTimer ∧ MovedAfter now joined premadeWait := by
  intro h
  have hmoved := (h 2000 1000 600000 1800000 (by decide) (by decide) (by decide) (by decide)).2
  have hle := (movedAfter_iff (by decide) (by decide) (by decide)).1 hmoved
  revert hle
  decide

end AtlasWow.Battlegrounds.BattlegroundQueue
