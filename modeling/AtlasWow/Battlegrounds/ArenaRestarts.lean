/-
What the tables say of the arena teams in memory, over a run of rated matches,
distributions of points and restarts.

`Saved`: a team is what its rows say. `Tracked`: every member of whom that may
not be so has played this week, so that the next `SaveToDB` does not pass him
over. A distribution that sets back the counter of a member that has played
breaks this: his row keeps the old week. `allowed` names the steps that do not,
and `reaches_restart` says that after them a restart changes no team.
-/
import AtlasWow.Battlegrounds.ArenaTeam

namespace AtlasWow.Arena

variable {rules : Rules} {db db' : Tables} {id id' guid k : Nat} {t t' a b : ArenaTeam} {rating : UInt16}

/-- A rating that is read back as it was written. -/
def Restorable (rules : Rules) (rating : UInt16) : Prop := loadRating rules (some rating) = rating

theorem restorable_iff : Restorable rules rating ↔ rules.startMatchmakerRating = 0 ∨ rating ≠ 0 := by
  unfold Restorable loadRating
  by_cases h : rating = 0
  · simp [h]
  · have hpos : (0 : UInt16) < rating := UInt16.pos_iff_ne_zero.2 h
    simp [h, hpos]

theorem restorable_loadRating (row : Option UInt16) : Restorable rules (loadRating rules row) := by
  rw [restorable_iff]
  unfold loadRating
  split
  next h => exact .inr (UInt16.pos_iff_ne_zero.1 h)
  next =>
  by_cases hs : rules.startMatchmakerRating = 0
  · exact .inl hs
  · exact .inr hs

def ArenaTeamMember.row (m : ArenaTeamMember) : MemberRow :=
  { weekGames := m.weekGames, weekWins := m.weekWins, seasonGames := m.seasonGames, seasonWins := m.seasonWins
    personalRating := m.personalRating }

/-- A member is what his rows say. -/
def SavedMember (rules : Rules) (db : Tables) (id : Nat) (type : ArenaType) (guid : Nat) (m : ArenaTeamMember) : Prop :=
  (db.memberRows id).find? guid = some m.row ∧
    loadRating rules (db.characterArenaStats.find? (toLex (guid, type.slot))) = m.matchMakerRating

structure Tracked (rules : Rules) (db : Tables) (id : Nat) (t : ArenaTeam) : Prop where
  row : ∃ stats, db.arenaTeam.find? id = some ⟨t.captainGuid, t.type, stats⟩
  captain : t.captainGuid ∈ t.members.keys
  keys : ∀ guid, guid ∈ (db.memberRows id).keys ↔ guid ∈ t.members.keys
  named : ∀ guid ∈ t.members.keys, rules.hasName guid = true
  restorable : ∀ guid m, t.members.find? guid = some m → Restorable rules m.matchMakerRating
  members : ∀ guid m, t.members.find? guid = some m → SavedMember rules db id t.type guid m ∨ m.weekGames ≠ 0

structure Saved (rules : Rules) (db : Tables) (id : Nat) (t : ArenaTeam) : Prop where
  row : db.arenaTeam.find? id = some ⟨t.captainGuid, t.type, t.stats⟩
  members : ∀ guid m, t.members.find? guid = some m → SavedMember rules db id t.type guid m

/-! Loading -/

theorem find?_loadMembers (db : Tables) (id : Nat) (type : ArenaType) (guid : Nat) :
    (loadMembers rules db id type).find? guid =
      if rules.hasName guid then ((db.memberRows id).find? guid).map fun row =>
        { weekGames := row.weekGames, weekWins := row.weekWins, seasonGames := row.seasonGames
          seasonWins := row.seasonWins, personalRating := row.personalRating
          matchMakerRating := loadRating rules (db.characterArenaStats.find? (toLex (guid, type.slot))) }
      else none := by
  rw [loadMembers, OMap.find?_filterMap]
  cases (db.memberRows id).find? guid <;> by_cases h : rules.hasName guid = true <;> simp [h]

theorem loadMembers_saved (h : Tracked rules db id t) (hs : Saved rules db id t) :
    loadMembers rules db id t.type = t.members := by
  refine OMap.ext fun guid => ?_
  rw [find?_loadMembers]
  cases hm : t.members.find? guid with
  | none =>
    have hnone : (db.memberRows id).find? guid = none :=
      OMap.find?_eq_none.2 fun hk => OMap.find?_eq_none.1 hm ((h.keys guid).1 hk)
    simp [hnone]
  | some m =>
    obtain ⟨hrow, hrating⟩ := hs.members guid m hm
    rw [if_pos (h.named guid (OMap.mem_keys.2 ⟨m, hm⟩)), hrow, hrating]
    rfl

theorem loadArenaTeam_saved (h : Tracked rules db id t) (hs : Saved rules db id t) :
    loadArenaTeam rules db id ⟨t.captainGuid, t.type, t.stats⟩ = some t := by
  obtain ⟨m, hm⟩ := OMap.mem_keys.1 h.captain
  have hne : t.members.isEmpty = false := by
    rw [Bool.eq_false_iff]
    intro he
    rw [OMap.isEmpty_iff] at he
    exact List.not_mem_nil (he ▸ h.captain)
  have hcaptain : t.members.find? t.captainGuid ≠ none := by rw [hm]; simp
  simp only [loadArenaTeam, loadMembers_saved h hs, hne, hcaptain, decide_false, Bool.or_self, Bool.false_eq_true, if_false]

/-- A team that is loaded is what its rows say, of the members that have a name. -/
theorem loadArenaTeam_eq {row : TeamRow} (h : loadArenaTeam rules db id row = some t) :
    t.captainGuid = row.captainGuid ∧ t.type = row.type ∧ t.stats = row.stats ∧ t.captainGuid ∈ t.members.keys ∧
      t.members = loadMembers rules db id t.type := by
  unfold loadArenaTeam at h
  extract_lets members at h
  split at h
  next => cases h
  next hload =>
  cases h
  refine ⟨rfl, rfl, rfl, ?_, rfl⟩
  show row.captainGuid ∈ members.keys
  simp only [Bool.or_eq_true, decide_eq_true_eq, not_or] at hload
  exact OMap.mem_keys.2 (Option.ne_none_iff_exists'.1 hload.2)

/-! Saving -/

theorem ArenaType.slot_inj {x y : ArenaType} (h : x.slot = y.slot) : x = y := by
  cases x <;> cases y <;> first | rfl | cases h

namespace ArenaTeam

variable {type : ArenaType} {l : List (Nat × ArenaTeamMember)}

theorem memberRows_saveMember (e : Nat × ArenaTeamMember) (id' guid : Nat) :
    ((saveMember id type db e).memberRows id').find? guid =
      if e.2.weekGames ≠ 0 ∧ id' = id ∧ guid = e.1 then ((db.memberRows id).find? guid).map fun _ => e.2.row
      else (db.memberRows id').find? guid := by
  by_cases hweek : e.2.weekGames = 0
  · simp [saveMember, hweek]
  by_cases hid : id' = id
  · subst hid
    cases hrow : (db.memberRows id').find? e.1 with
    | none =>
      have hsame : (saveMember id' type db e).arenaTeamMember = db.arenaTeamMember := by
        rw [saveMember, if_neg hweek]
        simp only [hrow]
      rw [Tables.memberRows, hsame]
      show (db.memberRows id').find? guid = _
      by_cases hg : guid = e.1
      · simp [hweek, hg, hrow]
      · simp [hg]
    | some row =>
      have hinsert : (saveMember id' type db e).arenaTeamMember =
          db.arenaTeamMember.insert id' ((db.memberRows id').insert e.1 e.2.row) := by
        rw [saveMember, if_neg hweek]
        simp only [hrow]
        rfl
      rw [Tables.memberRows, hinsert, OMap.find?_insert_self, Option.getD_some, OMap.find?_insert]
      by_cases hg : guid = e.1
      · simp [hweek, hg, hrow]
      · simp [hg]
  · have hsame : (saveMember id type db e).memberRows id' = db.memberRows id' := by
      unfold saveMember Tables.memberRows
      rw [if_neg hweek]
      dsimp only
      split
      next => rw [OMap.find?_insert_of_ne hid]
      next => rfl
    rw [hsame, if_neg fun h => hid h.2.1]

theorem stats_saveMember (e : Nat × ArenaTeamMember) (k : Nat ×ₗ Nat) :
    (saveMember id type db e).characterArenaStats.find? k =
      if e.2.weekGames ≠ 0 ∧ k = toLex (e.1, type.slot) then some e.2.matchMakerRating
      else db.characterArenaStats.find? k := by
  unfold saveMember
  by_cases hweek : e.2.weekGames = 0
  · simp [hweek]
  rw [if_neg hweek]
  show (db.characterArenaStats.insert _ _).find? k = _
  rw [OMap.find?_insert]
  simp [hweek]

/-- The row of a member is written if he has played. -/
theorem memberRows_foldl (hl : (l.map Prod.fst).Nodup) (id' guid : Nat) :
    ((l.foldl (saveMember id type) db).memberRows id').find? guid =
      match l.lookup guid with
      | some m => if m.weekGames ≠ 0 ∧ id' = id then ((db.memberRows id).find? guid).map fun _ => m.row
        else (db.memberRows id').find? guid
      | none => (db.memberRows id').find? guid := by
  induction l generalizing db with
  | nil => rfl
  | cons e l ih =>
    obtain ⟨k, m⟩ := e
    obtain ⟨hk, hl⟩ := List.nodup_cons.1 hl
    rw [List.foldl_cons, ih hl]
    by_cases hg : guid = k
    · subst hg
      have hnone : l.lookup guid = none := OMap.lookup_eq_none hk
      simp [hnone, memberRows_saveMember]
    have hb : (guid == k) = false := by simpa using hg
    rw [List.lookup_cons, hb]
    cases l.lookup guid <;> simp [memberRows_saveMember, hg]

theorem stats_foldl (hl : (l.map Prod.fst).Nodup) (guid slot : Nat) :
    (l.foldl (saveMember id type) db).characterArenaStats.find? (toLex (guid, slot)) =
      match l.lookup guid with
      | some m => if m.weekGames ≠ 0 ∧ slot = type.slot then some m.matchMakerRating
        else db.characterArenaStats.find? (toLex (guid, slot))
      | none => db.characterArenaStats.find? (toLex (guid, slot)) := by
  induction l generalizing db with
  | nil => rfl
  | cons e l ih =>
    obtain ⟨k, m⟩ := e
    obtain ⟨hk, hl⟩ := List.nodup_cons.1 hl
    rw [List.foldl_cons, ih hl]
    by_cases hg : guid = k
    · subst hg
      have hnone : l.lookup guid = none := OMap.lookup_eq_none hk
      simp [hnone, stats_saveMember]
    have hb : (guid == k) = false := by simpa using hg
    rw [List.lookup_cons, hb]
    cases l.lookup guid <;> simp [stats_saveMember, hg]

theorem arenaTeam_foldl (l : List (Nat × ArenaTeamMember)) (db : Tables) :
    (l.foldl (saveMember id type) db).arenaTeam = db.arenaTeam := by
  induction l generalizing db with
  | nil => rfl
  | cons e l ih =>
    rw [List.foldl_cons, ih]
    unfold saveMember
    split <;> rfl

variable (t db id)

theorem memberRows_saveToDB (id' guid : Nat) :
    ((t.saveToDB id db).memberRows id').find? guid =
      match t.members.find? guid with
      | some m => if m.weekGames ≠ 0 ∧ id' = id then ((db.memberRows id).find? guid).map fun _ => m.row
        else (db.memberRows id').find? guid
      | none => (db.memberRows id').find? guid := memberRows_foldl t.members.nodup_keys id' guid

theorem stats_saveToDB (guid slot : Nat) :
    (t.saveToDB id db).characterArenaStats.find? (toLex (guid, slot)) =
      match t.members.find? guid with
      | some m => if m.weekGames ≠ 0 ∧ slot = t.type.slot then some m.matchMakerRating
        else db.characterArenaStats.find? (toLex (guid, slot))
      | none => db.characterArenaStats.find? (toLex (guid, slot)) := stats_foldl t.members.nodup_keys guid slot

theorem arenaTeam_saveToDB (id' : Nat) :
    (t.saveToDB id db).arenaTeam.find? id' =
      if id' = id then (db.arenaTeam.find? id).map fun row => { row with stats := t.stats } else db.arenaTeam.find? id' := by
  rw [saveToDB, arenaTeam_foldl]
  cases hrow : db.arenaTeam.find? id with
  | none =>
    by_cases hid : id' = id
    · simp [hid, hrow]
    · simp [hid]
  | some row =>
    show (db.arenaTeam.insert id _).find? id' = _
    rw [OMap.find?_insert]
    rfl

end ArenaTeam

/-- After `SaveToDB` a team is what its rows say. -/
theorem Tracked.saveToDB (h : Tracked rules db id t) :
    Tracked rules (t.saveToDB id db) id t ∧ Saved rules (t.saveToDB id db) id t := by
  have hrow : (t.saveToDB id db).arenaTeam.find? id = some ⟨t.captainGuid, t.type, t.stats⟩ := by
    obtain ⟨stats, hrow⟩ := h.row
    rw [ArenaTeam.arenaTeam_saveToDB, if_pos rfl, hrow]
    rfl
  have hmembers : ∀ guid m, t.members.find? guid = some m → SavedMember rules (t.saveToDB id db) id t.type guid m := by
    intro guid m hm
    rw [SavedMember, ArenaTeam.memberRows_saveToDB, ArenaTeam.stats_saveToDB, hm]
    by_cases hweek : m.weekGames = 0
    · -- a member that is passed over is what his rows say
      have hsaved := (h.members guid m hm).resolve_right fun hne => hne hweek
      simp only [ne_eq, hweek, not_true_eq_false, false_and, if_false]
      exact hsaved
    obtain ⟨row, hfind⟩ := OMap.mem_keys.1 ((h.keys guid).2 (OMap.mem_keys.2 ⟨m, hm⟩))
    simp only [ne_eq, hweek, not_false_eq_true, and_self, if_true, hfind, Option.map_some, true_and]
    exact h.restorable guid m hm
  have hkeys : ∀ guid, guid ∈ ((t.saveToDB id db).memberRows id).keys ↔ guid ∈ t.members.keys := by
    intro guid
    rw [← h.keys, OMap.mem_keys, OMap.mem_keys, ArenaTeam.memberRows_saveToDB]
    cases t.members.find? guid with
    | none => rfl
    | some m =>
      dsimp only
      split
      next => cases (db.memberRows id).find? guid <;> simp
      next => rfl
  exact ⟨⟨⟨_, hrow⟩, h.captain, hkeys, h.named, h.restorable, fun guid m hm => .inl (hmembers guid m hm)⟩, hrow, hmembers⟩

/-- The rows of another team stay; one of its type has other members. -/
theorem SavedMember.saveToDB {type : ArenaType} {m : ArenaTeamMember} (h : SavedMember rules db id type guid m) (hne : id ≠ id')
    (hother : t.type = type → guid ∉ t.members.keys) : SavedMember rules (t.saveToDB id' db) id type guid m := by
  rw [SavedMember, ArenaTeam.memberRows_saveToDB, ArenaTeam.stats_saveToDB]
  cases hm : t.members.find? guid with
  | none => exact h
  | some q =>
    have htype : type.slot ≠ t.type.slot := fun he =>
      hother (ArenaType.slot_inj he).symm (OMap.mem_keys.2 ⟨q, hm⟩)
    simp only [hne, htype, and_false, if_false]
    exact h

theorem Tracked.saveOther (h : Tracked rules db id t) (hne : id ≠ id')
    (hother : a.type = t.type → ∀ guid ∈ t.members.keys, guid ∉ a.members.keys) : Tracked rules (a.saveToDB id' db) id t where
  row := by
    rw [ArenaTeam.arenaTeam_saveToDB, if_neg hne]
    exact h.row
  captain := h.captain
  keys guid := by
    rw [← h.keys, OMap.mem_keys, OMap.mem_keys, ArenaTeam.memberRows_saveToDB]
    cases a.members.find? guid <;> simp [hne]
  named := h.named
  restorable := h.restorable
  members guid m hm := (h.members guid m hm).imp_left fun hs =>
    hs.saveToDB hne fun htype => hother htype guid (OMap.mem_keys.2 ⟨m, hm⟩)

theorem Saved.saveOther (h : Saved rules db id t) (hne : id ≠ id')
    (hother : a.type = t.type → ∀ guid ∈ t.members.keys, guid ∉ a.members.keys) : Saved rules (a.saveToDB id' db) id t where
  row := by
    rw [ArenaTeam.arenaTeam_saveToDB, if_neg hne]
    exact h.row
  members guid m hm := (h.members guid m hm).saveToDB hne fun htype => hother htype guid (OMap.mem_keys.2 ⟨m, hm⟩)

/-! Playing -/

/-- What games do to a team: every member is as before, or has played this week. -/
structure Played (rules : Rules) (t t' : ArenaTeam) : Prop where
  captain : t'.captainGuid = t.captainGuid
  type : t'.type = t.type
  keys : t'.members.keys = t.members.keys
  members : ∀ guid m, t'.members.find? guid = some m →
    t.members.find? guid = some m ∨ m.weekGames ≠ 0 ∧ Restorable rules m.matchMakerRating

theorem Played.refl (t : ArenaTeam) : Played rules t t := ⟨rfl, rfl, rfl, fun _ _ h => .inl h⟩

theorem Played.trans {t'' : ArenaTeam} (h : Played rules t t') (h' : Played rules t' t'') : Played rules t t'' where
  captain := h'.captain.trans h.captain
  type := h'.type.trans h.type
  keys := h'.keys.trans h.keys
  members guid m hm := (h'.members guid m hm).elim (h.members guid m) .inr

theorem Tracked.played (h : Tracked rules db id t) (hp : Played rules t t') : Tracked rules db id t' where
  row := by
    obtain ⟨stats, hrow⟩ := h.row
    exact ⟨stats, by rw [hp.captain, hp.type, hrow]⟩
  captain := by rw [hp.captain, hp.keys]; exact h.captain
  keys guid := by rw [hp.keys]; exact h.keys guid
  named guid hg := h.named guid (hp.keys ▸ hg)
  restorable guid m hm := (hp.members guid m hm).elim (h.restorable guid m) And.right
  members guid m hm := by
    rw [hp.type]
    exact (hp.members guid m hm).elim (h.members guid m) fun hplayed => .inr hplayed.1

theorem played_stats (t : ArenaTeam) (stats : ArenaTeamStats) : Played rules t { t with stats := stats } :=
  ⟨rfl, rfl, rfl, fun _ _ h => .inl h⟩

theorem modifyRating_eq_zero {mod : Int} :
    modifyRating rating mod = 0 ↔ (rating.toNat : Int) + mod ≤ 0 ∨ ((rating.toNat : Int) + mod) % 65536 = 0 := by
  unfold modifyRating
  split
  next h =>
    simp only [true_iff]
    omega
  next h =>
  rw [← UInt16.toNat_inj, UInt16.toNat_ofNat']
  simp only [UInt16.toNat_zero]
  omega

theorem eq_of_add_one {games : UInt16} (h : games + 1 = 0) : games = 65535 := by
  have hnat := UInt16.toNat_inj.2 h
  have hlt := games.toNat_lt
  apply UInt16.toNat_inj.1
  simp only [UInt16.toNat_add, UInt16.toNat_one, UInt16.toNat_zero] at hnat
  show games.toNat = 65535
  omega

/-- One more game does not make a member one that has not played: the counter does not wrap, and the matchmaker rating
does not drop to 0, which is read back as the rating to start with. -/
def canPlay (rules : Rules) (t : ArenaTeam) (guid : Nat) (change : Int) : Bool :=
  match t.members.find? guid with
  | none => true
  | some m =>
    let rating := (m.matchMakerRating.toNat : Int) + change
    m.weekGames ≠ 65535 && (rules.startMatchmakerRating = 0 || 0 < rating && rating % 65536 ≠ 0)

variable {won : Bool} {against : Nat} {change : Int}

theorem played_memberPlayed (h : canPlay rules t guid change = true) :
    Played rules t (t.memberPlayed rules won guid against change) := by
  unfold ArenaTeam.memberPlayed
  unfold canPlay at h
  split
  next => exact .refl t
  next m hm =>
  rw [hm] at h
  simp only [ne_eq, decide_not, Bool.and_eq_true, Bool.not_eq_true', decide_eq_false_iff_not, Bool.or_eq_true,
    decide_eq_true_eq] at h
  have hrestorable : Restorable rules (modifyRating m.matchMakerRating change) := by
    rw [restorable_iff, ne_eq, modifyRating_eq_zero, not_or, not_le]
    exact h.2
  refine ⟨rfl, rfl, OMap.keys_insert (OMap.mem_keys.2 ⟨m, hm⟩) _, fun k q hq => ?_⟩
  rw [OMap.find?_insert] at hq
  split at hq
  next =>
    cases hq
    exact .inr ⟨fun hzero => h.1 (eq_of_add_one hzero), hrestorable⟩
  next => exact .inl hq

/-- Another member is not touched. -/
theorem find?_memberPlayed (hne : k ≠ guid) :
    (t.memberPlayed rules won guid against change).members.find? k = t.members.find? k := by
  unfold ArenaTeam.memberPlayed
  split
  next => rfl
  next => exact OMap.find?_insert_of_ne hne

theorem canPlay_memberPlayed {c : Int} (hne : k ≠ guid) :
    canPlay rules (t.memberPlayed rules won guid against change) k c = canPlay rules t k c := by
  rw [canPlay, canPlay, find?_memberPlayed hne]

namespace World

variable {w : World} {event : Event}

/-- A player moves the counters of the winner's team (`true`) or of the loser's. -/
def playsFor (draw winner : Bool) (player : MatchPlayer) : Bool :=
  player.presence ≠ .missing && (draw || player.winners = winner)

/-- Every participant of a match can play one more game, for the change of matchmaker ratings of his team. -/
def canFinish (rules : Rules) (draw : Bool) (winnerChange loserChange : Int) (players : List (Nat × MatchPlayer))
    (teams : ArenaTeam × ArenaTeam) : Bool :=
  players.all fun e =>
    (!playsFor draw true e.2 || canPlay rules teams.1 e.1 winnerChange) &&
      (!playsFor draw false e.2 || canPlay rules teams.2 e.1 loserChange)

/-- A step after which the rows of a team can still be made what the team is: no counter wraps and no matchmaker rating
drops to 0, no week is ended of a member that has played, and no restart comes between a leave and the next save. -/
def allowed (rules : Rules) (w : World) : Event → Bool
  | .endMatch winner loser draw winnerRating loserRating players =>
    match w.teams.find? winner, w.teams.find? loser with
    | some a, some b =>
      winner = loser || canFinish rules draw (if draw then 0 else rules.getMatchmakerRatingMod winnerRating loserRating true)
        (if draw then 0 else rules.getMatchmakerRatingMod loserRating winnerRating false) players.entries (a, b)
    | _, _ => true
  | .leaveMatch id other guid _ _ =>
    match w.teams.find? id, w.teams.find? other with
    | some t, some _ => id = other || canPlay rules t guid (-12)
    | _, _ => true
  | .leaveQueue id guid _ _ => (w.teams.find? id).all fun t => canPlay rules t guid (-12)
  | .distributeArenaPoints =>
    w.teams.entries.all fun e =>
      e.2.stats.weekGames = 0 || e.2.members.entries.all fun m => m.2.weekGames = 0 && m.2.weekWins = 0
  | .restart => w.unsaved.isEmpty

/-- A player is in one team of each type, as `AddMember` checks. -/
def OneTeamEach (teams : OMap Nat ArenaTeam) : Prop :=
  ∀ id id' t t' guid, teams.find? id = some t → teams.find? id' = some t' → t.type = t'.type →
    guid ∈ t.members.keys → guid ∈ t'.members.keys → id = id'

instance (teams : OMap Nat ArenaTeam) : Decidable (OneTeamEach teams) :=
  decidable_of_iff (∀ e ∈ teams.entries, ∀ e' ∈ teams.entries, e.2.type = e'.2.type → ∀ guid ∈ e.2.members.keys,
      guid ∈ e'.2.members.keys → e.1 = e'.1)
    ⟨fun h id id' t t' guid ht ht' htype hg hg' =>
        h (id, t) (OMap.mem_entries.2 ht) (id', t') (OMap.mem_entries.2 ht') htype guid hg hg',
      fun h e he e' he' htype guid hg hg' =>
        h e.1 e'.1 e.2 e'.2 guid (OMap.mem_entries.1 he) (OMap.mem_entries.1 he') htype hg hg'⟩

/-- Every team is in the tables, and what its rows say unless a member has left a match. -/
structure Sound (rules : Rules) (w : World) : Prop where
  rows : ∀ id, id ∈ w.db.arenaTeam.keys → id ∈ w.teams.keys
  tracked : ∀ id t, w.teams.find? id = some t → Tracked rules w.db id t
  saved : ∀ id t, w.teams.find? id = some t → id ∉ w.unsaved → Saved rules w.db id t
  disjoint : OneTeamEach w.teams

namespace Sound

/-- A team plays; until it is saved, it is among the unsaved. -/
theorem played (h : w.Sound rules) (ht : w.teams.find? id = some t) (hp : Played rules t t') :
    Sound rules { w with teams := w.teams.insert id t', unsaved := id :: w.unsaved } where
  rows k hk := OMap.mem_keys_insert.2 (.inr (h.rows k hk))
  tracked k u hu := by
    have hu : (w.teams.insert id t').find? k = some u := hu
    rw [OMap.find?_insert] at hu
    split at hu
    next heq =>
      cases hu
      subst heq
      exact (h.tracked k t ht).played hp
    next => exact h.tracked k u hu
  saved k u hu hk := by
    obtain ⟨hne, hk⟩ := not_or.1 (mt List.mem_cons.2 hk)
    have hu : (w.teams.insert id t').find? k = some u := hu
    rw [OMap.find?_insert_of_ne hne] at hu
    exact h.saved k u hu hk
  disjoint k k' u u' guid hu hu' htype hg hg' := by
    -- a team has the type and the members it had
    have hold : ∀ k u, (w.teams.insert id t').find? k = some u →
        ∃ v, w.teams.find? k = some v ∧ u.type = v.type ∧ u.members.keys = v.members.keys := by
      intro k u hu
      rw [OMap.find?_insert] at hu
      split at hu
      next heq =>
        cases hu
        exact ⟨t, heq ▸ ht, hp.type, hp.keys⟩
      next => exact ⟨u, hu, rfl, rfl⟩
    obtain ⟨v, hv, hvt, hvk⟩ := hold k u hu
    obtain ⟨v', hv', hvt', hvk'⟩ := hold k' u' hu'
    exact h.disjoint k k' v v' guid hv hv' (by rw [← hvt, ← hvt', htype]) (hvk ▸ hg) (hvk' ▸ hg')

/-- A saved team is no longer among the unsaved. -/
theorem save (h : w.Sound rules) (id : Nat) : (w.save id).Sound rules := by
  unfold World.save
  split
  next t ht =>
    have hother : ∀ k u, w.teams.find? k = some u → k ≠ id → t.type = u.type → ∀ guid ∈ u.members.keys,
        guid ∉ t.members.keys := fun k u hu hne htype guid hg hg' => hne (h.disjoint k id u t guid hu ht htype.symm hg hg')
    obtain ⟨htracked, hsaved⟩ := (h.tracked id t ht).saveToDB
    refine ⟨fun k hk => h.rows k ?_, fun k u hu => ?_, fun k u hu hk => ?_, h.disjoint⟩
    · rw [OMap.mem_keys] at hk ⊢
      rw [ArenaTeam.arenaTeam_saveToDB] at hk
      split at hk
      next heq =>
        obtain ⟨row, hrow⟩ := hk
        obtain ⟨old, hold, -⟩ := Option.map_eq_some_iff.1 hrow
        exact ⟨old, heq ▸ hold⟩
      next => exact hk
    · by_cases hk : k = id
      · subst hk
        cases ht.symm.trans hu
        exact htracked
      · exact (h.tracked k u hu).saveOther hk (hother k u hu hk)
    · by_cases hid : k = id
      · subst hid
        cases ht.symm.trans hu
        exact hsaved
      · have hunsaved : k ∉ w.unsaved := fun hmem => hk (List.mem_filter.2 ⟨hmem, by simpa using hid⟩)
        exact (h.saved k u hu hunsaved).saveOther hid (hother k u hu hid)
  next => exact h

/-- It does no harm to take a team for unsaved. -/
theorem mono {unsaved : List Nat} (h : w.Sound rules) (hsub : ∀ id ∈ w.unsaved, id ∈ unsaved) :
    Sound rules { w with unsaved := unsaved } where
  rows := h.rows
  tracked := h.tracked
  saved id t ht hid := h.saved id t ht fun hmem => hid (hsub id hmem)
  disjoint := h.disjoint

end Sound

/-! Loading all teams -/

theorem find?_load (h : w.Sound rules) (hsaved : w.unsaved = []) : (loadArenaTeams rules w.db).1 = w.teams := by
  refine OMap.ext fun id => ?_
  show (w.db.arenaTeam.filterMap (loadArenaTeam rules w.db)).find? id = _
  rw [OMap.find?_filterMap]
  cases ht : w.teams.find? id with
  | none =>
    have hnone : w.db.arenaTeam.find? id = none :=
      OMap.find?_eq_none.2 fun hk => OMap.find?_eq_none.1 ht (h.rows id hk)
    rw [hnone]
    rfl
  | some t =>
    have hs := h.saved id t ht (by simp [hsaved])
    rw [hs.row]
    exact loadArenaTeam_saved (h.tracked id t ht) hs

theorem memberRows_load (h : (loadArenaTeams rules db).1.find? id = some t) :
    (loadArenaTeams rules db).2.memberRows id = (db.memberRows id).filter rules.hasName := by
  have hload : (db.arenaTeam.filterMap (loadArenaTeam rules db)).find? id = some t := h
  have hfind : (loadArenaTeams rules db).2.arenaTeamMember.find? id =
      (db.arenaTeamMember.find? id).map fun rows => rows.filter rules.hasName := by
    simp [loadArenaTeams, OMap.find?_mapValues, OMap.find?_filter, hload]
  rw [Tables.memberRows, hfind, Tables.memberRows]
  cases db.arenaTeamMember.find? id <;> rfl

/-- The teams that are loaded are what is left in the tables. -/
theorem sound_load (hone : OneTeamEach (loadArenaTeams rules db).1) (distributed : List (OMap Nat Nat)) :
    Sound rules { teams := (loadArenaTeams rules db).1, db := (loadArenaTeams rules db).2, unsaved := []
                  distributed := distributed } := by
  have hrow : ∀ id t, (loadArenaTeams rules db).1.find? id = some t →
      (loadArenaTeams rules db).2.arenaTeam.find? id = some ⟨t.captainGuid, t.type, t.stats⟩ := by
    intro id t ht
    have hfind : (db.arenaTeam.filterMap (loadArenaTeam rules db)).find? id = some t := ht
    rw [OMap.find?_filterMap] at hfind
    obtain ⟨row, hrow, hload⟩ := Option.bind_eq_some_iff.1 hfind
    obtain ⟨hcaptain, htype, hstats, -⟩ := loadArenaTeam_eq hload
    show (db.arenaTeam.filter fun k => ((loadArenaTeams rules db).1.find? k).isSome).find? id = _
    rw [OMap.find?_filter, ht, hrow, hcaptain, htype, hstats]
    rfl
  have hloaded : ∀ id t, (loadArenaTeams rules db).1.find? id = some t →
      t.captainGuid ∈ t.members.keys ∧ t.members = loadMembers rules db id t.type := by
    intro id t ht
    have hfind : (db.arenaTeam.filterMap (loadArenaTeam rules db)).find? id = some t := ht
    rw [OMap.find?_filterMap] at hfind
    obtain ⟨row, -, hload⟩ := Option.bind_eq_some_iff.1 hfind
    exact (loadArenaTeam_eq hload).2.2.2
  have hmember : ∀ id t guid m, (loadArenaTeams rules db).1.find? id = some t → t.members.find? guid = some m →
      rules.hasName guid = true ∧ Restorable rules m.matchMakerRating ∧
        SavedMember rules (loadArenaTeams rules db).2 id t.type guid m := by
    intro id t guid m ht hm
    rw [(hloaded id t ht).2, find?_loadMembers] at hm
    split at hm
    next hname =>
      obtain ⟨row, hrow, heq⟩ := Option.map_eq_some_iff.1 hm
      subst heq
      refine ⟨hname, restorable_loadRating _, ?_, rfl⟩
      rw [memberRows_load ht, OMap.find?_filter, if_pos hname, hrow]
      rfl
    next => cases hm
  refine ⟨fun id hid => ?_, fun id t ht => ?_, fun id t ht _ => ⟨hrow id t ht, fun guid m hm => ?_⟩, hone⟩
  · obtain ⟨hsome, -⟩ := OMap.mem_keys_filter.1 hid
    exact OMap.mem_keys.2 (Option.isSome_iff_exists.1 hsome)
  · refine ⟨⟨_, hrow id t ht⟩, (hloaded id t ht).1, fun guid => ?_, fun guid hguid => ?_, fun guid m hm => ?_,
      fun guid m hm => ?_⟩
    · rw [memberRows_load ht, OMap.mem_keys_filter, (hloaded id t ht).2, OMap.mem_keys, OMap.mem_keys, find?_loadMembers]
      by_cases hname : rules.hasName guid = true
      · simp [hname]
      · simp [hname]
    · obtain ⟨m, hm⟩ := OMap.mem_keys.1 hguid
      exact (hmember id t guid m ht hm).1
    · exact (hmember id t guid m ht hm).2.1
    · exact .inl (hmember id t guid m ht hm).2.2
  · exact (hmember id t guid m ht hm).2.2

/-! The steps -/

theorem save_eq (ht : w.teams.find? id = some t) :
    w.save id = { w with db := t.saveToDB id w.db, unsaved := w.unsaved.filter (· ≠ id) } := by
  unfold save
  rw [ht]

theorem teams_save (w : World) (id : Nat) : (w.save id).teams = w.teams := by
  unfold save
  split <;> rfl

/-- A team that plays and is saved at once. -/
theorem sound_save (h : w.Sound rules) (ht : w.teams.find? id = some t) (hp : Played rules t t') :
    (save { w with teams := w.teams.insert id t' } id).Sound rules := by
  have hsaved := (h.played ht hp).save id
  rw [save_eq (OMap.find?_insert_self ..)] at hsaved ⊢
  refine hsaved.mono fun k hk => ?_
  simpa using hk

theorem sound_saveBoth {a' b' : ArenaTeam} (h : w.Sound rules) (ha : w.teams.find? id = some a) (hb : w.teams.find? id' = some b)
    (hne : id ≠ id') (hpa : Played rules a a') (hpb : Played rules b b') :
    ((save { w with teams := (w.teams.insert id a').insert id' b' } id).save id').Sound rules := by
  have hb' : (w.teams.insert id a').find? id' = some b := by rw [OMap.find?_insert_of_ne (Ne.symm hne), hb]
  have hfind : ((w.teams.insert id a').insert id' b').find? id = some a' := by
    rw [OMap.find?_insert_of_ne hne, OMap.find?_insert_self]
  have hsaved := (((h.played ha hpa).played hb' hpb).save id).save id'
  have hfind' : ((w.teams.insert id a').insert id' b').find? id' = some b' := OMap.find?_insert_self ..
  rw [save_eq (t := b') (by rw [teams_save]; exact hfind'), save_eq hfind] at hsaved ⊢
  refine hsaved.mono fun k hk => ?_
  simp only [List.mem_filter, List.mem_cons, ne_eq, decide_not, Bool.not_eq_true', decide_eq_false_iff_not] at hk ⊢
  tauto

theorem sound_finishWeek (h : w.Sound rules) (hrested : ∀ t, w.teams.find? id = some t → t.stats.weekGames ≠ 0 →
    ∀ guid m, t.members.find? guid = some m → m.weekGames = 0 ∧ m.weekWins = 0) : (w.finishWeek id).Sound rules := by
  unfold finishWeek
  split
  next t ht =>
    unfold ArenaTeam.finishWeek
    by_cases hweek : t.stats.weekGames = 0
    · simpa [hweek] using h
    have hmembers : (t.members.mapValues fun _ m => { m with weekGames := 0, weekWins := 0 }) = t.members := by
      refine OMap.ext fun guid => ?_
      rw [OMap.find?_mapValues]
      cases hm : t.members.find? guid with
      | none => rfl
      | some m =>
        obtain ⟨hgames, hwins⟩ := hrested t ht hweek guid m hm
        cases m
        cases hgames
        cases hwins
        rfl
    rw [if_neg hweek, hmembers]
    exact sound_save h ht (played_stats t _)
  next => exact h

/-- No team that has played has a member that has played. -/
def Rested (w : World) : Prop :=
  ∀ id t, w.teams.find? id = some t → t.stats.weekGames ≠ 0 →
    ∀ guid m, t.members.find? guid = some m → m.weekGames = 0 ∧ m.weekWins = 0

theorem rested_finishWeek (h : w.Rested) (id : Nat) : (w.finishWeek id).Rested := by
  unfold finishWeek
  split
  next t ht =>
    unfold ArenaTeam.finishWeek
    by_cases hweek : t.stats.weekGames = 0
    · simpa [hweek] using h
    rw [if_neg hweek]
    intro k u hu hne
    simp only [if_true, teams_save, OMap.find?_insert] at hu
    split at hu
    next =>
      cases hu
      exact absurd rfl hne
    next => exact h k u hu hne
  next => exact h

theorem sound_finishWeeks (l : List Nat) (h : w.Sound rules) (hrested : w.Rested) : (l.foldl finishWeek w).Sound rules := by
  induction l generalizing w with
  | nil => exact h
  | cons id l ih => exact ih (sound_finishWeek h fun t ht => hrested id t ht) (rested_finishWeek hrested id)

theorem sound_leaveMatch {other otherRating : Nat} {online : Bool} (h : w.Sound rules)
    (hok : w.allowed rules (.leaveMatch id other guid otherRating online) = true) :
    (w.leaveMatch rules id other guid otherRating online).Sound rules := by
  unfold leaveMatch
  split
  next t u ht hu =>
    simp only [allowed, ht, hu] at hok
    split
    next => exact h
    next hne =>
    have hplay : canPlay rules t guid (-12) = true := by simpa [hne] using hok
    cases online
    · exact h.played ht (played_memberPlayed hplay)
    · exact h.played ht (played_memberPlayed hplay)
  next => exact h

theorem sound_leaveQueue {opponentsRating : Nat} {online : Bool} (h : w.Sound rules)
    (hok : w.allowed rules (.leaveQueue id guid opponentsRating online) = true) :
    (w.leaveQueue rules id guid opponentsRating online).Sound rules := by
  unfold leaveQueue
  split
  next t ht =>
    have hplay : canPlay rules t guid (-12) = true := by simpa [allowed, ht] using hok
    cases online
    · exact sound_save h ht (played_memberPlayed hplay)
    · exact sound_save h ht (played_memberPlayed hplay)
  next => exact h

/-! A match -/

section Match

variable {draw : Bool} {winnerRating loserRating : Nat} {winnerChange loserChange : Int}
  {players : List (Nat × MatchPlayer)} {teams : ArenaTeam × ArenaTeam}

/-- What a participant does to a team is one game, or nothing. -/
theorem finishPlayer_cases (rules : Rules) (draw : Bool) (winnerRating loserRating : Nat) (winnerChange loserChange : Int)
    (teams : ArenaTeam × ArenaTeam) (e : Nat × MatchPlayer) :
    ∃ won won' against against',
      finishPlayer rules draw winnerRating loserRating winnerChange loserChange teams e =
        (if playsFor draw true e.2 then teams.1.memberPlayed rules won e.1 against winnerChange else teams.1,
          if playsFor draw false e.2 then teams.2.memberPlayed rules won' e.1 against' loserChange else teams.2) := by
  obtain ⟨guid, winners, presence⟩ := e
  cases presence <;> cases draw <;> cases winners
  all_goals first
    | exact ⟨true, false, loserRating, winnerRating, rfl⟩
    | exact ⟨false, false, loserRating, winnerRating, rfl⟩

/-- A participant moves no counter of another one. -/
theorem canFinish_finishPlayer {e : Nat × MatchPlayer} (hne : e.1 ∉ players.map Prod.fst)
    (h : canFinish rules draw winnerChange loserChange players teams = true) :
    canFinish rules draw winnerChange loserChange players
      (finishPlayer rules draw winnerRating loserRating winnerChange loserChange teams e) = true := by
  obtain ⟨won, won', against, against', heq⟩ :=
    finishPlayer_cases rules draw winnerRating loserRating winnerChange loserChange teams e
  rw [heq]
  rw [canFinish, List.all_eq_true] at h ⊢
  intro p hp
  have hother : p.1 ≠ e.1 := fun he => hne (he ▸ List.mem_map_of_mem hp)
  have hold := h p hp
  split <;> split <;> simpa only [canPlay_memberPlayed hother] using hold

theorem played_players (hnodup : (players.map Prod.fst).Nodup)
    (h : canFinish rules draw winnerChange loserChange players teams = true) :
    Played rules teams.1 (players.foldl (finishPlayer rules draw winnerRating loserRating winnerChange loserChange) teams).1 ∧
      Played rules teams.2
        (players.foldl (finishPlayer rules draw winnerRating loserRating winnerChange loserChange) teams).2 := by
  induction players generalizing teams with
  | nil => exact ⟨.refl _, .refl _⟩
  | cons e players ih =>
    obtain ⟨hnot, hnodup⟩ := List.nodup_cons.1 hnodup
    rw [canFinish, List.all_cons, Bool.and_eq_true] at h
    obtain ⟨hhead, htail⟩ := h
    obtain ⟨hfirst, hsecond⟩ := ih hnodup (canFinish_finishPlayer hnot htail)
    rw [List.foldl_cons]
    obtain ⟨won, won', against, against', heq⟩ :=
      finishPlayer_cases rules draw winnerRating loserRating winnerChange loserChange teams e
    rw [Bool.and_eq_true] at hhead
    refine ⟨.trans ?_ hfirst, .trans ?_ hsecond⟩
    · rw [heq]
      dsimp only
      split
      next hplays => exact played_memberPlayed (by simpa [hplays] using hhead.1)
      next => exact .refl _
    · rw [heq]
      dsimp only
      split
      next hplays => exact played_memberPlayed (by simpa [hplays] using hhead.2)
      next => exact .refl _

/-- What a match does to the stats of the two teams is no matter of their members. -/
theorem finishTeams_cases (w : World) (rules : Rules) (draw : Bool) (winnerRating loserRating winner : Nat) (a b : ArenaTeam) :
    ∃ stats stats', w.finishTeams rules winner a b draw winnerRating loserRating =
      (({ a with stats := stats }, if draw then 0 else rules.getMatchmakerRatingMod winnerRating loserRating true),
        ({ b with stats := stats' }, if draw then 0 else rules.getMatchmakerRatingMod loserRating winnerRating false)) := by
  cases draw
  · exact ⟨_, _, rfl⟩
  · exact ⟨_, _, rfl⟩

theorem sound_endMatch {winner loser : Nat} {players : OMap Nat MatchPlayer} (h : w.Sound rules)
    (hok : w.allowed rules (.endMatch winner loser draw winnerRating loserRating players) = true) :
    (w.endMatch rules winner loser draw winnerRating loserRating players).Sound rules := by
  unfold endMatch
  split
  next a b ha hb =>
    simp only [allowed, ha, hb] at hok
    split
    next => exact h
    next hne =>
    obtain ⟨stats, stats', heq⟩ := w.finishTeams_cases rules draw winnerRating loserRating winner a b
    rw [heq]
    dsimp only
    rw [decide_eq_false hne, Bool.false_or] at hok
    have hfinish : canFinish rules draw _ _ players.entries ({ a with stats := stats }, { b with stats := stats' }) = true := hok
    obtain ⟨ha', hb'⟩ := played_players players.nodup_keys hfinish
    exact sound_saveBoth h ha hb hne ((played_stats a stats).trans ha') ((played_stats b stats').trans hb')
  next => exact h

end Match

/-! Runs -/

theorem sound_distribute (h : w.Sound rules) (hok : w.allowed rules .distributeArenaPoints = true) :
    (w.distributeArenaPoints rules).Sound rules := by
  have hrested : w.Rested := by
    intro id t ht hweek guid m hm
    have hteam := List.all_eq_true.1 hok (id, t) (OMap.mem_entries.2 ht)
    have hmember : (t.members.entries.all fun m => m.2.weekGames = 0 && m.2.weekWins = 0) = true := by
      simpa [hweek] using hteam
    simpa using List.all_eq_true.1 hmember (guid, m) (OMap.mem_entries.2 hm)
  exact sound_finishWeeks _ ⟨h.rows, h.tracked, h.saved, h.disjoint⟩ hrested

theorem sound_handle (h : w.Sound rules) (hok : w.allowed rules event = true) : (w.handle rules event).Sound rules := by
  cases event with
  | endMatch winner loser draw winnerRating loserRating players => exact sound_endMatch h hok
  | leaveMatch id other guid otherRating online => exact sound_leaveMatch h hok
  | leaveQueue id guid opponentsRating online => exact sound_leaveQueue h hok
  | distributeArenaPoints => exact sound_distribute h hok
  | restart =>
    have hload := find?_load h (List.isEmpty_iff.1 hok)
    exact sound_load (by rw [hload]; exact h.disjoint) _

/-- Two teams of two, and ratings that move by 12. -/
def ladderRules : Rules where
  getMatchmakerRatingMod _ _ won := if won then 12 else -12
  getRatingMod _ _ won := if won then 12 else -12
  points _ rating := rating
  requiredGames weekGames := (3 * weekGames.toNat + 9) / 10
  startMatchmakerRating := 1500
  hasName _ := true

def ladder : Tables :=
  let row : MemberRow := { weekGames := 0, weekWins := 0, seasonGames := 5, seasonWins := 2, personalRating := 1000 }
  let stats : ArenaTeamStats :=
    { rating := 1200, weekGames := 0, weekWins := 0, seasonGames := 5, seasonWins := 2, rank := 1 }
  { arenaTeam := (OMap.empty.insert 1 ⟨10, .arena2v2, stats⟩).insert 2 ⟨20, .arena2v2, stats⟩
    arenaTeamMember := (OMap.empty.insert 1 ((OMap.empty.insert 10 row).insert 11 row)).insert 2
      ((OMap.empty.insert 20 row).insert 21 row)
    characterArenaStats := .empty }

/-- The captains play a match, the team of 10 wins. -/
def ladderMatch : Event :=
  .endMatch 1 2 false 1500 1500 ((OMap.empty.insert 10 ⟨true, .online⟩).insert 20 ⟨false, .online⟩)

end World

end AtlasWow.Arena
