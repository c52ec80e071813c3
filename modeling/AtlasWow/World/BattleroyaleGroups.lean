/-
The groups of a game. Somebody who is alive in a group is listed, and a group
is there as long as somebody in it is alive (`Books`). Those who go are off
the list and alive nowhere, and the groups left without anybody go with them
(`Gone`): so it is with a death in the group a player has joined with, and
with a group that leaves the queue as a whole. The end of a game takes
everybody off the list and leaves the last group in.
-/
import AtlasWow.World.BattleroyaleKills

namespace AtlasWow.Battleroyale

variable {areas : Areas} {near : ObjectGuid → Bool} {b b' : Battleroyale} {game game' : Game} {player : ObjectGuid} {id : Nat}
  {P : ObjectGuid → Prop}

def Alive (game : Game) (g : Nat) (player : ObjectGuid) : Prop :=
  ∃ members, game.groups.find? g = some members ∧ ⟨player, true⟩ ∈ members

deriving instance DecidableEq for GroupMember

instance (game : Game) (g : Nat) (player : ObjectGuid) : Decidable (Alive game g player) :=
  decidable_of_iff (∃ members ∈ game.groups.find? g, ⟨player, true⟩ ∈ members) Iff.rfl

structure Books (game : Game) : Prop where
  nodup : ∀ g members, game.groups.find? g = some members → (members.map (·.guid)).Nodup
  living : ∀ g ∈ game.groups.keys, ∃ p, Alive game g p
  listed : ∀ g p, Alive game g p → p ∈ game.playersGuid
  covered : ∀ p ∈ game.playersGuid, ∃ g, Alive game g p
  begun : game.isStarted = true → game.groups.keys ≠ []

/-- Some players go. -/
structure Gone (P : ObjectGuid → Prop) (game game' : Game) : Prop where
  sub : Sub game'.groups game.groups
  keys : ∀ g ∈ game'.groups.keys, ∃ p, Alive game' g p
  alive : ∀ g p, Alive game' g p ↔ Alive game g p ∧ ¬P p
  playersGuid : ∀ p, p ∈ game'.playersGuid ↔ p ∈ game.playersGuid ∧ ¬P p

variable {g : Nat}

theorem Alive.mem_keys (h : Alive game g player) : g ∈ game.groups.keys := by
  obtain ⟨members, hg, -⟩ := h
  exact OMap.mem_keys.2 ⟨members, hg⟩

theorem forall_alive {Q : Nat → ObjectGuid → Prop} : (∀ e ∈ game.groups.entries, ∀ member ∈ e.2, member.isAlive = true →
    Q e.1 member.guid) ↔ ∀ g p, Alive game g p → Q g p := by
  constructor
  · intro h g p hp
    obtain ⟨members, hg, hm⟩ := hp
    exact h (g, members) (OMap.mem_entries.2 hg) _ hm rfl
  · intro h e he member hm halive
    refine h e.1 member.guid ⟨e.2, OMap.mem_entries.1 he, ?_⟩
    rwa [← halive]

theorem alive_congr (h : game'.groups = game.groups) (g : Nat) (p : ObjectGuid) : Alive game' g p ↔ Alive game g p := by
  unfold Alive
  rw [h]

theorem Gone.books (hg : Gone P game game') (h : Books game) (hbegun : game'.isStarted = true → game'.groups.keys ≠ []) :
    Books game' where
  nodup g members hm := by
    obtain ⟨members', hm', he⟩ := hg.sub g members hm
    exact he ▸ h.nodup g members' hm'
  living := hg.keys
  listed g p hp := by
    obtain ⟨hp, hstays⟩ := (hg.alive g p).1 hp
    exact (hg.playersGuid p).2 ⟨h.listed g p hp, hstays⟩
  covered p hp := by
    obtain ⟨hp, hstays⟩ := (hg.playersGuid p).1 hp
    obtain ⟨g, halive⟩ := h.covered p hp
    exact ⟨g, (hg.alive g p).2 ⟨halive, hstays⟩⟩
  begun := hbegun

/-- A group goes with the last of it who is alive. -/
theorem Gone.removed (hg : Gone P game game') (h : Books game) (g : Nat) :
    g ∉ game'.groups.keys ↔ ∀ p, Alive game g p → p ∉ game'.playersGuid := by
  constructor
  · intro hnot p hp hl
    have hstays : ¬P p := ((hg.playersGuid p).1 hl).2
    exact hnot ((hg.alive g p).2 ⟨hp, hstays⟩).mem_keys
  · intro hall hk
    obtain ⟨p, hp⟩ := hg.keys g hk
    obtain ⟨hp, hstays⟩ := (hg.alive g p).1 hp
    exact hall p hp ((hg.playersGuid p).2 ⟨h.listed g p hp, hstays⟩)

/-! ## Deaths -/

theorem mem_setDead {members : List GroupMember} (h : (members.map (·.guid)).Nodup) (p : ObjectGuid) :
    ⟨p, true⟩ ∈ setDead player members ↔ ⟨p, true⟩ ∈ members ∧ p ≠ player := by
  induction members with
  | nil => exact ⟨fun hm => (nomatch hm), fun hm => (nomatch hm.1)⟩
  | cons member members ih =>
    obtain ⟨hnot, hnodup⟩ := List.nodup_cons.1 h
    unfold setDead
    split
    next he =>
      have hrest : (⟨p, true⟩ : GroupMember) ∈ members → p ≠ player := fun hm hp =>
        hnot (List.mem_map.2 ⟨_, hm, hp.trans he.symm⟩)
      rw [List.mem_cons, List.mem_cons]
      constructor
      · rintro (hm | hm)
        · exact absurd (congrArg GroupMember.isAlive hm) Bool.noConfusion
        · exact ⟨.inr hm, hrest hm⟩
      · rintro ⟨rfl | hm, hp⟩
        · exact absurd he hp
        · exact .inr hm
    next hne =>
    rw [List.mem_cons, List.mem_cons, ih hnodup]
    constructor
    · rintro (rfl | ⟨hm, hp⟩)
      · exact ⟨.inl rfl, hne⟩
      · exact ⟨.inr hm, hp⟩
    · rintro ⟨hm | hm, hp⟩
      · exact .inl hm
      · exact .inr ⟨hm, hp⟩

theorem getGroupMemberAlive_eq_zero : getGroupMemberAlive game g = 0 ↔ ∀ p, ¬Alive game g p := by
  unfold getGroupMemberAlive
  rw [List.countP_eq_zero]
  constructor
  · intro hnone p hp
    obtain ⟨members, hg, hm⟩ := hp
    rw [hg] at hnone
    exact hnone _ hm rfl
  · intro hnone member hm halive
    cases hg : game.groups.find? g with
    | none =>
      rw [hg] at hm
      cases hm
    | some members =>
      rw [hg] at hm
      refine hnone member.guid ⟨members, hg, ?_⟩
      rwa [← halive]

theorem mem_erasePlayer (player : ObjectGuid) (game : Game) (p : ObjectGuid) :
    p ∈ (erasePlayer player game).playersGuid ↔ p ∈ game.playersGuid ∧ ¬p = player := by
  unfold erasePlayer
  rw [List.mem_filter, decide_eq_true_eq]

theorem alive_erase {groups : OMap Nat (List GroupMember)} (hgame : game'.groups = groups.erase g)
    (hgroups : game.groups = groups) (g' : Nat) (p : ObjectGuid) : Alive game' g' p ↔ Alive game g' p ∧ g' ≠ g := by
  unfold Alive
  rw [hgame, hgroups, OMap.find?_erase]
  by_cases he : g' = g
  · rw [if_pos he]
    exact ⟨fun ⟨_, hm, _⟩ => (nomatch hm), fun h => absurd he h.2⟩
  · rw [if_neg he]
    exact ⟨fun h => ⟨h, he⟩, fun h => h.1⟩

/-- The record after a death in a group. -/
def lost (player : ObjectGuid) (g : Nat) (game : Game) : Game :=
  let game := dieInGroup player g (erasePlayer player game)
  if getGroupMemberAlive game g = 0 then { game with groups := game.groups.erase g } else game

/-- A player dies in the group he is alive in. -/
theorem alive_dieInGroup (h : Books game) (halone : ∀ g', Alive game g' player → g' = g) (g' : Nat) (p : ObjectGuid) :
    Alive (dieInGroup player g (erasePlayer player game)) g' p ↔ Alive game g' p ∧ ¬p = player := by
  have hother : g' ≠ g → (Alive game g' p ↔ Alive game g' p ∧ ¬p = player) := fun hne =>
    ⟨fun hp => ⟨hp, fun he => hne (halone g' (he ▸ hp))⟩, fun hp => hp.1⟩
  unfold dieInGroup
  split
  next hnone =>
    by_cases he : g' = g
    · have hnot : ¬Alive game g' p := fun ⟨members, hm, _⟩ => by
        rw [he] at hm
        cases hnone.symm.trans hm
      exact ⟨fun hp => absurd hp hnot, fun hp => absurd hp.1 hnot⟩
    · exact hother he
  next members hmembers =>
  have hg : game.groups.find? g = some members := hmembers
  by_cases he : g' = g
  · rw [he]
    unfold Alive
    rw [OMap.find?_insert_self, hg]
    constructor
    · rintro ⟨members', hm, hp⟩
      cases hm
      obtain ⟨hp, hne⟩ := (mem_setDead (h.nodup g members hg) p).1 hp
      exact ⟨⟨members, rfl, hp⟩, hne⟩
    · rintro ⟨⟨members', hm, hp⟩, hne⟩
      cases hm
      exact ⟨_, rfl, (mem_setDead (h.nodup g members hg) p).2 ⟨hp, hne⟩⟩
  · rw [← hother he]
    unfold Alive
    rw [OMap.find?_insert_of_ne he]
    rfl

theorem dieInGroup_playersGuid (player : ObjectGuid) (g : Nat) (game : Game) :
    (dieInGroup player g game).playersGuid = game.playersGuid := by
  unfold dieInGroup
  split <;> rfl

theorem sub_dieInGroup (player : ObjectGuid) (g : Nat) (game : Game) : Sub (dieInGroup player g game).groups game.groups := by
  unfold dieInGroup
  split
  · exact .refl _
  next members hmembers => exact sub_insert_setDead hmembers player

theorem gone_lost (h : Books game) (halone : ∀ g', Alive game g' player → g' = g) :
    Gone (· = player) game (lost player g game) := by
  obtain ⟨dead, hdead⟩ : ∃ dead, dead = dieInGroup player g (erasePlayer player game) := ⟨_, rfl⟩
  have halive : ∀ g' p, Alive dead g' p ↔ Alive game g' p ∧ ¬p = player := hdead ▸ alive_dieInGroup h halone
  have hlist : ∀ p, p ∈ dead.playersGuid ↔ p ∈ game.playersGuid ∧ ¬p = player := fun p => by
    rw [hdead, dieInGroup_playersGuid]
    exact mem_erasePlayer player game p
  have hsub : Sub dead.groups game.groups := hdead ▸ sub_dieInGroup player g (erasePlayer player game)
  -- the other groups have somebody alive, who is not the player
  have hliving : ∀ g' ∈ dead.groups.keys, g' ≠ g → ∃ p, Alive dead g' p := fun g' hk hne => by
    obtain ⟨members, hm⟩ := OMap.mem_keys.1 hk
    obtain ⟨members', hm', -⟩ := hsub g' members hm
    obtain ⟨p, hp⟩ := h.living g' (OMap.mem_keys.2 ⟨members', hm'⟩)
    exact ⟨p, (halive g' p).2 ⟨hp, fun he => hne (halone g' (he ▸ hp))⟩⟩
  unfold lost
  rw [← hdead]
  dsimp only
  split
  next hzero =>
    have hnobody := getGroupMemberAlive_eq_zero.1 hzero
    have herase := alive_erase (rfl : ({ dead with groups := dead.groups.erase g } : Game).groups = dead.groups.erase g) rfl
    refine ⟨(sub_erase _ g).trans hsub, fun g' hk => ?_, fun g' p => ?_, hlist⟩
    · obtain ⟨members, hm⟩ := OMap.mem_keys.1 hk
      rw [OMap.find?_erase] at hm
      split at hm
      next => cases hm
      next hne =>
      obtain ⟨p, hp⟩ := hliving g' (OMap.mem_keys.2 ⟨members, hm⟩) hne
      exact ⟨p, (herase g' p).2 ⟨hp, hne⟩⟩
    · rw [herase, ← halive]
      exact ⟨fun hp => hp.1, fun hp => ⟨hp, fun he => hnobody p (he ▸ hp)⟩⟩
  next hsome =>
  refine ⟨hsub, fun g' hk => ?_, halive, hlist⟩
  by_cases he : g' = g
  · by_contra hnobody
    exact hsome (getGroupMemberAlive_eq_zero.2 fun p hp => hnobody ⟨p, he ▸ hp⟩)
  · exact hliving g' hk he

/-- A player who is in no group dies in all of them. -/
theorem gone_dieInGroups (h : Books game) (hcategory : SOLO < game.category)
    (hd : dieInGroups player (erasePlayer player game) = some game') : Gone (· = player) game game' := by
  have hcategory : SOLO < (erasePlayer player game).category := hcategory
  unfold dieInGroups at hd
  rw [if_pos hcategory] at hd
  split at hd
  next => cases hd
  next hnone =>
  have hgroups : game'.groups = game.groups.mapValues fun _ members => setDead player members := by
    cases hd
    rfl
  have hplayers : game'.playersGuid = (erasePlayer player game).playersGuid := by
    cases hd
    rfl
  have halive : ∀ g p, Alive game' g p ↔ Alive game g p ∧ ¬p = player := fun g p => by
    unfold Alive
    rw [hgroups, OMap.find?_mapValues]
    constructor
    · rintro ⟨members, hm, hp⟩
      obtain ⟨members', hg, rfl⟩ := Option.map_eq_some_iff.1 hm
      obtain ⟨hp, hne⟩ := (mem_setDead (h.nodup g members' hg) p).1 hp
      exact ⟨⟨members', hg, hp⟩, hne⟩
    · rintro ⟨⟨members, hg, hp⟩, hne⟩
      exact ⟨setDead player members, by rw [hg]; rfl, (mem_setDead (h.nodup g members hg) p).2 ⟨hp, hne⟩⟩
  refine ⟨hgroups ▸ sub_mapValues_setDead _ player, fun g hk => ?_, halive, hplayers ▸ mem_erasePlayer player game⟩
  rw [hgroups, OMap.keys_mapValues] at hk
  obtain ⟨members, hg⟩ := OMap.mem_keys.1 hk
  obtain ⟨p, hp⟩ := h.living g hk
  by_cases he : p = player
  · -- he is not the last of them
    have hlast := List.any_eq_false.1 (Bool.eq_false_iff.2 hnone) (g, members) (OMap.mem_entries.2 hg)
    obtain ⟨members', hg', hm⟩ := hp
    cases hg.symm.trans hg'
    have hhere : members.any (fun member => decide (member.guid = player)) = true :=
      List.any_eq_true.2 ⟨_, hm, decide_eq_true he⟩
    dsimp only at hlast
    rw [hhere, Bool.true_and, List.all_eq_true] at hlast
    obtain ⟨member, hlives⟩ := not_forall.1 hlast
    obtain ⟨hm, hlives⟩ := Classical.not_imp.1 hlives
    have hmember : member.isAlive = true := by simpa using hlives
    have hin : (⟨member.guid, true⟩ : GroupMember) ∈ setDead player members := by rwa [← hmember]
    obtain ⟨hin, hne⟩ := (mem_setDead (h.nodup g members hg) _).1 hin
    exact ⟨member.guid, (halive g _).2 ⟨⟨members, hg, hin⟩, hne⟩⟩
  · exact ⟨p, (halive g p).2 ⟨hp, he⟩⟩

/-! ## Leaving the queue, and joining -/

/-- Who leaves the queue with a player: the party he is in, if it has a group in the game. -/
def Leaves (player : ObjectGuid) (party : Option Party) (game : Game) (p : ObjectGuid) : Prop :=
  p = player ∨ ∃ party' ∈ party, (game.groups.find? party'.guid).isSome = true ∧ p ∈ party'.members

def leaveGroup (party : Option Party) (game : Game) : Game :=
  match party with
  | none => game
  | some party =>
    if (game.groups.find? party.guid).isSome then
      { game with
        groups := game.groups.erase party.guid
        playersGuid := game.playersGuid.filter (· ∉ party.members) }
    else game

/-- The record after that. -/
def left (player : ObjectGuid) (party : Option Party) (game : Game) : Game := leaveGroup party (erasePlayer player game)

/-- Those who are alive in the group of his party are those who leave. -/
def Whole (player : ObjectGuid) (party : Option Party) (game : Game) : Prop :=
  ∀ g p, Alive game g p → (Leaves player party game p ↔ ∃ party' ∈ party, g = party'.guid)

instance (player : ObjectGuid) (party : Option Party) (game : Game) (p : ObjectGuid) : Decidable (Leaves player party game p) :=
  inferInstanceAs (Decidable (_ ∨ _))

instance (player : ObjectGuid) (party : Option Party) (game : Game) : Decidable (Whole player party game) :=
  decidable_of_iff _ (forall_alive (Q := fun g p => Leaves player party game p ↔ ∃ party' ∈ party, g = party'.guid))

theorem gone_left (h : Books game) {party : Option Party} (hwhole : Whole player party game) :
    Gone (Leaves player party game) game (left player party game) := by
  -- a group that stays has nobody alive who leaves
  have hstays : ∀ g p, (∀ party' ∈ party, g ≠ party'.guid) → Alive game g p → ¬Leaves player party game p :=
    fun g p hne hp hleaves => by
      obtain ⟨party', hparty, he⟩ := (hwhole g p hp).1 hleaves
      exact hne party' hparty he
  have halone : (∀ party' ∈ party, (game.groups.find? party'.guid).isSome ≠ true) → ∀ p, Leaves player party game p ↔ p = player :=
    fun hnone p => ⟨fun hp => hp.resolve_right fun ⟨party', hparty, hsome, _⟩ => hnone party' hparty hsome, .inl⟩
  have hsame : (∀ party' ∈ party, (game.groups.find? party'.guid).isSome ≠ true) →
      Gone (Leaves player party game) game (erasePlayer player game) := fun hnone => by
    have hother : ∀ g p, Alive game g p → ¬Leaves player party game p := fun g p hp => by
      refine hstays g p (fun party' hparty he => ?_) hp
      obtain ⟨members, hg, -⟩ := hp
      exact hnone party' hparty (Option.isSome_iff_exists.2 ⟨members, he ▸ hg⟩)
    refine ⟨.refl _, h.living, fun g p => ⟨fun hp => ⟨hp, hother g p hp⟩, fun hp => hp.1⟩, fun p => ?_⟩
    rw [halone hnone]
    exact mem_erasePlayer player game p
  unfold left leaveGroup
  split
  next => exact hsame fun _ hparty => (nomatch hparty)
  next party =>
  split
  next hsome =>
    have hsome : (game.groups.find? party.guid).isSome = true := hsome
    obtain ⟨after, hafter⟩ : ∃ after : Game, after = { erasePlayer player game with
        groups := (erasePlayer player game).groups.erase party.guid
        playersGuid := (erasePlayer player game).playersGuid.filter (· ∉ party.members) } := ⟨_, rfl⟩
    have hgroups : after.groups = game.groups.erase party.guid := by
      rw [hafter]
      rfl
    have hplayers : after.playersGuid = (erasePlayer player game).playersGuid.filter (· ∉ party.members) := by rw [hafter]
    have herase := alive_erase hgroups rfl
    rw [← hafter]
    refine ⟨hgroups ▸ sub_erase _ party.guid, fun g hk => ?_, fun g p => ?_, fun p => ?_⟩
    · obtain ⟨members, hm⟩ := OMap.mem_keys.1 hk
      rw [hgroups, OMap.find?_erase] at hm
      split at hm
      next => cases hm
      next hne =>
      obtain ⟨p, hp⟩ := h.living g (OMap.mem_keys.2 ⟨members, hm⟩)
      exact ⟨p, (herase g p).2 ⟨hp, hne⟩⟩
    · refine (herase g p).trans (and_congr_right fun hp => not_congr ?_)
      rw [hwhole g p hp]
      exact ⟨fun he => ⟨party, rfl, he⟩, fun ⟨party', hparty, he⟩ => by cases hparty; exact he⟩
    · rw [hplayers, List.mem_filter, mem_erasePlayer, decide_eq_true_eq, and_assoc]
      refine and_congr_right fun _ => ?_
      rw [← not_or]
      refine not_congr (or_congr_right ⟨fun hp => ⟨party, rfl, hsome, hp⟩, fun ⟨party', hparty, _, hp⟩ => ?_⟩)
      cases hparty
      exact hp
  next hnone =>
  have hnone : ∀ party' ∈ some party, (game.groups.find? party'.guid).isSome ≠ true := fun party' hparty => by
    cases hparty
    exact hnone
  exact hsame hnone

theorem alive_join (party : Party) (game : Game) (g : Nat) (p : ObjectGuid) :
    Alive (join (some party) party.members game) g p ↔ if g = party.guid then p ∈ party.members else Alive game g p := by
  unfold Alive join
  dsimp only
  rw [OMap.find?_insert]
  split
  next he =>
    constructor
    · rintro ⟨members, hm, hp⟩
      cases hm
      obtain ⟨q, hq, hqp⟩ := List.mem_map.1 hp
      cases hqp
      exact hq
    · intro hp
      exact ⟨_, rfl, List.mem_map.2 ⟨p, hp, rfl⟩⟩
  next => exact Iff.rfl

/-- Those who are alive in the group of the party are of the party. -/
theorem Books.join (h : Books game) {party : Party} (hparty : player ∈ party.members)
    (hnew : ∀ p, Alive game party.guid p → p ∈ party.members) : Books (join (some party) party.members game) where
  nodup g members hm := by
    unfold Battleroyale.join at hm
    rw [OMap.find?_insert] at hm
    split at hm
    next =>
      cases hm
      rw [List.map_map]
      exact (List.map_id party.members).symm ▸ party.nodup
    next => exact h.nodup g members hm
  living g hk := by
    by_cases he : g = party.guid
    · exact ⟨player, (alive_join party game g player).2 (by rwa [if_pos he])⟩
    · obtain ⟨p, hp⟩ := h.living g ((OMap.mem_keys_insert.1 hk).resolve_left he)
      exact ⟨p, (alive_join party game g p).2 (by rwa [if_neg he])⟩
  listed g p hp := by
    rw [alive_join] at hp
    split at hp
    · exact List.mem_append_right _ hp
    · exact List.mem_append_left _ (h.listed g p hp)
  covered p hp := by
    rcases List.mem_append.1 hp with hp | hp
    · obtain ⟨g, hg⟩ := h.covered p hp
      refine ⟨g, (alive_join party game g p).2 ?_⟩
      split
      next he => exact hnew p (he ▸ hg)
      next => exact hg
    · exact ⟨party.guid, (alive_join party game _ p).2 (by rwa [if_pos rfl])⟩
  begun _ := List.ne_nil_of_mem (OMap.mem_keys_insert.2 (.inl rfl))

theorem Books.congr (h : Books game) (hgroups : game'.groups = game.groups) (hplayers : game'.playersGuid = game.playersGuid)
    (hbegun : game'.isStarted = true → game.groups.keys ≠ []) : Books game' where
  nodup g members hm := h.nodup g members (hgroups ▸ hm)
  living g hk := by
    obtain ⟨p, hp⟩ := h.living g (hgroups ▸ hk)
    exact ⟨p, (alive_congr hgroups g p).2 hp⟩
  listed g p hp := hplayers ▸ h.listed g p ((alive_congr hgroups g p).1 hp)
  covered p hp := by
    obtain ⟨g, hg⟩ := h.covered p (hplayers ▸ hp)
    exact ⟨g, (alive_congr hgroups g p).2 hg⟩
  begun hon := hgroups ▸ hbegun hon

end AtlasWow.Battleroyale
