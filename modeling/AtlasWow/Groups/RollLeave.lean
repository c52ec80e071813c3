/-
A member who leaves, and the open rolls. His vote is erased before the ordinary
way of counting is asked to notice that a roll is complete (`removeVotes_eq`):
it finds no vote of his and does nothing, so that a roll that waited only for
him stays open.
-/
import AtlasWow.Groups.RollRuns

namespace AtlasWow

open Loots (LootItem Loot)

namespace Roll

/-- Every voter has voted. -/
def Hanging (roll : Roll) : Prop := ∀ player vote, roll.playerVote.find? player = some vote → vote ≠ .notEmitedYet

instance (roll : Roll) : Decidable roll.Hanging :=
  decidable_of_iff (∀ e ∈ roll.playerVote.entries, e.2 ≠ .notEmitedYet)
    ⟨fun h player vote hv => h (player, vote) (OMap.mem_entries.2 hv), fun h _ he => h _ _ (OMap.mem_entries.1 he)⟩

/-- Somebody has not voted who stays. -/
def WaitsWithout (guid : ObjectGuid) (roll : Roll) : Prop := ∃ player, player ≠ guid ∧ roll.playerVote.find? player = some .notEmitedYet

theorem not_hanging_iff {roll : Roll} : ¬ roll.Hanging ↔ ∃ player, roll.playerVote.find? player = some .notEmitedYet := by
  unfold Hanging
  constructor
  · intro h
    by_contra hno
    refine h fun player vote hv he => hno ⟨player, he ▸ hv⟩
  · rintro ⟨player, hv⟩ h
    exact h player _ hv rfl

theorem find?_withdraw (guid player : ObjectGuid) (roll : Roll) :
    (GroupRolls.withdraw guid roll).playerVote.find? player = if player = guid then none else roll.playerVote.find? player := by
  unfold GroupRolls.withdraw
  split
  next hnone =>
    split
    next he => exact he ▸ hnone
    next => rfl
  next => exact OMap.find?_erase ..

/-- Without the vote of a leaver a roll hangs where nobody else is waited for. -/
theorem not_hanging_withdraw {guid : ObjectGuid} {roll : Roll} :
    ¬ (GroupRolls.withdraw guid roll).Hanging ↔ roll.WaitsWithout guid := by
  rw [not_hanging_iff]
  unfold WaitsWithout
  refine exists_congr fun player => ?_
  rw [find?_withdraw]
  split
  next he => exact ⟨fun h => (nomatch h), fun h => absurd he h.1⟩
  next hne => exact ⟨fun h => ⟨hne, h⟩, fun h => h.2⟩

end Roll

/-! ## Groups that a removal disbands -/

namespace Group

variable {g : Group} {connected : ObjectGuid → Bool} {guid : ObjectGuid} {inDungeon : Bool}

/-- The slots but for one member's. -/
def slotsWithout (guid : ObjectGuid) (g : Group) : List MemberSlot := g.memberSlots.eraseP (·.guid = guid)

/-- Somebody leads who is in the game, or will when the leader has left. -/
def Led (connected : ObjectGuid → Bool) (guid : ObjectGuid) (g : Group) : Prop :=
  connected g.leaderGuid ∨ g.leaderGuid = guid ∧ (g.slotsWithout guid).any (connected ·.guid)

/-- The references but for the member's; those of a battleground's raid are only taken from players who are in the game. -/
def memberMgrWithout (connected : ObjectGuid → Bool) (guid : ObjectGuid) (g : Group) : List ObjectGuid :=
  if connected guid || (!g.bgGroup && !g.bfGroup) then g.memberMgr.filter (· ≠ guid) else g.memberMgr

/-- Too few members are left: in all, in the game, or of a dungeon group outside of its dungeon. -/
def Disbands (connected : ObjectGuid → Bool) (guid : ObjectGuid) (inDungeon : Bool) (g : Group) : Prop :=
  g.memberSlots.length ≤ g.minMembers ∨
    g.isLFGGroup ∧ (g.slotsWithout guid).length = 1 ∧ (¬ g.Led connected guid ∨ inDungeon = false) ∨
    (g.memberMgrWithout connected guid).length < if g.isLFGGroup || g.bgGroup then 1 else 2

instance : Decidable (g.Led connected guid) := inferInstanceAs (Decidable (_ ∨ _))
instance : Decidable (g.Disbands connected guid inDungeon) := inferInstanceAs (Decidable (_ ∨ _ ∨ _))

/-- The member goes: his reference and his slot. -/
def leave (connected : ObjectGuid → Bool) (guid : ObjectGuid) (g : Group) : Group :=
  (if connected guid || (!g.bgGroup && !g.bfGroup) then g.delinkMember guid else g).eraseSlot guid

theorem leave_spec (connected : ObjectGuid → Bool) (guid : ObjectGuid) (g : Group) :
    (g.leave connected guid).memberSlots = g.slotsWithout guid ∧
      (g.leave connected guid).memberMgr = g.memberMgrWithout connected guid ∧
      (g.leave connected guid).leaderGuid = g.leaderGuid ∧ (g.leave connected guid).groupType = g.groupType ∧
      (g.leave connected guid).bgGroup = g.bgGroup := by
  have herase (g : Group) : (g.eraseSlot guid).memberSlots = g.slotsWithout guid ∧ (g.eraseSlot guid).memberMgr = g.memberMgr ∧
      (g.eraseSlot guid).leaderGuid = g.leaderGuid ∧ (g.eraseSlot guid).groupType = g.groupType ∧
      (g.eraseSlot guid).bgGroup = g.bgGroup := by
    unfold eraseSlot slotsWithout
    split
    next hnone =>
      have hnot := List.find?_eq_none.1 hnone
      exact ⟨(List.eraseP_of_forall_not hnot).symm, rfl, rfl, rfl, rfl⟩
    next => exact ⟨rfl, rfl, rfl, rfl, rfl⟩
  unfold leave memberMgrWithout
  split
  next => exact herase (g.delinkMember guid)
  next => exact herase g

theorem modifySlot_length (f : MemberSlot → MemberSlot) : ∀ slots : List MemberSlot, (modifySlot guid f slots).length = slots.length
  | [] => rfl
  | slot :: slots => by
    unfold modifySlot
    split
    · rfl
    · rw [List.length_cons, List.length_cons, modifySlot_length f slots]

/-- Who leads then is in the game if somebody is. -/
theorem pickLeader_spec (connected : ObjectGuid → Bool) (g : Group) :
    (g.pickLeader connected).memberSlots.length = g.memberSlots.length ∧ (g.pickLeader connected).memberMgr = g.memberMgr ∧
      (g.pickLeader connected).groupType = g.groupType ∧ (g.pickLeader connected).bgGroup = g.bgGroup ∧
      connected (g.pickLeader connected).leaderGuid = (connected g.leaderGuid || g.memberSlots.any (connected ·.guid)) := by
  unfold pickLeader
  split
  next hnone =>
    have hnobody : g.memberSlots.any (connected ·.guid) = false := by
      rw [List.any_eq_false]
      exact List.find?_eq_none.1 hnone
    exact ⟨rfl, rfl, rfl, rfl, by rw [hnobody, Bool.or_false]⟩
  next slot hslot =>
  have hmem := List.mem_of_find?_eq_some hslot
  have hconnected : connected slot.guid = true := @List.find?_some _ (connected ·.guid) slot _ hslot
  have hsomebody : g.memberSlots.any (connected ·.guid) = true := List.any_eq_true.2 ⟨slot, hmem, hconnected⟩
  rw [hsomebody, Bool.or_true]
  unfold changeLeader
  split
  next hnone => exact absurd (decide_eq_true rfl) (List.find?_eq_none.1 hnone slot hmem)
  next =>
  rw [hconnected]
  exact ⟨modifySlot_length _ _, rfl, rfl, rfl, hconnected⟩

/-- When the removal disbands the group. -/
theorem removeMember_isNone {method : RemoveMethod} (hkick : ¬ (g.isLFGGroup && method = .kick) = true) :
    (g.removeMember connected guid method inDungeon).isNone = true ↔ g.Disbands connected guid inDungeon := by
  obtain ⟨hslots, hmgr, hleader, htype, hbg⟩ := leave_spec connected guid g
  rcases Nat.lt_or_ge g.minMembers g.memberSlots.length with hmany | hfew
  · have hstill : ¬ g.memberSlots.length ≤ g.minMembers := Nat.not_le.2 hmany
    obtain ⟨g', hg'⟩ : ∃ g', g' = g.leave connected guid := ⟨_, rfl⟩
    obtain ⟨g'', hg''⟩ : ∃ g'', g'' = if g'.leaderGuid = guid then g'.pickLeader connected else g' := ⟨_, rfl⟩
    rw [← hg'] at hslots hmgr hleader htype hbg
    have hspec : g''.memberSlots.length = (g.slotsWithout guid).length ∧ g''.memberMgr = g.memberMgrWithout connected guid ∧
        g''.isLFGGroup = g.isLFGGroup ∧ g''.bgGroup = g.bgGroup ∧ (connected g''.leaderGuid = true ↔ g.Led connected guid) := by
      unfold isLFGGroup Led
      rw [hg'', ← hslots, ← hmgr, ← htype, ← hbg, ← hleader]
      split
      next hleads =>
        obtain ⟨hlength, hmgr', htype', hbg', hled⟩ := pickLeader_spec connected g'
        rw [hlength, hmgr', htype', hbg', hled, Bool.or_eq_true]
        exact ⟨rfl, rfl, rfl, rfl, by simp only [hleads, true_and]⟩
      next hleads => exact ⟨rfl, rfl, rfl, rfl, by simp only [hleads, false_and, or_false]⟩
    obtain ⟨hlength, hmgr'', hlfg, hbg'', hled⟩ := hspec
    have hremoved : g.removeMember connected guid method inDungeon =
        if g''.isLFGGroup && g''.memberSlots.length = 1 && (!connected g''.leaderGuid || !inDungeon) then none
        else if g''.memberMgr.length < (if g''.isLFGGroup || g''.bgGroup then 1 else 2) then none else some g'' := by
      unfold Group.removeMember
      rw [if_neg hkick, if_pos hmany, hg'', hg']
      rfl
    unfold Disbands
    rw [hremoved, or_iff_right hstill, hlength, hmgr'', hlfg, hbg'']
    have hcond : (g.isLFGGroup && (g.slotsWithout guid).length = 1 && (!connected g''.leaderGuid || !inDungeon)) = true ↔
        g.isLFGGroup = true ∧ (g.slotsWithout guid).length = 1 ∧ (¬ g.Led connected guid ∨ inDungeon = false) := by
      rw [← hled]
      simp only [Bool.and_eq_true, Bool.or_eq_true, decide_eq_true_eq, Bool.not_eq_true', Bool.not_eq_true, and_assoc]
    split
    next hnone => exact iff_of_true rfl (.inl (hcond.1 hnone))
    next hled' =>
    rw [or_iff_right (mt hcond.2 hled')]
    by_cases hfew : (g.memberMgrWithout connected guid).length < if g.isLFGGroup || g.bgGroup then 1 else 2
    · rw [if_pos hfew]
      exact iff_of_true rfl hfew
    · rw [if_neg hfew]
      exact iff_of_false Bool.false_ne_true hfew
  · unfold Group.removeMember
    rw [if_neg hkick, if_neg (Nat.not_lt.2 hfew)]
    exact iff_of_true rfl (.inl hfew)

end Group

namespace GroupRolls

variable {s : GroupRolls} {env : RollEnv} {guid : ObjectGuid}

/-- Nobody's vote is looked for in a roll that has it no more. -/
theorem countRollVote_withdrawn {i : Nat} {roll : Roll} {choice : Nat} (hguids : (s.rollId.map (·.itemGUID)).Nodup)
    (hroll : s.rollId[i]? = some roll) (hnone : roll.playerVote.find? guid = none) :
    s.countRollVote env guid roll.itemGUID choice = (s, []) := by
  unfold countRollVote
  split
  next => rfl
  next j hj =>
  obtain ⟨hlt, hfound, _⟩ := List.findIdx?_eq_some_iff_getElem.1 hj
  rw [Bool.and_eq_true, decide_eq_true_eq] at hfound
  -- the guids of items are different
  have hij : i = j := by
    obtain ⟨hi, hi'⟩ := List.getElem?_eq_some_iff.1 hroll
    have hsame : (s.rollId.map (·.itemGUID)).get ⟨i, by rwa [List.length_map]⟩ =
        (s.rollId.map (·.itemGUID)).get ⟨j, by rwa [List.length_map]⟩ := by
      simp only [List.get_eq_getElem, List.getElem_map, hi', hfound.1]
    exact (List.getElem_inj hguids).1 hsame
  rw [← hij, hroll]
  dsimp only
  rw [hnone]
  rfl

/-- The loop takes the votes back and ends no roll. -/
theorem removeVotes_eq : ∀ {n i : Nat} {s : GroupRolls}, (s.rollId.map (·.itemGUID)).Nodup → s.rollId.length ≤ i + n →
    s.removeVotes env guid n i = ({ s with rollId := s.rollId.take i ++ (s.rollId.drop i).map (withdraw guid) }, [])
  | 0, i, s, _, hlen => by
    have hlen : s.rollId.length ≤ i := hlen
    rw [removeVotes, List.drop_of_length_le hlen, List.take_of_length_le hlen, List.map_nil, List.append_nil]
  | n + 1, i, s, hguids, hlen => by
    unfold removeVotes
    split
    next hnone =>
      have hlen := List.getElem?_eq_none_iff.1 hnone
      rw [List.drop_of_length_le hlen, List.take_of_length_le hlen, List.map_nil, List.append_nil]
    next roll hroll =>
    obtain ⟨hi, hget⟩ := List.getElem?_eq_some_iff.1 hroll
    have hsplit : s.rollId.take i ++ (s.rollId.drop i).map (withdraw guid) =
        s.rollId.take i ++ withdraw guid roll :: (s.rollId.drop (i + 1)).map (withdraw guid) := by
      rw [List.drop_eq_getElem_cons hi, List.map_cons, hget]
    split
    next hno =>
      have hsame : withdraw guid roll = roll := by
        unfold withdraw
        rw [Option.isNone_iff_eq_none.1 hno]
      rw [removeVotes_eq hguids (by omega), hsplit, hsame, ← hget, List.take_succ_eq_append_getElem hi, List.append_assoc]
      rfl
    next =>
    have hmodify : s.rollId.modify i (withdraw guid) = s.rollId.take i ++ withdraw guid roll :: s.rollId.drop (i + 1) := by
      rw [List.modify_eq_take_cons_drop hi, hget]
    have hguids' : ((s.rollId.modify i (withdraw guid)).map (·.itemGUID)).Nodup := by
      rw [map_modify_same fun roll => (Roll.withdraw_same guid roll).1]
      exact hguids
    have hvote := @countRollVote_withdrawn { s with rollId := s.rollId.modify i (withdraw guid) } env guid i (withdraw guid roll)
      MAX_ROLL_TYPE hguids'
      (by rw [List.getElem?_modify_eq, hroll]; rfl) (by rw [Roll.find?_withdraw, if_pos rfl])
    rw [(Roll.withdraw_same guid roll).1] at hvote
    dsimp only
    rw [hvote]
    dsimp only
    rw [removeVotes_eq hguids' (by rw [List.length_modify]; omega), hsplit, hmodify]
    have hlen' : (s.rollId.take i ++ [withdraw guid roll]).length = i + 1 := by
      rw [List.length_append, List.length_take_of_le (Nat.le_of_lt hi)]
      rfl
    have hlast (rest : List Roll) : (s.rollId.take i ++ [withdraw guid roll]) ++ rest =
        s.rollId.take i ++ withdraw guid roll :: rest := by
      rw [List.append_assoc]
      rfl
    rw [← hlast (s.rollId.drop (i + 1)), List.take_left' hlen', List.drop_left' hlen', hlast ((s.rollId.drop (i + 1)).map _)]
    rfl

/-- What a removal leaves of the rolls. -/
theorem removeMember_rolls (hs : s.Sound) {g : Group} (hg : s.group = some g) (method : RemoveMethod) (inDungeon : Bool) :
    (s.removeMember env guid method inDungeon).1.rollId =
      if g.isLFGGroup && method = .kick then s.rollId
      else if g.Disbands env.connected guid inDungeon then []
      else s.rollId.map (withdraw guid) := by
  unfold removeMember
  rw [hg]
  dsimp only
  split
  next => rfl
  next hkick =>
  have hdisbands := @Group.removeMember_isNone g env.connected guid inDungeon method hkick
  split
  next hnone =>
    rw [if_pos (hdisbands.1 (hnone ▸ rfl))]
    rfl
  next g' hsome =>
  have hstays : ¬ g.Disbands env.connected guid inDungeon := by
    rw [← hdisbands, hsome]
    exact Bool.false_ne_true
  have hmany : g.minMembers < g.memberSlots.length := Nat.not_le.1 fun h => hstays (.inl h)
  rw [if_neg hstays, if_pos hmany, removeVotes_eq hs.guids (by omega)]
  rfl

/-- After a removal some open roll has all the votes it can get, except where each waits for somebody else, the group is
disbanded with its rolls, or a vote is to decide and each waits for somebody. -/
theorem removeMember_hangs_iff {lootThreshold : Nat} (h : Reaches step Op.Allowed (start lootThreshold) s) {g : Group}
    (hg : s.group = some g) (method : RemoveMethod) (inDungeon : Bool) :
    (∀ roll ∈ (s.removeMember env guid method inDungeon).1.rollId, ¬ roll.Hanging) ↔
      if g.isLFGGroup && method = .kick then ∀ roll ∈ s.rollId, ¬ roll.Hanging
      else g.Disbands env.connected guid inDungeon ∨ ∀ roll ∈ s.rollId, roll.WaitsWithout guid := by
  rw [removeMember_rolls (sound_of_reaches h) hg]
  split
  next => rfl
  next =>
    split
    next hdisbands => exact iff_of_true (fun _ hr => (nomatch hr)) (.inl hdisbands)
    next hstays =>
      rw [List.forall_mem_map, or_iff_right hstays]
      exact forall₂_congr fun roll _ => Roll.not_hanging_withdraw

/-- Nobody waits for the third member alone. -/
theorem removeMember_hangs_three :
    ((three [1]).removeMember ⟨fun _ => true, fun _ => true, fun _ => some 0, fun _ => true, fun _ => 0⟩ 3 .leave
      false).1.rollId.length = 1 ∧
    ∀ roll ∈ ((three [1]).removeMember ⟨fun _ => true, fun _ => true, fun _ => some 0, fun _ => true, fun _ => 0⟩ 3 .leave
      false).1.rollId, ¬ roll.Hanging := by
  refine ⟨by decide, (removeMember_hangs_iff (three_reached (by decide)) rfl .leave false).2 ?_⟩
  exact .inr fun roll hr => ⟨2, by decide, by
    cases List.mem_singleton.1 hr
    rfl⟩

/-- The first two members need an item, and when the third, who has not voted, leaves, nobody gets it. -/
theorem removeMember_hangs : Reaches step Op.Allowed (start 2) (three [1, 2]) ∧
    ((three [1, 2]).group.map fun g => g.memberSlots.map (·.guid)) = some [1, 2, 3] ∧
    (∀ roll ∈ (three [1, 2]).rollId, ¬ roll.Hanging) ∧
    ∃ roll ∈ ((three [1, 2]).removeMember ⟨fun _ => true, fun _ => true, fun _ => some 0, fun _ => true, fun _ => 0⟩ 3 .leave
      false).1.rollId, roll.Hanging :=
  ⟨three_reached (by decide), by decide, by decide, by decide⟩

end GroupRolls

end AtlasWow
