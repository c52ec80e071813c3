/-
What `Group::RemoveMember` tells its callers: `true` where the group is still
there. Of the three calls of `Disband` the last one is not told of
(`removeMember_reports_iff`), and a battleground that asks keeps the group it
believes to be there.
-/
import AtlasWow.Groups.Group

namespace AtlasWow

namespace Group

/-- `RemoveMember` with its result; the group is `none` after `Disband`. -/
def removeMemberResult (connected : ObjectGuid → Bool) (guid : ObjectGuid) (method : RemoveMethod) (inDungeon : Bool)
    (g : Group) : Bool × Option Group :=
  -- a vote decides
  if g.isLFGGroup && method = .kick then (!g.memberSlots.isEmpty, some g)
  else if g.minMembers < g.memberSlots.length then
    let g := if connected guid || (!g.bgGroup && !g.bfGroup) then g.delinkMember guid else g
    let g := g.eraseSlot guid
    let g := if g.leaderGuid = guid then g.pickLeader connected else g
    if g.isLFGGroup && g.memberSlots.length = 1 && (!connected g.leaderGuid || !inDungeon) then (false, none)
    else (true, if g.memberMgr.length < (if g.isLFGGroup || g.bgGroup then 1 else 2) then none else some g)
  else (false, none)

/-- The references that the group keeps. -/
def remaining (connected : ObjectGuid → Bool) (guid : ObjectGuid) (g : Group) : List ObjectGuid :=
  if connected guid || (!g.bgGroup && !g.bfGroup) then g.memberMgr.filter (· ≠ guid) else g.memberMgr

/-- Who leads when a member is gone: the first other one who is in the game, where he led himself. -/
def nextLeader (connected : ObjectGuid → Bool) (guid : ObjectGuid) (g : Group) : ObjectGuid :=
  if g.leaderGuid = guid then
    ((g.memberSlots.eraseP (·.guid = guid)).find? (connected ·.guid)).elim g.leaderGuid (·.guid)
  else g.leaderGuid

/-- A dungeon group that is left with one player who is offline or does not stay in its dungeon. -/
def LeftAlone (connected : ObjectGuid → Bool) (guid : ObjectGuid) (inDungeon : Bool) (g : Group) : Prop :=
  g.isLFGGroup = true ∧ g.memberSlots.length = 2 ∧ (connected (g.nextLeader connected guid) = false ∨ inDungeon = false)

/-- A group with members enough, of whom too few are in the game. -/
def DisbandsUntold (connected : ObjectGuid → Bool) (guid : ObjectGuid) (method : RemoveMethod) (inDungeon : Bool)
    (g : Group) : Prop :=
  ¬ (g.isLFGGroup = true ∧ method = .kick) ∧ g.minMembers < g.memberSlots.length ∧
    ¬ g.LeftAlone connected guid inDungeon ∧
    (g.remaining connected guid).length < if g.isLFGGroup || g.bgGroup then 1 else 2

section

variable {connected : ObjectGuid → Bool} {guid : ObjectGuid} {method : RemoveMethod} {inDungeon : Bool} {g : Group}

theorem length_modifySlot (f : MemberSlot → MemberSlot) (slots : List MemberSlot) :
    (modifySlot guid f slots).length = slots.length := by
  induction slots with
  | nil => rfl
  | cons slot slots ih =>
    rw [modifySlot]
    split
    · rfl
    · rw [List.length_cons, ih, List.length_cons]

theorem find?_connected {slots : List MemberSlot} {slot : MemberSlot} (h : slots.find? (connected ·.guid) = some slot) :
    slots.find? (·.guid = slot.guid) ≠ none ∧ connected slot.guid = true := by
  have hslot := List.find?_some h
  exact ⟨fun hnone => absurd (List.find?_eq_none.1 hnone slot (List.mem_of_find?_eq_some h)) (by simp), hslot⟩

/-- The first member who is in the game leads, and nothing but the leader and his flags changes. -/
theorem pickLeader_found (connected : ObjectGuid → Bool) (g : Group) :
    (g.pickLeader connected).leaderGuid = (g.memberSlots.find? (connected ·.guid)).elim g.leaderGuid (·.guid) ∧
      (g.pickLeader connected).memberSlots.length = g.memberSlots.length ∧
      (g.pickLeader connected).memberMgr = g.memberMgr ∧ (g.pickLeader connected).groupType = g.groupType ∧
      (g.pickLeader connected).bgGroup = g.bgGroup := by
  rw [pickLeader]
  cases hfind : g.memberSlots.find? (connected ·.guid) with
  | none => exact ⟨rfl, rfl, rfl, rfl, rfl⟩
  | some slot =>
    obtain ⟨hslot, hconnected⟩ := find?_connected hfind
    obtain ⟨slot', hslot'⟩ := Option.ne_none_iff_exists'.1 hslot
    have hget : g.getMemberSlot slot.guid = some slot' := hslot'
    simp only [changeLeader, hget, hconnected]
    exact ⟨rfl, length_modifySlot _ _, rfl, rfl, rfl⟩

/-- A member's slot goes, and his sub group is counted down. -/
theorem eraseSlot_spec (h : g.isMember guid = true) :
    (g.eraseSlot guid).memberSlots = g.memberSlots.eraseP (·.guid = guid) ∧
      (g.eraseSlot guid).memberSlots.length + 1 = g.memberSlots.length ∧
      (g.eraseSlot guid).leaderGuid = g.leaderGuid ∧ (g.eraseSlot guid).memberMgr = g.memberMgr ∧
      (g.eraseSlot guid).groupType = g.groupType ∧ (g.eraseSlot guid).bgGroup = g.bgGroup := by
  obtain ⟨slot, hslot⟩ := Option.isSome_iff_exists.1 h
  have hfind : g.memberSlots.find? (·.guid = guid) = some slot := hslot
  have hmem := List.mem_of_find?_eq_some hfind
  have hlength : (g.memberSlots.eraseP (·.guid = guid)).length + 1 = g.memberSlots.length := by
    have hpos := List.length_pos_of_mem hmem
    rw [List.length_eraseP_of_mem hmem (List.find?_some hfind)]
    omega
  rw [eraseSlot, hslot]
  exact ⟨rfl, hlength, rfl, rfl, rfl, rfl⟩

/-- The group without a member: his reference, then his slot, then his lead. -/
theorem removed_spec (h : g.isMember guid = true) (g₁ g₂ g₃ : Group)
    (h₁ : g₁ = if connected guid || (!g.bgGroup && !g.bfGroup) then g.delinkMember guid else g)
    (h₂ : g₂ = g₁.eraseSlot guid) (h₃ : g₃ = if g₂.leaderGuid = guid then g₂.pickLeader connected else g₂) :
    g₃.leaderGuid = g.nextLeader connected guid ∧ g₃.memberSlots.length + 1 = g.memberSlots.length ∧
      g₃.memberMgr = g.remaining connected guid ∧ g₃.isLFGGroup = g.isLFGGroup ∧ g₃.bgGroup = g.bgGroup := by
  have hdelink : g₁.memberSlots = g.memberSlots ∧ g₁.leaderGuid = g.leaderGuid ∧ g₁.groupType = g.groupType ∧
      g₁.bgGroup = g.bgGroup ∧ g₁.memberMgr = g.remaining connected guid := by
    rw [h₁, remaining]
    split <;> exact ⟨rfl, rfl, rfl, rfl, rfl⟩
  obtain ⟨hslots, hleader, htype, hbg, hmgr⟩ := hdelink
  have hmember : g₁.isMember guid = true := by rw [isMember, getMemberSlot, hslots]; exact h
  obtain ⟨hslots₂, hlength₂, hleader₂, hmgr₂, htype₂, hbg₂⟩ := eraseSlot_spec hmember
  rw [← h₂, hslots] at hslots₂ hlength₂
  rw [← h₂] at hleader₂ hmgr₂ htype₂ hbg₂
  obtain ⟨hleader₃, hlength₃, hmgr₃, htype₃, hbg₃⟩ := pickLeader_found connected g₂
  rw [h₃, nextLeader, ← hleader, ← hleader₂]
  split
  · rw [hleader₃, hlength₃, hmgr₃, hbg₃, hslots₂]
    refine ⟨rfl, ?_, hmgr₂.trans hmgr, ?_, hbg₂.trans hbg⟩
    · rw [← hslots₂, hlength₂]
    · rw [isLFGGroup, isLFGGroup, htype₃, htype₂, htype]
  · exact ⟨rfl, hlength₂, hmgr₂.trans hmgr, by rw [isLFGGroup, isLFGGroup, htype₂, htype], hbg₂.trans hbg⟩

/-- `RemoveMember` tells whether the group is still there, but for a group that it disbands untold. -/
theorem removeMember_reports_iff (h : g.isMember guid = true) :
    ((g.removeMemberResult connected guid method inDungeon).1 = true ↔
      (g.removeMemberResult connected guid method inDungeon).2.isSome = true) ↔
    ¬ g.DisbandsUntold connected guid method inDungeon := by
  have hnonempty : g.memberSlots.isEmpty = false := by
    obtain ⟨slot, hslot⟩ := Option.isSome_iff_exists.1 h
    have hmem := List.mem_of_find?_eq_some (show g.memberSlots.find? (·.guid = guid) = some slot from hslot)
    rw [List.isEmpty_eq_false_iff_exists_mem]
    exact ⟨slot, hmem⟩
  rw [removeMemberResult]
  split
  next hkick =>
    rw [Bool.and_eq_true, decide_eq_true_eq] at hkick
    exact iff_of_true (by simp [hnonempty]) fun huntold => huntold.1 hkick
  next hkick =>
    rw [Bool.and_eq_true, decide_eq_true_eq] at hkick
    split
    next hmin =>
      extract_lets g₁ g₂ g₃
      obtain ⟨hleader, hlength, hmgr, hlfg, hbg⟩ := removed_spec h g₁ g₂ g₃ rfl rfl rfl
      have halone : g.LeftAlone connected guid inDungeon ↔
          (g₃.isLFGGroup && g₃.memberSlots.length = 1 && (!connected g₃.leaderGuid || !inDungeon)) = true := by
        have hone : g₃.memberSlots.length = 1 ↔ g.memberSlots.length = 2 := by omega
        simp [LeftAlone, hlfg, hleader, hone, and_assoc]
      split
      next hleft => exact iff_of_true (by simp) fun huntold => huntold.2.2.1 (halone.2 hleft)
      next hleft =>
        rw [← halone] at hleft
        rw [hmgr, hlfg, hbg]
        by_cases hfew : (g.remaining connected guid).length < if g.isLFGGroup || g.bgGroup then 1 else 2
        · rw [if_pos hfew]
          exact iff_of_false (by simp) (not_not.2 ⟨hkick, hmin, hleft, hfew⟩)
        · rw [if_neg hfew]
          exact iff_of_true (by simp) fun huntold => hfew huntold.2.2.2
    next hmin => exact iff_of_true (by simp) fun huntold => hmin huntold.2.1

/-- Three friends of whom one is in the game when another one leaves. -/
def friends : Group where
  leaderGuid := 1
  groupType := GROUPTYPE_NORMAL
  bgGroup := false
  bfGroup := false
  memberSlots := [⟨1, 0, 0, 0⟩, ⟨2, 0, 0, 0⟩, ⟨3, 0, 0, 0⟩]
  subGroupsCounts := none
  memberMgr := [1, 2]
  invitees := []

/-- The group is gone and the caller is told that it is there. -/
theorem friends_gone : (friends.removeMemberResult (fun guid => guid = 1 || guid = 2) 2 .leave false).1 = true ∧
    (friends.removeMemberResult (fun guid => guid = 1 || guid = 2) 2 .leave false).2.isNone = true := by decide

/-- All of them are in the game when one leaves. -/
theorem friends_left : ((friends.linkMember 3).removeMemberResult (fun _ => true) 2 .leave false).1 = true ↔
    ((friends.linkMember 3).removeMemberResult (fun _ => true) 2 .leave false).2.isSome = true :=
  (removeMember_reports_iff (by decide)).2 fun huntold => absurd huntold.2.2.2 (by decide)

end

end Group
end AtlasWow
