/-
Whose turn it is to loot: `Group::UpdateLooterGuid`. The turns go around the
members (`updateLooterGuid_eq`), so that members who are all near get one each
(`looters_perm`).

`near` is whether a member is found and near enough to the object to be
rewarded; the packet with the new looter is left out.
-/
import AtlasWow.Groups.Group
import AtlasWow.Lib.RoundRobin

namespace AtlasWow

inductive LootMethod where
  | freeForAll | roundRobin | masterLoot | groupLoot | needBeforeGreed
deriving DecidableEq, Repr

/-- A group with its loot settings; no member has two slots. -/
structure LootGroup extends Group where
  lootMethod : LootMethod
  looterGuid : ObjectGuid
  nodup : (memberSlots.map (·.guid)).Nodup

namespace LootGroup

def members (g : LootGroup) : List ObjectGuid := g.memberSlots.map (·.guid)

/-- The two searches: behind `guid_itr`, then from the start up to it. -/
def searchLooter (near : ObjectGuid → Bool) (slots : List MemberSlot) (guid_itr : Nat) : Option ObjectGuid :=
  match (slots.drop guid_itr).find? (near ·.guid) with
  | some slot => some slot.guid
  | none => ((slots.take guid_itr).find? (near ·.guid)).map (·.guid)

def updateLooterGuid (near : ObjectGuid → Bool) (ifneed : Bool) (g : LootGroup) : LootGroup :=
  if g.lootMethod = .freeForAll then g
  else
    let oldLooterGUID := g.looterGuid
    -- the end of the list where the looter is no member
    let slot := g.memberSlots.findIdx (·.guid = oldLooterGUID)
    if slot < g.memberSlots.length ∧ ifneed ∧ near oldLooterGUID then g
    else
      let guid_itr := if slot < g.memberSlots.length then slot + 1 else slot
      match searchLooter near g.memberSlots guid_itr with
      | some guid => if oldLooterGUID ≠ guid then { g with looterGuid := guid } else g
      | none => { g with looterGuid := .Empty }

/-- The looters after the next calls, nobody being kept because he is near. -/
def looters (near : ObjectGuid → Bool) : Nat → LootGroup → List ObjectGuid
  | 0, _ => []
  | n + 1, g =>
    let g := g.updateLooterGuid near false
    g.looterGuid :: looters near n g

/-- The current looter keeps his turn: loot is free for all, or only a looter who is away loses it. -/
def Keeps (near : ObjectGuid → Bool) (ifneed : Bool) (g : LootGroup) : Prop :=
  g.lootMethod = .freeForAll ∨ (ifneed = true ∧ g.looterGuid ∈ g.members ∧ near g.looterGuid = true)

variable {near : ObjectGuid → Bool} {ifneed : Bool} {g : LootGroup} {guid : ObjectGuid}

theorem find?_map_guid (slots : List MemberSlot) :
    (slots.map (·.guid)).find? near = (slots.find? (near ·.guid)).map (·.guid) := by
  rw [List.find?_map]
  rfl

theorem findIdx_guid (slots : List MemberSlot) (guid : ObjectGuid) :
    slots.findIdx (·.guid = guid) = (slots.map (·.guid)).idxOf guid := by
  rw [List.idxOf, List.findIdx_map]
  rfl

theorem findIdx_lt : g.memberSlots.findIdx (·.guid = guid) < g.memberSlots.length ↔ guid ∈ g.members := by
  rw [findIdx_guid, ← List.length_map (·.guid)]
  exact List.idxOf_lt_length_iff

/-- The two searches together ask everybody, in the order in which turns go around. -/
theorem searchLooter_eq (near : ObjectGuid → Bool) (g : LootGroup) (guid : ObjectGuid) :
    searchLooter near g.memberSlots (if g.memberSlots.findIdx (·.guid = guid) < g.memberSlots.length then
      g.memberSlots.findIdx (·.guid = guid) + 1 else g.memberSlots.findIdx (·.guid = guid)) =
        RoundRobin.next near g.members guid := by
  have hsearch (i : Nat) : searchLooter near g.memberSlots i = (g.members.drop i ++ g.members.take i).find? near := by
    rw [searchLooter, members, ← List.map_drop, ← List.map_take, List.find?_append, find?_map_guid, find?_map_guid]
    cases (g.memberSlots.drop i).find? (near ·.guid) <;> rfl
  split
  next => rw [hsearch, findIdx_guid]; rfl
  next h =>
  rw [findIdx_lt] at h
  rw [hsearch, findIdx_guid, RoundRobin.next, RoundRobin.order_of_notMem h]
  have hend : (g.memberSlots.map (·.guid)).idxOf guid = g.members.length := List.idxOf_eq_length h
  rw [hend, List.drop_length, List.take_length, List.nil_append]

/-- Where the looter does not keep his turn it goes to the next member who is near, if there is one. -/
theorem updateLooterGuid_eq (near : ObjectGuid → Bool) (ifneed : Bool) (g : LootGroup) :
    (g.Keeps near ifneed → g.updateLooterGuid near ifneed = g) ∧
    (¬ g.Keeps near ifneed → g.updateLooterGuid near ifneed =
      { g with looterGuid := (RoundRobin.next near g.members g.looterGuid).getD .Empty }) := by
  have hsearch := searchLooter_eq near g g.looterGuid
  constructor
  · intro h
    rw [updateLooterGuid]
    split
    · rfl
    next hmethod =>
    obtain ⟨hneed, hmem, hnear⟩ := h.resolve_left hmethod
    rw [if_pos ⟨findIdx_lt.2 hmem, hneed, hnear⟩]
  · intro h
    obtain ⟨hmethod, hkept⟩ := not_or.1 h
    rw [updateLooterGuid, if_neg hmethod]
    extract_lets oldLooterGUID slot guid_itr
    rw [if_neg (fun hkeeps => hkept ⟨hkeeps.2.1, findIdx_lt.1 hkeeps.1, hkeeps.2.2⟩)]
    have hnext : searchLooter near g.memberSlots guid_itr = RoundRobin.next near g.members g.looterGuid := hsearch
    rw [hnext]
    cases RoundRobin.next near g.members g.looterGuid with
    | none => rfl
    | some guid =>
      simp only
      split
      next => rfl
      next heq =>
      rw [not_not] at heq
      rw [Option.getD_some, ← heq]

theorem updateLooterGuid_next (h : ¬ g.Keeps near ifneed)
    (hnext : RoundRobin.next near g.members g.looterGuid = some guid) :
    g.updateLooterGuid near ifneed = { g with looterGuid := guid } := by
  rw [(updateLooterGuid_eq near ifneed g).2 h, hnext, Option.getD_some]

theorem not_keeps (h : g.lootMethod ≠ .freeForAll) : ¬ g.Keeps near false := by
  rintro (hmethod | hkept)
  · exact h hmethod
  · exact Bool.false_ne_true hkept.1

/-- Where everybody is near, the looters of the next calls are the turns that go around. -/
theorem looters_eq_turns (hmethod : g.lootMethod ≠ .freeForAll) (hnear : ∀ guid ∈ g.members, near guid = true)
    (hmembers : g.members ≠ []) (n : Nat) :
    looters near n g = RoundRobin.turns near g.members n g.looterGuid := by
  induction n generalizing g with
  | zero => rfl
  | succ n ih =>
    cases hnext : RoundRobin.next near g.members g.looterGuid with
    | none =>
      obtain ⟨guid, hguid⟩ := List.exists_mem_of_ne_nil _ hmembers
      exact absurd (hnear guid hguid) (by rw [RoundRobin.next_eq_none.1 hnext guid hguid]; exact Bool.false_ne_true)
    | some guid =>
      rw [looters, RoundRobin.turns, hnext]
      simp only [updateLooterGuid_next (not_keeps hmethod) hnext]
      exact congrArg (guid :: ·) (ih (g := { g with looterGuid := guid }) hmethod hnear hmembers)

/-- Where everybody is near, as many calls as there are members give each of them one turn. -/
theorem looters_perm (hmethod : g.lootMethod ≠ .freeForAll) (hnear : ∀ guid ∈ g.members, near guid = true) :
    (looters near g.members.length g).Perm g.members := by
  by_cases hmembers : g.members = []
  · rw [hmembers]
    exact .refl _
  · rw [looters_eq_turns hmethod hnear hmembers]
    exact RoundRobin.turns_perm g.nodup hnear g.looterGuid

/-- Turns go around: to the first member behind the looter who is near, around the end of the list and back to himself; to
nobody where nobody is near. A looter who keeps his turn keeps everything as it is. -/
theorem updateLooterGuid_fair (near : ObjectGuid → Bool) (ifneed : Bool) (g : LootGroup) :
    (g.Keeps near ifneed → g.updateLooterGuid near ifneed = g) ∧
    (¬ g.Keeps near ifneed → ∃ guid, g.updateLooterGuid near ifneed = { g with looterGuid := guid } ∧
      ((∃ m ∈ g.members, near m = true) → near guid = true ∧
        ∃ s t, RoundRobin.order g.members g.looterGuid = s ++ guid :: t ∧ ∀ m ∈ s, near m = false) ∧
      ((∀ m ∈ g.members, near m = false) → guid = .Empty) ∧
      (g.looterGuid ∈ g.members → near g.looterGuid = true → (∀ m ∈ g.members, near m = true → m = g.looterGuid) →
        guid = g.looterGuid)) ∧
    (g.lootMethod ≠ .freeForAll → (∀ m ∈ g.members, near m = true) →
      (looters near g.members.length g).Perm g.members) := by
  refine ⟨(updateLooterGuid_eq near ifneed g).1, fun h => ⟨_, (updateLooterGuid_eq near ifneed g).2 h, ?_, ?_, ?_⟩,
    looters_perm⟩
  · rintro ⟨m, hm, hnear⟩
    cases hnext : RoundRobin.next near g.members g.looterGuid with
    | none => exact absurd hnear (by rw [RoundRobin.next_eq_none.1 hnext m hm]; exact Bool.false_ne_true)
    | some guid => exact RoundRobin.next_eq_some.1 hnext
  · intro hnone
    rw [RoundRobin.next_eq_none.2 hnone, Option.getD_none]
  · intro hmem hnear honly
    rw [RoundRobin.next_only hmem hnear honly, Option.getD_some]

def twoMembers : LootGroup where
  leaderGuid := 1
  groupType := GROUPTYPE_NORMAL
  bgGroup := false
  bfGroup := false
  memberSlots := [⟨1, 0, 0, 0⟩, ⟨2, 0, 0, 0⟩]
  subGroupsCounts := none
  memberMgr := [1, 2]
  invitees := []
  lootMethod := .groupLoot
  looterGuid := 1
  nodup := by decide

theorem looter_two_turns : (looters (fun _ => true) 2 twoMembers).Perm [1, 2] :=
  (updateLooterGuid_fair (fun _ => true) false twoMembers).2.2 (by decide) fun _ _ => rfl

/-- Both members are near, and where the call is for a looter who is away the first one keeps his turn. -/
theorem looter_kept : (twoMembers.updateLooterGuid (fun _ => true) true).looterGuid = 1 ∧
    RoundRobin.next (fun _ => true) twoMembers.members 1 = some 2 := by decide

end LootGroup
end AtlasWow
