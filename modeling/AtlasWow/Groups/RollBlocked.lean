/-
The items that are rolled for. An item that nobody has yet is blocked exactly
while a roll for it is open (`reaches_blocked`): for every slot the open rolls
are counted against the flags of its item (`Fits`), and each step changes the
two together.
-/
import AtlasWow.Groups.RollCounters

namespace AtlasWow

open Loots (LootItem Loot MAX_NR_LOOT_ITEMS MAX_NR_QUEST_ITEMS)

/-! ## The items of a loot -/

theorem itemAt_modifyItem (slot slot' : UInt8) (f : LootItem → LootItem) (loot : Loot) :
    itemAt slot' (modifyItem slot f loot) = if slot' = slot then (itemAt slot' loot).map f else itemAt slot' loot := by
  have hmodify (l : List LootItem) (i j : Nat) : (l.modify i f)[j]? = if j = i then l[j]?.map f else l[j]? := by
    rw [List.getElem?_modify]
    by_cases hij : i = j
    · rw [if_pos hij.symm]
      simp [hij]
    · rw [if_neg fun he => hij he.symm]
      simp [hij]
  have hsame : slot' = slot ↔ slot'.toNat = slot.toNat := UInt8.toNat_inj.symm
  unfold modifyItem itemAt
  split
  next hquest =>
    dsimp only
    split
    next hquest' =>
      rw [hmodify]
      exact if_congr (by rw [hsame]; omega) rfl rfl
    next hitems => rw [if_neg (by rw [hsame]; omega)]
  next hitems =>
  dsimp only
  rw [List.length_modify]
  split
  next hquest => rw [if_neg (by rw [hsame]; omega)]
  next =>
  rw [hmodify]
  exact if_congr hsame.symm rfl rfl

/-- What an award does to its item. -/
def Award.onItem : Option Award → LootItem → LootItem
  | some (.stored _), item => { item with isLooted := true }
  | some (.disenchanted _ _), item => { item with isLooted := true }
  | some (.reserved player), item => { item with isBlocked := false, rollWinnerGUID := some player }
  | none, item => { item with isBlocked := false }

theorem itemAt_apply (slot slot' : UInt8) (loot : Loot) (award : Option Award) : itemAt slot' (Award.apply slot loot award) =
    if slot' = slot then (itemAt slot' loot).map (Award.onItem award) else itemAt slot' loot := by
  match award with
  | some (.stored _) => exact itemAt_modifyItem ..
  | some (.disenchanted _ _) => exact itemAt_modifyItem ..
  | some (.reserved _) => exact itemAt_modifyItem ..
  | none => exact itemAt_modifyItem ..

/-- What becomes of an item when its roll ends: one player has it, it is kept for one, or everybody may take it. -/
def Closed (slot : UInt8) (before after : Loot) (awards : List Award) : Prop :=
  ∃ item item', itemAt slot before = some item ∧ item.isLooted = false ∧ itemAt slot after = some item' ∧
    ((∃ player, (awards = [.stored player] ∨ ∃ byMail, awards = [.disenchanted player byMail]) ∧ item'.isLooted = true ∧
        after.unlootedCount = before.unlootedCount - 1) ∨
      (∃ player, awards = [.reserved player] ∧ item'.isLooted = false ∧ item'.isBlocked = false ∧
        item'.rollWinnerGUID = some player ∧ after.unlootedCount = before.unlootedCount) ∨
      (awards = [] ∧ item'.isLooted = false ∧ item'.isBlocked = false ∧ item'.rollWinnerGUID = none ∧
        after.unlootedCount = before.unlootedCount))

theorem closed_apply {slot : UInt8} {loot : Loot} {item : LootItem} (hitem : itemAt slot loot = some item)
    (hlooted : item.isLooted = false) (hnobody : item.rollWinnerGUID = none) (award : Option Award) :
    Closed slot loot (Award.apply slot loot award) award.toList := by
  have hcount (f : LootItem → LootItem) : (modifyItem slot f loot).unlootedCount = loot.unlootedCount := by
    unfold modifyItem
    split <;> rfl
  refine ⟨item, Award.onItem award item, hitem, hlooted, by rw [itemAt_apply, if_pos rfl, hitem]; rfl, ?_⟩
  match award with
  | some (.stored player) => exact .inl ⟨player, .inl rfl, rfl, rfl⟩
  | some (.disenchanted player byMail) => exact .inl ⟨player, .inr ⟨byMail, rfl⟩, rfl, rfl⟩
  | some (.reserved player) => exact .inr (.inl ⟨player, rfl, hlooted, rfl, rfl, hcount _⟩)
  | none => exact .inr (.inr ⟨rfl, hlooted, rfl, hnobody, hcount _⟩)

/-! ## Rolls and items -/

/-- The loot and the slot of a roll. -/
def Roll.place (roll : Roll) : Option Nat × UInt8 := (roll.loot, roll.itemSlot)

/-- Each need and each greed is counted once. -/
def Roll.CountedOnce (roll : Roll) : Prop :=
  roll.totalNeed.toNat = roll.votesOf (· = .need) ∧ roll.totalGreed.toNat = roll.votesOf isGreed

namespace GroupRolls

variable {s s' t : GroupRolls} {env : RollEnv} {allowedMap : Option Nat} {id i guid choice : Nat} {slot : UInt8}

def slotItem (id : Nat) (slot : UInt8) (s : GroupRolls) : Option LootItem := (s.loots id).bind (itemAt slot)

def openRolls (id : Nat) (slot : UInt8) (s : GroupRolls) : Nat := (s.rollId.map Roll.place).count (some id, slot)

/-- One roll for an item that is blocked and not looted, and it is not kept for anybody; else none. -/
def Fits (rolls : Nat) : Option LootItem → Prop
  | none => rolls = 0
  | some item => (rolls = if item.isBlocked = true ∧ item.isLooted = false then 1 else 0) ∧
    (item.isBlocked = true → item.isLooted = false → item.rollWinnerGUID = none)

def Matched (s : GroupRolls) : Prop := ∀ id slot, Fits (s.openRolls id slot) (s.slotItem id slot)

/-- The rolls fit the items, and none without voters has counted votes. -/
structure Ready (s : GroupRolls) : Prop where
  matched : s.Matched
  spent : ∀ roll ∈ s.rollId, roll.Spent

theorem openRolls_congr (h : s'.rollId.map Roll.place = s.rollId.map Roll.place) (id : Nat) (slot : UInt8) :
    s'.openRolls id slot = s.openRolls id slot := by
  unfold openRolls
  rw [h]

theorem openRolls_pos {roll : Roll} (hroll : roll ∈ s.rollId) (hid : roll.loot = some id) : 0 < s.openRolls id roll.itemSlot :=
  List.count_pos_iff.2 (List.mem_map.2 ⟨roll, hroll, Prod.ext hid rfl⟩)

theorem openRolls_pos_iff : 0 < s.openRolls id slot ↔ ∃ roll ∈ s.rollId, roll.loot = some id ∧ roll.itemSlot = slot := by
  unfold openRolls
  rw [List.count_pos_iff, List.mem_map]
  exact exists_congr fun roll => and_congr_right fun _ => Prod.ext_iff

/-- A change of one item. -/
theorem item_change {f : LootItem → LootItem} {g : Loot → Loot}
    (hg : ∀ loot slot', itemAt slot' (g loot) = if slot' = slot then (itemAt slot' loot).map f else itemAt slot' loot)
    (hl : s'.loots = Function.update s.loots id ((s.loots id).map g)) (id' : Nat) (slot' : UInt8) :
    s'.slotItem id' slot' = if id' = id ∧ slot' = slot then (s.slotItem id' slot').map f else s.slotItem id' slot' := by
  unfold slotItem
  rw [hl]
  by_cases hid : id' = id
  · subst hid
    rw [Function.update_self]
    cases s.loots id' with
    | none => split <;> rfl
    | some loot => exact (hg loot slot').trans (if_congr (and_iff_right rfl).symm rfl rfl)
  · rw [Function.update_of_ne hid, if_neg fun h => hid h.1]

/-- Only one place is looked at again. -/
theorem Matched.change (h : s.Matched)
    (hother : ∀ id' slot', ¬(id' = id ∧ slot' = slot) →
      s'.slotItem id' slot' = s.slotItem id' slot' ∧ s'.openRolls id' slot' = s.openRolls id' slot')
    (hhere : Fits (s'.openRolls id slot) (s'.slotItem id slot)) : s'.Matched := by
  intro id' slot'
  by_cases hsame : id' = id ∧ slot' = slot
  · rw [hsame.1, hsame.2]
    exact hhere
  · rw [(hother id' slot' hsame).1, (hother id' slot' hsame).2]
    exact h id' slot'

/-- The item of an open roll. -/
theorem Matched.rolled (h : s.Matched) {roll : Roll} (hroll : roll ∈ s.rollId) (hid : roll.loot = some id) :
    s.openRolls id roll.itemSlot = 1 ∧ ∃ item, s.slotItem id roll.itemSlot = some item ∧ item.isLooted = false ∧
      item.rollWinnerGUID = none := by
  have hpos := openRolls_pos hroll hid
  have hfits := h id roll.itemSlot
  cases hitem : s.slotItem id roll.itemSlot with
  | none =>
    rw [hitem] at hfits
    exact absurd hpos (by rw [show s.openRolls id roll.itemSlot = 0 from hfits]; exact Nat.lt_irrefl 0)
  | some item =>
    rw [hitem] at hfits
    obtain ⟨hone, hnobody⟩ := hfits
    by_cases hheld : item.isBlocked = true ∧ item.isLooted = false
    · rw [if_pos hheld] at hone
      exact ⟨hone, item, rfl, hheld.2, hnobody hheld.1 hheld.2⟩
    · rw [if_neg hheld] at hone
      exact absurd hpos (by rw [hone]; exact Nat.lt_irrefl 0)

/-- A roll that is changed in its place. -/
theorem Ready.modify (h : s.Ready) {f : Roll → Roll} (hplace : ∀ roll, (f roll).place = roll.place)
    (hspent : ∀ roll, s.rollId[i]? = some roll → (f roll).Spent) : ({ s with rollId := s.rollId.modify i f } : GroupRolls).Ready where
  matched id slot := by
    rw [openRolls_congr (map_modify_same hplace s.rollId i)]
    exact h.matched id slot
  spent := forall_modify h.spent hspent

/-! ## The end of a roll -/

/-- What is counted of the places but for one. -/
theorem openRolls_erase {roll : Roll} (hroll : s.rollId[i]? = some roll) (hr : s'.rollId = s.rollId.eraseIdx i) (id : Nat)
    (slot : UInt8) : s'.openRolls id slot + (if roll.place = (some id, slot) then 1 else 0) = s.openRolls id slot := by
  obtain ⟨hlt, hget⟩ := List.getElem?_eq_some_iff.1 hroll
  have hperm := (List.getElem_cons_eraseIdx_perm hlt).map Roll.place
  unfold openRolls
  rw [hr, ← hperm.count_eq, List.map_cons, List.count_cons, hget]
  simp only [beq_iff_eq]

theorem Matched.countTheRoll (h : s.Matched) {roll : Roll} (hroll : s.rollId[i]? = some roll) (hcounted : roll.Counted)
    (hspent : roll.Spent) : (s.countTheRoll env allowedMap i).1.Matched := by
  have hmem := List.mem_of_getElem? hroll
  obtain ⟨hrolls, -⟩ := countTheRoll_spec env allowedMap i s
  have hcount := openRolls_erase hroll hrolls
  cases hlink : roll.loot.bind fun id => (s.loots id).map fun loot => (id, loot) with
  | none =>
    -- its loot is gone
    have hsame : (s.countTheRoll env allowedMap i).1.loots = s.loots := by
      unfold GroupRolls.countTheRoll getLoot
      rw [hroll]
      dsimp only
      split
      next id loot hid hloot =>
        rw [hid] at hlink hloot
        rw [Option.bind_some] at hlink hloot
        rw [hloot] at hlink
        cases hlink
      next => rfl
    intro id slot
    have hother : roll.place ≠ (some id, slot) := fun hplace => by
      have hid : roll.loot = some id := congrArg Prod.fst hplace
      obtain ⟨-, item, hitem, -⟩ := h.rolled hmem hid
      unfold slotItem at hitem
      obtain ⟨loot, hloot, -⟩ := Option.bind_eq_some_iff.1 hitem
      rw [hid, Option.bind_some, hloot] at hlink
      cases hlink
    have hsum := hcount id slot
    rw [if_neg hother, Nat.add_zero] at hsum
    unfold slotItem
    rw [hsum, hsame]
    exact h id slot
  | some link =>
    obtain ⟨id, hid, hlink⟩ := Option.bind_eq_some_iff.1 hlink
    obtain ⟨loot, hloot, -⟩ := Option.map_eq_some_iff.1 hlink
    obtain ⟨award, -, -, happly⟩ := @settle_spec env allowedMap roll hcounted loot
    have happly := happly.resolve_right fun hno => hno.2 hspent
    have hloots : (s.countTheRoll env allowedMap i).1.loots =
        Function.update s.loots id ((s.loots id).map fun loot => Award.apply roll.itemSlot loot award) := by
      rw [countTheRoll_settle env allowedMap hroll hid hloot, happly, hloot]
      rfl
    have hitems := item_change (fun loot slot' => itemAt_apply roll.itemSlot slot' loot award) hloots
    obtain ⟨hone, item, hitem, -, -⟩ := h.rolled hmem hid
    refine @Matched.change s _ id roll.itemSlot h (fun id' slot' hne => ⟨by rw [hitems, if_neg hne], ?_⟩) ?_
    · have hsum := hcount id' slot'
      rwa [if_neg fun hplace => hne ⟨(Option.some_inj.1 (hid.symm.trans (congrArg Prod.fst hplace))).symm,
        (congrArg Prod.snd hplace).symm⟩, Nat.add_zero] at hsum
    · have hsum := hcount id roll.itemSlot
      rw [if_pos (show roll.place = (some id, roll.itemSlot) from Prod.ext hid rfl), hone] at hsum
      rw [hitems, if_pos ⟨rfl, rfl⟩, hitem, show (s.countTheRoll env allowedMap i).1.openRolls id roll.itemSlot = 0 by omega]
      match award with
      | some (.stored _) => exact ⟨(if_neg fun h => Bool.noConfusion h.2).symm, fun _ h => Bool.noConfusion h⟩
      | some (.disenchanted _ _) => exact ⟨(if_neg fun h => Bool.noConfusion h.2).symm, fun _ h => Bool.noConfusion h⟩
      | some (.reserved _) => exact ⟨(if_neg fun h => Bool.noConfusion h.1).symm, fun h => Bool.noConfusion h⟩
      | none => exact ⟨(if_neg fun h => Bool.noConfusion h.1).symm, fun h => Bool.noConfusion h⟩

theorem Ready.countTheRoll (h : s.Ready) (hcounted : ∀ roll, s.rollId[i]? = some roll → roll.Counted) :
    (s.countTheRoll env allowedMap i).1.Ready := by
  cases hroll : s.rollId[i]? with
  | none =>
    unfold GroupRolls.countTheRoll
    rw [hroll]
    exact h
  | some roll =>
    refine ⟨h.matched.countTheRoll hroll (hcounted roll hroll) (h.spent roll (List.mem_of_getElem? hroll)), fun roll' hr => ?_⟩
    rw [(countTheRoll_spec env allowedMap i s).1] at hr
    exact h.spent roll' (List.mem_of_mem_eraseIdx hr)

/-! ## Votes and removals -/

theorem vote_place (player : ObjectGuid) (choice : Nat) (roll : Roll) : (vote player choice roll).place = roll.place := by
  rcases Roll.vote_cases player choice roll with hv | ⟨v, -, hv⟩
  · rw [hv]
  · rw [hv]
    rfl

theorem withdraw_place (guid : ObjectGuid) (roll : Roll) : (withdraw guid roll).place = roll.place := by
  unfold withdraw
  split <;> rfl

/-- Who has voted is a voter. -/
theorem vote_spent {roll : Roll} (player : ObjectGuid) (choice : Nat) (h : roll.Spent) : (vote player choice roll).Spent := by
  rcases Roll.vote_cases player choice roll with hv | ⟨v, -, hv⟩
  · rw [hv]
    exact h
  rw [hv]
  intro hnone
  have hmem : (player, v) ∈ (roll.playerVote.insert player v).entries := OMap.mem_entries.2 (OMap.find?_insert_self ..)
  rw [show (roll.playerVote.insert player v).entries = [] from hnone] at hmem
  cases hmem

variable {player : ObjectGuid} {loot : Loot}

theorem withdraw_spent {roll : Roll} (hs : roll.Sound) (h : roll.Spent)
    (hlast : (∀ other, (roll.playerVote.find? other).isSome = true → other = player) → roll.CountedOnce) :
    (withdraw player roll).Spent := by
  intro hnone
  rcases Roll.withdraw_cases hs player with hsame | ⟨v, hcount, -, hneed, hgreed, -⟩
  · rw [hsame] at hnone ⊢
    exact h hnone
  have hno (p : RollVote → Bool) : (withdraw player roll).votesOf p = 0 := by
    rw [Roll.votesOf_eq_countP, hnone]
    rfl
  obtain ⟨hneed', hgreed'⟩ := hlast fun other hother => by
    by_contra hne
    have hfind := Roll.find?_withdraw player other roll
    rw [if_neg hne] at hfind
    obtain ⟨vote, hvote⟩ := Option.isSome_iff_exists.1 hother
    have hmem := OMap.mem_entries.2 (hfind.trans hvote)
    rw [hnone] at hmem
    cases hmem
  have hneeds := hcount (· = .need)
  have hgreeds := hcount isGreed
  rw [hno] at hneeds hgreeds
  simp only [decide_eq_true_eq] at hneeds
  exact ⟨UInt8.toNat_inj.1 (show _ = 0 by omega), UInt8.toNat_inj.1 (show _ = 0 by omega)⟩

theorem Ready.countRollVote (h : s.Ready) (hs : s.Sound) : (s.countRollVote env player guid choice).1.Ready := by
  rcases countRollVote_taken env player guid choice s with hsame | ⟨i, roll, hroll, hvoter, htaken⟩
  · exact hsame.symm ▸ h
  have hvoted := h.modify (i := i) (vote_place player choice) fun roll hr =>
    vote_spent player choice (h.spent roll (List.mem_of_getElem? hr))
  rw [htaken]
  split
  next =>
    refine hvoted.countTheRoll fun roll' hr' => ?_
    rw [List.getElem?_modify_eq, hroll] at hr'
    cases hr'
    exact (hs.rolls roll (List.mem_of_getElem? hroll)).counted_vote hvoter
  next => exact hvoted

theorem Ready.endRounds {env : Nat → RollEnv} {loot : Nat} : ∀ {n : Nat} {s : GroupRolls}, s.Ready → s.Sound →
    (s.endRounds env allowedMap loot n).1.Ready
  | 0, _, h, _ => h
  | n + 1, s, h, hs => by
    unfold GroupRolls.endRounds
    split
    next => exact h
    next i _ =>
      exact Ready.endRounds (h.countTheRoll fun roll hr => (hs.rolls roll (List.mem_of_getElem? hr)).counted) (hs.countTheRoll i)

/-- A removal changes no loot. -/
theorem removeMember_loots (hs : s.Sound) (player : ObjectGuid) (method : RemoveMethod) (inDungeon : Bool) :
    (s.removeMember env player method inDungeon).1.loots = s.loots := by
  have hvotes : (s.removeVotes env player s.rollId.length 0).1.loots = s.loots := by
    rw [removeVotes_eq hs.guids (by omega)]
  unfold removeMember
  split
  next => rfl
  next g _ =>
  split
  next => rfl
  next =>
  have hremoved : (if g.minMembers < g.memberSlots.length then s.removeVotes env player s.rollId.length 0 else (s, [])).1.loots =
      s.loots := by
    split
    · exact hvotes
    · rfl
  dsimp only
  split <;> exact hremoved

/-- A removal that takes no roll from an item, and no last voter from a roll that has a vote counted twice. -/
def RemovesCleanly (env : RollEnv) (player : ObjectGuid) (method : RemoveMethod) (inDungeon : Bool) (s : GroupRolls) : Prop :=
  ∀ g, s.group = some g → (g.isLFGGroup && method = .kick) = true ∨
    (g.Disbands env.connected player inDungeon → ∀ roll ∈ s.rollId, roll.loot = none) ∧
      ∀ roll ∈ s.rollId, (∀ other, (roll.playerVote.find? other).isSome = true → other = player) → roll.CountedOnce

/-- No roll for an item is left. -/
theorem Ready.cleared (h : s.Ready) (hnone : ∀ roll ∈ s.rollId, roll.loot = none) (hloots : s'.loots = s.loots)
    (hrolls : s'.rollId = []) : s'.Ready := by
  refine ⟨fun id slot => ?_, fun roll hr => ?_⟩
  · have hfits := h.matched id slot
    have hzero : s.openRolls id slot = 0 := Nat.eq_zero_of_not_pos fun hpos => by
      obtain ⟨roll, hr, hid, -⟩ := openRolls_pos_iff.1 hpos
      rw [hnone roll hr] at hid
      cases hid
    rw [hzero] at hfits
    have hzero' : s'.openRolls id slot = 0 := by
      unfold openRolls
      rw [hrolls]
      rfl
    unfold slotItem at hfits ⊢
    rw [hzero', hloots]
    exact hfits
  · rw [hrolls] at hr
    cases hr

theorem Ready.removeMember (h : s.Ready) (hs : s.Sound) {method : RemoveMethod} {inDungeon : Bool}
    (hclean : RemovesCleanly env player method inDungeon s) : (s.removeMember env player method inDungeon).1.Ready := by
  have hloots := @removeMember_loots s env hs player method inDungeon
  cases hg : s.group with
  | none =>
    unfold GroupRolls.removeMember
    rw [hg]
    exact h
  | some g =>
    have hrolls := @removeMember_rolls s env player hs g hg method inDungeon
    have hsame (hsame : (s.removeMember env player method inDungeon).1.rollId.map Roll.place = s.rollId.map Roll.place) :
        (s.removeMember env player method inDungeon).1.Matched := fun id slot => by
      have hfits := h.matched id slot
      unfold slotItem at hfits ⊢
      rw [openRolls_congr hsame, hloots]
      exact hfits
    split at hrolls
    next => exact ⟨hsame (by rw [hrolls]), by rw [hrolls]; exact h.spent⟩
    next hkick =>
    obtain ⟨hdisbands, honce⟩ := (hclean g hg).resolve_left hkick
    split at hrolls
    next hd => exact h.cleared (hdisbands hd) hloots hrolls
    next =>
    refine ⟨hsame (by rw [hrolls, List.map_map]; exact List.map_congr_left fun roll _ => withdraw_place player roll), ?_⟩
    rw [hrolls]
    intro roll hr
    obtain ⟨old, hold, rfl⟩ := List.mem_map.1 hr
    exact withdraw_spent (hs.rolls old hold) (h.spent old hold) (honce old hold)

/-! ## New rolls -/

/-- An item as it is filled in. -/
def Free : Option LootItem → Prop
  | none => False
  | some item => item.isBlocked = false ∧ item.isLooted = false ∧ item.rollWinnerGUID = none

/-- A loot as it is filled. -/
structure FreshLoot (loot : Loot) : Prop where
  free : ∀ item ∈ loot.items ++ loot.questItems, Free (some item)
  items : loot.items.length ≤ MAX_NR_LOOT_ITEMS
  questItems : loot.questItems.length ≤ MAX_NR_QUEST_ITEMS

/-- If anybody is near, somebody who is may roll. -/
def Wanted (members : List Candidate) (item : LootItem) : Prop := (∃ member ∈ members, member.atGroupRewardDistance = true) →
  ∃ member ∈ members, member.atGroupRewardDistance = true ∧ member.canRollOnItem item = true

section Joining

variable {quest : Bool} {item : LootItem} {members : List Candidate} {roll : Roll}

theorem joined_same : ∀ {members : List Candidate} {roll : Roll}, (members.foldl (join quest item) roll).place = roll.place ∧
    (members.foldl (join quest item) roll).totalNeed = roll.totalNeed ∧
      (members.foldl (join quest item) roll).totalGreed = roll.totalGreed
  | [], _ => ⟨rfl, rfl, rfl⟩
  | member :: members, roll => by
    have hjoin : (join quest item roll member).place = roll.place ∧ (join quest item roll member).totalNeed = roll.totalNeed ∧
        (join quest item roll member).totalGreed = roll.totalGreed := by
      unfold join
      split <;> exact ⟨rfl, rfl, rfl⟩
    obtain ⟨hplace, hneed, hgreed⟩ := @joined_same members (join quest item roll member)
    exact ⟨hplace.trans hjoin.1, hneed.trans hjoin.2.1, hgreed.trans hjoin.2.2⟩

theorem joined_far (h : ∀ member ∈ members, member.atGroupRewardDistance = false) : members.foldl (join quest item) roll = roll := by
  induction members with
  | nil => rfl
  | cons member members ih =>
    rw [List.foldl_cons, Roll.join_far (h member List.mem_cons_self)]
    exact ih fun m hm => h m (List.mem_cons_of_mem _ hm)

/-- Where one who is near may roll, not all pass at once. -/
theorem passes_joined : ∀ {members : List Candidate} {roll : Roll},
    roll.totalPlayersRolling.toNat + members.length ≤ MAXRAIDSIZE → roll.totalPass.toNat ≤ roll.totalPlayersRolling.toNat →
    (roll.totalPass.toNat < roll.totalPlayersRolling.toNat ∨
      ∃ member ∈ members, member.atGroupRewardDistance = true ∧ member.canRollOnItem item = true) →
    (members.foldl (join quest item) roll).totalPass.toNat < (members.foldl (join quest item) roll).totalPlayersRolling.toNat
  | [], _, _, _, h => h.resolve_right fun ⟨_, hm, _⟩ => List.not_mem_nil hm
  | member :: members, roll, hroom, hle, h => by
    rw [List.length_cons] at hroom
    rw [List.exists_mem_cons_iff] at h
    cases hnear : member.atGroupRewardDistance with
    | false =>
      rw [List.foldl_cons, Roll.join_far hnear]
      refine passes_joined (by omega) hle (h.imp_right fun h => h.resolve_left fun hm => ?_)
      rw [hnear] at hm
      exact Bool.false_ne_true hm.1
    | true =>
      have hone : (join quest item roll member).totalPlayersRolling.toNat = roll.totalPlayersRolling.toNat + 1 := by
        rw [Roll.join_eq hnear]
        exact toNat_add_one (by omega)
      have hpass : (join quest item roll member).totalPass.toNat =
          roll.totalPass.toNat + if member.canRollOnItem item then 0 else 1 := by
        rw [Roll.join_eq hnear]
        show (if member.canRollOnItem item then roll.totalPass else roll.totalPass + 1).toNat = _
        split
        · rfl
        · exact toNat_add_one (by omega)
      rw [List.foldl_cons]
      cases hcan : member.canRollOnItem item with
      | true =>
        rw [hcan, if_pos rfl] at hpass
        exact passes_joined (by omega) (by omega) (.inl (by omega))
      | false =>
        rw [hcan, if_neg Bool.false_ne_true] at hpass
        refine passes_joined (by omega) (by omega) (h.imp (fun hlt => by omega) fun h => h.resolve_left fun hm => ?_)
        rw [hcan] at hm
        exact Bool.false_ne_true hm.2

end Joining

section Looting

variable {needBeforeGreed quest drops : Bool} {quality : Nat → Option Nat} {members : List Candidate} {item : LootItem}

/-- A new roll comes with the flag of its item. -/
theorem Ready.beginRoll (h : s.Ready) (hfree : Free (s.slotItem id slot)) (hwanted : drops = true → Wanted members item)
    (hfew : members.length ≤ MAXRAIDSIZE) : (s.beginRoll quest drops members id slot item).Ready ∧
      ∀ slot', slot' ≠ slot → (s.beginRoll quest drops members id slot item).slotItem id slot' = s.slotItem id slot' := by
  obtain ⟨hplace, hneed, hgreed⟩ := @joined_same quest item members ⟨s.nextItem, item.itemid, slot, some id, .empty, 0, 0, 0, 0⟩
  have hlast (l : List Roll) (roll : Roll) : (l ++ [roll]).map Roll.place = l.map Roll.place ++ [roll.place] := List.map_append
  unfold GroupRolls.beginRoll
  extract_lets roll u v
  split
  next => exact ⟨⟨h.matched, h.spent⟩, fun _ _ => rfl⟩
  next hsome =>
  have hopen : ¬(drops && roll.totalPass = roll.totalPlayersRolling) = true := fun hdrop => by
    obtain ⟨hdrops, hall⟩ := Bool.and_eq_true_iff.1 hdrop
    by_cases hnear : ∃ member ∈ members, member.atGroupRewardDistance = true
    · have hless := @passes_joined quest item members ⟨s.nextItem, item.itemid, slot, some id, .empty, 0, 0, 0, 0⟩
        (by show 0 + _ ≤ _; omega) (Nat.le_refl _) (.inr (hwanted hdrops hnear))
      exact Nat.lt_irrefl _ (Nat.lt_of_lt_of_eq hless (congrArg UInt8.toNat (of_decide_eq_true hall)).symm)
    · have hfar : roll = _ := joined_far fun member hm => by simpa using fun hn => hnear ⟨member, hm, hn⟩
      exact hsome (by rw [hfar])
  rw [if_neg hopen]
  have hitems := @item_change s { v with rollId := v.rollId ++ [roll] } id slot (fun item => { item with isBlocked := true }) _
    (fun loot slot' => itemAt_modifyItem slot slot' _ loot) rfl
  have hrolls (id' : Nat) (slot' : UInt8) : ({ v with rollId := v.rollId ++ [roll] } : GroupRolls).openRolls id' slot' =
      s.openRolls id' slot' + if (some id, slot) = (some id', slot') then 1 else 0 := by
    unfold openRolls
    rw [hlast, List.count_append, show roll.place = (some id, slot) from hplace, List.count_singleton]
    simp only [beq_iff_eq]
    rfl
  refine ⟨⟨@Matched.change s _ id slot h.matched (fun id' slot' hne => ⟨by rw [hitems, if_neg hne], ?_⟩) ?_, ?_⟩,
    fun slot' hne => by rw [hitems, if_neg fun he => hne he.2]⟩
  · rw [hrolls, if_neg fun he => hne ⟨(Option.some_inj.1 (Prod.ext_iff.1 he).1).symm, (Prod.ext_iff.1 he).2.symm⟩, Nat.add_zero]
  · have hfits := h.matched id slot
    rw [hrolls, if_pos rfl, hitems, if_pos ⟨rfl, rfl⟩]
    cases hitem : s.slotItem id slot with
    | none =>
      rw [hitem] at hfree
      exact hfree.elim
    | some free =>
      rw [hitem] at hfree hfits
      rw [show s.openRolls id slot = 0 from hfits.1.trans (if_neg fun he => Bool.false_ne_true (hfree.1.symm.trans he.1))]
      exact ⟨(if_pos ⟨rfl, hfree.2.1⟩).symm, fun _ _ => hfree.2.2⟩
  · intro roll' hr
    rcases List.mem_append.1 hr with hr | hr
    · exact h.spent roll' hr
    · rw [List.mem_singleton.1 hr]
      exact fun _ => ⟨hneed, hgreed⟩

theorem Ready.lootOne (h : s.Ready) (hfree : Free (s.slotItem id slot)) (hfew : members.length ≤ MAXRAIDSIZE)
    (hwanted : needBeforeGreed = false → quest = false → RolledFor needBeforeGreed quality s.lootThreshold quest item →
      Wanted members item) (hs : s.lootOne needBeforeGreed quality members id quest slot item = some s') :
    s'.Ready ∧ s'.lootThreshold = s.lootThreshold ∧ ∀ slot', slot' ≠ slot → s'.slotItem id slot' = s.slotItem id slot' := by
  rcases lootOne_cases hs with rfl | ⟨hrolled, rfl⟩ | rfl
  · exact ⟨h, rfl, fun _ _ => rfl⟩
  · have hdrop (hdrops : (!needBeforeGreed && !quest) = true) : Wanted members item := by
      rw [Bool.and_eq_true, Bool.not_eq_true', Bool.not_eq_true'] at hdrops
      exact hwanted hdrops.1 hdrops.2 hrolled
    obtain ⟨hready, hsame⟩ := h.beginRoll hfree hdrop hfew
    exact ⟨hready, lootThreshold_beginRoll, hsame⟩
  · have hitems := fun u => @item_change s u id slot (fun item => { item with isUnderthreshold := true }) _
      (fun loot slot' => itemAt_modifyItem slot slot' _ loot)
    refine ⟨⟨fun id' slot' => ?_, h.spent⟩, rfl, fun slot' hne => by rw [hitems _ rfl, if_neg fun he => hne he.2]⟩
    have hfits := h.matched id' slot'
    rw [hitems _ rfl]
    split
    next =>
      cases hitem : s.slotItem id' slot' with
      | none => rwa [hitem] at hfits
      | some item => rwa [hitem] at hfits
    next => exact hfits

/-- The slots are gone through in their order. -/
theorem Ready.lootAll (hfew : members.length ≤ MAXRAIDSIZE) : ∀ {items : List (Bool × LootItem)} {n : Nat} {s : GroupRolls}, s.Ready →
    n + items.length ≤ 256 → (∀ k < items.length, Free (s.slotItem id (UInt8.ofNat (n + k)))) →
    (∀ e ∈ items, needBeforeGreed = false → e.1 = false → RolledFor needBeforeGreed quality s.lootThreshold e.1 e.2 →
      Wanted members e.2) →
    runSteps (fun (e : Nat × Bool × LootItem) s => s.lootOne needBeforeGreed quality members id e.2.1 (UInt8.ofNat e.1) e.2.2)
      ((items.zipIdx n).map fun e => (e.2, e.1)) s = some s' → s'.Ready
  | [], _, _, h, _, _, _, hs => by
    cases hs
    exact h
  | e :: items, n, s, h, hlen, hfree, hwanted, hs => by
    rw [List.length_cons] at hlen hfree
    obtain ⟨t, ht, hs⟩ := Option.bind_eq_some_iff.1 hs
    obtain ⟨hready, hthreshold, hsame⟩ := h.lootOne (hfree 0 (Nat.succ_pos _)) hfew (hwanted e List.mem_cons_self) ht
    refine Ready.lootAll hfew hready (n := n + 1) (by omega) (fun k hk => ?_)
      (fun e' he' => hthreshold.symm ▸ hwanted e' (List.mem_cons_of_mem _ he')) hs
    have hnext := hfree (k + 1) (by omega)
    rw [show n + 1 + k = n + (k + 1) by omega, hsame _ fun he => ?_]
    · exact hnext
    · have hto := congrArg UInt8.toNat he
      rw [UInt8.toNat_ofNat_of_lt' (by show _ < 256; omega), UInt8.toNat_ofNat_of_lt' (by show _ < 256; omega)] at hto
      omega

end Looting

/-! ## Runs -/

theorem itemAt_mem {item : LootItem} (h : itemAt slot loot = some item) : item ∈ loot.items ++ loot.questItems := by
  unfold itemAt at h
  split at h
  · exact List.mem_append_right _ (List.mem_of_getElem? h)
  · exact List.mem_append_left _ (List.mem_of_getElem? h)

theorem FreshLoot.fits (h : FreshLoot loot) (slot : UInt8) : Fits 0 (itemAt slot loot) := by
  cases hitem : itemAt slot loot with
  | none => rfl
  | some item =>
    have hfree := h.free item (itemAt_mem hitem)
    exact ⟨(if_neg fun he => Bool.false_ne_true (hfree.1.symm.trans he.1)).symm, fun _ _ => hfree.2.2⟩

theorem FreshLoot.slots (h : FreshLoot loot) {k : Nat} (hk : k < loot.items.length + loot.questItems.length) :
    Free (itemAt (UInt8.ofNat k) loot) := by
  have hitems := h.items
  have hquest := h.questItems
  unfold MAX_NR_LOOT_ITEMS at hitems
  unfold MAX_NR_QUEST_ITEMS at hquest
  unfold itemAt
  rw [UInt8.toNat_ofNat_of_lt' (by show _ < 256; omega)]
  split
  next hle =>
    have hlt : k - loot.items.length < loot.questItems.length := by omega
    rw [List.getElem?_eq_getElem hlt]
    exact h.free _ (List.mem_append_right _ (List.getElem_mem hlt))
  next hlt =>
  rw [List.getElem?_eq_getElem (Nat.not_le.1 hlt)]
  exact h.free _ (List.mem_append_left _ (List.getElem_mem _))

/-- A step with nothing out of the way: a loot is looted by the group as it was filled, no roll is given up at once, and a
removal or the end of the group takes no roll from an item that is there. -/
def Op.Orderly : Op → GroupRolls → Prop
  | .groupLoot needBeforeGreed quality members id, s => ∀ loot, s.loots id = some loot → FreshLoot loot ∧
    (needBeforeGreed = false → ∀ item ∈ loot.items, RolledFor needBeforeGreed quality s.lootThreshold false item →
      Wanted members item)
  | .removeMember env player method inDungeon, s => RemovesCleanly env player method inDungeon s
  | .disband, s => ∀ roll ∈ s.rollId, roll.loot = none
  | .fillLoot id loot, s => FreshLoot loot ∧ ∀ roll ∈ s.rollId, roll.loot ≠ some id
  | .changeLoot _ _, _ => False
  | _, _ => True

theorem Ready.groupLoot (h : s.Ready) {needBeforeGreed : Bool} {quality : Nat → Option Nat} {members : List Candidate}
    (horderly : (Op.groupLoot needBeforeGreed quality members id).Orderly s) (hfew : members.length ≤ MAXRAIDSIZE)
    (hs : s.groupLoot needBeforeGreed quality members id = some s') : s'.Ready := by
  unfold GroupRolls.groupLoot at hs
  split at hs
  next =>
    cases hs
    exact h
  next loot hloot =>
  obtain ⟨hfresh, hwanted⟩ := horderly loot hloot
  have hitems := hfresh.items
  have hquest := hfresh.questItems
  unfold MAX_NR_LOOT_ITEMS at hitems
  unfold MAX_NR_QUEST_ITEMS at hquest
  have hlen : (loot.items.map (false, ·) ++ loot.questItems.map (true, ·)).length =
      loot.items.length + loot.questItems.length := by
    rw [List.length_append, List.length_map, List.length_map]
  refine h.lootAll hfew (n := 0) (by omega) (fun k hk => ?_) (fun e he hneed hitem => ?_) hs
  · unfold slotItem
    rw [hloot, Nat.zero_add]
    exact hfresh.slots (hlen ▸ hk)
  · rcases List.mem_append.1 he with he | he
    · obtain ⟨item, hmem, rfl⟩ := List.mem_map.1 he
      exact hwanted hneed item hmem
    · obtain ⟨item, -, rfl⟩ := List.mem_map.1 he
      cases hitem

theorem Ready.fillLoot (h : s.Ready) (hfresh : FreshLoot loot) (hnone : ∀ roll ∈ s.rollId, roll.loot ≠ some id) :
    (s.setLoot id loot).Ready := by
  refine ⟨fun id' slot' => ?_, h.spent⟩
  by_cases hid : id' = id
  · have hzero : (s.setLoot id loot).openRolls id' slot' = 0 := Nat.eq_zero_of_not_pos fun hpos => by
      obtain ⟨roll, hr, hlink, -⟩ := openRolls_pos_iff.1 hpos
      exact hnone roll hr (hid ▸ hlink)
    have hitem : (s.setLoot id loot).slotItem id' slot' = itemAt slot' loot := by
      unfold slotItem setLoot
      dsimp only
      rw [hid, Function.update_self, Option.bind_some]
    rw [hzero, hitem]
    exact hfresh.fits slot'
  have hitem : (s.setLoot id loot).slotItem id' slot' = s.slotItem id' slot' := by
    unfold slotItem setLoot
    dsimp only
    rw [Function.update_of_ne hid]
  rw [hitem]
  exact h.matched id' slot'

theorem Ready.removeLoot (h : s.Ready) (id : Nat) : ({ s with
    loots := Function.update s.loots id none
    rollId := s.rollId.map fun roll => if roll.loot = some id then { roll with loot := none } else roll } : GroupRolls).Ready := by
  refine ⟨fun id' slot' => ?_, fun roll hr => ?_⟩
  · unfold slotItem openRolls
    rw [List.map_map]
    dsimp only
    by_cases hid : id' = id
    · rw [hid, Function.update_self]
      refine List.count_eq_zero.2 fun hmem => ?_
      obtain ⟨roll, -, hplace⟩ := List.mem_map.1 hmem
      dsimp only [Function.comp] at hplace
      split at hplace
      next => cases congrArg Prod.fst hplace
      next hne => exact hne (congrArg Prod.fst hplace)
    rw [Function.update_of_ne hid]
    have hfits := h.matched id' slot'
    unfold slotItem openRolls at hfits
    rw [List.count, List.countP_map] at hfits ⊢
    rw [List.countP_congr fun roll _ => ?_]
    · exact hfits
    · dsimp only [Function.comp]
      split
      next hlink =>
        rw [beq_iff_eq, beq_iff_eq]
        exact iff_of_false (fun he => Option.some_ne_none _ (congrArg Prod.fst he).symm)
          fun he => hid (Option.some_inj.1 ((congrArg Prod.fst he).symm.trans hlink))
      next => rfl
  · obtain ⟨old, hold, rfl⟩ := List.mem_map.1 hr
    split
    · exact h.spent old hold
    · exact h.spent old hold

theorem Ready.step (h : s.Ready) (hs : s.Sound) {op : Op} (hok : op.Allowed s) (horderly : op.Orderly s)
    (hstep : step op s = some s') : s'.Ready := by
  cases op with
  | groupLoot needBeforeGreed quality members id => exact h.groupLoot horderly hok.2 hstep
  | countRollVote env player guid choice => cases hstep; exact h.countRollVote hs
  | endRoll env loot allowedMap => cases hstep; exact h.endRounds hs
  | removeMember env player method inDungeon => cases hstep; exact h.removeMember hs horderly
  | group g => cases hstep; exact ⟨h.matched, h.spent⟩
  | disband => cases hstep; exact h.cleared horderly rfl rfl
  | fillLoot id loot => cases hstep; exact h.fillLoot horderly.1 horderly.2
  | changeLoot id f => exact horderly.elim
  | removeLoot id => cases hstep; exact h.removeLoot id

theorem Called.ready (hs : s.Sound) (hr : s.Ready) (h : Called s t i) : t.Ready := by
  induction h with
  | vote player choice _ hroll _ =>
    exact hr.modify (vote_place player choice) fun roll hroll => vote_spent player choice (hr.spent roll (List.mem_of_getElem? hroll))
  | ended => exact hr
  | next env allowedMap hcalled _ ih =>
    exact ih.countTheRoll fun roll hroll => (hcalled.spec hs).1 roll (List.mem_of_getElem? hroll)

/-- In every such run an item that nobody has yet is blocked exactly while a roll for it is open, and when a roll ends, its
item goes to one player, is kept for one or becomes free, with no other roll for it left. -/
theorem reaches_blocked {lootThreshold : Nat} (h : Reaches step (fun op s => op.Allowed s ∧ op.Orderly s) (start lootThreshold) s) :
    (∀ id slot item, s.slotItem id slot = some item → item.isLooted = false →
      (item.isBlocked = true ↔ ∃ roll ∈ s.rollId, roll.loot = some id ∧ roll.itemSlot = slot)) ∧
    ∀ t i, Called s t i → ∀ env allowedMap, ∃ roll id before after, t.rollId[i]? = some roll ∧ roll.loot = some id ∧
      t.loots id = some before ∧ (t.countTheRoll env allowedMap i).1.loots = Function.update t.loots id (some after) ∧
      Closed roll.itemSlot before after (t.countTheRoll env allowedMap i).2 ∧
      ∀ other ∈ (t.countTheRoll env allowedMap i).1.rollId, ¬(other.loot = some id ∧ other.itemSlot = roll.itemSlot) := by
  obtain ⟨hs, hr⟩ : s.Sound ∧ s.Ready := h.invariant (fun s => s.Sound ∧ s.Ready)
    (fun op a b ha hok hstep => ⟨ha.1.step hok.1 hstep, ha.2.step ha.1 hok.1 hok.2 hstep⟩)
    ⟨sound_start lootThreshold, fun _ _ => rfl, fun _ hr => absurd hr List.not_mem_nil⟩
  refine ⟨fun id slot item hitem hlooted => ?_, fun t i hcalled env allowedMap => ?_⟩
  · have hfits := hr.matched id slot
    rw [hitem] at hfits
    rw [← openRolls_pos_iff, hfits.1]
    split
    next hheld => exact iff_of_true hheld.1 Nat.one_pos
    next hfree => exact iff_of_false (fun hb => hfree ⟨hb, hlooted⟩) (Nat.lt_irrefl 0)
  · have ht := hcalled.ready hs hr
    obtain ⟨hcounted, -, roll, id, hroll, hid⟩ := hcalled.spec hs
    have hmem := List.mem_of_getElem? hroll
    obtain ⟨hone, item, hitem, hlooted, hnobody⟩ := ht.matched.rolled hmem hid
    obtain ⟨before, hbefore, hitem⟩ := Option.bind_eq_some_iff.1 hitem
    obtain ⟨award, haward, -, happly⟩ := @settle_spec env allowedMap roll (hcounted roll hmem) before
    have happly := happly.resolve_right fun hno => hno.2 (ht.spent roll hmem)
    have hsettle := countTheRoll_settle env allowedMap hroll hid hbefore
    refine ⟨roll, id, before, Award.apply roll.itemSlot before award, hroll, hid, hbefore, by rw [hsettle, happly]; rfl, ?_,
      fun other hother hplace => ?_⟩
    · rw [hsettle, haward]
      exact closed_apply hitem hlooted hnobody award
    · have hleft := openRolls_erase hroll (countTheRoll_spec env allowedMap i t).1 id roll.itemSlot
      rw [if_pos (show roll.place = (some id, roll.itemSlot) from Prod.ext hid rfl), hone] at hleft
      have hpos := openRolls_pos_iff.2 ⟨other, hother, hplace⟩
      omega

/-- A loot that everybody who is near passes at once, for which nobody may roll. -/
def passedAtOnce : List Op := (threeRoll []).take 2 ++
  [.groupLoot false (fun _ => some 2) ([1, 2, 3].map fun guid => ⟨guid, true, false, fun _ => false⟩) 0]

/-- Member 1 needs the item twice, and the three who roll for it leave the two who do not. -/
def neededTwice : List Op :=
  let env : RollEnv := ⟨fun _ => true, fun _ => true, fun _ => some 0, fun _ => true, fun _ => Fin.last 99⟩
  threeRoll [1, 1] ++ [.group ((((Group.create 1 false false false).addMember 2).addMember 3).addMember 4 |>.addMember 5)] ++
    [1, 2, 3].map (fun guid => .removeMember env guid .leave false) ++ [.endRoll (fun _ => env) 0 none]

/-- An item stays blocked with no roll open: it is looted by the winner, or all passed at once, the group was disbanded, or
the last voter left and a vote was counted twice. -/
theorem blocked_without_roll : [threeRoll [1, 2, 3], passedAtOnce, threeRoll [] ++ [.disband], neededTwice].all (fun ops =>
    (runSteps step ops (start 2)).any fun s => s.rollId.isEmpty && (s.slotItem 0 0).any (·.isBlocked)) = true := by
  decide

/-- The three who are near may roll for the item of a new loot. -/
theorem three_orderly : AllSteps step (fun op s => op.Allowed s ∧ op.Orderly s) (threeRoll []) (start 2) := by
  refine ⟨⟨trivial, trivial⟩, fun a ha => ?_⟩
  cases ha
  have hfree : ∀ item ∈ [(⟨0, 0, 0, [], none, 1, false, false, false, false, false, false, false⟩ : LootItem)],
      Free (some item) := fun item hitem => List.mem_singleton.1 hitem ▸ ⟨rfl, rfl, rfl⟩
  refine ⟨⟨trivial, ⟨hfree, by decide, by decide⟩, fun _ hr => absurd hr List.not_mem_nil⟩, fun b hb => ?_⟩
  cases hb
  refine ⟨⟨⟨by decide, by decide⟩, fun loot hloot => ?_⟩, fun _ _ => trivial⟩
  cases hloot
  exact ⟨⟨hfree, by decide, by decide⟩, fun _ _ _ _ _ => ⟨⟨1, true, false, fun _ => true⟩, by simp, rfl, rfl⟩⟩

theorem reaches_blocked_three : (three []).rollId.length = 1 ∧ ∀ id slot item, (three []).slotItem id slot = some item →
    item.isLooted = false → (item.isBlocked = true ↔ ∃ roll ∈ (three []).rollId, roll.loot = some id ∧ roll.itemSlot = slot) := by
  have hrun : runSteps step (threeRoll []) (start 2) = some (three []) := rfl
  exact ⟨by decide, (reaches_blocked (Reaches.of_allSteps three_orderly hrun)).1⟩

end GroupRolls

end AtlasWow
