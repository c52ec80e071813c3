/-
The count of what is left in a loot: `takes`, one for every item that is for
one player, and for every entry in a player's list of items that are for each.
`unlootedCount` says the same (`Tallied`) as long as what is listed is counted:
`fillAllowed` and `takeAllowed` name the fills and takes after which it does.
-/
import AtlasWow.Lib.Tally
import AtlasWow.Lib.Totals
import AtlasWow.Loots.Loot

namespace AtlasWow.Loots

variable {templates : Nat → Option ItemTemplate} {loot loot' : Loot} {player owner : Looter} {members : List Member}

namespace Loot

def isOrdinary (it : LootItem) : Bool := !it.freeforall && it.conditions.isEmpty
def isConditional (it : LootItem) : Bool := !it.freeforall && !it.conditions.isEmpty

/-- The entries of all players that are not looted. -/
def unlootedEntries (map : NotNormalLootItemMap) : Nat := map.total fun _ l => l.countP (!·.isLooted)

/-- The takes that are still possible: one for each unlooted ordinary item, one for each player and unlooted free-for-all or
quest entry in his lists, and one for each unlooted conditional item. -/
def takes (loot : Loot) : Nat :=
  (loot.items.countP fun it => isOrdinary it && !it.isLooted) + unlootedEntries loot.playerFFAItems +
    unlootedEntries loot.playerQuestItems + loot.items.countP fun it => isConditional it && !it.isLooted

/-- An item that has been counted: a conditional one, once somebody has it in his list. -/
def isTallied (it : LootItem) : Bool := !it.freeforall && !it.isLooted && (it.conditions.isEmpty || it.isCounted)

def tally (loot : Loot) : Nat :=
  loot.items.countP isTallied + unlootedEntries loot.playerFFAItems + unlootedEntries loot.playerQuestItems

/-- The count is right, up to what a byte can say, and the entries of the lists stand for items that there are. -/
structure Tallied (loot : Loot) : Prop where
  count : loot.unlootedCount = UInt8.ofNat loot.tally
  ffa : ∀ guid l, loot.playerFFAItems.find? guid = some l →
    (l.map (·.index)).Nodup ∧ ∀ e ∈ l, ∃ it, loot.items[e.index]? = some it ∧ it.freeforall = true
  quest : ∀ guid l, loot.playerQuestItems.find? guid = some l → ∀ e ∈ l, e.index < loot.questItems.length

theorem tallied_empty (gold : Nat) : (empty gold).Tallied :=
  ⟨rfl, nofun, nofun⟩

/-! Drops -/

/-- An ordinary item that drops is seen by somebody; where nothing drops, there is nothing to see. -/
def dropAllowed (templates : Nat → Option ItemTemplate) (owner : Looter) (members : List Member) (loot : Loot) (drop : Drop) :
    Bool :=
  drop.item.needsQuest || !drop.item.conditions.isEmpty || (templates drop.item.itemid).any (·.multiDrop) ||
    drop.count = 0 || MAX_NR_LOOT_ITEMS ≤ loot.items.length ||
    canSeeItemInLootWindow templates owner members (.ofStore templates drop.item 0 0)

variable {it : LootItem} {drop : Drop} {map : NotNormalLootItemMap} {guid i pos index k : Nat} {slot : Slot}
  {proto : ItemTemplate} {e : NotNormalLootItem} {l : List NotNormalLootItem} {canStore : Nat → Bool}

/-- One more item, that is counted if it is for one player. -/
theorem Tallied.append (h : loot.Tallied) {count : UInt8}
    (hcount : count = loot.unlootedCount + if isTallied it then 1 else 0) :
    Tallied { loot with items := loot.items ++ [it], unlootedCount := count } where
  count := by
    show count = UInt8.ofNat ((loot.items ++ [it]).countP isTallied + _ + _)
    rw [hcount, h.count, tally, List.countP_append, List.countP_singleton]
    by_cases ht : isTallied it = true
    · simp only [ht, if_true]
      rw [show (1 : UInt8) = UInt8.ofNat 1 from rfl, ← UInt8.ofNat_add]
      congr 1
      omega
    · simp [ht]
  ffa guid l hl := by
    obtain ⟨hnodup, hentries⟩ := h.ffa guid l hl
    refine ⟨hnodup, fun e he => ?_⟩
    obtain ⟨x, hx, hffa⟩ := hentries e he
    refine ⟨x, ?_, hffa⟩
    rw [List.getElem?_append_left (List.getElem?_eq_some_iff.1 hx).1, hx]
  quest := h.quest

theorem Tallied.appendQuest (h : loot.Tallied) (it : LootItem) : Tallied { loot with questItems := loot.questItems ++ [it] } where
  count := h.count
  ffa := h.ffa
  quest guid l hl e he := by
    have hlt := h.quest guid l hl e he
    show e.index < (loot.questItems ++ [it]).length
    rw [List.length_append]
    omega

/-- An item that drops is seen by those who see the entry it is made of. -/
theorem canSee_ofStore (item : LootStoreItem) (randomSuffix : Nat) (randomPropertyId : Int) (count : UInt8) :
    canSeeItemInLootWindow templates owner members
      { LootItem.ofStore templates item randomSuffix randomPropertyId with count := count } =
      canSeeItemInLootWindow templates owner members (.ofStore templates item 0 0) := rfl

theorem tallied_addStacks (hproto : templates drop.item.itemid = some proto)
    (hsee : drop.item.needsQuest = false → drop.item.conditions.isEmpty = true → proto.multiDrop = false →
      canSeeItemInLootWindow templates owner members (.ofStore templates drop.item 0 0) = true) (n : Nat) :
    ∀ (i count : Nat) (loot : Loot), loot.Tallied → (addStacks templates owner members proto drop n i count loot).Tallied := by
  induction n with
  | zero => exact fun _ _ _ h => h
  | succ n ih =>
    intro i count loot h
    unfold addStacks
    extract_lets lootItems limit random base generatedLoot loot₁ loot₂
    split
    next =>
      refine ih _ _ _ ?_
      have hgenerated : canSeeItemInLootWindow templates owner members generatedLoot =
        canSeeItemInLootWindow templates owner members (.ofStore templates drop.item 0 0) := canSee_ofStore ..
      have htallied : isTallied generatedLoot = (!proto.multiDrop && drop.item.conditions.isEmpty) := by
        show (!(templates drop.item.itemid).any (·.multiDrop) && !false && (drop.item.conditions.isEmpty || false)) = _
        simp [hproto]
      cases hquest : drop.item.needsQuest with
      | true =>
        have hloot₁ : loot₁ = { loot with questItems := loot.questItems ++ [generatedLoot] } := by simp [loot₁, hquest]
        have hloot₂ : loot₂ = loot₁ := by
          simp only [loot₂, hquest, Bool.not_true, Bool.false_and, Bool.false_eq_true, if_false, ite_self]
        rw [hloot₂, hloot₁]
        exact h.appendQuest generatedLoot
      | false =>
        have hloot₁ : loot₁ = { loot with items := loot.items ++ [generatedLoot] } := by simp [loot₁, hquest]
        have hloot₂ : loot₂ = { loot₁ with
            unlootedCount := loot.unlootedCount + if isTallied generatedLoot then 1 else 0 } := by
          rw [htallied]
          cases hconditions : drop.item.conditions.isEmpty with
          | false => simp [loot₂, hloot₁, hquest, hconditions]
          | true =>
            cases hmulti : proto.multiDrop with
            | true => simp [loot₂, hloot₁, hmulti]
            | false => simp [loot₂, hloot₁, hquest, hconditions, hmulti, hgenerated, hsee hquest hconditions hmulti]
        rw [hloot₂, hloot₁]
        exact h.append rfl
    next => exact h

theorem addStacks_full (hquest : drop.item.needsQuest = false)
    (hfull : MAX_NR_LOOT_ITEMS ≤ loot.items.length) (n i count : Nat) :
    addStacks templates owner members proto drop n i count loot = loot := by
  cases n with
  | zero => rfl
  | succ n => simp [addStacks, hquest, Nat.not_lt.2 hfull]

theorem tallied_addItem (h : loot.Tallied) (hok : dropAllowed templates owner members loot drop = true) :
    (loot.addItem templates owner members drop).Tallied := by
  unfold addItem
  split
  next => exact h
  next proto hproto =>
  extract_lets n
  simp only [dropAllowed, hproto, Option.any_some, Bool.or_eq_true, Bool.not_eq_true', decide_eq_true_eq] at hok
  rcases hok with ((((hok | hok) | hok) | hok) | hok) | hok
  · exact tallied_addStacks hproto (fun hquest => by simp [hok] at hquest) n 0 drop.count loot h
  · exact tallied_addStacks hproto (fun _ hconditions => by simp [hok] at hconditions) n 0 drop.count loot h
  · exact tallied_addStacks hproto (fun _ _ hmulti => by simp [hok] at hmulti) n 0 drop.count loot h
  · have hn : n = 0 := by simp [n, hok]
    rw [hn]
    exact h
  · cases hquest : drop.item.needsQuest with
    | true => exact tallied_addStacks hproto (fun hfalse => by simp [hquest] at hfalse) n 0 drop.count loot h
    | false =>
      rw [addStacks_full hquest hok]
      exact h
  · exact tallied_addStacks hproto (fun _ _ _ => hok) n 0 drop.count loot h

/-! The lists of a player -/

section Lists

variable {lists : LootItem → Bool} {items : List LootItem}

theorem mem_positions : i ∈ positions lists items ↔ ∃ it, items[i]? = some it ∧ lists it = true := by
  rw [positions, List.mem_filter, List.mem_range, Option.any_eq_true]
  constructor
  · intro h
    exact h.2
  · intro h
    obtain ⟨it, hit, hlists⟩ := h
    exact ⟨(List.getElem?_eq_some_iff.1 hit).1, it, hit, hlists⟩

theorem nodup_positions : (positions lists items).Nodup := List.nodup_range.filter _

@[simp] theorem countP_entries (listed : List Nat) : (entries listed).countP (!·.isLooted) = listed.length := by
  rw [entries, List.countP_map]
  exact List.countP_eq_length.2 fun _ _ => rfl

@[simp] theorem map_index_entries (listed : List Nat) : (entries listed).map (·.index) = listed := by
  rw [entries, List.map_map]
  exact List.map_id'' (fun _ => rfl) listed

theorem mem_entries {listed : List Nat} {e : NotNormalLootItem} (h : e ∈ entries listed) : e.index ∈ listed := by
  rw [← map_index_entries listed]
  exact List.mem_map_of_mem h

end Lists

theorem unlootedEntries_insert (h : map.find? guid = none) (listed : List Nat) :
    unlootedEntries (map.insert guid (entries listed)) = listed.length + unlootedEntries map := by
  rw [unlootedEntries, OMap.total_insert_new h, countP_entries]
  rfl

theorem tallied_fillFFALoot (h : loot.Tallied) (hnone : loot.playerFFAItems.find? player.guid = none) :
    (loot.fillFFALoot templates player).Tallied := by
  unfold fillFFALoot
  extract_lets listed
  split
  next => exact h
  next =>
  refine ⟨?_, fun guid l hl => ?_, h.quest⟩
  · show _ = UInt8.ofNat (loot.items.countP isTallied +
      unlootedEntries (loot.playerFFAItems.insert player.guid (entries listed)) + unlootedEntries loot.playerQuestItems)
    rw [unlootedEntries_insert hnone, h.count, ← UInt8.ofNat_add]
    exact congrArg UInt8.ofNat (by unfold tally; omega)
  · have hl : (loot.playerFFAItems.insert player.guid (entries listed)).find? guid = some l := hl
    rw [OMap.find?_insert] at hl
    split at hl
    next =>
      cases hl
      refine ⟨by rw [map_index_entries]; exact nodup_positions, fun e he => ?_⟩
      obtain ⟨it, hit, hlists⟩ := mem_positions.1 (mem_entries he)
      simp only [listsFFAItem, Bool.and_eq_true] at hlists
      exact ⟨it, hit, hlists.1.2⟩
    next => exact h.ffa guid l hl

/-- Every quest item that the player is to have in his list is counted: it is free for all, or nobody has blocked it. -/
def questAllowed (templates : Nat → Option ItemTemplate) (player : Looter) (loot : Loot) : Bool :=
  (loot.listedQuestItems templates player).all fun i => loot.questItems[i]?.any countsQuestItem

theorem tallied_fillQuestLoot (h : loot.Tallied) (hnone : loot.playerQuestItems.find? player.guid = none)
    (hok : loot.questAllowed templates player = true) : (loot.fillQuestLoot templates player).Tallied := by
  unfold fillQuestLoot
  extract_lets listed blocks
  split
  next => exact h
  next =>
  refine ⟨?_, h.ffa, fun guid l hl e he => ?_⟩
  · have hcounts : (listed.countP fun i => loot.questItems[i]?.any countsQuestItem) = listed.length :=
      List.countP_eq_length.2 (List.all_eq_true.1 hok)
    show _ = UInt8.ofNat (loot.items.countP isTallied + unlootedEntries loot.playerFFAItems +
      unlootedEntries (loot.playerQuestItems.insert player.guid (entries listed)))
    rw [unlootedEntries_insert hnone, hcounts, h.count, ← UInt8.ofNat_add]
    exact congrArg UInt8.ofNat (by unfold tally; omega)
  · show e.index < (loot.questItems.mapIdx _).length
    rw [List.length_mapIdx]
    have hl : (loot.playerQuestItems.insert player.guid (entries listed)).find? guid = some l := hl
    rw [OMap.find?_insert] at hl
    split at hl
    next =>
      cases hl
      obtain ⟨it, hit, -⟩ := mem_positions.1 (List.mem_of_mem_take (mem_entries he))
      exact (List.getElem?_eq_some_iff.1 hit).1
    next => exact h.quest guid l hl e he

/-- A conditional item is counted when somebody has it in his list for the first time. -/
theorem countP_listConditional (player : Looter) (items : List LootItem) :
    (items.map fun it => if listsConditionalItem templates player it then { it with isCounted := true } else it).countP isTallied =
      items.countP isTallied + items.countP fun it => listsConditionalItem templates player it && !it.isCounted := by
  induction items with
  | nil => rfl
  | cons it items ih =>
    rw [List.map_cons, List.countP_cons, List.countP_cons, List.countP_cons, ih]
    by_cases hlists : listsConditionalItem templates player it = true
    · simp only [hlists, if_true, Bool.true_and]
      simp only [listsConditionalItem, Bool.and_eq_true, Bool.not_eq_true'] at hlists
      obtain ⟨⟨⟨hlooted, hffa⟩, -⟩, hconditions⟩ := hlists
      simp only [isTallied, hlooted, hffa, hconditions, Bool.not_false, Bool.true_and, Bool.false_or, if_true]
      cases it.isCounted <;> simp <;> omega
    · simp only [hlists, Bool.false_and, Bool.false_eq_true, if_false]
      omega

theorem tallied_fillConditional (h : loot.Tallied) : (loot.fillNonQuestNonFFAConditionalLoot templates player).Tallied := by
  unfold fillNonQuestNonFFAConditionalLoot
  extract_lets lists listed
  split
  next => exact h
  next =>
  refine ⟨?_, fun guid l hl => ?_, h.quest⟩
  · show loot.unlootedCount +
        UInt8.ofNat (loot.items.countP fun it => listsConditionalItem templates player it && !it.isCounted) =
      UInt8.ofNat ((loot.items.map _).countP isTallied + unlootedEntries loot.playerFFAItems +
        unlootedEntries loot.playerQuestItems)
    rw [countP_listConditional, h.count, ← UInt8.ofNat_add]
    exact congrArg UInt8.ofNat (by unfold tally; omega)
  · obtain ⟨hnodup, hentries⟩ := h.ffa guid l hl
    refine ⟨hnodup, fun e he => ?_⟩
    obtain ⟨it, hit, hffa⟩ := hentries e he
    refine ⟨_, by rw [List.getElem?_map, hit]; rfl, ?_⟩
    show (if lists it then { it with isCounted := true } else it).freeforall = true
    split <;> exact hffa

/-! Takes -/

/-- What `LootItemInSlot` has found. -/
inductive Found (loot : Loot) (guid i : Nat) : Slot → Prop
  | quest (pos index : Nat) (it : LootItem) (l : List NotNormalLootItem) (e : NotNormalLootItem)
      (hl : loot.playerQuestItems.find? guid = some l) (he : l[pos]? = some e) (hlooted : e.isLooted = false) :
      Found loot guid i (.quest pos index it)
  | ffa (pos : Nat) (it : LootItem) (l : List NotNormalLootItem) (e : NotNormalLootItem)
      (hl : loot.playerFFAItems.find? guid = some l) (he : l[pos]? = some e) (hlooted : e.isLooted = false)
      (hit : loot.items[i]? = some it) (hffa : it.freeforall = true) : Found loot guid i (.ffa pos i it)
  | conditional (pos : Nat) (it : LootItem) (hit : loot.items[i]? = some it) (hffa : it.freeforall = false)
      (l : List NotNormalLootItem) (e : NotNormalLootItem)
      (hl : loot.playerNonQuestNonFFAConditionalItems.find? guid = some l) (he : l[pos]? = some e)
      (hlooted : e.isLooted = false) : Found loot guid i (.conditional pos i it)
  | plain (it : LootItem) (hit : loot.items[i]? = some it) (hlooted : it.isLooted = false) :
      Found loot guid i (.plain i it)

theorem Found.item (h : loot.Found guid i slot) (hquest : slot.isQuest = false) : loot.items[i]? = some slot.item := by
  cases h with
  | quest => cases hquest
  | ffa pos it l e hl he hlooted hit => exact hit
  | conditional pos it hit => exact hit
  | plain it hit => exact hit

theorem entryOf_eq_some (h : entryOf map guid i = some (pos, e)) : ∃ l, map.find? guid = some l ∧ l[pos]? = some e := by
  unfold entryOf at h
  obtain ⟨l, hl, h⟩ := Option.bind_eq_some_iff.1 h
  obtain ⟨pos', -, h⟩ := Option.bind_eq_some_iff.1 h
  obtain ⟨e', he', heq⟩ := Option.map_eq_some_iff.1 h
  cases heq
  exact ⟨l, hl, he'⟩

theorem found (h : loot.lootItemInSlot i guid = some slot) : loot.Found guid i slot := by
  unfold lootItemInSlot at h
  split at h
  next =>
    split at h
    next qitem hq =>
      obtain ⟨l, hl, he⟩ := Option.bind_eq_some_iff.1 hq
      split at h
      next => cases h
      next hlooted =>
      obtain ⟨it, -, rfl⟩ := Option.map_eq_some_iff.1 h
      exact .quest _ _ it l qitem hl he (by simpa using hlooted)
    next => cases h
  next =>
  split at h
  next => cases h
  next it hit =>
  have hplain : (if it.isLooted then none else some (Slot.plain i it)) = some slot → loot.Found guid i slot := by
    intro h
    split at h
    next => cases h
    next hlooted =>
    cases h
    exact .plain it hit (by simpa using hlooted)
  split at h
  next hffa =>
    split at h
    next pos e hentry =>
      obtain ⟨l, hl, he⟩ := entryOf_eq_some hentry
      split at h
      next => cases h
      next hlooted =>
      cases h
      exact .ffa pos it l e hl he (by simpa using hlooted) hit hffa
    next => exact hplain h
  next hffa =>
  split at h
  next =>
    split at h
    next pos e hentry =>
      obtain ⟨l, hl, he⟩ := entryOf_eq_some hentry
      split at h
      next => cases h
      next hlooted =>
      cases h
      exact .conditional pos it hit (by simpa using hffa) l e hl he (by simpa using hlooted)
    next => exact hplain h
  next => exact hplain h

/-- A take of something that is left: an item for one player that nobody else has taken, or an entry of the player. -/
def takeAllowed : Slot → Bool
  | .quest .. => true
  | .ffa .. => true
  | .conditional _ _ it => !it.isLooted
  | .plain _ it => !it.freeforall

theorem unlootedEntries_takeEntry
    (hl : map.find? guid = some l) (he : l[pos]? = some e) (hlooted : e.isLooted = false) :
    unlootedEntries (takeEntry map guid pos) + 1 = unlootedEntries map := by
  have hsum := OMap.total_replace hl (l.modify pos fun e => { e with isLooted := true }) fun _ l => l.countP (!·.isLooted)
  have hcount := countP_modify (!·.isLooted) (fun e : NotNormalLootItem => { e with isLooted := true }) he
  simp only [hlooted, Bool.not_false, if_true, Bool.not_true, Bool.false_eq_true, if_false] at hcount
  unfold unlootedEntries takeEntry
  rw [hl]
  dsimp only at hsum ⊢
  omega

theorem countP_looted (hit : loot.items[index]? = some it) (htallied : isTallied it = true) :
    (loot.items.modify index fun it => if it.freeforall then it else { it with isLooted := true }).countP isTallied + 1 =
      loot.items.countP isTallied := by
  have hcount := countP_modify isTallied (fun it => if it.freeforall then it else { it with isLooted := true }) hit
  have hffa : it.freeforall = false := by
    simp only [isTallied, Bool.and_eq_true, Bool.not_eq_true'] at htallied
    exact htallied.1.1
  simp only [hffa, htallied, if_true, Bool.false_eq_true, if_false] at hcount
  exact hcount

theorem countP_ffa (hit : loot.items[index]? = some it) (hffa : it.freeforall = true) :
    loot.items.modify index (fun it => if it.freeforall then it else { it with isLooted := true }) = loot.items := by
  refine List.ext_getElem? fun k => ?_
  rw [List.getElem?_modify]
  by_cases hk : index = k
  · subst hk
    simp [hit, hffa]
  · simp [hk]

/-- One take is one possible take less. -/
theorem tally_take (hfound : loot.Found guid i slot) (hok : takeAllowed slot = true)
    (hcounted : slot.isQuest = false → isConditional slot.item = true → slot.item.isCounted = true) :
    (loot.take guid slot).tally + 1 = loot.tally := by
  have htallied (hquest : slot.isQuest = false) (hffa : slot.item.freeforall = false)
      (hlooted : slot.item.isLooted = false) : isTallied slot.item = true := by
    simp only [isTallied, hffa, hlooted, Bool.not_false, Bool.true_and, Bool.or_eq_true]
    cases hconditions : slot.item.conditions.isEmpty with
    | true => exact .inl rfl
    | false => exact .inr (hcounted hquest (by simp [isConditional, hffa, hconditions]))
  cases hfound with
  | quest pos index it l e hl he hlooted =>
    have hentries := unlootedEntries_takeEntry hl he hlooted
    show loot.items.countP isTallied + unlootedEntries loot.playerFFAItems +
      unlootedEntries (takeEntry loot.playerQuestItems guid pos) + 1 = loot.tally
    unfold tally
    omega
  | ffa pos it l e hl he hlooted hit hffa =>
    have hentries := unlootedEntries_takeEntry hl he hlooted
    show (loot.items.modify i _).countP isTallied + unlootedEntries (takeEntry loot.playerFFAItems guid pos) +
      unlootedEntries loot.playerQuestItems + 1 = loot.tally
    rw [countP_ffa hit hffa]
    unfold tally
    omega
  | conditional pos it hit hffa =>
    have hcount := countP_looted hit (htallied rfl hffa (by simpa [takeAllowed, Slot.item] using hok))
    show (loot.items.modify i _).countP isTallied + unlootedEntries loot.playerFFAItems +
      unlootedEntries loot.playerQuestItems + 1 = loot.tally
    unfold tally
    omega
  | plain it hit hlooted =>
    have hcount := countP_looted hit (htallied rfl (by simpa [takeAllowed, Slot.item] using hok) hlooted)
    show (loot.items.modify i _).countP isTallied + unlootedEntries loot.playerFFAItems +
      unlootedEntries loot.playerQuestItems + 1 = loot.tally
    unfold tally
    omega

theorem find?_takeEntry (h : (takeEntry map guid pos).find? k = some l) :
    ∃ l₀, map.find? k = some l₀ ∧ l.map (·.index) = l₀.map (·.index) := by
  unfold takeEntry at h
  split at h
  next l₀ hl₀ =>
    rw [OMap.find?_insert] at h
    split at h
    next heq =>
      cases h
      refine ⟨l₀, heq ▸ hl₀, List.ext_getElem? fun i => ?_⟩
      rw [List.getElem?_map, List.getElem?_map, List.getElem?_modify]
      cases l₀[i]? with
      | none => rfl
      | some e => by_cases hi : pos = i <;> simp [hi]
    next => exact ⟨l, h, rfl⟩
  next => exact ⟨l, h, rfl⟩

/-- Items that are marked are still there, and for as many players as before. -/
theorem getElem?_modify_ffa {items : List LootItem} (hit : items[k]? = some it) (hffa : it.freeforall = true) :
    ∃ it', (items.modify index fun it => if it.freeforall then it else { it with isLooted := true })[k]? = some it' ∧
      it'.freeforall = true := by
  rw [List.getElem?_modify, hit]
  by_cases hk : index = k <;> simp [hk, hffa]

theorem listed_takeEntry {items items' : List LootItem} (h : ∀ guid l, map.find? guid = some l →
      (l.map (·.index)).Nodup ∧ ∀ e ∈ l, ∃ it, items[e.index]? = some it ∧ it.freeforall = true)
    (hitems : ∀ (k : Nat) it, items[k]? = some it → it.freeforall = true → ∃ it', items'[k]? = some it' ∧ it'.freeforall = true) :
    ∀ k l, (takeEntry map guid pos).find? k = some l →
      (l.map (·.index)).Nodup ∧ ∀ e ∈ l, ∃ it, items'[e.index]? = some it ∧ it.freeforall = true := by
  intro k l hl
  obtain ⟨l₀, hl₀, hindex⟩ := find?_takeEntry hl
  obtain ⟨hnodup, hentries⟩ := h k l₀ hl₀
  refine ⟨hindex ▸ hnodup, fun e he => ?_⟩
  have hmem : e.index ∈ l₀.map (·.index) := hindex ▸ List.mem_map_of_mem he
  obtain ⟨e₀, he₀, heq⟩ := List.mem_map.1 hmem
  obtain ⟨it, hit, hffa⟩ := hentries e₀ he₀
  exact hitems e.index it (heq ▸ hit) hffa

theorem Tallied.take (h : loot.Tallied) (hfound : loot.Found guid i slot) (hok : takeAllowed slot = true)
    (hcounted : slot.isQuest = false → isConditional slot.item = true → slot.item.isCounted = true) :
    (loot.take guid slot).Tallied := by
  have htally := tally_take hfound hok hcounted
  have hcount : (loot.take guid slot).unlootedCount = UInt8.ofNat (loot.take guid slot).tally := by
    have hminus : (loot.take guid slot).unlootedCount = loot.unlootedCount - 1 := by cases slot <;> rfl
    rw [hminus, h.count, ← htally, UInt8.ofNat_add]
    exact UInt8.add_sub_cancel _ _
  have hitems : ∀ (index k : Nat) it, loot.items[k]? = some it → it.freeforall = true →
      ∃ it', (loot.items.modify index fun it => if it.freeforall then it else { it with isLooted := true })[k]? = some it' ∧
        it'.freeforall = true := fun _ _ _ hit hffa => getElem?_modify_ffa hit hffa
  have hsame : ∀ index guid l, loot.playerFFAItems.find? guid = some l → (l.map (·.index)).Nodup ∧ ∀ e ∈ l, ∃ it,
      (loot.items.modify index fun it => if it.freeforall then it else { it with isLooted := true })[e.index]? = some it ∧
        it.freeforall = true := by
    intro index guid l hl
    obtain ⟨hnodup, hentries⟩ := h.ffa guid l hl
    refine ⟨hnodup, fun e he => ?_⟩
    obtain ⟨it, hit, hffa⟩ := hentries e he
    exact hitems index e.index it hit hffa
  cases slot with
  | quest pos index it =>
    refine ⟨hcount, h.ffa, fun k l hl e he => ?_⟩
    obtain ⟨l₀, hl₀, hindex⟩ := find?_takeEntry hl
    have hmem : e.index ∈ l₀.map (·.index) := hindex ▸ List.mem_map_of_mem he
    obtain ⟨e₀, he₀, heq⟩ := List.mem_map.1 hmem
    show e.index < (loot.questItems.modify index _).length
    rw [List.length_modify, ← heq]
    exact h.quest k l₀ hl₀ e₀ he₀
  | ffa pos index it => exact ⟨hcount, listed_takeEntry h.ffa (hitems index), h.quest⟩
  | conditional pos index it => exact ⟨hcount, hsame index, h.quest⟩
  | plain index it => exact ⟨hcount, hsame index, h.quest⟩

/-! Filling -/

/-- What is stored at once is an entry of the player. -/
def autoAllowed (templates : Nat → Option ItemTemplate) (player : Looter) (canStore : Nat → Bool) (loot : Loot) (i : Nat) :
    Bool :=
  !loot.isAutoStored templates player i || !canStore i || (loot.stored templates player i).all takeAllowed

/-- The fills of a player's lists that count all they list. -/
def fillAllowed (templates : Nat → Option ItemTemplate) (canStore : Nat → Nat → Bool) (loot : Loot) (p : Looter × Bool) :
    Bool :=
  let filled := loot.fillLists templates p.1
  ((loot.playerQuestItems.find? p.1.guid).isSome || loot.questAllowed templates p.1) &&
    (!p.2 || foldAllowed (fun loot i =>
      if loot.isAutoStored templates p.1 i then loot.storeLootItem templates p.1 i (canStore p.1.guid i) else loot)
      (autoAllowed templates p.1 (canStore p.1.guid)) filled (List.range (filled.getMaxSlotInLootFor p.1.guid)))

theorem tallied_fillLists (h : loot.Tallied)
    (hok : ((loot.playerQuestItems.find? player.guid).isSome || loot.questAllowed templates player) = true) :
    (loot.fillLists templates player).Tallied := by
  unfold fillLists
  extract_lets quested ffad
  have hquested : quested.Tallied := by
    unfold quested
    split
    next hnone =>
      have hnone := Option.isNone_iff_eq_none.1 hnone
      exact tallied_fillQuestLoot h hnone (by simpa [hnone] using hok)
    next => exact h
  have hffad : ffad.Tallied := by
    unfold ffad
    split
    next hnone => exact tallied_fillFFALoot hquested (Option.isNone_iff_eq_none.1 hnone)
    next => exact hquested
  split
  next => exact tallied_fillConditional hffad
  next => exact hffad

/-- The items that are stored at once are for each player. -/
theorem tallied_autoStored (h : loot.Tallied) (hok : autoAllowed templates player canStore loot i = true) :
    (if loot.isAutoStored templates player i then loot.storeLootItem templates player i (canStore i) else loot).Tallied := by
  split
  next hauto =>
    unfold storeLootItem
    split
    next slot hstored =>
      split
      next hstore =>
        have hallowed : takeAllowed slot = true := by simpa [autoAllowed, hauto, hstore, hstored] using hok
        have hslot : loot.lootItemInSlot i player.guid = some slot := (Option.filter_eq_some_iff.1 hstored).1
        refine h.take (found hslot) hallowed fun hquest hconditional => ?_
        -- the item of the slot is free for all
        have hitem := (found hslot).item hquest
        have hlt : i < loot.items.length := (List.getElem?_eq_some_iff.1 hitem).1
        simp only [isAutoStored, hlt, if_true, hitem, Option.any_some, Bool.and_eq_true] at hauto
        simp [isConditional, hauto.1.1.2] at hconditional
      next => exact h
    next => exact h
  next => exact h

/-- What is stored at once changes no item for one player. -/
theorem items_autoStored (hok : autoAllowed templates player canStore loot i = true) :
    (if loot.isAutoStored templates player i then loot.storeLootItem templates player i (canStore i) else loot).items =
        loot.items ∧
      (if loot.isAutoStored templates player i then loot.storeLootItem templates player i (canStore i)
        else loot).playerNonQuestNonFFAConditionalItems = loot.playerNonQuestNonFFAConditionalItems := by
  split
  next hauto =>
    unfold storeLootItem
    split
    next slot hstored =>
      split
      next hstore =>
        have hallowed : takeAllowed slot = true := by simpa [autoAllowed, hauto, hstore, hstored] using hok
        have hslot : loot.lootItemInSlot i player.guid = some slot := (Option.filter_eq_some_iff.1 hstored).1
        have hitem (hquest : slot.isQuest = false) : slot.item.freeforall = true := by
          have hitem := (found hslot).item hquest
          have hlt : i < loot.items.length := (List.getElem?_eq_some_iff.1 hitem).1
          simp only [isAutoStored, hlt, if_true, hitem, Option.any_some, Bool.and_eq_true] at hauto
          exact hauto.1.1.2
        cases found hslot with
        | quest pos index it l e hl he hlooted => exact ⟨rfl, rfl⟩
        | ffa pos it l e hl he hlooted hit hffa => exact ⟨countP_ffa hit hffa, rfl⟩
        | conditional pos it hit hffa => exact absurd (hitem rfl) (by simp [Slot.item, hffa])
        | plain it hit hlooted =>
          have hffa : it.freeforall = false := by simpa [takeAllowed] using hallowed
          exact absurd (hitem rfl) (by simp [Slot.item, hffa])
      next => exact ⟨rfl, rfl⟩
    next => exact ⟨rfl, rfl⟩
  next => exact ⟨rfl, rfl⟩

theorem fillQuestLoot_items (templates : Nat → Option ItemTemplate) (player : Looter) (loot : Loot) :
    (loot.fillQuestLoot templates player).items = loot.items ∧
      (loot.fillQuestLoot templates player).playerNonQuestNonFFAConditionalItems =
        loot.playerNonQuestNonFFAConditionalItems := by
  unfold fillQuestLoot
  extract_lets
  split <;> exact ⟨rfl, rfl⟩

theorem fillFFALoot_items (templates : Nat → Option ItemTemplate) (player : Looter) (loot : Loot) :
    (loot.fillFFALoot templates player).items = loot.items ∧
      (loot.fillFFALoot templates player).playerNonQuestNonFFAConditionalItems =
        loot.playerNonQuestNonFFAConditionalItems := by
  unfold fillFFALoot
  extract_lets
  split <;> exact ⟨rfl, rfl⟩

theorem fillConditional_items (templates : Nat → Option ItemTemplate) (player : Looter) (loot : Loot) :
    (loot.fillNonQuestNonFFAConditionalLoot templates player).items =
        (loot.items.map fun it => if listsConditionalItem templates player it then { it with isCounted := true } else it) ∧
      ∀ k, k ≠ player.guid → (loot.fillNonQuestNonFFAConditionalLoot templates
        player).playerNonQuestNonFFAConditionalItems.find? k = loot.playerNonQuestNonFFAConditionalItems.find? k := by
  unfold fillNonQuestNonFFAConditionalLoot
  extract_lets lists listed
  split
  next hempty =>
    refine ⟨?_, fun _ _ => rfl⟩
    have hnone : ∀ it ∈ loot.items, listsConditionalItem templates player it = false := fun it hit => by
      obtain ⟨i, hi⟩ := List.mem_iff_getElem?.1 hit
      rw [Bool.eq_false_iff]
      intro hlists
      have hmem : i ∈ listed := mem_positions.2 ⟨it, hi, hlists⟩
      rw [List.isEmpty_iff.1 hempty] at hmem
      exact List.not_mem_nil hmem
    have hmap : (loot.items.map fun it => if listsConditionalItem templates player it then { it with isCounted := true } else it) =
        loot.items.map id := List.map_congr_left fun it hit => by simp [hnone it hit]
    rw [hmap, List.map_id]
  next => exact ⟨rfl, fun k hk => OMap.find?_insert_of_ne hk⟩

/-- While the lists are filled: every conditional item is counted, or one of the players to come is to have it. -/
structure Filling (templates : Nat → Option ItemTemplate) (ps : List (Looter × Bool)) (loot : Loot) : Prop where
  tallied : loot.Tallied
  fresh : ∀ p ∈ ps, loot.playerNonQuestNonFFAConditionalItems.find? p.1.guid = none
  conditional : ∀ it ∈ loot.items, isConditional it = true →
    it.isLooted = false ∧ (it.isCounted = true ∨ ∃ p ∈ ps, it.allowedForPlayer templates p.1 = true)

theorem fillLists_items (templates : Nat → Option ItemTemplate) (player : Looter) (hnone : loot.playerNonQuestNonFFAConditionalItems.find? player.guid = none) :
    (loot.fillLists templates player).items =
        (loot.items.map fun it => if listsConditionalItem templates player it then { it with isCounted := true } else it) ∧
      ∀ k, k ≠ player.guid → (loot.fillLists templates player).playerNonQuestNonFFAConditionalItems.find? k =
        loot.playerNonQuestNonFFAConditionalItems.find? k := by
  unfold fillLists
  extract_lets quested ffad
  have hquested : quested.items = loot.items ∧
      quested.playerNonQuestNonFFAConditionalItems = loot.playerNonQuestNonFFAConditionalItems := by
    unfold quested
    split
    next => exact fillQuestLoot_items templates player loot
    next => exact ⟨rfl, rfl⟩
  have hffad : ffad.items = loot.items ∧
      ffad.playerNonQuestNonFFAConditionalItems = loot.playerNonQuestNonFFAConditionalItems := by
    unfold ffad
    split
    next =>
      obtain ⟨hitems, hlists⟩ := fillFFALoot_items templates player quested
      exact ⟨hitems.trans hquested.1, hlists.trans hquested.2⟩
    next => exact hquested
  obtain ⟨hitems, hlists⟩ := fillConditional_items templates player ffad
  rw [if_pos (by simp [hffad.2, hnone]), hitems, hffad.1]
  exact ⟨rfl, fun k hk => by rw [hlists k hk, hffad.2]⟩

theorem Filling.fill {ps : List (Looter × Bool)} {p : Looter × Bool} {canStore : Nat → Nat → Bool}
    (h : loot.Filling templates (p :: ps)) (hnodup : p.1.guid ∉ ps.map (·.1.guid))
    (hok : fillAllowed templates canStore loot p = true) :
    (loot.fillNotNormalLootFor templates p.1 p.2 (canStore p.1.guid)).Filling templates ps := by
  simp only [fillAllowed, Bool.and_eq_true] at hok
  obtain ⟨hquest, hauto⟩ := hok
  obtain ⟨hitems, hlists⟩ := fillLists_items templates p.1 (h.fresh p (by simp))
  have hfilled : (loot.fillLists templates p.1).Filling templates ps := by
    refine ⟨tallied_fillLists h.tallied hquest, fun q hq => ?_, fun it hit hconditional => ?_⟩
    · have hne : q.1.guid ≠ p.1.guid := fun heq => hnodup (heq ▸ List.mem_map_of_mem hq)
      rw [hlists q.1.guid hne]
      exact h.fresh q (List.mem_cons_of_mem _ hq)
    · rw [hitems] at hit
      obtain ⟨it₀, hit₀, heq⟩ := List.mem_map.1 hit
      split at heq
      next hlisted =>
        subst heq
        obtain ⟨hlooted, -⟩ := h.conditional it₀ hit₀ hconditional
        exact ⟨hlooted, .inl rfl⟩
      next hlisted =>
      subst heq
      obtain ⟨hlooted, hcounted⟩ := h.conditional it₀ hit₀ hconditional
      refine ⟨hlooted, hcounted.imp_right fun hsome => ?_⟩
      obtain ⟨q, hq, hallowed⟩ := hsome
      rcases List.mem_cons.1 hq with rfl | hq
      · -- he is not to have the item, although it is allowed for him
        simp only [isConditional, Bool.and_eq_true] at hconditional
        exact absurd (by simp [listsConditionalItem, hlooted, hconditional.1, hconditional.2, hallowed]) hlisted
      · exact ⟨q, hq, hallowed⟩
  unfold fillNotNormalLootFor
  extract_lets filled
  split
  next hpresent =>
    rw [hpresent, Bool.not_true, Bool.false_or] at hauto
    refine foldl_invariant (fun loot => loot.Filling templates ps) (fun i loot hloot hok => ?_) hfilled hauto
    obtain ⟨hitems, hlists⟩ := items_autoStored hok
    refine ⟨tallied_autoStored hloot.tallied hok, fun q hq => ?_, fun it hit => ?_⟩
    · rw [hlists]
      exact hloot.fresh q hq
    · rw [hitems] at hit
      exact hloot.conditional it hit
  next => exact hfilled

/-- The count is right, and every conditional item is counted. -/
structure Ready (loot : Loot) : Prop where
  tallied : loot.Tallied
  counted : ∀ it ∈ loot.items, isConditional it = true → it.isCounted = true

theorem Filling.ready (h : loot.Filling templates []) : loot.Ready where
  tallied := h.tallied
  counted it hit hconditional := (h.conditional it hit hconditional).2.resolve_right (by simp)

theorem Ready.tally_eq (h : loot.Ready) : loot.tally = loot.takes := by
  have hcount : loot.items.countP isTallied =
      (loot.items.countP fun it => isOrdinary it && !it.isLooted) +
        loot.items.countP fun it => isConditional it && !it.isLooted := by
    have hcounted := h.counted
    generalize loot.items = items at hcounted
    induction items with
    | nil => rfl
    | cons it items ih =>
      rw [List.countP_cons, List.countP_cons, List.countP_cons, ih fun x hx => hcounted x (List.mem_cons_of_mem _ hx)]
      have hit := hcounted it (by simp)
      cases hffa : it.freeforall with
      | true => simp [isTallied, isOrdinary, isConditional, hffa]
      | false =>
        cases hconditions : it.conditions.isEmpty with
        | true =>
          simp only [isTallied, isOrdinary, isConditional, hffa, hconditions, Bool.not_false, Bool.not_true, Bool.true_or,
            Bool.and_true, Bool.true_and, Bool.false_and, Bool.false_eq_true, if_false]
          omega
        | false =>
          have hcounted : it.isCounted = true := hit (by simp [isConditional, hffa, hconditions])
          simp only [isTallied, isOrdinary, isConditional, hffa, hconditions, hcounted, Bool.not_false, Bool.or_true,
            Bool.and_true, Bool.and_false, Bool.true_and, Bool.false_and, Bool.false_eq_true, if_false]
          omega
  unfold tally takes
  omega

end Loot

end AtlasWow.Loots
