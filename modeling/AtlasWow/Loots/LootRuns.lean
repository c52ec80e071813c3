/-
The loot of a corpse from `FillLoot` on, over any order of takes and rolls: as
long as every fill and every take is allowed (`fillAllowed`, `takeAllowed`),
`unlootedCount` is the number of takes that are left, and the loot is looted
exactly when there is none (`filled_reaches`).
-/
import AtlasWow.Loots.LootCount
import Mathlib.Data.Fintype.EquivFin

namespace AtlasWow.Loots.Loot

variable {templates : Nat → Option ItemTemplate} {loot loot' : Loot} {owner : Looter} {members : List Member}
  {guid : Nat} {map : NotNormalLootItemMap} {drop : Drop}

/-! The steps of a run -/

/-- What of an item is asked when it is counted. -/
def counts (it : LootItem) : Bool × Bool × Bool × Bool :=
  (it.freeforall, it.conditions.isEmpty, it.isCounted, it.isLooted)

theorem isTallied_eq_counts :
    isTallied = (fun c : Bool × Bool × Bool × Bool => !c.1 && !c.2.2.2 && (c.2.1 || c.2.2.1)) ∘ counts := rfl

/-- Neither the threshold nor a roll changes what is counted. -/
theorem Ready.same {items questItems : List LootItem} (h : loot.Ready) (hitems : items.map counts = loot.items.map counts)
    (hquest : questItems.length = loot.questItems.length) (gold : Nat) :
    Ready { loot with items := items, questItems := questItems, gold := gold } := by
  have hget (i : Nat) (it : LootItem) (hit : loot.items[i]? = some it) : ∃ it', items[i]? = some it' ∧ counts it' = counts it := by
    have hmap : (items.map counts)[i]? = (loot.items.map counts)[i]? := by rw [hitems]
    rw [List.getElem?_map, List.getElem?_map, hit] at hmap
    exact Option.map_eq_some_iff.1 hmap
  refine ⟨⟨?_, fun guid l hl => ?_, fun guid l hl e he => ?_⟩, fun it hit hconditional => ?_⟩
  · have hcount : items.countP isTallied = loot.items.countP isTallied := by
      rw [isTallied_eq_counts, ← List.countP_map, ← List.countP_map, hitems]
    show loot.unlootedCount = UInt8.ofNat (items.countP isTallied + _ + _)
    rw [hcount]
    exact h.tallied.count
  · obtain ⟨hnodup, hentries⟩ := h.tallied.ffa guid l hl
    refine ⟨hnodup, fun e he => ?_⟩
    obtain ⟨it, hit, hffa⟩ := hentries e he
    obtain ⟨it', hit', heq⟩ := hget e.index it hit
    exact ⟨it', hit', (congrArg Prod.fst heq).trans hffa⟩
  · show e.index < questItems.length
    rw [hquest]
    exact h.tallied.quest guid l hl e he
  · have hmem : counts it ∈ loot.items.map counts := hitems ▸ List.mem_map_of_mem hit
    obtain ⟨it₀, hit₀, heq⟩ := List.mem_map.1 hmem
    simp only [counts, Prod.mk.injEq] at heq
    rw [← heq.2.2.1]
    exact h.counted it₀ hit₀ (by simpa [isConditional, heq.1, heq.2.1] using hconditional)

theorem map_counts_modify (items : List LootItem) (index : Nat) (blocked : Bool) (winner : Option Nat) :
    (items.modify index (setRoll blocked winner)).map counts = items.map counts := by
  refine List.ext_getElem? fun i => ?_
  rw [List.getElem?_map, List.getElem?_map, List.getElem?_modify]
  cases items[i]? with
  | none => rfl
  | some it => by_cases hi : index = i <;> simp [hi, counts, setRoll]

theorem Ready.take {i : Nat} {slot : Slot} (h : loot.Ready) (hslot : loot.lootItemInSlot i guid = some slot)
    (hok : takeAllowed slot = true) : (loot.take guid slot).Ready := by
  have hfound := found hslot
  refine ⟨h.tallied.take hfound hok fun hquest => h.counted _ (List.mem_of_getElem? (hfound.item hquest)), ?_⟩
  -- a conditional item that is looted is still counted
  have hlooted (index : Nat) : ∀ it ∈ loot.items.modify index fun it => if it.freeforall then it else { it with isLooted := true },
      isConditional it = true → it.isCounted = true := by
    intro it hit hconditional
    obtain ⟨k, hk⟩ := List.mem_iff_getElem?.1 hit
    rw [List.getElem?_modify] at hk
    obtain ⟨it₀, hit₀, heq⟩ := Option.map_eq_some_iff.1 hk
    have hsame : it.isCounted = it₀.isCounted ∧ isConditional it = isConditional it₀ := by
      subst heq
      by_cases hk : index = k <;> by_cases hffa : it₀.freeforall = true <;> simp [hk, hffa, isConditional]
    rw [hsame.1]
    exact h.counted it₀ (List.mem_of_getElem? hit₀) (hsame.2 ▸ hconditional)
  cases slot with
  | quest => exact h.counted
  | ffa pos index it => exact hlooted index
  | conditional pos index it => exact hlooted index
  | plain index it => exact hlooted index

/-- A take that is made is of something that is left. -/
def Event.allowed (templates : Nat → Option ItemTemplate) (loot : Loot) : Event → Bool
  | .store player lootSlot canStore => !canStore || (loot.stored templates player lootSlot).all takeAllowed
  | _ => true

/-- The count is right, and says it in a byte. -/
structure Exact (loot : Loot) : Prop where
  ready : loot.Ready
  byte : loot.takes < 256

theorem Exact.handle {event : Event} (h : loot.Exact) (hok : event.allowed templates loot = true) :
    (loot.handle templates event).Exact := by
  have hready : (loot.handle templates event).Ready ∧ (loot.handle templates event).tally ≤ loot.tally := by
    cases event with
    | store player lootSlot canStore =>
      show (loot.storeLootItem templates player lootSlot canStore).Ready ∧
        (loot.storeLootItem templates player lootSlot canStore).tally ≤ _
      unfold storeLootItem
      split
      next slot hstored =>
        split
        next hstore =>
          have hallowed : takeAllowed slot = true := by simpa [Event.allowed, hstore, hstored] using hok
          have hslot : loot.lootItemInSlot lootSlot player.guid = some slot := (Option.filter_eq_some_iff.1 hstored).1
          have htally := tally_take (found hslot) hallowed fun hquest =>
            h.ready.counted _ (List.mem_of_getElem? ((found hslot).item hquest))
          exact ⟨h.ready.take hslot hallowed, by omega⟩
        next => exact ⟨h.ready, Nat.le_refl _⟩
      next => exact ⟨h.ready, Nat.le_refl _⟩
    | takeMoney => exact ⟨h.ready.same rfl rfl 0, Nat.le_refl _⟩
    | roll lootSlot blocked winner =>
      have hcounts := map_counts_modify loot.items lootSlot blocked winner
      unfold Loot.handle
      dsimp only
      split
      next =>
        have hready := h.ready.same hcounts rfl loot.gold
        refine ⟨hready, Nat.le_of_eq ?_⟩
        show (loot.items.modify lootSlot (setRoll blocked winner)).countP isTallied + _ + _ = loot.tally
        rw [isTallied_eq_counts, ← List.countP_map, hcounts, List.countP_map]
        rfl
      next => exact ⟨h.ready.same rfl (List.length_modify ..) loot.gold, Nat.le_refl _⟩
  refine ⟨hready.1, ?_⟩
  rw [← hready.1.tally_eq]
  exact Nat.lt_of_le_of_lt hready.2 (h.ready.tally_eq ▸ h.byte)

/-! What is left -/

theorem exists_unlooted (h : unlootedEntries map ≠ 0) :
    ∃ (guid pos : Nat) (l : List NotNormalLootItem) (e : NotNormalLootItem),
      map.find? guid = some l ∧ l[pos]? = some e ∧ e.isLooted = false := by
  obtain ⟨guid, l, hl, hcount⟩ := OMap.exists_of_total_ne_zero h
  obtain ⟨e, he, hlooted⟩ := List.countP_pos_iff.1 (Nat.pos_of_ne_zero hcount)
  obtain ⟨pos, hpos⟩ := List.mem_iff_getElem?.1 he
  exact ⟨guid, pos, l, e, hl, hpos, by simpa using hlooted⟩

/-- An entry is the first for its slot, where no two entries of the list are for the same. -/
theorem entryOf_eq {pos : Nat} {l : List NotNormalLootItem} {e : NotNormalLootItem}
    (hl : map.find? guid = some l) (hnodup : (l.map (·.index)).Nodup) (he : l[pos]? = some e) :
    entryOf map guid e.index = some (pos, e) := by
  have hlt : pos < l.length := (List.getElem?_eq_some_iff.1 he).1
  have hfirst : l.findIdx? (·.index = e.index) = some pos := by
    rw [List.findIdx?_eq_some_iff_getElem]
    refine ⟨hlt, by simp [(List.getElem?_eq_some_iff.1 he).2], fun j hj heq => ?_⟩
    have heq : (l.map (·.index))[j]? = (l.map (·.index))[pos]? := by
      rw [List.getElem?_map, List.getElem?_map, he, List.getElem?_eq_getElem (Nat.lt_trans hj hlt)]
      simpa using heq
    have hpos := (List.getElem?_inj (by simpa using Nat.lt_trans hj hlt) hnodup).1 heq
    omega
  rw [entryOf, hl, Option.bind_some, hfirst, Option.bind_some, he, Option.map_some]

/-- Something is left for somebody. -/
theorem exists_slot (h : loot.Ready) (hleft : loot.takes ≠ 0) :
    ∃ i guid slot, loot.lootItemInSlot i guid = some slot ∧ takeAllowed slot = true := by
  have hparts : (∃ it ∈ loot.items, isOrdinary it = true ∧ it.isLooted = false) ∨ unlootedEntries loot.playerFFAItems ≠ 0 ∨
      unlootedEntries loot.playerQuestItems ≠ 0 ∨ ∃ it ∈ loot.items, isConditional it = true ∧ it.isLooted = false := by
    by_contra hnone
    push Not at hnone
    obtain ⟨hordinary, hffa, hquest, hconditional⟩ := hnone
    refine hleft ?_
    unfold takes
    rw [hffa, hquest, List.countP_eq_zero.2 fun it hit => by simpa using hordinary it hit,
      List.countP_eq_zero.2 fun it hit => by simpa using hconditional it hit]
  rcases hparts with hordinary | hffa | hquest | hconditional
  · obtain ⟨it, hit, hordinary, hlooted⟩ := hordinary
    obtain ⟨i, hi⟩ := List.mem_iff_getElem?.1 hit
    have hlt : i < loot.items.length := (List.getElem?_eq_some_iff.1 hi).1
    simp only [isOrdinary, Bool.and_eq_true, Bool.not_eq_true'] at hordinary
    refine ⟨i, 0, .plain i it, ?_, by simp [takeAllowed, hordinary.1]⟩
    simp [lootItemInSlot, Nat.not_le.2 hlt, hi, hordinary.1, hordinary.2, hlooted]
  · obtain ⟨guid, pos, l, e, hl, he, hlooted⟩ := exists_unlooted hffa
    obtain ⟨hnodup, hentries⟩ := h.tallied.ffa guid l hl
    obtain ⟨it, hit, hffa⟩ := hentries e (List.mem_of_getElem? he)
    have hlt : e.index < loot.items.length := (List.getElem?_eq_some_iff.1 hit).1
    refine ⟨e.index, guid, .ffa pos e.index it, ?_, rfl⟩
    simp [lootItemInSlot, Nat.not_le.2 hlt, hit, hffa, entryOf_eq hl hnodup he, hlooted]
  · obtain ⟨guid, pos, l, e, hl, he, hlooted⟩ := exists_unlooted hquest
    have hlt := h.tallied.quest guid l hl e (List.mem_of_getElem? he)
    refine ⟨loot.items.length + pos, guid, .quest pos e.index loot.questItems[e.index], ?_, rfl⟩
    simp [lootItemInSlot, hl, he, hlooted, hlt]
  · obtain ⟨it, hit, hconditional, hlooted⟩ := hconditional
    obtain ⟨i, hi⟩ := List.mem_iff_getElem?.1 hit
    have hlt : i < loot.items.length := (List.getElem?_eq_some_iff.1 hi).1
    simp only [isConditional, Bool.and_eq_true, Bool.not_eq_true'] at hconditional
    -- a player who has no such list is shown what is not looted
    obtain ⟨guid, hguid⟩ := Infinite.exists_notMem_finset loot.playerNonQuestNonFFAConditionalItems.keys.toFinset
    rw [List.mem_toFinset] at hguid
    refine ⟨i, guid, .plain i it, ?_, by simp [takeAllowed, hconditional.1]⟩
    simp [lootItemInSlot, Nat.not_le.2 hlt, hi, hconditional.1, hconditional.2, entryOf, OMap.find?_eq_none.2 hguid, hlooted]

/-- A loot is looted when nothing is left in it. -/
theorem Exact.closes (h : loot.Exact) :
    loot.unlootedCount.toNat = loot.takes ∧ (loot.isLooted = true ↔
      loot.gold = 0 ∧ ∀ i guid slot, loot.lootItemInSlot i guid = some slot → takeAllowed slot = false) := by
  have hcount : loot.unlootedCount.toNat = loot.takes := by
    rw [h.ready.tallied.count, h.ready.tally_eq, UInt8.toNat_ofNat_of_lt' h.byte]
  refine ⟨hcount, ?_⟩
  rw [isLooted, Bool.and_eq_true, decide_eq_true_eq, decide_eq_true_eq]
  refine and_congr_right fun _ => ⟨fun hzero i guid slot hslot => ?_, fun hnone => ?_⟩
  · by_contra hok
    have htally := tally_take (found hslot) (by simpa using hok) fun hquest =>
      h.ready.counted _ (List.mem_of_getElem? ((found hslot).item hquest))
    have htakes : loot.takes = 0 := by rw [← hcount, hzero]; rfl
    rw [h.ready.tally_eq] at htally
    omega
  · by_contra hcount'
    have hleft : loot.takes ≠ 0 := fun hzero => hcount' (UInt8.toNat_inj.1 (hcount.trans hzero))
    obtain ⟨i, guid, slot, hslot, hok⟩ := exists_slot h.ready hleft
    rw [hnone i guid slot hslot] at hok
    cases hok

/-! From `FillLoot` on -/

/-- The loot after what drops. -/
def dropped (templates : Nat → Option ItemTemplate) (owner : Looter) (members : List Member) (drops : List Drop) (gold : Nat) :
    Loot :=
  drops.foldl (fun loot drop => loot.addItem templates owner members drop) (empty gold)

/-- Somebody whose lists are filled is allowed the item. -/
def wanted (templates : Nat → Option ItemTemplate) (ps : List (Looter × Bool)) (it : LootItem) : Bool :=
  ps.any fun p => it.allowedForPlayer templates p.1

/-- What drops and how the lists are filled: every ordinary item is seen by somebody, every conditional one is listed, and all
that is listed is counted. -/
structure Counts (templates : Nat → Option ItemTemplate) (owner : Looter) (members : List Member) (personal : Bool)
    (drops : List Drop) (canStore : Nat → Nat → Bool) (gold : Nat) : Prop where
  seen : foldAllowed (fun loot drop => loot.addItem templates owner members drop) (dropAllowed templates owner members)
    (empty gold) drops = true
  listed : ((dropped templates owner members drops gold).items.all fun it =>
    !isConditional it || wanted templates (filledFor owner members personal) it) = true
  fills : foldAllowed (fun loot p => loot.fillNotNormalLootFor templates p.1 p.2 (canStore p.1.guid))
    (fillAllowed templates canStore) (dropped templates owner members drops gold) (filledFor owner members personal) = true
  byte : ((empty gold).fillLoot templates owner members personal drops canStore).takes < 256

theorem addStacks_fresh {proto : ItemTemplate} (n : Nat) : ∀ (i count : Nat) (loot : Loot),
    (∀ it ∈ loot.items, it.isLooted = false) →
      (∀ it ∈ (addStacks templates owner members proto drop n i count loot).items, it.isLooted = false) ∧
        (addStacks templates owner members proto drop n i count loot).playerNonQuestNonFFAConditionalItems =
          loot.playerNonQuestNonFFAConditionalItems := by
  induction n with
  | zero => exact fun _ _ _ h => ⟨h, rfl⟩
  | succ n ih =>
    intro i count loot h
    unfold addStacks
    extract_lets lootItems limit random base generatedLoot loot₁ loot₂
    split
    next =>
      have hloot₁ : (∀ it ∈ loot₁.items, it.isLooted = false) ∧
          loot₁.playerNonQuestNonFFAConditionalItems = loot.playerNonQuestNonFFAConditionalItems := by
        unfold loot₁
        split
        next => exact ⟨h, rfl⟩
        next =>
        refine ⟨fun it hit => ?_, rfl⟩
        rcases List.mem_append.1 hit with hit | hit
        · exact h it hit
        · rw [List.mem_singleton.1 hit]
          rfl
      have hloot₂ : loot₂.items = loot₁.items ∧
          loot₂.playerNonQuestNonFFAConditionalItems = loot₁.playerNonQuestNonFFAConditionalItems := by
        unfold loot₂
        split
        next => exact ⟨rfl, rfl⟩
        next => split <;> exact ⟨rfl, rfl⟩
      obtain ⟨hlooted, hlists⟩ := ih (i + 1) (count - proto.maxStackSize) loot₂ (hloot₂.1 ▸ hloot₁.1)
      exact ⟨hlooted, hlists.trans (hloot₂.2.trans hloot₁.2)⟩
    next => exact ⟨h, rfl⟩

/-- Nothing that drops is looted yet, or in a list. -/
structure Dropping (loot : Loot) : Prop where
  tallied : loot.Tallied
  unlooted : ∀ it ∈ loot.items, it.isLooted = false
  unlisted : loot.playerNonQuestNonFFAConditionalItems = .empty

theorem Dropping.addItem (h : loot.Dropping) (hok : dropAllowed templates owner members loot drop = true) :
    (loot.addItem templates owner members drop).Dropping := by
  have htallied := tallied_addItem h.tallied hok
  have hfresh : (∀ it ∈ (loot.addItem templates owner members drop).items, it.isLooted = false) ∧
      (loot.addItem templates owner members drop).playerNonQuestNonFFAConditionalItems =
        loot.playerNonQuestNonFFAConditionalItems := by
    unfold Loot.addItem
    split
    next => exact ⟨h.unlooted, rfl⟩
    next => exact addStacks_fresh _ _ _ _ h.unlooted
  exact ⟨htallied, hfresh.1, hfresh.2.trans h.unlisted⟩

variable {personal : Bool} {drops : List Drop} {canStore : Nat → Nat → Bool} {gold : Nat}

/-- After `FillLoot`, the count is right. -/
theorem Counts.filled (h : Counts templates owner members personal drops canStore gold)
    (hguids : ((filledFor owner members personal).map (·.1.guid)).Nodup) :
    ((empty gold).fillLoot templates owner members personal drops canStore).Exact := by
  have hdropped : (dropped templates owner members drops gold).Dropping :=
    foldl_invariant Dropping (fun _ _ hloot hok => hloot.addItem hok) ⟨tallied_empty gold, nofun, rfl⟩ h.seen
  have hfilling : (dropped templates owner members drops gold).Filling templates (filledFor owner members personal) := by
    refine ⟨hdropped.tallied, fun p _ => by rw [hdropped.unlisted]; rfl, fun it hit hconditional => ⟨hdropped.unlooted it hit, ?_⟩⟩
    have hlisted := List.all_eq_true.1 h.listed it hit
    rw [hconditional, Bool.not_true, Bool.false_or, wanted, List.any_eq_true] at hlisted
    exact .inr hlisted
  have hready := (foldl_invariant_rest
    (fun ps (loot : Loot) => (ps.map fun p : Looter × Bool => p.1.guid).Nodup ∧ loot.Filling templates ps)
    (fun p ps loot hloot hok => ⟨(List.nodup_cons.1 hloot.1).2, hloot.2.fill (List.nodup_cons.1 hloot.1).1 hok⟩)
    ⟨hguids, hfilling⟩ h.fills).2.ready
  refine ⟨?_, h.byte⟩
  unfold fillLoot
  extract_lets dropped' filled
  split
  next group _ =>
    split
    next => exact hready
    next =>
    refine Ready.same hready ?_ rfl filled.gold
    rw [List.map_map]
    refine List.map_congr_left fun it _ => ?_
    dsimp only [Function.comp]
    split <;> rfl
  next => exact hready

theorem filled_reaches (hguids : ((filledFor owner members personal).map (·.1.guid)).Nodup)
    (hcounts : Counts templates owner members personal drops canStore gold)
    (h : Reaches (fun event loot => some (loot.handle templates event)) (fun event loot => event.allowed templates loot = true)
      ((empty gold).fillLoot templates owner members personal drops canStore) loot) :
    loot.unlootedCount.toNat = loot.takes ∧ (loot.isLooted = true ↔
      loot.gold = 0 ∧ ∀ i guid slot, loot.lootItemInSlot i guid = some slot → takeAllowed slot = false) := by
  refine (h.invariant Exact (fun event loot loot' hloot hok hstep => ?_) (hcounts.filled hguids)).closes
  cases hstep
  exact hloot.handle hok

/-! A chest for a group of two -/

/-- Items that differ in whether they are free for all; only the fourth is a quest item. -/
def chestTemplates (itemid : Nat) : Option ItemTemplate :=
  some
    { maxStackSize := 20, quality := 1, multiDrop := itemid = 2, followLootRules := false, ignoreQuestStatus := false
      factionHorde := false, factionAlliance := false, hideUnusableRecipe := false, boundRecipe := false
      requiredSkill := 0, spell := 0, startQuest := 0, isCurrencyToken := false }

def chestGroup : LootGroup := { lootMethod := .groupLoot, masterLooterGuid := 0, lootThreshold := 2 }

/-- A player who has the quest. The condition 7 holds for the player 1, the others for both. -/
def chestLooter (guid : Nat) : Looter :=
  { guid := guid, team := .horde, group := some chestGroup, meets := fun conditions => !conditions.contains 7 || guid = 1
    hasSkill := fun _ => false, hasSpell := fun _ => false, hasQuestStatus := fun _ => true
    hasQuestForItem := fun _ => true }

def chestMembers : List Member :=
  [1, 2].map fun guid => { player := chestLooter guid, inMap := true, atGroupRewardDistance := true }

/-- One of an item. -/
def chestDrop (itemid : Nat) (needsQuest : Bool) (conditions : List Nat) : Drop :=
  { item := { itemid := itemid, needsQuest := needsQuest, conditions := conditions }, count := 1, random := fun _ => (0, 0) }

def chestDrops : List Drop :=
  [chestDrop 1 false [], chestDrop 2 false [], chestDrop 3 false [7], chestDrop 4 true []]

def chest (drops : List Drop) (gold : Nat) : Loot :=
  (empty gold).fillLoot chestTemplates (chestLooter 1) chestMembers false drops fun _ _ => true

/-- Both take the free-for-all item and the quest item, the first the conditional one and the gold, the second the rest. -/
def chestRun : List Event :=
  [.store (chestLooter 1) 1 true, .store (chestLooter 1) 2 true, .takeMoney, .store (chestLooter 2) 0 true,
    .store (chestLooter 2) 1 true, .store (chestLooter 1) 3 true, .store (chestLooter 2) 3 true]

theorem filled_reaches_chest :
    let loot := chestRun.foldl (fun loot event => loot.handle chestTemplates event) (chest chestDrops 50)
    loot.unlootedCount.toNat = loot.takes ∧ (loot.isLooted = true ↔
      loot.gold = 0 ∧ ∀ i guid slot, loot.lootItemInSlot i guid = some slot → takeAllowed slot = false) :=
  filled_reaches (by decide)
    ⟨by decide, by decide, by decide, by decide⟩ (Reaches.of_foldAllowed (by decide))

/-- Two players take one conditional item: nothing is left, and the count is 255. -/
theorem conditional_taken_twice : ¬ ∀ (templates : Nat → Option ItemTemplate) (owner : Looter) (members : List Member)
    (personal : Bool) (drops : List Drop) (canStore : Nat → Nat → Bool) (gold : Nat) (loot : Loot),
    ((filledFor owner members personal).map (·.1.guid)).Nodup →
    Reaches (fun event loot => some (Loot.handle templates loot event)) (fun _ _ => True)
      ((empty gold).fillLoot templates owner members personal drops canStore) loot →
    loot.unlootedCount.toNat = loot.takes := by
  intro h
  have hcount := h chestTemplates (chestLooter 1) chestMembers false [chestDrop 3 false [8]] (fun _ _ => true) 0 _
    (by decide)
    (.tail (.store (chestLooter 2) 0 true) (.tail (.store (chestLooter 1) 0 true) .refl trivial rfl) trivial rfl)
  revert hcount
  decide

end AtlasWow.Loots.Loot
