/-
Outcomes of the generation from a template. A flagged item drops only if the
template leads to a flagged row that can drop, and some outcome has one if the
way to such a row is clear; `HaveQuestLootFor` answers whether there is a
flagged row at all (`haveQuestLootFor_spec`). An outcome that is wanted of one
step goes with any outcome of the others.
-/
import Mathlib.Algebra.Order.BigOperators.Group.List
import AtlasWow.Loots.LootQuestDrops

namespace AtlasWow.Loots

variable {g : Generation} {rolls : Rolls} {loot loot' : Loot} {store : LootTemplateMap}

/-! ## Outcomes -/

section

variable {among : LootTableItem → Prop} {item : LootTableItem}

theorem rollExplicit_skip {before rest : List LootTableItem} {roll : Rat}
    (hbefore : ∀ row ∈ before, 0 < row.chance ∧ row.chance < 100) (hroll : 0 ≤ roll) :
    ItemGroup.rollExplicit ((before.map (·.chance)).sum + roll) (before ++ rest) = ItemGroup.rollExplicit roll rest := by
  induction before with
  | nil => rw [List.map_nil, List.sum_nil, zero_add, List.nil_append]
  | cons row before ih =>
    rw [List.forall_mem_cons] at hbefore
    have hsum : 0 ≤ (before.map (·.chance)).sum := List.sum_nonneg fun chance hchance => by
      obtain ⟨row', hrow', rfl⟩ := List.mem_map.1 hchance
      exact (hbefore.2 row' hrow').1.le
    have hrest : (((row :: before).map (·.chance)).sum + roll) - row.chance = (before.map (·.chance)).sum + roll := by
      rw [List.map_cons, List.sum_cons]
      ring
    rw [List.cons_append, ItemGroup.rollExplicit, if_neg (not_le.2 hbefore.1.2), hrest,
      if_neg (not_lt.2 (add_nonneg hsum hroll))]
    exact ih hbefore.2

/-- The rows of some that are valid now. -/
theorem LeaveRoom.valid {rows : List LootTableItem} (h : LeaveRoom g rows) (hrows : ∀ row ∈ rows, 0 < row.chance) (loot : Loot) :
    (∀ row ∈ rows.filter fun row => !ItemGroup.isInvalid g loot row, 0 < row.chance ∧ row.chance < 100) ∧
      0 ≤ ((rows.filter fun row => !ItemGroup.isInvalid g loot row).map (·.chance)).sum ∧
      ((rows.filter fun row => !ItemGroup.isInvalid g loot row).map (·.chance)).sum ≤ 100 := by
  have hvalid : ∀ row ∈ rows.filter fun row => !ItemGroup.isInvalid g loot row, 0 < row.chance ∧ row.chance < 100 :=
    fun row hrow => by
      obtain ⟨hmem, hvalid⟩ := List.mem_filter.1 hrow
      exact ⟨hrows row hmem, h.1 row hmem (inMode_of_valid hvalid)⟩
  have hsub : (rows.filter fun row => !ItemGroup.isInvalid g loot row).Sublist (rows.filter fun row => row.InMode g) := by
    have hboth : rows.filter (fun row => !ItemGroup.isInvalid g loot row) =
        (rows.filter fun row => row.InMode g).filter fun row => !ItemGroup.isInvalid g loot row := by
      rw [List.filter_filter]
      refine List.filter_congr fun row _ => ?_
      rw [Bool.eq_iff_iff, Bool.and_eq_true, decide_eq_true_iff]
      exact ⟨fun h => ⟨h, inMode_of_valid h⟩, fun h => h.1⟩
    rw [hboth]
    exact List.filter_sublist
  refine ⟨hvalid, List.sum_nonneg fun chance hchance => ?_, le_trans ?_ h.2⟩
  · obtain ⟨row, hrow, rfl⟩ := List.mem_map.1 hchance
    exact (hvalid row hrow).1.le
  · refine List.Sublist.sum_le_sum (hsub.map _) fun chance hchance => ?_
    obtain ⟨row, hrow, rfl⟩ := List.mem_map.1 hchance
    exact (hrows row (List.mem_filter.1 hrow).1).le

/-- A roll of a group that comes to a row it can come to. -/
theorem ItemGroup.Selects.exists_draw {group : ItemGroup} (h : group.Selects g item)
    (hchances : ∀ row ∈ group.explicitlyChanced, 0 < row.chance) (hvalid : (!isInvalid g loot item) = true) :
    ∃ draw, group.roll g draw loot = some item := by
  rcases h with ⟨before, after, heq, hroom⟩ | ⟨hmem, hroom⟩
  · have hbefore : ∀ row ∈ before, 0 < row.chance := fun row hrow =>
      hchances row (by rw [heq]; exact List.mem_append_left _ hrow)
    have hitem : 0 < item.chance := hchances item (by rw [heq]; exact List.mem_append_right _ List.mem_cons_self)
    obtain ⟨hskip, hsum⟩ := hroom.valid hbefore loot
    refine ⟨.of _ hsum 0, ?_⟩
    have hroll := @rollExplicit_skip _ (item :: after.filter fun row => !isInvalid g loot row) 0 hskip le_rfl
    rw [add_zero, rollExplicit, zero_sub, if_pos (neg_neg_of_pos hitem), ite_self] at hroll
    have hfilter : group.explicitlyChanced.filter (fun row => !isInvalid g loot row) =
        before.filter (fun row => !isInvalid g loot row) ++ item :: after.filter fun row => !isInvalid g loot row := by
      rw [heq, List.filter_append, List.filter_cons, if_pos hvalid]
    rw [roll, hfilter]
    dsimp only [Draw.of]
    rw [hroll]
  · obtain ⟨hskip, hsum⟩ := hroom.valid hchances loot
    -- all explicitly chanced rows are missed
    have hpossible : item ∈ group.equalChanced.filter fun row => !isInvalid g loot row := List.mem_filter.2 ⟨hmem, hvalid⟩
    obtain ⟨i, hi, hget⟩ := List.mem_iff_getElem.1 hpossible
    refine ⟨.of _ hsum i, ?_⟩
    have hroll := @rollExplicit_skip _ [] 0 hskip le_rfl
    rw [add_zero, List.append_nil, rollExplicit] at hroll
    rw [roll]
    dsimp only [Draw.of]
    rw [hroll]
    dsimp only
    rw [Nat.mod_eq_of_lt hi, List.getElem?_eq_getElem hi, hget]

theorem valid_of_lone (hmode : item.InMode g) (hlone : g.maxDuplicates = 0 ∨ Lone among item) (h : Sorted among loot) :
    (!ItemGroup.isInvalid g loot item) = true := by
  have hcount : ¬(0 < g.maxDuplicates ∧ g.maxDuplicates ≤ loot.items.countP (·.itemid = item.itemid)) := fun hfull => by
    rcases hlone with hzero | hlone
    · omega
    have hnone : loot.items.countP (·.itemid = item.itemid) = 0 := List.countP_eq_zero.2 fun it hit hid => by
      obtain ⟨-, row, hrow, hplain, hsame⟩ := h.plain it hit
      have hflag := hlone row hrow (hsame.trans (of_decide_eq_true hid))
      rw [hplain] at hflag
      exact Bool.false_ne_true hflag
    omega
  rw [ItemGroup.isInvalid, Bool.not_eq_true', Bool.or_eq_false_iff]
  refine ⟨decide_eq_false hmode, ?_⟩
  rw [Bool.and_eq_false_iff, decide_eq_false_iff_not, decide_eq_false_iff_not]
  exact not_and_or.1 hcount

end

/-! ## Outcomes with a flagged item -/

section

variable {among : LootTableItem → Prop} {listed : Nat → Bool} {template : LootTemplate} {item : LootTableItem}
  {fuel groupId : Nat} (hlisted : ∀ id, listed id = (g.itemTemplates id).isSome)

include hlisted

theorem ItemGroup.exists_flagged {group : ItemGroup} (h : (Way.clear g among).group group)
    (hrows : ∀ item ∈ group.rows, item.isValid listed = true ∧ ¬0 < item.reference)
    (hchanced : ∀ item ∈ group.explicitlyChanced, item.chance ≠ 0) (hloot : Sorted among loot) :
    ∃ rolls, Flagged (group.process g rolls loot) := by
  obtain ⟨item, hquest, hmode, hselects, hlone⟩ := h
  obtain ⟨draw, hdraw⟩ := hselects.exists_draw (fun row hrow =>
    (LootTableItem.isValid_plain (hrows row (List.mem_append_left _ hrow)).1 (hrows row (List.mem_append_left _ hrow)).2).2.2
      (hchanced row hrow)) (valid_of_lone hmode hlone hloot)
  obtain ⟨hcount, hitem, -⟩ := LootTableItem.isValid_plain (hrows item hselects.mem).1 (hrows item hselects.mem).2
  refine ⟨fun _ => draw, ?_⟩
  rw [process, hdraw]
  exact flagged_addTo hquest (by rw [← hlisted]; exact hitem) hcount hloot _

theorem processEntry_row (hrow : (Way.clear g among).row item) (hplain : ¬0 < item.reference) (hitem : item.isValid listed = true)
    (refer : LootTableItem → Rolls → Loot → Option Loot) (hloot : Sorted among loot) :
    ∃ rolls loot', LootTemplate.processEntry g refer item rolls loot = some loot' ∧ Flagged loot' := by
  obtain ⟨hquest, hmode, hroll⟩ := hrow
  obtain ⟨hcount, hproto, -⟩ := LootTableItem.isValid_plain hitem hplain
  refine ⟨fun _ => .of 0 ⟨le_rfl, by norm_num⟩ 0, _, ?_, flagged_addTo hquest (by rw [← hlisted]; exact hproto) hcount hloot
    (.of 0 ⟨le_rfl, by norm_num⟩ 0)⟩
  rw [LootTemplate.processEntry, if_neg hmode, LootTableItem.roll_of_canRoll hroll, Bool.not_true, if_neg Bool.false_ne_true,
    if_neg hplain]

end

/-- Generation returns, and where the way is clear some outcome of it has a flagged item. -/
structure Outcome (g : Generation) (store : LootTemplateMap) (among : LootTableItem → Prop) (fuel : Nat)
    (template : LootTemplate) (groupId : Nat) : Prop where
  ends : ∀ rolls loot, (template.process g store fuel groupId rolls loot).isSome
  flagged : Reaches store (.clear g among) template groupId → ∀ loot, Sorted among loot →
    ∃ rolls loot', template.process g store fuel groupId rolls loot = some loot' ∧ Flagged loot'

section

variable {among : LootTableItem → Prop} {listed : Nat → Bool} {template referenced : LootTemplate} {item : LootTableItem}
  {fuel groupId : Nat}

/-- Among the repetitions of what is referred to one is enough. -/
theorem processEntry_refer (h : (Way.clear g among).refer item) (hreference : 0 < item.reference)
    (hfind : store.find? item.reference = some referenced) (hreferenced : Outcome g store among fuel referenced item.groupid)
    (hamong : ∀ row, Among store referenced item.groupid row → among row)
    (hrest : Reaches store (.clear g among) referenced item.groupid) (hloot : Sorted among loot) :
    ∃ rolls loot', LootTemplate.processEntry g (LootTemplate.processReference g (LootTemplate.process g store fuel) store) item
      rolls loot = some loot' ∧ Flagged loot' := by
  obtain ⟨hmode, hroll, hmany⟩ := h
  have hends : ∀ a ∈ List.replicate (item.multiplicity g) (), ∀ rolls loot,
      ((fun _ : Unit => LootTemplate.process g store fuel referenced item.groupid) a rolls loot).isSome :=
    fun _ _ => hreferenced.ends
  obtain ⟨rolls, loot', hrun, hflagged⟩ := Draws.exists_run hends
    (fun _ _ t s s' hs hstep => process_keeps (fun row hrow => keeps_sorted (hamong row hrow)) hstep hs)
    (fun _ _ t s s' hs hstep => process_keeps (fun row _ => keeps_flagged row) hstep hs)
    (List.mem_replicate.2 ⟨hmany.ne', rfl⟩) (hreferenced.flagged hrest) hloot
  refine ⟨Draws.graft 1 (fun _ => .of 0 ⟨le_rfl, by norm_num⟩ 0) rolls, loot', ?_, hflagged⟩
  have hpart : Rolls.part (Draws.graft 1 (fun _ => .of 0 ⟨le_rfl, by norm_num⟩ 0) rolls) 1 = rolls :=
    Draws.part_graft_self 1 _ rolls
  rw [LootTemplate.processEntry, if_neg hmode, hpart, Draws.graft, if_pos Nat.zero_lt_one,
    LootTableItem.roll_of_canRoll hroll, Bool.not_true, if_neg Bool.false_ne_true, if_pos hreference,
    LootTemplate.processReference, hfind]
  dsimp only
  rw [LootTemplate.repeated_eq]
  exact hrun

/-- One level of generation has such an outcome if those below do. -/
theorem Outcome.step (hlisted : ∀ id, listed id = (g.itemTemplates id).isSome) (hvalid : template.Valid listed)
    (hamong : ∀ item, Among store template groupId item → among item)
    (hbelow : groupId = 0 → ∀ item ∈ template.entries, 0 < item.reference → ∀ referenced,
      store.find? item.reference = some referenced → Outcome g store among fuel referenced item.groupid) :
    Outcome g store among (fuel + 1) template groupId := by
  have hends : ∀ rolls loot, (template.process g store (fuel + 1) groupId rolls loot).isSome :=
    fun rolls loot => LootTemplate.process_succ_isSome g (fun hzero item hitem hreference referenced hfind =>
      (hbelow hzero item hitem hreference referenced hfind).ends) rolls loot
  refine ⟨hends, fun hreaches loot hloot => ?_⟩
  by_cases hid : groupId = 0
  · subst hid
    simp only [LootTemplate.process_eq]
    have hentriesSome : ∀ item ∈ template.entries, ∀ rolls loot, (LootTemplate.processEntry g
        (LootTemplate.processReference g (LootTemplate.process g store fuel) store) item rolls loot).isSome :=
      fun item hitem => LootTemplate.processEntry_isSome fun hreference referenced hfind =>
        (hbelow rfl item hitem hreference referenced hfind).ends
    have hentriesSorted : ∀ item ∈ template.entries, ∀ rolls loot loot', Sorted among loot → LootTemplate.processEntry g
        (LootTemplate.processReference g (LootTemplate.process g store fuel) store) item rolls loot = some loot' →
          Sorted among loot' := fun item hitem rolls loot loot' hs hstep =>
      processEntry_keeps hitem (fun row hrow => keeps_sorted (hamong row hrow)) hstep hs
    have hgroupsFlagged : ∀ group ∈ template.groups, ∀ rolls loot loot', Flagged loot →
        LootTemplate.processGroup g group rolls loot = some loot' → Flagged loot' :=
      fun group _ rolls loot loot' hs hstep => processGroup_keeps (fun _ _ row _ => keeps_flagged row) hstep hs
    have hgroupsSome : ∀ group ∈ template.groups, ∀ rolls loot, (LootTemplate.processGroup g group rolls loot).isSome :=
      fun _ _ _ _ => rfl
    rcases reaches_iff.1 hreaches with ⟨item, hitem, hleads⟩ | ⟨group, hgroup, hway⟩
    · -- an entry, and any outcome of the groups
      obtain ⟨rolls, loot₁, hrun, hflagged⟩ := Draws.exists_run hentriesSome hentriesSorted
        (fun item hitem rolls loot loot' hs hstep => processEntry_keeps hitem (fun row _ => keeps_flagged row) hstep hs) hitem
        (fun loot hloot => by
          rcases hleads with ⟨hplain, hrow⟩ | ⟨hreference, hrefer, referenced, hfind, hrest⟩
          · exact processEntry_row hlisted hrow hplain (hvalid.entries item hitem) _ hloot
          · exact processEntry_refer hrefer hreference hfind (hbelow rfl item hitem hreference referenced hfind)
              (fun row hrow => hamong row (hrow.refer hitem hreference hfind)) hrest hloot)
        hloot
      obtain ⟨loot', hgroups⟩ := Option.isSome_iff_exists.1 (Draws.run_isSome (t := Draws.part (Draws.graft 0 rolls rolls) 1)
        (s := loot₁) hgroupsSome)
      refine ⟨Draws.graft 0 rolls rolls, loot', ?_, Draws.run_keeps hgroupsFlagged hflagged hgroups⟩
      rw [Draws.part_graft_self, hrun]
      exact hgroups
    · -- any outcome of the entries, and a group
      obtain ⟨low⟩ : Nonempty Rolls := ⟨fun _ => .of 0 ⟨le_rfl, by norm_num⟩ 0⟩
      obtain ⟨loot₁, hentries⟩ := Option.isSome_iff_exists.1 (Draws.run_isSome (t := Draws.part low 0) (s := loot) hentriesSome)
      have hsorted : Sorted among loot₁ := Draws.run_keeps hentriesSorted hloot hentries
      obtain ⟨rolls, loot', hrun, hflagged⟩ := Draws.exists_run hgroupsSome
        (fun group hgroup rolls loot loot' hs hstep => processGroup_keeps (Q := Sorted among) (fun rows heq row hrow =>
          keeps_sorted (hamong row (.inl (.inr ⟨rows, heq ▸ hgroup, hrow⟩)))) hstep hs) hgroupsFlagged hgroup
        (fun loot hloot => by
          obtain ⟨rolls, hflagged⟩ := ItemGroup.exists_flagged hlisted hway (hvalid.rows group hgroup)
            (hvalid.chanced group hgroup) hloot
          exact ⟨rolls, _, rfl, hflagged⟩) hsorted
      refine ⟨Draws.graft 1 low rolls, loot', ?_, hflagged⟩
      rw [Draws.part_graft_self, Draws.part_graft_of_lt Nat.zero_lt_one, hentries]
      exact hrun
  · obtain ⟨group, hgroup, hway⟩ := (reaches_group_iff hid).1 hreaches
    have hmem := LootTemplate.mem_groups_of_group? hgroup
    obtain ⟨rolls, hflagged⟩ := ItemGroup.exists_flagged hlisted hway (hvalid.rows group hmem) (hvalid.chanced group hmem) hloot
    refine ⟨rolls, _, ?_, hflagged⟩
    rw [LootTemplate.process, if_pos hid, hgroup]

end

/-! ## The search and the outcomes -/

section

variable {listed : Nat → Bool} {template : LootTemplate} {stores : LootStores} {table : LootTable} {lootId : Nat}

theorem outcome_of_acyclic (hlisted : ∀ id, listed id = (g.itemTemplates id).isSome) (hr : Walks.Acyclic (Refers store))
    (hstore : ∀ lootId template, store.find? lootId = some template → template.Valid listed) (hvalid : template.Valid listed) :
    Outcome g store (Among store template 0) (store.size + 3) template 0 := by
  refine LootTemplate.of_acyclic_references hr
    (P := fun fuel other groupId => other.Valid listed → (∀ item, Among store other groupId item → Among store template 0 item) →
      Outcome g store (Among store template 0) fuel other groupId)
    (fun hbelow hvalid hamong => .step hlisted hvalid hamong fun hid item hitem hreference referenced hfind => ?_)
    template hvalid fun _ h => h
  refine hbelow hid item hitem hreference referenced hfind (hstore _ referenced hfind) fun row hrow => hamong row ?_
  rw [hid]
  exact hrow.refer hitem hreference hfind

/-- Some outcome of the rolls adds an item that is flagged as needing a quest. -/
def DropsQuestItem (g : Generation) (stores : LootStores) (table : LootTable) (lootId : Nat) : Prop :=
  ∃ template, (stores table).find? lootId = some template ∧ ∃ fuel rolls gold loot,
    template.process g (stores .reference) fuel 0 rolls (.empty gold) = some loot ∧ Flagged loot

/-- A template of a table leads to a row, by references into the reference table. -/
def LeadsTo (stores : LootStores) (way : LootTemplate → Way) (table : LootTable) (lootId : Nat) : Prop :=
  ∃ template, (stores table).find? lootId = some template ∧ Reaches (stores .reference) (way template) template 0

/-- The references of a template find the same templates in its own table and in the reference table. -/
def SameReferences (stores : LootStores) (table : LootTable) (lootId : Nat) : Prop :=
  ∀ template, (stores table).find? lootId = some template → ∀ id, Mentions (stores .reference) template id →
    (stores table).find? id = (stores .reference).find? id

theorem haveQuestLootFor_iff {fuel : Nat} {answer : Bool} (hsame : SameReferences stores table lootId)
    (h : LootStore.haveQuestLootFor (stores table) fuel lootId = some answer) :
    answer = true ↔ LeadsTo stores (fun _ => .includes) table lootId := by
  unfold LootStore.haveQuestLootFor at h
  unfold LeadsTo
  split at h
  next hnone =>
    cases h
    rw [hnone]
    simp
  next template hfind =>
  rw [LootTemplate.hasQuestDrop_iff h, hfind]
  have hmentions := hsame template hfind
  constructor
  · intro hreaches
    exact ⟨template, rfl, hreaches.transfer (.inr rfl) fun _ => hmentions⟩
  · intro hleads
    obtain ⟨other, hother, hreaches⟩ := hleads
    cases hother
    exact hreaches.transfer (.inl rfl) fun _ id hid => (hmentions id hid).symm

theorem empty_unflagged (gold : Nat) : ¬Flagged (.empty gold) := fun ⟨_, hit, _⟩ => (nomatch hit)

/-- What drops is a row of the loot mode that entries with a chance lead to. -/
theorem DropsQuestItem.leadsTo (h : DropsQuestItem g stores table lootId) :
    LeadsTo stores (fun _ => .dropping g fun item => item.needsQuest = true) table lootId := by
  obtain ⟨template, hfind, fuel, rolls, gold, loot, hrun, hflagged⟩ := h
  have hquest : ∀ item : LootTableItem, ¬Keeps g (fun loot => ¬Flagged loot) item → item.needsQuest = true := fun item hlost =>
    Bool.not_eq_false _ ▸ mt keeps_unflagged hlost
  refine ⟨template, hfind, (reaches_of_process hrun (empty_unflagged gold) (not_not.2 hflagged)).mono
    (fun item h => ⟨hquest item h.1, h.2⟩) (fun item h => h) fun group h => ?_⟩
  obtain ⟨item, hmem, hlost, hmode⟩ := h
  exact ⟨item, hmem, hquest item hlost, hmode⟩

end

/-! ## A reference, and another loot mode -/

/-- A row of chance 100 for one item, in a loot mode, flagged or a reference. -/
def questRow (needsQuest : Bool) (reference : Nat) (lootmode : UInt16) : LootTableItem :=
  { itemid := 7, needsQuest := needsQuest, conditions := [], reference := reference, chance := 100, lootmode := lootmode
    groupid := 0, mincount := 1, maxcount := 1 }

/-- Gameobject 1 refers to a template with a flagged row; that of gameobject 2 is for heroic mode. -/
def questRows : LootTable → List (Nat × LootTableItem)
  | .gameobject => [(1, questRow false 9 1), (2, questRow true 0 2)]
  | .reference => [(9, questRow true 0 1)]
  | _ => []

def questStores : LootStores := loadLootTables (.front _ _) (fun _ => true) questRows

/-- An item that nothing is special about. -/
def plainTemplate : ItemTemplate :=
  { maxStackSize := 20, quality := 1, multiDrop := false, followLootRules := false, ignoreQuestStatus := false
    factionHorde := false, factionAlliance := false, hideUnusableRecipe := false, boundRecipe := false, requiredSkill := 0
    spell := 0, startQuest := 0, isCurrencyToken := false }

/-- Normal mode, one looter who has the quest, all rates one. -/
def normalMode : Generation where
  itemTemplates _ := some plainTemplate
  owner :=
    { guid := 1, team := .alliance, group := none, meets := fun _ => true, hasSkill := fun _ => false
      hasSpell := fun _ => false, hasQuestStatus := fun _ => true, hasQuestForItem := fun _ => true }
  members := []
  maxDuplicates := 1
  lootMode := 1
  rate := true
  rateReferenced := 1
  rateReferencedAmount := 1
  rateQuality _ := 1

theorem questRow_isValid (needsQuest : Bool) (reference : Nat) (lootmode : UInt16) :
    (questRow needsQuest reference lootmode).isValid (fun _ => true) = true := by
  unfold LootTableItem.isValid questRow
  norm_num

theorem questStores_gameobject : questStores .gameobject =
    (UMap.empty.insert (.front _ _) 1 ⟨[questRow false 9 1], []⟩).insert (.front _ _) 2 ⟨[questRow true 0 2], []⟩ := by
  unfold questStores loadLootTables questRows LootStore.loadLootTable LootStore.loadLootTable LootStore.loadLootTable
  simp only [questRow_isValid]
  rfl

theorem questStores_reference : questStores .reference = UMap.empty.insert (.front _ _) 9 ⟨[questRow true 0 1], []⟩ := by
  unfold questStores loadLootTables questRows LootStore.loadLootTable LootStore.loadLootTable
  simp only [questRow_isValid]
  rfl

/-- No template of them refers to one of its own table. -/
theorem questStores_acyclic (table : LootTable) : Walks.Acyclic (Refers (questStores table)) := by
  have hnone : ∀ a b, ¬Refers (questStores table) a b := fun a b h => by
    obtain ⟨template, item, hfind, hitem, hreference, hpos, -, hsome⟩ := h
    cases table with
    | gameobject =>
      rw [questStores_gameobject] at hfind hsome
      rw [UMap.find?_insert] at hfind
      split at hfind
      next =>
        cases hfind
        rw [List.mem_singleton.1 hitem] at hreference
        exact absurd hreference hpos.ne
      next =>
      rw [UMap.find?_insert] at hfind
      split at hfind
      next =>
        cases hfind
        rw [List.mem_singleton.1 hitem] at hreference
        rw [← hreference] at hsome
        exact absurd hsome (by decide)
      next => cases hfind
    | reference =>
      rw [questStores_reference, UMap.find?_insert] at hfind
      split at hfind
      next =>
        cases hfind
        rw [List.mem_singleton.1 hitem] at hreference
        exact absurd hreference hpos.ne
      next => cases hfind
    | _ => cases hfind
  intro a hcycle
  obtain ⟨b, hrefers, _⟩ := Relation.TransGen.head'_iff.1 hcycle
  exact hnone a b hrefers

theorem questStores_find_referenced : (questStores .reference).find? 9 = some ⟨[questRow true 0 1], []⟩ := by
  rw [questStores_reference, UMap.find?_insert_self]

theorem questStores_find_heroic : (questStores .gameobject).find? 2 = some ⟨[questRow true 0 2], []⟩ := by
  rw [questStores_gameobject, UMap.find?_insert_self]

/-- The row for another loot mode is not come to. -/
theorem heroic_drops_nothing : ¬DropsQuestItem normalMode questStores .gameobject 2 := by
  intro h
  obtain ⟨template, hfind, hreaches⟩ := h.leadsTo
  rw [questStores_find_heroic] at hfind
  cases hfind
  rcases reaches_iff.1 hreaches with ⟨item, hitem, ⟨-, -, hmode, -⟩ | ⟨hreference, -⟩⟩ | ⟨group, hgroup, -⟩
  · rw [List.mem_singleton.1 hitem] at hmode
    exact hmode (by decide)
  · rw [List.mem_singleton.1 hitem] at hreference
    exact absurd hreference (by decide)
  · exact (nomatch hgroup)

end AtlasWow.Loots
