/-
What the generation from a template can come to: the loop over the entries, the
groups and the repetitions are runs whose steps draw in parts of their own
(`Draws.run`). Whatever a run changes is changed by a row of the loot mode that
entries with a chance lead to (`reaches_of_process`).
-/
import AtlasWow.Loots.LootQuests

namespace AtlasWow.Loots

variable (g : Generation)

/-! ## Ways -/

/-- The row is for the loot mode. -/
def LootTableItem.InMode (item : LootTableItem) : Prop := item.lootmode &&& g.lootMode ≠ 0

instance (item : LootTableItem) : Decidable (item.InMode g) := inferInstanceAs (Decidable (_ ≠ _))

/-- The chance of an entry, with the rates. -/
def LootTableItem.ratedChance (item : LootTableItem) : Rat :=
  if 0 < item.reference then item.chance * (if g.rate then g.rateReferenced else 1)
  else item.chance * match g.itemTemplates item.itemid with
    | some proto => if g.rate then g.rateQuality proto.quality else 1
    | none => 1

/-- The roll for an entry can succeed. -/
def LootTableItem.CanRoll (item : LootTableItem) : Prop := 100 ≤ item.chance ∨ 0 < item.ratedChance g

/-- Rows of the loot mode, by entries that can be rolled and references that are followed at all. -/
def Way.dropping (P : LootTableItem → Prop) : Way where
  row item := P item ∧ item.InMode g ∧ item.CanRoll g
  refer item := item.InMode g ∧ item.CanRoll g ∧ 0 < item.multiplicity g
  group group := ∃ item ∈ group.rows, P item ∧ item.InMode g

/-- The chances of some rows, as far as they are of the loot mode, leave room for others. -/
def LeaveRoom (rows : List LootTableItem) : Prop :=
  (∀ row ∈ rows, row.InMode g → row.chance < 100) ∧ ((rows.filter fun row => row.InMode g).map (·.chance)).sum ≤ 100

/-- The roll of a group can come to a row of it. -/
def ItemGroup.Selects (group : ItemGroup) (item : LootTableItem) : Prop :=
  (∃ before after, group.explicitlyChanced = before ++ item :: after ∧ LeaveRoom g before) ∨
    (item ∈ group.equalChanced ∧ LeaveRoom g group.explicitlyChanced)

/-- All rows for the item of a flagged row are flagged: the limit of duplicates, which counts the others, is no matter. -/
def Lone (among : LootTableItem → Prop) (item : LootTableItem) : Prop :=
  ∀ row, among row → row.itemid = item.itemid → row.needsQuest = true

/-- Flagged rows that nothing keeps from dropping. -/
def Way.clear (among : LootTableItem → Prop) : Way where
  row item := item.needsQuest = true ∧ item.InMode g ∧ item.CanRoll g
  refer item := item.InMode g ∧ item.CanRoll g ∧ 0 < item.multiplicity g
  group group := ∃ item, item.needsQuest = true ∧ item.InMode g ∧ group.Selects g item ∧
    (g.maxDuplicates = 0 ∨ Lone among item)

variable {g}

variable {group : ItemGroup} {draw : Draw} {fuel : Nat} {template : LootTemplate}

theorem ItemGroup.Selects.mem {item : LootTableItem} (h : group.Selects g item) : item ∈ group.rows := by
  rw [ItemGroup.rows, List.mem_append]
  rcases h with ⟨before, after, heq, -⟩ | ⟨hmem, -⟩
  · rw [heq]
    exact .inl (List.mem_append_right _ List.mem_cons_self)
  · exact .inr hmem

theorem LootTableItem.roll_iff {item : LootTableItem} :
    item.roll g draw = true ↔ 100 ≤ item.chance ∨ draw.chance < item.ratedChance g := by
  unfold LootTableItem.roll LootTableItem.ratedChance
  split
  next h => exact iff_of_true rfl (.inl h)
  next h =>
  rw [or_iff_right h]
  split
  next => exact decide_eq_true_iff
  next => exact decide_eq_true_iff

theorem LootTableItem.canRoll_of_roll {item : LootTableItem} (h : item.roll g draw = true) : item.CanRoll g :=
  (roll_iff.1 h).imp id fun h => lt_of_le_of_lt draw.chance_range.1 h

/-- The draw of lowest chance, with a roll and a selection. -/
def Draw.of (roll : Rat) (h : 0 ≤ roll ∧ roll ≤ 100) (selected : Nat) : Draw where
  chance := 0
  roll := roll
  chance_range := ⟨le_refl 0, by norm_num⟩
  roll_range := h
  selected := selected
  count := 0
  random _ := (0, 0)

theorem LootTableItem.roll_of_canRoll {item : LootTableItem} (h : item.CanRoll g) {r : Rat} {hr : 0 ≤ r ∧ r ≤ 100} {i : Nat} :
    item.roll g (.of r hr i) = true := roll_iff.2 h

/-! ## The steps of a run -/

namespace LootTemplate

/-- A round of the loop over the entries. -/
def processEntry (g : Generation) (refer : LootTableItem → Rolls → Loot → Option Loot) (item : LootTableItem) (rolls : Rolls)
    (loot : Loot) : Option Loot :=
  if item.lootmode &&& g.lootMode = 0 then some loot
  else if !item.roll g (rolls [0]) then some loot
  else if 0 < item.reference then refer item (rolls.part 1) loot
  else some (item.addTo g (rolls [1]) loot)

theorem processEntries_eq (refer : LootTableItem → Rolls → Loot → Option Loot) (rolls : Rolls) (items : List LootTableItem)
    (loot : Loot) : processEntries g refer rolls items loot = Draws.run (processEntry g refer) rolls items loot := by
  induction items generalizing loot with
  | nil => rfl
  | cons item items ih =>
    show _ = (processEntry g refer item (rolls.part items.length) loot).bind _
    rw [processEntries, processEntry]
    simp only [ih]
    split
    next => rfl
    next =>
    split
    next => rfl
    next =>
    split
    next =>
      cases refer item ((rolls.part items.length).part 1) loot with
      | none => rfl
      | some loot => rfl
    next => rfl

def processGroup (g : Generation) (group : Option ItemGroup) (rolls : Rolls) (loot : Loot) : Option Loot :=
  some (match group with
    | some group => group.process g rolls loot
    | none => loot)

theorem processGroups_eq (rolls : Rolls) (groups : List (Option ItemGroup)) (loot : Loot) :
    some (processGroups g rolls groups loot) = Draws.run (processGroup g) rolls groups loot := by
  induction groups generalizing loot with
  | nil => rfl
  | cons group groups ih => exact ih _

theorem repeated_eq (process : Rolls → Loot → Option Loot) (rolls : Rolls) (n : Nat) (loot : Loot) :
    repeated process rolls n loot = Draws.run (fun _ : Unit => process) rolls (List.replicate n ()) loot := by
  induction n generalizing loot with
  | zero => rfl
  | succ n ih =>
    rw [repeated, List.replicate_succ, Draws.run, List.length_replicate]
    show _ = (process (rolls.part n) loot).bind _
    cases process (rolls.part n) loot with
    | none => rfl
    | some loot => exact ih loot

theorem process_eq (store : LootTemplateMap) (fuel : Nat) (template : LootTemplate) (rolls : Rolls) (loot : Loot) :
    template.process g store (fuel + 1) 0 rolls loot =
      (Draws.run (processEntry g (processReference g (process g store fuel) store)) (Draws.part rolls 0) template.entries
        loot).bind (Draws.run (processGroup g) (Draws.part rolls 1) template.groups) := by
  rw [process, if_neg (not_not.2 rfl), processEntries_eq]
  show _ = (Draws.run _ (Rolls.part rolls 0) template.entries loot).bind _
  cases Draws.run (processEntry g (processReference g (process g store fuel) store)) (Rolls.part rolls 0) template.entries
    loot with
  | none => rfl
  | some loot₁ => exact processGroups_eq (Rolls.part rolls 1) template.groups loot₁

theorem processEntry_isSome {store : LootTemplateMap} {item : LootTableItem} (h : 0 < item.reference →
    ∀ referenced, store.find? item.reference = some referenced →
      ∀ rolls loot, (process g store fuel referenced item.groupid rolls loot).isSome) (rolls : Rolls) (loot : Loot) :
    (processEntry g (processReference g (process g store fuel) store) item rolls loot).isSome := by
  rw [processEntry]
  split
  next => rfl
  next =>
  split
  next => rfl
  next =>
  split
  next hreference =>
    rw [processReference]
    split
    next => rfl
    next referenced hfind => exact repeated_isSome (h hreference referenced hfind) _ _ loot
  next => rfl

end LootTemplate

/-! ## What a run can lose -/

/-- Adding the item keeps what is so of the loot. -/
def Keeps (g : Generation) (Q : Loot → Prop) (item : LootTableItem) : Prop := ∀ draw loot, Q loot → Q (item.addTo g draw loot)

theorem rollExplicit_mem {roll : Rat} {items : List LootTableItem} {item : LootTableItem}
    (h : ItemGroup.rollExplicit roll items = some item) : item ∈ items := by
  induction items generalizing roll with
  | nil => cases h
  | cons item' items ih =>
    rw [ItemGroup.rollExplicit] at h
    split at h
    next =>
      cases h
      exact List.mem_cons_self
    next =>
    split at h
    next =>
      cases h
      exact List.mem_cons_self
    next => exact List.mem_cons_of_mem _ (ih h)

theorem inMode_of_valid {loot : Loot} {item : LootTableItem} (h : (!ItemGroup.isInvalid g loot item) = true) : item.InMode g := by
  intro hmode
  rw [ItemGroup.isInvalid, hmode] at h
  simp at h

theorem ItemGroup.roll_mem {loot : Loot} {item : LootTableItem}
    (h : group.roll g draw loot = some item) : item ∈ group.rows ∧ item.InMode g := by
  rw [ItemGroup.rows, List.mem_append]
  rw [ItemGroup.roll] at h
  split at h
  next item' hexplicit =>
    cases h
    obtain ⟨hmem, hvalid⟩ := List.mem_filter.1 (rollExplicit_mem hexplicit)
    exact ⟨.inl hmem, inMode_of_valid hvalid⟩
  next =>
  obtain ⟨hmem, hvalid⟩ := List.mem_filter.1 (List.mem_of_getElem? h)
  exact ⟨.inr hmem, inMode_of_valid hvalid⟩

variable {Q : Loot → Prop} {rolls : Rolls} {loot loot' : Loot} {store : LootTemplateMap}

theorem ItemGroup.process_loses (hQ : Q loot) (hQ' : ¬Q (group.process g rolls loot)) :
    (Way.dropping g fun item => ¬Keeps g Q item).group group := by
  rw [ItemGroup.process] at hQ'
  split at hQ'
  next item hroll =>
    obtain ⟨hmem, hmode⟩ := roll_mem hroll
    exact ⟨item, hmem, fun hkeeps => hQ' (hkeeps _ _ hQ), hmode⟩
  next => exact absurd hQ hQ'

theorem processEntry_loses {refer : LootTableItem → Rolls → Loot → Option Loot} {item : LootTableItem}
    {R : LootTableItem → Prop}
    (hrefer : ∀ rolls loot loot', refer item rolls loot = some loot' → Q loot → ¬Q loot' → R item)
    (hrun : LootTemplate.processEntry g refer item rolls loot = some loot') (hQ : Q loot) (hQ' : ¬Q loot') :
    item.InMode g ∧ item.CanRoll g ∧ ((¬0 < item.reference ∧ ¬Keeps g Q item) ∨ (0 < item.reference ∧ R item)) := by
  rw [LootTemplate.processEntry] at hrun
  split at hrun
  next =>
    cases hrun
    exact absurd hQ hQ'
  next hmode =>
  split at hrun
  next =>
    cases hrun
    exact absurd hQ hQ'
  next hroll =>
  have hrolled : item.roll g (rolls [0]) = true := by simpa using hroll
  refine ⟨hmode, LootTableItem.canRoll_of_roll hrolled, ?_⟩
  split at hrun
  next hreference => exact .inr ⟨hreference, hrefer _ _ _ hrun hQ hQ'⟩
  next hplain =>
  cases hrun
  exact .inl ⟨hplain, fun hkeeps => hQ' (hkeeps _ _ hQ)⟩

/-- What the entry loses is lost by a row that it leads to, if that is so of what it refers to. -/
theorem leads_of_processEntry {item : LootTableItem}
    (href : ∀ {template : LootTemplate} {groupId : Nat} {rolls : Rolls} {loot loot' : Loot},
      template.process g store fuel groupId rolls loot = some loot' → Q loot → ¬Q loot' →
        Reaches store (.dropping g fun item => ¬Keeps g Q item) template groupId)
    (hrun : LootTemplate.processEntry g (LootTemplate.processReference g (LootTemplate.process g store fuel) store) item rolls
      loot = some loot') (hQ : Q loot) (hQ' : ¬Q loot') :
    Leads store (.dropping g fun item => ¬Keeps g Q item) item := by
  have hlost := processEntry_loses (R := fun item => 0 < item.multiplicity g ∧ ∃ referenced,
    store.find? item.reference = some referenced ∧
      Reaches store (.dropping g fun item => ¬Keeps g Q item) referenced item.groupid)
    (fun rolls loot loot' hreferred hQ hQ' => by
      rw [LootTemplate.processReference] at hreferred
      split at hreferred
      next =>
        cases hreferred
        exact absurd hQ hQ'
      next referenced hfind =>
      rw [LootTemplate.repeated_eq] at hreferred
      obtain ⟨_, hrepeat, t, s, s', hs, hstep, hs'⟩ := Draws.run_loses hQ hreferred hQ'
      exact ⟨Nat.pos_of_ne_zero (List.mem_replicate.1 hrepeat).1, referenced, hfind, href hstep hs hs'⟩) hrun hQ hQ'
  obtain ⟨hmode, hroll, ⟨hplain, hrow⟩ | ⟨hreference, hmany, hrest⟩⟩ := hlost
  · exact .inl ⟨hplain, hrow, hmode, hroll⟩
  · exact .inr ⟨hreference, ⟨hmode, hroll, hmany⟩, hrest⟩

/-- What a template's generation loses is lost by a row that it leads to. -/
theorem reaches_of_process : ∀ {template : LootTemplate} {groupId : Nat} {rolls : Rolls} {loot loot' : Loot},
    template.process g store fuel groupId rolls loot = some loot' → Q loot → ¬Q loot' →
      Reaches store (.dropping g fun item => ¬Keeps g Q item) template groupId := by
  induction fuel with
  | zero =>
    intro template groupId rolls loot loot' hrun
    cases hrun
  | succ fuel ih =>
    intro template groupId rolls loot loot' hrun hQ hQ'
    rw [LootTemplate.process] at hrun
    split at hrun
    next hid =>
      split at hrun
      next =>
        cases hrun
        exact absurd hQ hQ'
      next group hgroup =>
      cases hrun
      exact .only hid hgroup (ItemGroup.process_loses hQ hQ')
    next hid =>
    rw [not_not.1 hid, reaches_iff]
    split at hrun
    next => cases hrun
    next loot₁ hentries =>
    by_cases hQ₁ : Q loot₁
    · -- a group loses it
      rw [LootTemplate.processGroups_eq] at hrun
      obtain ⟨group, hmem, t, s, s', hs, hstep, hs'⟩ := Draws.run_loses hQ₁ hrun hQ'
      cases hstep
      cases group with
      | none => exact absurd hs hs'
      | some group => exact .inr ⟨group, hmem, ItemGroup.process_loses hs hs'⟩
    -- an entry loses it
    rw [LootTemplate.processEntries_eq] at hentries
    obtain ⟨item, hmem, t, s, s', hs, hstep, hs'⟩ := Draws.run_loses hQ hentries hQ₁
    exact .inl ⟨item, hmem, leads_of_processEntry ih hstep hs hs'⟩

theorem Reaches.exists_dropped {P : LootTableItem → Prop} {groupId : Nat}
    (h : Reaches store (.dropping g P) template groupId) : ∃ item, P item ∧ Among store template groupId item :=
  h.exists_row (fun _ h => h.1) fun _ ⟨item, hmem, h⟩ => ⟨item, hmem, h.1⟩

theorem process_keeps {groupId : Nat} (h : ∀ item, Among store template groupId item → Keeps g Q item)
    (hrun : template.process g store fuel groupId rolls loot = some loot') (hQ : Q loot) : Q loot' := by
  by_contra hQ'
  obtain ⟨item, hlost, hamong⟩ := (reaches_of_process hrun hQ hQ').exists_dropped
  exact hlost (h item hamong)

theorem processEntry_keeps {item : LootTableItem} (hitem : item ∈ template.entries)
    (h : ∀ item, Among store template 0 item → Keeps g Q item)
    (hrun : LootTemplate.processEntry g (LootTemplate.processReference g (LootTemplate.process g store fuel) store) item rolls
      loot = some loot') (hQ : Q loot) : Q loot' := by
  by_contra hQ'
  rcases leads_of_processEntry reaches_of_process hrun hQ hQ' with ⟨-, hlost, -⟩ | ⟨hreference, -, referenced, hfind, hrest⟩
  · exact hlost (h item (.inl (.inl hitem)))
  · obtain ⟨row, hlost, hamong⟩ := hrest.exists_dropped
    exact hlost (h row (hamong.refer hitem hreference hfind))

theorem processGroup_keeps {group : Option ItemGroup} (hgroup : ∀ rows, group = some rows → ∀ item ∈ rows.rows, Keeps g Q item)
    (hrun : LootTemplate.processGroup g group rolls loot = some loot') (hQ : Q loot) : Q loot' := by
  cases hrun
  cases group with
  | none => exact hQ
  | some group =>
    by_contra hQ'
    obtain ⟨item, hmem, hlost, -⟩ := ItemGroup.process_loses hQ hQ'
    exact hlost (hgroup group rfl item hmem)

/-! ## What is added -/

/-- An item is flagged as needing a quest. -/
def Flagged (loot : Loot) : Prop := ∃ it ∈ loot.items ++ loot.questItems, it.needsQuest = true

/-- Flagged items are apart from the others, and these are of some rows. -/
structure Sorted (among : LootTableItem → Prop) (loot : Loot) : Prop where
  quest : ∀ it ∈ loot.questItems, it.needsQuest = true
  plain : ∀ it ∈ loot.items, it.needsQuest = false ∧ ∃ row, among row ∧ row.needsQuest = false ∧ row.itemid = it.itemid

/-- The stacks of a drop come to one of the two lists; the first flagged one does in any case. -/
theorem addStacks_added (templates : Nat → Option ItemTemplate) (owner : Looter) (members : List Member) (proto : ItemTemplate)
    (drop : Loot.Drop) (n : Nat) : ∀ (i count : Nat) (loot : Loot), ∃ added : List LootItem,
      (∀ it ∈ added, it.itemid = drop.item.itemid ∧ it.needsQuest = drop.item.needsQuest) ∧
      (Loot.addStacks templates owner members proto drop n i count loot).items =
        loot.items ++ (if drop.item.needsQuest then [] else added) ∧
      (Loot.addStacks templates owner members proto drop n i count loot).questItems =
        loot.questItems ++ (if drop.item.needsQuest then added else []) ∧
      (n ≠ 0 → drop.item.needsQuest = true → loot.questItems = [] → added ≠ []) := by
  induction n with
  | zero =>
    intro i count loot
    exact ⟨[], by simp, by simp [Loot.addStacks], by simp [Loot.addStacks], fun h => absurd rfl h⟩
  | succ n ih =>
    intro i count loot
    unfold Loot.addStacks
    extract_lets lootItems limit random base generatedLoot loot₁ loot₂
    split
    next =>
      have hloot₂ : loot₂.items = loot₁.items ∧ loot₂.questItems = loot₁.questItems := by
        unfold loot₂
        split
        next => exact ⟨rfl, rfl⟩
        next => split <;> exact ⟨rfl, rfl⟩
      obtain ⟨added, hadded, hitems, hquests, -⟩ := ih (i + 1) (count - proto.maxStackSize) loot₂
      refine ⟨generatedLoot :: added, ?_, ?_, ?_, fun _ _ _ => List.cons_ne_nil _ _⟩
      · rw [List.forall_mem_cons]
        exact ⟨⟨rfl, rfl⟩, hadded⟩
      · rw [hitems, hloot₂.1]
        unfold loot₁
        split <;> simp
      · rw [hquests, hloot₂.2]
        unfold loot₁
        split <;> simp
    next hlimit =>
    refine ⟨[], by simp, by simp, by simp, fun _ hquest hempty => absurd ?_ hlimit⟩
    simp [lootItems, limit, hquest, hempty, MAX_NR_QUEST_ITEMS]

/-- A count that is not zero comes to a stack, be it not a full one. -/
theorem stacks_ne_zero {count : Nat} (h : 0 < count) (maxStackSize : Nat) :
    count / maxStackSize + (if count % maxStackSize ≠ 0 then 1 else 0) ≠ 0 := by
  intro hzero
  obtain ⟨hdiv, hmod⟩ := Nat.add_eq_zero_iff.1 hzero
  split at hmod
  next => cases hmod
  next hrest =>
  have hcount := Nat.div_add_mod count maxStackSize
  rw [hdiv, not_not.1 hrest, Nat.mul_zero] at hcount
  omega

/-- A row adds items of its own kind, and a flagged one adds an item to a loot without any. -/
theorem LootTableItem.addTo_added (item : LootTableItem) (draw : Draw) (loot : Loot) : ∃ added : List LootItem,
    (∀ it ∈ added, it.itemid = item.itemid ∧ it.needsQuest = item.needsQuest) ∧
      (item.addTo g draw loot).items = loot.items ++ (if item.needsQuest then [] else added) ∧
      (item.addTo g draw loot).questItems = loot.questItems ++ (if item.needsQuest then added else []) ∧
      ((g.itemTemplates item.itemid).isSome → 0 < item.mincount → item.needsQuest = true → loot.questItems = [] →
        added ≠ []) := by
  unfold LootTableItem.addTo Loot.addItem
  split
  next hnone => exact ⟨[], by simp, by simp, by simp, fun hsome => absurd hsome (by simp [hnone])⟩
  next proto hproto =>
  obtain ⟨added, hadded, hitems, hquests, hfirst⟩ := addStacks_added g.itemTemplates g.owner g.members proto
    ⟨item.toLootStoreItem, item.mincount + draw.count % (item.maxcount - item.mincount + 1), draw.random⟩ _ 0 _ loot
  exact ⟨added, hadded, hitems, hquests, fun _ hcount => hfirst (stacks_ne_zero (Nat.add_pos_left hcount _) _)⟩

section

variable {among : LootTableItem → Prop} {item : LootTableItem}

theorem keeps_flagged (item : LootTableItem) : Keeps g Flagged item := by
  intro draw loot h
  obtain ⟨added, -, hitems, hquests, -⟩ := item.addTo_added (g := g) draw loot
  obtain ⟨it, hmem, hflag⟩ := h
  refine ⟨it, ?_, hflag⟩
  rw [hitems, hquests]
  rcases List.mem_append.1 hmem with hmem | hmem
  · exact List.mem_append_left _ (List.mem_append_left _ hmem)
  · exact List.mem_append_right _ (List.mem_append_left _ hmem)

theorem keeps_unflagged (h : item.needsQuest = false) : Keeps g (fun loot => ¬Flagged loot) item := by
  intro draw loot hnone hflagged
  obtain ⟨added, hadded, hitems, hquests, -⟩ := item.addTo_added (g := g) draw loot
  obtain ⟨it, hmem, hflag⟩ := hflagged
  rw [hitems, hquests, h] at hmem
  simp only [Bool.false_eq_true, if_false, List.append_nil, List.mem_append] at hmem
  rcases hmem with (hmem | hmem) | hmem
  · exact hnone ⟨it, List.mem_append_left _ hmem, hflag⟩
  · rw [(hadded it hmem).2, h] at hflag
    exact Bool.false_ne_true hflag
  · exact hnone ⟨it, List.mem_append_right _ hmem, hflag⟩

theorem keeps_sorted (h : among item) : Keeps g (Sorted among) item := by
  intro draw loot hsorted
  obtain ⟨added, hadded, hitems, hquests, -⟩ := item.addTo_added (g := g) draw loot
  cases hquest : item.needsQuest with
  | true =>
    rw [hquest] at hitems hquests hadded
    simp only [if_true, List.append_nil] at hitems hquests
    refine ⟨fun it hit => ?_, fun it hit => hsorted.plain it (hitems ▸ hit)⟩
    rw [hquests] at hit
    rcases List.mem_append.1 hit with hit | hit
    · exact hsorted.quest it hit
    · exact (hadded it hit).2
  | false =>
    rw [hquest] at hitems hquests hadded
    simp only [Bool.false_eq_true, if_false, List.append_nil] at hitems hquests
    refine ⟨fun it hit => hsorted.quest it (hquests ▸ hit), fun it hit => ?_⟩
    rw [hitems] at hit
    rcases List.mem_append.1 hit with hit | hit
    · exact hsorted.plain it hit
    · exact ⟨(hadded it hit).2, item, h, hquest, (hadded it hit).1.symm⟩

/-- A flagged row that can be added leaves a flagged item. -/
theorem flagged_addTo (hquest : item.needsQuest = true) (hproto : (g.itemTemplates item.itemid).isSome)
    (hcount : 0 < item.mincount) (h : Sorted among loot) (draw : Draw) : Flagged (item.addTo g draw loot) := by
  by_cases hflagged : Flagged loot
  · exact keeps_flagged item draw loot hflagged
  have hempty : loot.questItems = [] := List.eq_nil_iff_forall_not_mem.2 fun it hit =>
    hflagged ⟨it, List.mem_append_right _ hit, h.quest it hit⟩
  obtain ⟨added, hadded, -, hquests, hfirst⟩ := item.addTo_added (g := g) draw loot
  obtain ⟨it, hit⟩ := List.exists_mem_of_ne_nil _ (hfirst hproto hcount hquest hempty)
  refine ⟨it, List.mem_append_right _ ?_, (hadded it hit).2.trans hquest⟩
  rw [hquests, hquest, if_pos rfl]
  exact List.mem_append_right _ hit

end

end AtlasWow.Loots
