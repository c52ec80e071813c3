/-
References between loot templates: generation and the search for quest items
follow them, the one in the reference table, the other in the table itself.

Nothing checks that they come to an end. They do for every template, every
player and every random outcome exactly if no table has a template that leads
back to itself (`ends_iff`); a reference to a group leads nowhere.
-/
import AtlasWow.Lib.Walks
import AtlasWow.Loots.LootTemplate

namespace AtlasWow.Loots

/-- The loot tables. -/
inductive LootTable where
  | creature | disenchant | fishing | gameobject | item | mail | milling | pickpocketing | prospecting | reference | skinning | spell

abbrev LootStores := LootTable → LootTemplateMap

/-- The rows of all tables are loaded. -/
def loadLootTables (pl : Placement Nat LootTemplate) (listed : Nat → Bool) (rows : LootTable → List (Nat × LootTableItem)) :
    LootStores := fun table => LootStore.loadLootTable pl listed (rows table) .empty

/-- Generation and both searches return for every template of every table. -/
def Ends (stores : LootStores) : Prop := ∀ table lootId template, (stores table).find? lootId = some template →
  (∀ g rolls loot, ∃ fuel, (template.process g (stores .reference) fuel 0 rolls loot).isSome) ∧
    (∃ fuel, (template.hasQuestDrop (stores table) fuel 0).isSome) ∧
    ∀ hasQuestForItem, ∃ fuel, (template.hasQuestDropForPlayer hasQuestForItem (stores table) fuel 0).isSome

/-- A template has an entry that refers to all of another one. -/
def Refers (store : LootTemplateMap) (a b : Nat) : Prop := ∃ template item, store.find? a = some template ∧
  item ∈ template.entries ∧ item.reference = b ∧ 0 < b ∧ item.groupid = 0 ∧ (store.find? b).isSome

namespace LootTemplate

variable {store : LootTemplateMap}

/-! ## References that end -/

variable {items : List LootTableItem} {refer : LootTableItem → Option Bool} {fuel groupId : Nat}
  {template : LootTemplate} {P : Nat → LootTemplate → Nat → Prop}

theorem searchEntries_isSome
    (h : ∀ item ∈ items, 0 < item.reference → (refer item).isSome) (found : LootTableItem → Bool) :
    (searchEntries refer found items).isSome := by
  induction items with
  | nil => rfl
  | cons item items ih =>
    rw [List.forall_mem_cons] at h
    rw [searchEntries]
    split
    next hreference =>
      obtain ⟨r, hr⟩ := Option.isSome_iff_exists.1 (h.1 hreference)
      rw [hr]
      cases r with
      | true => rfl
      | false => exact ih h.2
    next =>
    split
    · rfl
    · exact ih h.2

/-- One level of a search returns if those below do. -/
theorem search_succ_isSome (found : LootTableItem → Bool) (groupFound : ItemGroup → Bool)
    (h : groupId = 0 → ∀ item ∈ template.entries, 0 < item.reference → ∀ referenced,
      store.find? item.reference = some referenced → (search found groupFound store fuel referenced item.groupid).isSome) :
    (search found groupFound store (fuel + 1) template groupId).isSome := by
  rw [search]
  split
  next => rfl
  next hgroup =>
  have hentries : (searchEntries (searchReference (search found groupFound store fuel) store) found template.entries).isSome :=
    searchEntries_isSome (fun item hitem hreference => by
      rw [searchReference]
      split
      next => rfl
      next referenced hfind => exact h (not_not.1 hgroup) item hitem hreference referenced hfind) found
  obtain ⟨r, hr⟩ := Option.isSome_iff_exists.1 hentries
  rw [hr]
  cases r <;> rfl

theorem repeated_isSome {process : Rolls → Loot → Option Loot} (h : ∀ rolls loot, (process rolls loot).isSome) (rolls : Rolls)
    (n : Nat) (loot : Loot) : (repeated process rolls n loot).isSome := by
  induction n generalizing loot with
  | zero => rfl
  | succ n ih =>
    obtain ⟨loot', hloot⟩ := Option.isSome_iff_exists.1 (h (rolls.part n) loot)
    rw [repeated, hloot]
    exact ih loot'

theorem processEntries_isSome (g : Generation) {refer : LootTableItem → Rolls → Loot → Option Loot}
    (h : ∀ item ∈ items, 0 < item.reference → ∀ rolls loot, (refer item rolls loot).isSome) (rolls : Rolls) (loot : Loot) :
    (processEntries g refer rolls items loot).isSome := by
  induction items generalizing loot with
  | nil => rfl
  | cons item items ih =>
    rw [List.forall_mem_cons] at h
    rw [processEntries]
    split
    next => exact ih h.2 loot
    next =>
    split
    next => exact ih h.2 loot
    next =>
    split
    next hreference =>
      obtain ⟨loot', hloot⟩ := Option.isSome_iff_exists.1 (h.1 hreference ((rolls.part items.length).part 1) loot)
      rw [hloot]
      exact ih h.2 loot'
    next => exact ih h.2 _

/-- One level of generation returns if those below do. -/
theorem process_succ_isSome (g : Generation)
    (h : groupId = 0 → ∀ item ∈ template.entries, 0 < item.reference → ∀ referenced,
      store.find? item.reference = some referenced →
        ∀ rolls loot, (process g store fuel referenced item.groupid rolls loot).isSome) (rolls : Rolls) (loot : Loot) :
    (process g store (fuel + 1) template groupId rolls loot).isSome := by
  rw [process]
  split
  next => split <;> rfl
  next hgroup =>
  have hentries : (processEntries g (processReference g (process g store fuel) store) (rolls.part 0) template.entries loot).isSome :=
    processEntries_isSome g (fun item hitem hreference rolls loot => by
      rw [processReference]
      split
      next => rfl
      next referenced hfind =>
        exact repeated_isSome (h (not_not.1 hgroup) item hitem hreference referenced hfind) rolls _ loot) (rolls.part 0) loot
  obtain ⟨loot', hloot⟩ := Option.isSome_iff_exists.1 hentries
  rw [hloot]
  rfl

/-- Without cycles, what holds one level up if it holds below holds with enough fuel. -/
theorem of_acyclic (hr : Walks.Acyclic (Refers store))
    (hstep : ∀ {fuel template groupId}, (groupId = 0 → ∀ item ∈ template.entries, 0 < item.reference → ∀ referenced,
      store.find? item.reference = some referenced → P fuel referenced item.groupid) → P (fuel + 1) template groupId) :
    ∀ {fuel lootId : Nat} {template : LootTemplate} {seen : List Nat}, store.find? lootId = some template →
      Walks.Walk (Refers store) lootId seen → store.size + 1 < fuel + seen.length → P fuel template 0 := by
  have hbound : ∀ {lootId : Nat} {seen : List Nat}, Walks.Walk (Refers store) lootId seen → seen.length ≤ store.size := by
    intro lootId seen hwalk
    rw [UMap.size, ← List.length_map Prod.fst]
    refine hwalk.length_le fun b c hc => ?_
    obtain ⟨template, item, _, _, _, _, _, hsome⟩ := hc
    exact UMap.mem_keys.2 (Option.isSome_iff_exists.1 hsome)
  intro fuel
  induction fuel with
  | zero =>
    intro lootId template seen _ hwalk hfuel
    have hle := hbound hwalk
    omega
  | succ fuel ih =>
    intro lootId template seen hfind hwalk hfuel
    refine hstep fun _ item hitem hreference referenced hreferenced => ?_
    have hle := hbound hwalk
    by_cases hgroup : item.groupid = 0
    · have hrefers : Refers store lootId item.reference :=
        ⟨template, item, hfind, hitem, rfl, hreference, hgroup, by rw [hreferenced]; rfl⟩
      rw [hgroup]
      refine ih hreferenced (hwalk.cons hr hrefers) ?_
      rw [List.length_cons]
      omega
    -- a reference to a group goes no deeper
    obtain ⟨fuel, rfl⟩ : ∃ fuel', fuel = fuel' + 1 := ⟨fuel - 1, by omega⟩
    exact hstep fun hzero => absurd hzero hgroup

/-- What holds one level up holds of every template, if the templates it refers to are in a table without cycles. -/
theorem of_acyclic_references (hr : Walks.Acyclic (Refers store))
    (hstep : ∀ {fuel template groupId}, (groupId = 0 → ∀ item ∈ template.entries, 0 < item.reference → ∀ referenced,
      store.find? item.reference = some referenced → P fuel referenced item.groupid) → P (fuel + 1) template groupId)
    (template : LootTemplate) : P (store.size + 3) template 0 := by
  refine hstep fun _ item _ _ referenced hreferenced => ?_
  by_cases hgroup : item.groupid = 0
  · rw [hgroup]
    exact of_acyclic hr (P := P) hstep hreferenced (.nil item.reference) (Nat.lt_succ_self _)
  · exact hstep fun hzero => absurd hzero hgroup

/-! ## References that do not -/

theorem searchEntries_ne_true {refer : LootTableItem → Option Bool} (hrefer : ∀ item, refer item ≠ some true)
    {found : LootTableItem → Bool} (hfound : ∀ item, found item = false) (items : List LootTableItem) :
    searchEntries refer found items ≠ some true := by
  induction items with
  | nil => exact fun h => Bool.false_ne_true (Option.some.inj h)
  | cons item items ih =>
    rw [searchEntries, hfound]
    split
    next =>
      split
      next => exact Option.some_ne_none true ∘ Eq.symm
      next htrue => exact absurd htrue (hrefer item)
      next => exact ih
    next => exact ih

theorem searchEntries_none (hrefer : ∀ item, refer item ≠ some true)
    {found : LootTableItem → Bool} (hfound : ∀ item, found item = false) {item : LootTableItem}
    (hitem : item ∈ items) (hreference : 0 < item.reference) (hnone : refer item = none) :
    searchEntries refer found items = none := by
  induction items with
  | nil => exact (nomatch hitem)
  | cons item' items ih =>
    rw [searchEntries]
    rcases List.mem_cons.1 hitem with rfl | hitem
    · rw [if_pos hreference, hnone]
    rw [hfound]
    split
    next =>
      split
      next => rfl
      next htrue => exact absurd htrue (hrefer item')
      next => exact ih hitem
    next => exact ih hitem

variable {found : LootTableItem → Bool} {groupFound : ItemGroup → Bool}

/-- A search for nothing finds nothing. -/
theorem search_ne_true (hfound : ∀ item, found item = false) (hgroup : ∀ group, groupFound group = false) :
    ∀ (fuel : Nat) (template : LootTemplate) (groupId : Nat), search found groupFound store fuel template groupId ≠ some true := by
  intro fuel
  induction fuel with
  | zero => exact fun _ _ => Option.some_ne_none true ∘ Eq.symm
  | succ fuel ih =>
    intro template groupId
    have hany : ∀ group : Option ItemGroup, group.any groupFound = false := fun group => by cases group <;> simp [hgroup]
    rw [search]
    split
    next =>
      rw [hany]
      exact fun h => Bool.false_ne_true (Option.some.inj h)
    next =>
    have hentries := @searchEntries_ne_true (searchReference (search found groupFound store fuel) store)
      (fun item => by
        rw [searchReference]
        split
        next => exact fun h => Bool.false_ne_true (Option.some.inj h)
        next => exact ih _ _) _ hfound template.entries
    split
    next => exact Option.some_ne_none true ∘ Eq.symm
    next htrue => exact absurd htrue hentries
    next => simp [hany]

/-- On a cycle of references a search for nothing does not return. -/
theorem search_cycle (hfound : ∀ item, found item = false) (hgroup : ∀ group, groupFound group = false) :
    ∀ (fuel : Nat) {lootId : Nat} {template : LootTemplate}, Relation.TransGen (Refers store) lootId lootId →
      store.find? lootId = some template → search found groupFound store fuel template 0 = none := by
  intro fuel
  induction fuel with
  | zero => exact fun _ _ => rfl
  | succ fuel ih =>
    intro lootId template hcycle hfind
    obtain ⟨b, hrefers, hback⟩ := Relation.TransGen.head'_iff.1 hcycle
    obtain ⟨template', item, hfind', hitem, rfl, hreference, hzero, hsome⟩ := id hrefers
    obtain ⟨referenced, hreferenced⟩ := Option.isSome_iff_exists.1 hsome
    rw [hfind, Option.some.injEq] at hfind'
    subst hfind'
    have hnone : searchReference (search found groupFound store fuel) store item = none := by
      rw [searchReference, hreferenced]
      simp only
      rw [hzero]
      exact ih (Relation.TransGen.tail' hback hrefers) hreferenced
    rw [search, if_neg (not_not.2 rfl), searchEntries_none _ hfound hitem hreference hnone]
    intro item
    rw [searchReference]
    split
    next => exact fun h => Bool.false_ne_true (Option.some.inj h)
    next => exact search_ne_true hfound hgroup _ _ _

end LootTemplate

/-- Generation and both searches return for every template exactly if no table has a template that leads back to itself. -/
theorem ends_iff (pl : Placement Nat LootTemplate) (listed : Nat → Bool) (rows : LootTable → List (Nat × LootTableItem)) :
    Ends (loadLootTables pl listed rows) ↔ ∀ table, Walks.Acyclic (Refers (loadLootTables pl listed rows table)) := by
  generalize loadLootTables pl listed rows = stores
  constructor
  · intro hends table lootId hcycle
    obtain ⟨b, hrefers, _⟩ := Relation.TransGen.head'_iff.1 hcycle
    obtain ⟨template, _, hfind, _⟩ := hrefers
    obtain ⟨fuel, hsome⟩ := (hends table lootId template hfind).2.2 fun _ => false
    rw [LootTemplate.hasQuestDropForPlayer, LootTemplate.search_cycle (fun _ => rfl)
      (fun group => by simp [ItemGroup.hasQuestDropForPlayer]) fuel hcycle hfind] at hsome
    exact Bool.false_ne_true hsome
  · intro hacyclic table lootId template hfind
    have hsearch : ∀ found groupFound, (LootTemplate.search found groupFound (stores table) ((stores table).size + 2) template 0).isSome :=
      fun found groupFound => LootTemplate.of_acyclic (hacyclic table)
        (P := fun fuel template groupId => (LootTemplate.search found groupFound (stores table) fuel template groupId).isSome)
        (fun h => LootTemplate.search_succ_isSome found groupFound h) hfind (.nil lootId) (Nat.lt_succ_self _)
    refine ⟨fun g rolls loot => ⟨(stores .reference).size + 3, ?_⟩, ⟨_, hsearch _ _⟩, fun hasQuestForItem => ⟨_, hsearch _ _⟩⟩
    exact LootTemplate.of_acyclic_references (hacyclic .reference)
      (P := fun fuel template groupId => ∀ rolls loot,
        (LootTemplate.process g (stores .reference) fuel template groupId rolls loot).isSome)
      (fun h rolls loot => LootTemplate.process_succ_isSome g h rolls loot) template rolls loot

/-- A reference template that refers to itself. -/
def selfReference : LootTableItem :=
  { itemid := 1, needsQuest := false, conditions := [], reference := 1, chance := 100, lootmode := 1, groupid := 0
    mincount := 1, maxcount := 1 }

def selfReferring : LootTable → List (Nat × LootTableItem)
  | .reference => [(1, selfReference)]
  | _ => []

/-- Rows that are all accepted, with references that all exist, on which the search never returns. -/
theorem selfReferring_hangs :
    (∀ table, ∀ row ∈ selfReferring table, row.2.isValid (fun _ => true) = true ∧ row.2.groupid < 2 ^ 7) ∧
      (∀ table lootId template, (loadLootTables (.front _ _) (fun _ => true) selfReferring table).find? lootId = some template →
        template.checkLootRefs (loadLootTables (.front _ _) (fun _ => true) selfReferring .reference) = []) ∧
      ¬Ends (loadLootTables (.front _ _) (fun _ => true) selfReferring) := by
  have hload : loadLootTables (.front _ _) (fun _ => true) selfReferring .reference =
      UMap.empty.insert (.front _ _) 1 ⟨[selfReference], []⟩ := rfl
  have hfind : (loadLootTables (.front _ _) (fun _ => true) selfReferring .reference).find? 1 = some ⟨[selfReference], []⟩ := by
    rw [hload, UMap.find?_insert_self]
  have hother : ∀ table, table ≠ .reference →
      loadLootTables (.front _ _) (fun _ => true) selfReferring table = .empty := fun table h => by
    cases table <;> first | rfl | exact absurd rfl h
  refine ⟨fun table row hrow => ?_, fun table lootId template htemplate => ?_, fun hends => ?_⟩
  · cases table with
    | reference =>
      rw [List.mem_singleton.1 hrow]
      exact ⟨by decide, by decide⟩
    | _ => cases hrow
  · by_cases htable : table = .reference
    · rw [htable, hload, UMap.find?_insert] at htemplate
      split at htemplate
      next =>
        rw [← Option.some.inj htemplate, LootTemplate.checkLootRefs, List.filter_eq_nil_iff]
        intro reference hreference
        have hone : reference = 1 := List.mem_singleton.1 hreference
        rw [hone, hfind]
        decide
      next => cases htemplate
    · rw [hother table htable] at htemplate
      cases htemplate
  · have hrefers : Refers (loadLootTables (.front _ _) (fun _ => true) selfReferring .reference) 1 1 :=
      ⟨_, selfReference, hfind, List.mem_singleton_self _, rfl, by decide, rfl, by rw [hfind]; rfl⟩
    obtain ⟨fuel, hsome⟩ := (hends .reference 1 _ hfind).2.2 fun _ => false
    rw [LootTemplate.hasQuestDropForPlayer, LootTemplate.search_cycle (fun _ => rfl)
      (fun group => by simp [ItemGroup.hasQuestDropForPlayer]) fuel (.single hrefers) hfind] at hsome
    exact Bool.false_ne_true hsome

end AtlasWow.Loots
