/-
Quest items in loot templates: whether a search for them and the generation
from a template agree. Both go through entries, groups and references
(`Reaches`). `HasQuestDrop` answers whether any flagged row is reached at all;
generation comes only to rows of the loot mode with a chance, in a group only
to those that the chances of the others leave room for.
-/
import AtlasWow.Lib.Draws
import AtlasWow.Loots.LootReferences

namespace AtlasWow.Loots

/-! ## Rows that are reached -/

def ItemGroup.rows (group : ItemGroup) : List LootTableItem := group.explicitlyChanced ++ group.equalChanced

namespace LootTemplate

/-- The row is an entry, or in a group. -/
def HasRow (template : LootTemplate) (item : LootTableItem) : Prop :=
  item ∈ template.entries ∨ ∃ group, some group ∈ template.groups ∧ item ∈ group.rows

theorem mem_groups_of_group? {template : LootTemplate} {groupId : Nat} {group : ItemGroup}
    (h : template.group? groupId = some group) : some group ∈ template.groups :=
  List.mem_of_getElem? (Option.join_eq_some_iff.1 h)

end LootTemplate

/-- What a row, a reference and a group have to be for a search to go by them. -/
structure Way where
  row : LootTableItem → Prop
  refer : LootTableItem → Prop
  group : ItemGroup → Prop

/-- A template, or a group of it, leads to a row by entries and groups. -/
inductive Reaches (store : LootTemplateMap) (way : Way) : LootTemplate → Nat → Prop
  | only {template : LootTemplate} {groupId : Nat} {group : ItemGroup} (hid : groupId ≠ 0)
    (hgroup : template.group? groupId = some group) (h : way.group group) : Reaches store way template groupId
  | row {template : LootTemplate} {item : LootTableItem} (hitem : item ∈ template.entries) (hplain : ¬0 < item.reference)
    (h : way.row item) : Reaches store way template 0
  | refer {template referenced : LootTemplate} {item : LootTableItem} (hitem : item ∈ template.entries)
    (hreference : 0 < item.reference) (h : way.refer item) (hfind : store.find? item.reference = some referenced)
    (hrest : Reaches store way referenced item.groupid) : Reaches store way template 0
  | group {template : LootTemplate} {group : ItemGroup} (hgroup : some group ∈ template.groups) (h : way.group group) :
    Reaches store way template 0

/-- The flagged rows that a template includes. -/
def Way.includes : Way where
  row item := item.needsQuest = true
  refer _ := True
  group group := ∃ item ∈ group.rows, item.needsQuest = true

/-- The templates that the references of a template lead to; one to a group leads no further. -/
inductive Mentions (store : LootTemplateMap) : LootTemplate → Nat → Prop
  | entry {template : LootTemplate} {item : LootTableItem} (hitem : item ∈ template.entries) (hreference : 0 < item.reference) :
    Mentions store template item.reference
  | deeper {template referenced : LootTemplate} {item : LootTableItem} {lootId : Nat} (hitem : item ∈ template.entries)
    (hreference : 0 < item.reference) (hall : item.groupid = 0) (hfind : store.find? item.reference = some referenced)
    (h : Mentions store referenced lootId) : Mentions store template lootId

/-- The rows of a template, and those of the templates that it leads to. -/
def Among (store : LootTemplateMap) (template : LootTemplate) (groupId : Nat) (item : LootTableItem) : Prop :=
  template.HasRow item ∨ (groupId = 0 ∧ ∃ lootId other, Mentions store template lootId ∧ store.find? lootId = some other ∧
    other.HasRow item)

variable {store : LootTemplateMap} {way way' : Way} {template : LootTemplate} {groupId : Nat}

theorem Among.refer {referenced : LootTemplate} {item row : LootTableItem} (hitem : item ∈ template.entries)
    (hreference : 0 < item.reference) (hfind : store.find? item.reference = some referenced)
    (h : Among store referenced item.groupid row) : Among store template 0 row := by
  rcases h with hown | ⟨hall, lootId, other, hmentions, hother, hrow⟩
  · exact .inr ⟨rfl, _, referenced, .entry hitem hreference, hfind, hown⟩
  · exact .inr ⟨rfl, lootId, other, .deeper hitem hreference hall hfind hmentions, hother, hrow⟩

theorem Reaches.mono (h : Reaches store way template groupId) (hrow : ∀ item, way.row item → way'.row item)
    (hrefer : ∀ item, way.refer item → way'.refer item) (hgroup : ∀ group, way.group group → way'.group group) :
    Reaches store way' template groupId := by
  induction h with
  | only hid hfind h => exact .only hid hfind (hgroup _ h)
  | row hitem hplain h => exact .row hitem hplain (hrow _ h)
  | refer hitem hreference h hfind _ ih => exact .refer hitem hreference (hrefer _ h) hfind ih
  | group hmem h => exact .group hmem (hgroup _ h)

theorem Reaches.exists_row {P : LootTableItem → Prop} (h : Reaches store way template groupId)
    (hrow : ∀ item, way.row item → P item) (hgroup : ∀ group, way.group group → ∃ item ∈ group.rows, P item) :
    ∃ item, P item ∧ Among store template groupId item := by
  induction h with
  | only hid hfind h =>
    obtain ⟨item, hmem, hP⟩ := hgroup _ h
    exact ⟨item, hP, .inl (.inr ⟨_, LootTemplate.mem_groups_of_group? hfind, hmem⟩)⟩
  | row hitem hplain h => exact ⟨_, hrow _ h, .inl (.inl hitem)⟩
  | refer hitem hreference h hfind _ ih =>
    obtain ⟨item, hP, hamong⟩ := ih
    exact ⟨item, hP, hamong.refer hitem hreference hfind⟩
  | group hmem h =>
    obtain ⟨item, hitem, hP⟩ := hgroup _ h
    exact ⟨item, hP, .inl (.inr ⟨_, hmem, hitem⟩)⟩

/-- A way is the same in two tables in which its references find the same templates. -/
theorem Reaches.transfer {store' mentioning : LootTemplateMap} (h : Reaches store way template groupId)
    (hstore : mentioning = store ∨ mentioning = store')
    (hsame : groupId = 0 → ∀ lootId, Mentions mentioning template lootId → store.find? lootId = store'.find? lootId) :
    Reaches store' way template groupId := by
  induction h with
  | only hid hgroup h => exact .only hid hgroup h
  | row hitem hplain h => exact .row hitem hplain h
  | refer hitem hreference h hfind _ ih =>
    have hfind' := (hsame rfl _ (.entry hitem hreference)).symm.trans hfind
    refine .refer hitem hreference h hfind' (ih fun hall lootId hmentions => hsame rfl lootId ?_)
    refine .deeper hitem hreference hall ?_ hmentions
    rcases hstore with rfl | rfl
    · exact hfind
    · exact hfind'
  | group hgroup h => exact .group hgroup h

theorem reaches_group_iff (hid : groupId ≠ 0) :
    Reaches store way template groupId ↔ ∃ group, template.group? groupId = some group ∧ way.group group := by
  constructor
  · intro h
    cases h with
    | only _ hgroup h => exact ⟨_, hgroup, h⟩
    | row | refer | group => exact absurd rfl hid
  · intro h
    obtain ⟨group, hgroup, h⟩ := h
    exact .only hid hgroup h

/-- An entry that is a row of the way, or a reference that leads on. -/
def Leads (store : LootTemplateMap) (way : Way) (item : LootTableItem) : Prop :=
  (¬0 < item.reference ∧ way.row item) ∨ (0 < item.reference ∧ way.refer item ∧
    ∃ referenced, store.find? item.reference = some referenced ∧ Reaches store way referenced item.groupid)

theorem reaches_iff : Reaches store way template 0 ↔
    (∃ item ∈ template.entries, Leads store way item) ∨ ∃ group, some group ∈ template.groups ∧ way.group group := by
  constructor
  · intro h
    cases h with
    | only hid => exact absurd rfl hid
    | row hitem hplain h => exact .inl ⟨_, hitem, .inl ⟨hplain, h⟩⟩
    | refer hitem hreference h hfind hrest => exact .inl ⟨_, hitem, .inr ⟨hreference, h, _, hfind, hrest⟩⟩
    | group hgroup h => exact .inr ⟨_, hgroup, h⟩
  · intro h
    rcases h with ⟨item, hitem, ⟨hplain, h⟩ | ⟨hreference, h, referenced, hfind, hrest⟩⟩ | ⟨group, hgroup, h⟩
    · exact .row hitem hplain h
    · exact .refer hitem hreference h hfind hrest
    · exact .group hgroup h

/-! ## The search -/

namespace LootTemplate

variable {found : LootTableItem → Bool} {groupFound : ItemGroup → Bool}

theorem searchEntries_iff {refer : LootTableItem → Option Bool} {R : LootTableItem → Prop} {items : List LootTableItem}
    (hrefer : ∀ item, 0 < item.reference → ∀ answer, refer item = some answer → (answer = true ↔ R item)) {answer : Bool}
    (h : searchEntries refer found items = some answer) :
    answer = true ↔ ∃ item ∈ items, (¬0 < item.reference ∧ found item = true) ∨ (0 < item.reference ∧ R item) := by
  induction items with
  | nil =>
    cases h
    simp
  | cons item items ih =>
    rw [searchEntries] at h
    rw [List.exists_mem_cons_iff]
    split at h
    next hreference =>
      have hitem := hrefer item hreference
      split at h
      next => cases h
      next htrue =>
        cases h
        exact iff_of_true rfl (.inl (.inr ⟨hreference, (hitem true htrue).1 rfl⟩))
      next hfalse =>
      rw [ih h, or_iff_right]
      intro hor
      rcases hor with hor | hor
      · exact hor.1 hreference
      · exact Bool.false_ne_true ((hitem false hfalse).2 hor.2)
    next hplain =>
    split at h
    next hfound =>
      cases h
      exact iff_of_true rfl (.inl (.inl ⟨hplain, hfound⟩))
    next hfound =>
    rw [ih h, or_iff_right]
    intro hor
    rcases hor with hor | hor
    · exact hfound hor.2
    · exact hplain hor.1

/-- A search that answers says whether there is such a row. -/
theorem search_iff {fuel : Nat} : ∀ {template : LootTemplate} {groupId : Nat} {answer : Bool},
    search found groupFound store fuel template groupId = some answer → (answer = true ↔
      Reaches store ⟨fun item => found item = true, fun _ => True, fun group => groupFound group = true⟩ template groupId) := by
  induction fuel with
  | zero =>
    intro template groupId answer h
    cases h
  | succ fuel ih =>
    intro template groupId answer h
    rw [search] at h
    split at h
    next hid =>
      cases h
      rw [reaches_group_iff hid, Option.any_eq_true]
    next hid =>
    rw [not_not.1 hid, reaches_iff]
    have hentries := fun answer => @searchEntries_iff found (searchReference (search found groupFound store fuel) store)
      (fun item => ∃ referenced, store.find? item.reference = some referenced ∧
        Reaches store ⟨fun item => found item = true, fun _ => True, fun group => groupFound group = true⟩ referenced
          item.groupid) template.entries (fun item _ answer hanswer => by
        rw [searchReference] at hanswer
        split at hanswer
        next hnone =>
          cases hanswer
          rw [hnone]
          simp
        next referenced hfind =>
        rw [ih hanswer, hfind]
        simp) answer
    have hleads : ∀ item, Leads store
        ⟨fun item => found item = true, fun _ => True, fun group => groupFound group = true⟩ item ↔
        (¬0 < item.reference ∧ found item = true) ∨ (0 < item.reference ∧ ∃ referenced,
          store.find? item.reference = some referenced ∧ Reaches store ⟨fun item => found item = true, fun _ => True,
            fun group => groupFound group = true⟩ referenced item.groupid) := fun item => by
      simp only [Leads, true_and]
    simp only [hleads]
    split at h
    next => cases h
    next htrue =>
      cases h
      exact iff_of_true rfl (.inl ((hentries true htrue).1 rfl))
    next hfalse =>
    cases h
    rw [or_iff_right fun hex => Bool.false_ne_true ((hentries false hfalse).2 hex), List.any_eq_true]
    simp only [Option.any_eq_true]
    constructor
    · intro hex
      obtain ⟨group, hmem, group', rfl, hfound⟩ := hex
      exact ⟨group', hmem, hfound⟩
    · intro hex
      obtain ⟨group, hmem, hfound⟩ := hex
      exact ⟨some group, hmem, group, rfl, hfound⟩

theorem hasQuestDrop_iff {fuel : Nat} {answer : Bool} (h : hasQuestDrop store fuel template groupId = some answer) :
    answer = true ↔ Reaches store .includes template groupId := by
  have hgroup : ∀ group : ItemGroup, group.hasQuestDrop = true ↔ ∃ item ∈ group.rows, item.needsQuest = true :=
    fun group => by
      rw [ItemGroup.hasQuestDrop, ItemGroup.rows, Bool.or_eq_true, List.any_eq_true, List.any_eq_true]
      simp only [List.mem_append, or_and_right, exists_or]
  rw [search_iff h]
  constructor
  · intro h
    exact h.mono (fun item h => h) (fun item h => h) fun group h => (hgroup group).1 h
  · intro h
    exact h.mono (fun item h => h) (fun item h => h) fun group h => (hgroup group).2 h

end LootTemplate

/-! ## Rows that are loaded -/

/-- The rows of a template, as the loading accepts and places them. -/
structure LootTemplate.Valid (listed : Nat → Bool) (template : LootTemplate) : Prop where
  entries : ∀ item ∈ template.entries, item.isValid listed = true
  rows : ∀ group, some group ∈ template.groups → ∀ item ∈ group.rows, item.isValid listed = true ∧ ¬0 < item.reference
  chanced : ∀ group, some group ∈ template.groups → ∀ item ∈ group.explicitlyChanced, item.chance ≠ 0

section

variable {listed : Nat → Bool} {template : LootTemplate} {item row : LootTableItem} {group : ItemGroup}

theorem LootTableItem.isValid_plain (h : item.isValid listed = true) (hplain : ¬0 < item.reference) :
    0 < item.mincount ∧ listed item.itemid = true ∧ (item.chance ≠ 0 → 0 < item.chance) := by
  unfold LootTableItem.isValid at h
  split at h
  next => cases h
  next hcount =>
  rw [if_pos (Nat.eq_zero_of_not_pos hplain)] at h
  split at h
  next => cases h
  next hlisted =>
  split at h
  next => cases h
  next =>
  split at h
  next => cases h
  next hchance =>
  refine ⟨Nat.pos_of_ne_zero hcount, by simpa using hlisted, fun hne => ?_⟩
  have hsome : ¬item.chance < 1 / 1000000 := by simpa [hne] using hchance
  exact lt_of_lt_of_le (by norm_num) (not_lt.1 hsome)

theorem mem_addEntry (h : row ∈ (group.addEntry item).rows) : row = item ∨ row ∈ group.rows := by
  unfold ItemGroup.addEntry ItemGroup.rows at h
  unfold ItemGroup.rows
  split at h <;> simp only [List.mem_append, List.mem_singleton] at h ⊢ <;> tauto

theorem chanced_addEntry (h : row ∈ (group.addEntry item).explicitlyChanced) :
    (row = item ∧ item.chance ≠ 0) ∨ row ∈ group.explicitlyChanced := by
  unfold ItemGroup.addEntry at h
  split at h
  next hchance =>
    rcases List.mem_append.1 h with h | h
    · exact .inr h
    · exact .inl ⟨List.mem_singleton.1 h, hchance⟩
  next => exact .inr h

theorem mem_modify {α : Type} {f : α → α} {i : Nat} {l : List α} {a : α} (h : a ∈ l.modify i f) : a ∈ l ∨ ∃ b ∈ l, f b = a := by
  obtain ⟨j, hj⟩ := List.mem_iff_getElem?.1 h
  rw [List.getElem?_modify] at hj
  obtain ⟨b, hb, hab⟩ := Option.map_eq_some_iff.1 hj
  split at hab
  next => exact .inr ⟨b, List.mem_of_getElem? hb, hab⟩
  next => exact .inl (hab ▸ List.mem_of_getElem? hb)

theorem LootTemplate.Valid.empty : LootTemplate.empty.Valid listed :=
  ⟨fun _ h => (nomatch h), fun _ h => (nomatch h), fun _ h => (nomatch h)⟩

theorem LootTemplate.Valid.addEntry (h : template.Valid listed) (hitem : item.isValid listed = true) :
    (template.addEntry item).Valid listed := by
  unfold LootTemplate.addEntry
  split
  next hgrouped =>
    extract_lets groups
    have hgroups : ∀ group, some group ∈ groups → some group ∈ template.groups := fun group hmem => by
      unfold groups at hmem
      split at hmem
      next =>
        rcases List.mem_append.1 hmem with hmem | hmem
        · exact hmem
        · exact absurd (List.mem_replicate.1 hmem).2 (Option.some_ne_none group)
      next => exact hmem
    -- a group of the template, maybe with the row added
    have hcases : ∀ group, some group ∈ groups.modify (item.groupid - 1) (fun group =>
        some ((group.getD .empty).addEntry item)) → some group ∈ template.groups ∨
          ∃ old : ItemGroup, (old = .empty ∨ some old ∈ template.groups) ∧ group = old.addEntry item := fun group hmem => by
      rcases mem_modify hmem with hmem | ⟨old, hold, heq⟩
      · exact .inl (hgroups group hmem)
      cases old with
      | none => exact .inr ⟨.empty, .inl rfl, (Option.some.inj heq).symm⟩
      | some old => exact .inr ⟨old, .inr (hgroups old hold), (Option.some.inj heq).symm⟩
    refine ⟨h.entries, fun group hmem row hrow => ?_, fun group hmem row hrow => ?_⟩
    · rcases hcases group hmem with hmem | ⟨old, hold, rfl⟩
      · exact h.rows group hmem row hrow
      · rcases mem_addEntry hrow with rfl | hrow
        · have hplain : row.reference = 0 := by simpa using (Bool.and_eq_true_iff.1 hgrouped).2
          exact ⟨hitem, by omega⟩
        · rcases hold with rfl | hold
          · exact (nomatch hrow)
          · exact h.rows old hold row hrow
    · rcases hcases group hmem with hmem | ⟨old, hold, rfl⟩
      · exact h.chanced group hmem row hrow
      · rcases chanced_addEntry hrow with ⟨rfl, hchance⟩ | hrow
        · exact hchance
        · rcases hold with rfl | hold
          · exact (nomatch hrow)
          · exact h.chanced old hold row hrow
  next =>
  refine ⟨fun row hrow => ?_, h.rows, h.chanced⟩
  rcases List.mem_append.1 hrow with hrow | hrow
  · exact h.entries row hrow
  · rw [List.mem_singleton.1 hrow]
    exact hitem

/-- All templates of a table are made of accepted rows. -/
theorem loadLootTable_valid (pl : Placement Nat LootTemplate) (listed : Nat → Bool) (rows : List (Nat × LootTableItem)) :
    ∀ {store : LootTemplateMap}, (∀ lootId template, store.find? lootId = some template → template.Valid listed) →
      ∀ lootId template, (LootStore.loadLootTable pl listed rows store).find? lootId = some template →
        template.Valid listed := by
  induction rows with
  | nil => exact fun h => h
  | cons row rows ih =>
    intro store h
    rw [LootStore.loadLootTable]
    split
    next => exact h
    next =>
    split
    next => exact ih h
    next hrow =>
    refine ih fun lootId template hfind => ?_
    rw [UMap.find?_insert] at hfind
    split at hfind
    next =>
      cases hfind
      refine LootTemplate.Valid.addEntry ?_ (by simpa using hrow)
      cases hold : store.find? row.1 with
      | none => exact .empty
      | some old => exact h row.1 old hold
    next => exact h lootId template hfind

end

end AtlasWow.Loots
