/-
The presets of a player's looks: `GossipSelectCode` (`Transmogrifier.cpp`)
saves one as a string of slots and entries, `Transmogrification::LoadPlayerSets`
reads them back.

What is saved is what is loaded (`loadPlayerSets_saved`), and so over every run
of saving, deleting and loading (`login_reached`). Statements to the database
take effect in their order; the rows of a query come in any.
-/
import AtlasWow.Entities.Transmogrification
import AtlasWow.Lib.InputStream
import AtlasWow.Lib.OrderedMap
import AtlasWow.Lib.UnorderedMap

namespace AtlasWow

namespace Transmogrification

structure PresetData where
  name : List Char
  slotMap : OMap Nat (BitVec 32)

/-- A row of `custom_transmogrification_sets`; its key are the owner and the preset. -/
structure SetRow where
  owner : Nat
  presetID : Nat
  setName : List Char
  setData : List Char

/-! ## Loading -/

/-- The loop of `LoadPlayerSets` over the numbers of a row. -/
def loadSlots (cfg : Config) (setData : IStream) (slotMap : OMap Nat (BitVec 32)) : OMap Nat (BitVec 32) :=
  if setData.good then
    let slot := setData.extract 32
    let entry := slot.2.extract 32
    if _h : entry.2.fail then slotMap
    else if EQUIPMENT_SLOT_END ≤ slot.1 then loadSlots cfg entry.2 slotMap
    else if (cfg.getItemTemplate entry.1).isSome then
      loadSlots cfg entry.2 (slotMap.insert slot.1 (BitVec.ofNat 32 entry.1))
    else loadSlots cfg entry.2 slotMap
  else slotMap
termination_by setData.text.length
decreasing_by all_goals exact IStream.extract_extract_shorter (by simpa using _h)

/-- `presetMap[PresetID]` is made if it is not there. -/
def loadRow (cfg : Config) (presetMap : OMap Nat PresetData) (row : SetRow) : OMap Nat PresetData :=
  let preset := (presetMap.find? row.presetID).getD ⟨[], .empty⟩
  presetMap.insert row.presetID
    { name := row.setName, slotMap := loadSlots cfg (.ofString row.setData) preset.slotMap }

def loadPlayerSets (cfg : Config) (rows : List SetRow) : OMap Nat PresetData := rows.foldl (loadRow cfg) .empty

/-! ## Saving -/

/-- The settings of presets. -/
structure SetConfig extends Config where
  enableSets : Bool
  maxSets : Nat
  /-- `cost *= SetCostModifier`. -/
  scaledSet (cost : Int) : Int
  setCopperCost : Int

structure PresetState where
  inventory : Inventory
  presetMap : OMap Nat PresetData
  table : List SetRow

/-- `items` as it is printed. -/
def setData (items : OMap Nat (BitVec 32)) : List Char :=
  items.entries.flatMap fun kv => decimal kv.1 ++ ' ' :: (decimal kv.2.toNat ++ [' '])

/-- The slots that have a name: those of a neck, fingers and trinkets have none. -/
def hasSlotName (slot : Nat) : Bool := slot ∈ [0, 2, 3, 4, 5, 6, 7, 8, 9, 14, 15, 16, 17, 18]

def allowedcharacters : List Char := "ABCDEFGHIJKLMNOPQRSTUVWXYZabcdefghijklmnopqrstuvwxyz _.,'1234567890".toList

/-- The loop over the slots: the price so far and the looks to save. -/
def collectLook (cfg : SetConfig) (player : Wearer) (inventory : Inventory) (acc : Int × OMap Nat (BitVec 32)) (slot : Nat) :
    Int × OMap Nat (BitVec 32) :=
  if !hasSlotName slot then acc
  else match getItemByPos slot inventory with
    | none => acc
    | some newItem =>
      let entry := BitVec.ofNat 32 newItem.transmog
      if entry = 0#32 then acc
      else match cfg.getItemTemplate entry.toNat with
        | none => acc
        | some temp =>
          if !suitableForTransmogrification cfg.toConfig player temp then acc
          else (int32 (acc.1 + (getSpecialPrice temp).toNat), acc.2.insert slot entry)

def collectLooks (cfg : SetConfig) (player : Wearer) (inventory : Inventory) : Int × OMap Nat (BitVec 32) :=
  (List.range EQUIPMENT_SLOT_END).foldl (collectLook cfg player inventory) (0, .empty)

/-- The preset that is free, or `MaxSets`. -/
def freePreset (cfg : SetConfig) (presetMap : OMap Nat PresetData) : Nat :=
  if presetMap.size < cfg.maxSets then
    ((List.range cfg.maxSets).find? fun i => (presetMap.find? i).isNone).getD cfg.maxSets
  else cfg.maxSets

/-- `REPLACE INTO`: a row with the key of the new one goes. -/
def replaceInto (table : List SetRow) (row : SetRow) : List SetRow :=
  table.filter (fun r => !(r.owner = row.owner && r.presetID = row.presetID)) ++ [row]

def gossipSelectCode (cfg : SetConfig) (player : Wearer) (owner : Nat) (code : List Char) (s : PresetState) : PresetState :=
  if !cfg.enableSets then s
  else if code.isEmpty || code.any (· ∉ allowedcharacters) then s
  else
    let looks := collectLooks cfg player s.inventory
    let items := looks.2
    if items.isEmpty then s
    else
      let cost := int32 (int32 (cfg.scaledSet looks.1) + cfg.setCopperCost)
      if 0 < cost ∧ (s.inventory.money : Int) < cost then s
      else
        let presetID := freePreset cfg s.presetMap
        if presetID < cfg.maxSets then
          { inventory := if cost ≠ 0 then pay (-cost) s.inventory else s.inventory
            presetMap := s.presetMap.insert presetID ⟨code, items⟩
            table := replaceInto s.table ⟨owner, presetID, code, setData items⟩ }
        else s

/-- "Delete set". -/
def deletePreset (cfg : SetConfig) (owner presetID : Nat) (s : PresetState) : PresetState :=
  if cfg.enableSets && (s.presetMap.find? presetID).isSome then
    { s with
      presetMap := s.presetMap.erase presetID
      table := s.table.filter fun r => !(r.owner = owner && r.presetID = presetID) }
  else s

/-! ## What is saved is loaded -/

/-- A preset whose slots are equipment slots and whose entries have templates. -/
def PresetData.Valid (cfg : Config) (preset : PresetData) : Prop :=
  ∀ slot entry, preset.slotMap.find? slot = some entry →
    slot < EQUIPMENT_SLOT_END ∧ (cfg.getItemTemplate entry.toNat).isSome

/-- The row that a preset is saved as. -/
def saved (owner presetID : Nat) (preset : PresetData) : SetRow :=
  ⟨owner, presetID, preset.name, setData preset.slotMap⟩

variable {cfg : Config} {blanks : List Char} {presetMap : OMap Nat PresetData} {rows : List SetRow}
  {owner slot presetID : Nat} {player : Wearer} {s s' : PresetState}

theorem loadSlots_blanks (hblanks : ∀ c ∈ blanks, IStream.isSpace c = true)
    (slotMap : OMap Nat (BitVec 32)) : loadSlots cfg (.ofString blanks) slotMap = slotMap := by
  have hfail : (((IStream.ofString blanks).extract 32).2.extract 32).2.fail = true := by
    rw [IStream.extract_blanks hblanks]
    rfl
  rw [loadSlots]
  simp [hfail]

/-- A pair of numbers is one turn, which leaves the blank after it. -/
theorem loadSlots_pair {entry : BitVec 32} (hslot : slot < EQUIPMENT_SLOT_END)
    (hentry : (cfg.getItemTemplate entry.toNat).isSome) {rest : List Char}
    (hblanks : ∀ c ∈ blanks, IStream.isSpace c = true) (slotMap : OMap Nat (BitVec 32)) :
    loadSlots cfg (.ofString (blanks ++ (decimal slot ++ ' ' :: (decimal entry.toNat ++ ' ' :: rest)))) slotMap =
      loadSlots cfg (.ofString ([' '] ++ rest)) (slotMap.insert slot entry) := by
  have hsmall : slot < 2 ^ 32 := Nat.lt_trans hslot (by decide)
  have hfirst : (IStream.ofString (blanks ++ (decimal slot ++ ' ' :: (decimal entry.toNat ++ ' ' :: rest)))).extract 32 =
      (slot, .ofString (' ' :: (decimal entry.toNat ++ ' ' :: rest))) :=
    IStream.extract_decimal hsmall hblanks
  have hsecond : (IStream.ofString ([' '] ++ (decimal entry.toNat ++ ' ' :: rest))).extract 32 =
      (entry.toNat, .ofString (' ' :: rest)) :=
    IStream.extract_decimal entry.isLt (by simp [IStream.isSpace])
  rw [List.singleton_append] at hsecond
  rw [loadSlots]
  simp only [hfirst, hsecond]
  simp [IStream.ofString, IStream.good, Nat.not_le.2 hslot, hentry]

/-- The numbers of a row, with what is left of the pair before: a blank or nothing. -/
theorem loadSlots_pairs {l : List (Nat × BitVec 32)}
    (hl : ∀ kv ∈ l, kv.1 < EQUIPMENT_SLOT_END ∧ (cfg.getItemTemplate kv.2.toNat).isSome)
    (hblanks : ∀ c ∈ blanks, IStream.isSpace c = true) (slotMap : OMap Nat (BitVec 32)) :
    loadSlots cfg (.ofString (blanks ++ l.flatMap fun kv => decimal kv.1 ++ ' ' :: (decimal kv.2.toNat ++ [' ']))) slotMap =
      slotMap.insertAll l := by
  induction l generalizing blanks slotMap with
  | nil =>
    rw [List.flatMap_nil, List.append_nil]
    exact loadSlots_blanks hblanks slotMap
  | cons kv l ih =>
    obtain ⟨⟨hslot, hentry⟩, hl⟩ := List.forall_mem_cons.1 hl
    rw [List.flatMap_cons, List.append_assoc, List.cons_append, List.append_assoc, List.singleton_append,
      loadSlots_pair hslot hentry hblanks, ih hl (by simp [IStream.isSpace])]
    rfl

theorem loadSlots_setData {preset : PresetData} (h : preset.Valid cfg) :
    loadSlots cfg (.ofString (setData preset.slotMap)) .empty = preset.slotMap := by
  have hvalid : ∀ kv ∈ preset.slotMap.entries,
      kv.1 < EQUIPMENT_SLOT_END ∧ (cfg.getItemTemplate kv.2.toNat).isSome :=
    fun kv hkv => h kv.1 kv.2 (OMap.mem_entries.1 hkv)
  have hpairs := loadSlots_pairs hvalid (List.forall_mem_nil _) .empty
  rwa [OMap.insertAll_entries] at hpairs

theorem loadRow_new {row : SetRow} (h : presetMap.find? row.presetID = none) : loadRow cfg presetMap row =
      presetMap.insert row.presetID ⟨row.setName, loadSlots cfg (.ofString row.setData) .empty⟩ := by
  rw [loadRow, h]
  rfl

/-- Rows of different presets are loaded each by itself. -/
theorem loadRows_eq
    (hnodup : (rows.map SetRow.presetID).Nodup) (hnew : ∀ row ∈ rows, presetMap.find? row.presetID = none) :
    rows.foldl (loadRow cfg) presetMap = presetMap.insertAll
      (rows.map fun row => (row.presetID, ⟨row.setName, loadSlots cfg (.ofString row.setData) .empty⟩)) := by
  induction rows generalizing presetMap with
  | nil => rfl
  | cons row rows ih =>
    obtain ⟨hrow, hrows⟩ := List.forall_mem_cons.1 hnew
    rw [List.map_cons, List.nodup_cons] at hnodup
    rw [List.foldl_cons, loadRow_new hrow, ih hnodup.2]
    · rfl
    · intro r hr
      have hne : r.presetID ≠ row.presetID := fun heq => hnodup.1 (heq ▸ List.mem_map_of_mem hr)
      rw [OMap.find?_insert_of_ne hne]
      exact hrows r hr

/-- The rows are those of the presets of a player, each once and in any order. -/
structure Holds (owner : Nat) (presetMap : OMap Nat PresetData) (rows : List SetRow) : Prop where
  nodup : (rows.map SetRow.presetID).Nodup
  mem : ∀ row, row ∈ rows ↔ ∃ presetID preset, presetMap.find? presetID = some preset ∧ row = saved owner presetID preset

theorem loadPlayerSets_holds
    (h : Holds owner presetMap rows) (hvalid : ∀ presetID preset, presetMap.find? presetID = some preset → preset.Valid cfg) :
    loadPlayerSets cfg rows = presetMap := by
  obtain ⟨loaded, hloaded⟩ : ∃ l : List (Nat × PresetData), l = rows.map fun row =>
    (row.presetID, ⟨row.setName, loadSlots cfg (.ofString row.setData) .empty⟩) := ⟨_, rfl⟩
  have hkeys : (loaded.map Prod.fst).Nodup := by
    rw [hloaded, List.map_map]
    exact h.nodup
  have hsaved : ∀ presetID preset, presetMap.find? presetID = some preset →
      (presetID, (⟨preset.name, loadSlots cfg (.ofString (setData preset.slotMap)) .empty⟩ : PresetData)) =
        (presetID, preset) := fun presetID preset hfind => by rw [loadSlots_setData (hvalid _ _ hfind)]
  have hmem : ∀ e, e ∈ loaded ↔ presetMap.find? e.1 = some e.2 := fun e => by
    rw [hloaded, List.mem_map]
    constructor
    · rintro ⟨row, hrow, rfl⟩
      obtain ⟨presetID, preset, hfind, rfl⟩ := (h.mem row).1 hrow
      exact hfind.trans (congrArg (fun e => some e.2) (hsaved _ _ hfind)).symm
    · intro hfind
      exact ⟨saved owner e.1 e.2, (h.mem _).2 ⟨_, _, hfind, rfl⟩, hsaved _ _ hfind⟩
  rw [loadPlayerSets, loadRows_eq h.nodup fun _ _ => OMap.find?_empty _, ← hloaded]
  refine OMap.ext fun k => ?_
  rw [OMap.find?_insertAll hkeys, OMap.find?_empty, Option.or_none]
  apply Option.ext
  intro preset
  rw [UMap.lookup_eq_some hkeys, hmem]

theorem holds_saved (owner : Nat) (presetMap : OMap Nat PresetData) :
    Holds owner presetMap (presetMap.entries.map fun e => saved owner e.1 e.2) where
  nodup := by
    rw [List.map_map]
    exact presetMap.nodup_keys
  mem row := by
    rw [List.mem_map]
    constructor
    · rintro ⟨e, he, rfl⟩
      exact ⟨e.1, e.2, OMap.mem_entries.1 he, rfl⟩
    · rintro ⟨presetID, preset, hfind, rfl⟩
      exact ⟨(presetID, preset), OMap.mem_entries.2 hfind, rfl⟩

theorem Holds.perm {rows' : List SetRow}
    (h : Holds owner presetMap rows) (hperm : rows'.Perm rows) : Holds owner presetMap rows' where
  nodup := (hperm.map _).nodup_iff.2 h.nodup
  mem row := hperm.mem_iff.trans (h.mem row)

/-- Presets that are saved are loaded as they were: every one, with its name and its slots, and no other. -/
theorem loadPlayerSets_saved {cfg : Config} (owner : Nat) {presetMap : OMap Nat PresetData}
    (hvalid : ∀ presetID preset, presetMap.find? presetID = some preset → preset.Valid cfg) {rows : List SetRow}
    (hrows : rows.Perm (presetMap.entries.map fun e => saved owner e.1 e.2)) : loadPlayerSets cfg rows = presetMap :=
  loadPlayerSets_holds ((holds_saved owner presetMap).perm hrows) hvalid

def twoPresets : OMap Nat PresetData :=
  (OMap.empty.insert 0 ⟨['a'], OMap.empty.insert 15 100#32⟩).insert 3 ⟨['b'], (OMap.empty.insert 15 101#32).insert 0 100#32⟩

/-- Two presets, their rows in the other order. -/
theorem loadPlayerSets_two : loadPlayerSets swords (twoPresets.entries.map fun e => saved 9 e.1 e.2).reverse = twoPresets := by
  have hentries : ∀ e ∈ twoPresets.entries, ∀ kv ∈ e.2.slotMap.entries,
      kv.1 < EQUIPMENT_SLOT_END ∧ (swords.getItemTemplate kv.2.toNat).isSome := by decide
  exact loadPlayerSets_saved 9 (fun presetID preset hfind slot entry hslot =>
    hentries (presetID, preset) (OMap.mem_entries.2 hfind) (slot, entry) (OMap.mem_entries.2 hslot)) (List.reverse_perm _)

/-! ## Runs -/

/-- What may happen to a player's presets: they are saved and deleted, the player logs in, and other things go on. -/
inductive PresetStep (cfg : SetConfig) (player : Wearer) (owner : Nat) : PresetState → PresetState → Prop
  | select (s : PresetState) (code : List Char) : PresetStep cfg player owner s (gossipSelectCode cfg player owner code s)
  | delete (s : PresetState) (presetID : Nat) : PresetStep cfg player owner s (deletePreset cfg owner presetID s)
  | login (s : PresetState) (rows : List SetRow) (h : rows.Perm (s.table.filter (·.owner = owner))) :
    PresetStep cfg player owner s { s with presetMap := loadPlayerSets cfg.toConfig rows }
  | items (s : PresetState) (inventory : Inventory) : PresetStep cfg player owner s { s with inventory := inventory }
  | others (s : PresetState) (table : List SetRow)
    (h : table.filter (·.owner = owner) = s.table.filter (·.owner = owner)) :
    PresetStep cfg player owner s { s with table := table }

/-- The table holds the presets of the player, and they are valid. -/
structure PresetState.Kept (cfg : Config) (owner : Nat) (s : PresetState) : Prop where
  holds : Holds owner s.presetMap (s.table.filter (·.owner = owner))
  valid : ∀ presetID preset, s.presetMap.find? presetID = some preset → preset.Valid cfg

theorem collectLook_valid {cfg : SetConfig} {inventory : Inventory} {name : List Char}
    {acc : Int × OMap Nat (BitVec 32)} (hslot : slot < EQUIPMENT_SLOT_END)
    (h : PresetData.Valid cfg.toConfig ⟨name, acc.2⟩) :
    PresetData.Valid cfg.toConfig ⟨name, (collectLook cfg player inventory acc slot).2⟩ := by
  rw [collectLook]
  split
  · exact h
  split
  next => exact h
  next item _ =>
  extract_lets entry
  split
  · exact h
  split
  next => exact h
  next temp htemp =>
  split
  · exact h
  intro slot' entry' hfind
  rw [OMap.find?_insert] at hfind
  split at hfind
  next heq =>
    obtain rfl := Option.some.inj hfind
    exact ⟨heq ▸ hslot, by rw [htemp]; rfl⟩
  next => exact h slot' entry' hfind

theorem collectLooks_valid (cfg : SetConfig) (player : Wearer) (inventory : Inventory) (name : List Char) :
    PresetData.Valid cfg.toConfig ⟨name, (collectLooks cfg player inventory).2⟩ := by
  have hfold : ∀ (slots : List Nat) (acc : Int × OMap Nat (BitVec 32)), (∀ slot ∈ slots, slot < EQUIPMENT_SLOT_END) →
      PresetData.Valid cfg.toConfig ⟨name, acc.2⟩ →
      PresetData.Valid cfg.toConfig ⟨name, (slots.foldl (collectLook cfg player inventory) acc).2⟩ := by
    intro slots
    induction slots with
    | nil => exact fun acc _ h => h
    | cons slot slots ih =>
      intro acc hslots h
      obtain ⟨hslot, hslots⟩ := List.forall_mem_cons.1 hslots
      exact ih _ hslots (collectLook_valid hslot h)
  exact hfold _ _ (fun slot hslot => List.mem_range.1 hslot) fun _ _ hfind => nomatch hfind

theorem freePreset_new {cfg : SetConfig}
    (h : freePreset cfg presetMap < cfg.maxSets) : presetMap.find? (freePreset cfg presetMap) = none := by
  rw [freePreset] at h ⊢
  split at h
  next hsize =>
    rw [if_pos hsize]
    cases hfind : (List.range cfg.maxSets).find? fun i => (presetMap.find? i).isNone with
    | none =>
      rw [hfind] at h
      exact absurd h (lt_irrefl _)
    | some i =>
      have hnone := List.find?_some hfind
      exact Option.isNone_iff_eq_none.1 hnone
  next => exact absurd h (lt_irrefl _)

theorem Holds.insert (h : Holds owner presetMap rows) (hnew : presetMap.find? presetID = none) (preset : PresetData) :
    Holds owner (presetMap.insert presetID preset) (rows ++ [saved owner presetID preset]) where
  nodup := by
    rw [List.map_append, List.nodup_append]
    refine ⟨h.nodup, List.nodup_singleton _, fun a ha b hb => ?_⟩
    obtain ⟨row, hrow, rfl⟩ := List.mem_map.1 ha
    obtain ⟨id, p, hfind, rfl⟩ := (h.mem row).1 hrow
    obtain rfl : b = presetID := List.mem_singleton.1 hb
    rintro rfl
    exact nomatch hnew.symm.trans hfind
  mem row := by
    rw [List.mem_append, List.mem_singleton, h.mem]
    constructor
    · rintro (⟨id, p, hfind, rfl⟩ | rfl)
      · have hne : id ≠ presetID := fun heq => nomatch (heq ▸ hnew).symm.trans hfind
        exact ⟨id, p, by rw [OMap.find?_insert_of_ne hne, hfind], rfl⟩
      · exact ⟨presetID, preset, OMap.find?_insert_self .., rfl⟩
    · rintro ⟨id, p, hfind, rfl⟩
      rw [OMap.find?_insert] at hfind
      split at hfind
      next heq =>
        obtain rfl := Option.some.inj hfind
        exact .inr (by rw [heq])
      next => exact .inl ⟨id, p, hfind, rfl⟩

theorem Holds.erase (h : Holds owner presetMap rows)
    (presetID : Nat) : Holds owner (presetMap.erase presetID) (rows.filter (·.presetID ≠ presetID)) where
  nodup := h.nodup.sublist (List.filter_sublist.map _)
  mem row := by
    rw [List.mem_filter, h.mem, decide_eq_true_eq]
    constructor
    · rintro ⟨⟨id, p, hfind, rfl⟩, hne⟩
      exact ⟨id, p, (OMap.find?_erase_of_ne hne).trans hfind, rfl⟩
    · rintro ⟨id, p, hfind, rfl⟩
      rw [OMap.find?_erase] at hfind
      split at hfind
      · exact nomatch hfind
      next hne => exact ⟨⟨id, p, hfind, rfl⟩, hne⟩

/-- The rows of the player that are left where a key of theirs is taken out of the table. -/
theorem filter_key (table : List SetRow) (owner presetID : Nat) :
    (table.filter fun r => !(r.owner = owner && r.presetID = presetID)).filter (·.owner = owner) =
      (table.filter (·.owner = owner)).filter (·.presetID ≠ presetID) := by
  rw [List.filter_filter, List.filter_filter]
  refine List.filter_congr fun r _ => ?_
  by_cases h : r.owner = owner <;> simp [h]

theorem filter_replaceInto (table : List SetRow) (owner presetID : Nat) (preset : PresetData) :
    (replaceInto table (saved owner presetID preset)).filter (·.owner = owner) =
      (table.filter (·.owner = owner)).filter (·.presetID ≠ presetID) ++ [saved owner presetID preset] := by
  rw [replaceInto, List.filter_append]
  exact congrArg₂ _ (filter_key table owner presetID) (List.filter_cons_of_pos (by simp [saved]))

theorem Holds.filter_new (h : Holds owner presetMap rows) (hnew : presetMap.find? presetID = none) :
    rows.filter (·.presetID ≠ presetID) = rows := by
  refine List.filter_eq_self.2 fun row hrow => ?_
  obtain ⟨id, p, hfind, rfl⟩ := (h.mem row).1 hrow
  rw [decide_eq_true_eq]
  rintro rfl
  exact nomatch hnew.symm.trans hfind

theorem gossipSelectCode_kept {cfg : SetConfig}
    (h : s.Kept cfg.toConfig owner) (code : List Char) : (gossipSelectCode cfg player owner code s).Kept cfg.toConfig owner := by
  rw [gossipSelectCode]
  split
  · exact h
  split
  · exact h
  extract_lets looks items cost presetID
  split
  · exact h
  split
  · exact h
  split
  next hfree =>
    have hnew : s.presetMap.find? presetID = none := freePreset_new hfree
    refine ⟨?_, fun id preset hfind => ?_⟩
    · have hinsert := h.holds.insert hnew ⟨code, items⟩
      rw [← h.holds.filter_new hnew, ← filter_replaceInto] at hinsert
      exact hinsert
    · rw [OMap.find?_insert] at hfind
      split at hfind
      · obtain rfl := Option.some.inj hfind
        exact collectLooks_valid cfg player s.inventory code
      · exact h.valid id preset hfind
  next => exact h

theorem deletePreset_kept {cfg : SetConfig} (h : s.Kept cfg.toConfig owner)
    (presetID : Nat) : (deletePreset cfg owner presetID s).Kept cfg.toConfig owner := by
  rw [deletePreset]
  split
  · refine ⟨?_, fun id preset hfind => ?_⟩
    · rw [filter_key]
      exact h.holds.erase presetID
    · rw [OMap.find?_erase] at hfind
      split at hfind
      · exact nomatch hfind
      · exact h.valid id preset hfind
  · exact h

/-- A login loads the presets that are there already. -/
theorem PresetState.Kept.login (h : s.Kept cfg owner)
    (hrows : rows.Perm (s.table.filter (·.owner = owner))) : loadPlayerSets cfg rows = s.presetMap :=
  loadPlayerSets_holds (h.holds.perm hrows) h.valid

theorem PresetStep.kept {cfg : SetConfig}
    (hstep : PresetStep cfg player owner s s') (h : s.Kept cfg.toConfig owner) : s'.Kept cfg.toConfig owner := by
  cases hstep with
  | select code => exact gossipSelectCode_kept h code
  | delete presetID => exact deletePreset_kept h presetID
  | login rows hrows => exact ⟨by rw [h.login hrows]; exact h.holds, by rw [h.login hrows]; exact h.valid⟩
  | items inventory => exact ⟨h.holds, h.valid⟩
  | others table htable => exact ⟨by rw [htable]; exact h.holds, h.valid⟩

/-- Over every run from a player without presets, a login at any time loads the presets as they are. -/
theorem login_reached {cfg : SetConfig} (hmap : s.presetMap = .empty) (htable : s.table.filter (·.owner = owner) = [])
    (hrun : Relation.ReflTransGen (PresetStep cfg player owner) s s') (rows : List SetRow)
    (hrows : rows.Perm (s'.table.filter (·.owner = owner))) : loadPlayerSets cfg.toConfig rows = s'.presetMap := by
  have hkept : s'.Kept cfg.toConfig owner := by
    clear rows hrows
    induction hrun with
    | refl =>
      refine ⟨?_, fun _ _ hfind => ?_⟩
      · rw [hmap, htable]
        exact holds_saved owner .empty
      · rw [hmap] at hfind
        exact nomatch hfind
    | tail _ hstep ih => exact hstep.kept ih
  exact hkept.login hrows

def setSwords : SetConfig := { swords with enableSets := true, maxSets := 10, scaledSet := fun _ => 0, setCopperCost := 0 }

/-- A look is made, saved as a preset and loaded. -/
theorem login_reached_saved :
    let player : Wearer := ⟨9, .alliance, 1, 1, fun _ => 0, fun _ => false, 80⟩
    let s := gossipSelectCode setSwords player 9 ['a'] ⟨(transmogrify swords player 2 15 true poorPlayer).2, .empty, []⟩
    s.presetMap.size = 1 ∧ loadPlayerSets swords s.table = s.presetMap := by
  intro player s
  have htable : s.table.Perm (s.table.filter (·.owner = 9)) := .of_eq (List.filter_eq_self.2 (by decide +kernel)).symm
  exact ⟨by decide +kernel, login_reached rfl rfl (.single (.select _ _)) s.table htable⟩

end Transmogrification
end AtlasWow
