/-
An item that is saved and loaded again, from whichever place: every query has
the columns of an item where `LoadFromDB` reads them (`columns_of_place`), so
the item is what it was, as far as its template agrees (`load_saveToDB`).
-/
import AtlasWow.Entities.ItemInstance

namespace AtlasWow.ItemInstance

variable {it : Item} {items : OMap Nat Row} {state : UpdateState} {proto : ItemTemplate}
  {templates : Nat → Option ItemTemplate}

/-- The fields are in the range of their columns. -/
structure Item.InRange (it : Item) : Prop where
  guid : it.guid < 2 ^ 32
  entry : it.entry < 2 ^ 24
  owner : it.owner < 2 ^ 32
  creator : it.creator < 2 ^ 32
  giftCreator : it.giftCreator < 2 ^ 32
  count : it.count < 2 ^ 32
  duration : it.duration < 2 ^ 31
  spellCharges : ∀ i, -2 ^ 31 ≤ it.spellCharges i ∧ it.spellCharges i < 2 ^ 31
  flags : it.flags < 2 ^ 24
  enchantments : ∀ i, it.enchantments i < 2 ^ 32
  randomPropertyId : -2 ^ 15 ≤ it.randomPropertyId ∧ it.randomPropertyId < 2 ^ 15
  durability : it.durability < 2 ^ 16
  playedTime : it.playedTime < 2 ^ 32
  transmog : it.transmog < 2 ^ 32

namespace Item

/-- What an item is written as. -/
def column (it : Item) : Row := Row.write (fun _ => .num 0) repItemInstance it.saveValues

/-- Both statements write every column. -/
theorem write_saveValues (row : Row) (c : Column) : row.write updItemInstance it.saveValues c = it.column c := by
  cases c <;> rfl

theorem find?_saveToDB (h : state = .new ∨ state = .changed ∧ it.guid ∈ items.keys) :
    (it.saveToDB state items).find? it.guid = some it.column := by
  rcases h with rfl | ⟨rfl, hmem⟩
  · exact OMap.find?_insert_self ..
  obtain ⟨row, hrow⟩ := OMap.mem_keys.1 hmem
  rw [saveToDB]
  simp only [hrow]
  rw [OMap.find?_insert_self]
  exact congrArg some (funext (write_saveValues row))

/-- The flags after loading: not bound, if the template does not bind. -/
def restoredFlags (it : Item) (proto : ItemTemplate) : Nat :=
  if it.hasFlag ITEM_FIELD_FLAG_SOULBOUND && proto.noBind then it.flags &&& (2 ^ 32 - 1 - ITEM_FIELD_FLAG_SOULBOUND)
  else it.flags

/-- The item after loading, for the template it has then and the owner it is loaded for. -/
def restored (it : Item) (proto : ItemTemplate) (owner : Nat) : Item :=
  { it with
    owner := owner
    duration := if decide (proto.duration = 0) != decide (it.duration = 0) then proto.duration else it.duration
    flags := it.restoredFlags proto
    propertySeed := if it.randomPropertyId < 0 then proto.suffixFactor else 0
    maxDurability := proto.maxDurability
    durability :=
      if it.durability > proto.maxDurability && !{ it with flags := it.restoredFlags proto }.hasFlag ITEM_FIELD_FLAG_WRAPPED
      then proto.maxDurability else it.durability }

end Item

/-! The values of the columns -/

theorem getUInt32_num {n : Nat} (h : n < 2 ^ 32) : Value.getUInt32 (.num n) = n := uint32_small h

theorem tokens_charges (charges : Fin 5 → Int) :
    tokenize ' ' [] ((List.finRange 5).flatMap fun i => decimal (charges i) ++ [' ']) =
      (List.finRange 5).map fun i => decimal (charges i) := by
  have hflat : ((List.finRange 5).flatMap fun i => decimal (charges i) ++ [' ']) =
      ((List.finRange 5).map fun i => decimal (charges i)).flatMap fun s => s ++ [' '] := 
    (List.flatMap_map (fun i => decimal (charges i)) (· ++ [' ']) _).symm
  rw [hflat, tokenize_joined fun s hs => ?_]
  obtain ⟨i, -, rfl⟩ := List.mem_map.1 hs
  exact space_notMem_decimal _

/-- The three values of the slots, one after the other, are the values of the data fields. -/
theorem tokens_enchantments (it : Item) :
    tokenize ' ' [] ((List.finRange 12).flatMap fun slot =>
      decimal (it.getEnchantmentId slot) ++ [' '] ++ (decimal (it.getEnchantmentDuration slot) ++ [' ']) ++
        (decimal (it.getEnchantmentCharges slot) ++ [' '])) =
      (List.finRange 36).map fun i => decimal (it.enchantments i) := by
  have hflat : ((List.finRange 12).flatMap fun slot =>
      decimal (it.getEnchantmentId slot) ++ [' '] ++ (decimal (it.getEnchantmentDuration slot) ++ [' ']) ++
        (decimal (it.getEnchantmentCharges slot) ++ [' '])) =
      ((List.finRange 36).map fun i => decimal (it.enchantments i)).flatMap fun s => s ++ [' '] := by
    have hvalues : (List.finRange 36).map it.enchantments = (List.finRange 12).flatMap fun slot =>
        [it.getEnchantmentId slot, it.getEnchantmentDuration slot, it.getEnchantmentCharges slot] := rfl
    rw [List.flatMap_map, ← List.flatMap_map it.enchantments fun n => decimal n ++ [' '], hvalues, List.flatMap_assoc]
    simp [List.flatMap_cons]
  rw [hflat, tokenize_joined fun s hs => ?_]
  obtain ⟨i, -, rfl⟩ := List.mem_map.1 hs
  exact space_notMem_decimal _

theorem getD_map_finRange {n : Nat} {α : Type} (g : Fin n → α) (d : α) (i : Fin n) :
    ((List.finRange n).map g).getD i d = g i := by
  rw [List.getD_eq_getElem?_getD, List.getElem?_map, List.getElem?_eq_getElem (by simp)]
  simp

theorem charges_loaded (it : Item) :
    let tokens := tokenize ' ' [] ((List.finRange 5).flatMap fun i => decimal (it.spellCharges i) ++ [' '])
    (if tokens.length = 5 then fun i : Fin 5 => atoi (tokens.getD i []) else fun _ => 0) = it.spellCharges := by
  intro tokens
  have htokens : tokens = (List.finRange 5).map fun i => decimal (it.spellCharges i) := tokens_charges it.spellCharges
  rw [htokens, if_pos (by simp)]
  funext i
  rw [getD_map_finRange, atoi_decimal]

theorem enchantments_loaded (h : ∀ i, it.enchantments i < 2 ^ 32) (values : Fin 36 → Nat) :
    loadIntoDataField ((List.finRange 12).flatMap fun slot =>
      decimal (it.getEnchantmentId slot) ++ [' '] ++ (decimal (it.getEnchantmentDuration slot) ++ [' ']) ++
        (decimal (it.getEnchantmentCharges slot) ++ [' '])) values = it.enchantments := by
  unfold loadIntoDataField
  rw [tokens_enchantments]
  have hne : ((List.finRange 12).flatMap fun slot =>
      decimal (it.getEnchantmentId slot) ++ [' '] ++ (decimal (it.getEnchantmentDuration slot) ++ [' ']) ++
        (decimal (it.getEnchantmentCharges slot) ++ [' '])) ≠ [] := by
    intro hnil
    have htokens := tokens_enchantments it
    rw [hnil] at htokens
    exact absurd (congrArg List.length htokens) (by simp [tokenize])
  dsimp only
  rw [if_neg hne, if_neg (by simp)]
  funext i
  have hlt := h i
  rw [getD_map_finRange, strtoul_decimal (by omega), Nat.mod_eq_of_lt hlt]

/-- The columns `LoadFromDB` reads, by number. -/
def columnsRead : List (Nat × Column) :=
  [(0, .creatorGuid), (1, .giftCreatorGuid), (2, .count), (3, .duration), (4, .charges), (5, .flags), (6, .enchantments),
    (7, .randomPropertyId), (8, .durability), (9, .playedTime), (10, .text), (16, .transmog)]

/-- An item is read as it was written, from every answer that has its columns where they are read. -/
theorem loadFromDB_saved {fields : List Value} {owner : Nat} (h : it.InRange) (hproto : templates it.entry = some proto)
    (hfields : ∀ e ∈ columnsRead, field fields e.1 = it.column e.2) :
    loadFromDB templates it.guid owner fields it.entry = some (it.restored proto owner) := by
  simp only [columnsRead, List.forall_mem_cons] at hfields
  obtain ⟨h0, h1, h2, h3, h4, h5, h6, h7, h8, h9, h10, h16, -⟩ := hfields
  have hcreator : (field fields 0).getUInt32 = it.creator := by rw [h0]; exact getUInt32_num h.creator
  have hgift : (field fields 1).getUInt32 = it.giftCreator := by rw [h1]; exact getUInt32_num h.giftCreator
  have hcount : (field fields 2).getUInt32 = it.count := by rw [h2]; exact getUInt32_num h.count
  have hduration : (field fields 3).getUInt32 = it.duration := by
    rw [h3]
    exact getUInt32_num (Nat.lt_trans h.duration (by decide))
  have hcharges : (if (tokenize ' ' [] (field fields 4).getString).length = 5 then
      fun i : Fin 5 => atoi ((tokenize ' ' [] (field fields 4).getString).getD i []) else fun _ => 0) = it.spellCharges := by
    rw [h4]
    exact charges_loaded it
  have hflags : (field fields 5).getUInt32 = it.flags := by
    rw [h5]
    exact getUInt32_num (Nat.lt_trans h.flags (by decide))
  have henchantments (values : Fin 36 → Nat) : loadIntoDataField (field fields 6).getString values = it.enchantments := by
    rw [h6]
    exact enchantments_loaded h.enchantments values
  have hrandom : (field fields 7).getInt16 = it.randomPropertyId := by
    rw [h7]
    show (it.randomPropertyId.bmod (2 ^ 16)).bmod (2 ^ 16) = _
    have hrange := h.randomPropertyId
    rw [Int.bmod_bmod, Int.bmod_eq_of_le (by simpa using hrange.1) (by simpa using hrange.2)]
  have hdurability : (field fields 8).getUInt16 = it.durability := by
    rw [h8]
    show (((it.durability % 2 ^ 16 : Nat) : Int) % 2 ^ 16).toNat = _
    have hlt := h.durability
    omega
  have hplayed : (field fields 9).getUInt32 = it.playedTime := by rw [h9]; exact getUInt32_num h.playedTime
  have htext : (field fields 10).getString = it.text := by rw [h10]; rfl
  have htransmog : (field fields 16).getUInt32 = it.transmog := by rw [h16]; exact getUInt32_num h.transmog
  unfold loadFromDB
  rw [hproto]
  simp only [hcreator, hgift, hcount, hduration, hcharges, hflags, henchantments, hrandom, hdurability, hplayed, htext,
    htransmog]
  simp only [Item.restored, Item.restoredFlags, Item.hasFlag]
  by_cases hbind : (decide (it.flags &&& ITEM_FIELD_FLAG_SOULBOUND ≠ 0) && proto.noBind) = true
  · by_cases hneg : it.randomPropertyId < 0
    · simp only [hbind, hneg, if_true]
    · simp only [hbind, hneg, if_true, if_false]
  by_cases hneg : it.randomPropertyId < 0
  · simp only [hbind, hneg, if_true, Bool.false_eq_true, if_false]
  · simp only [hbind, hneg, Bool.false_eq_true, if_false]

/-! The places -/

namespace Place

variable {placeRow : PlaceColumn → Nat} {player : Nat} {place : Place}

/-- Every query has the columns where they are read. -/
theorem columns_of_place (place : Place) : ∀ e ∈ columnsRead, place.query[e.1]? = some (.col e.2) := by
  intro e he
  simp only [columnsRead, List.mem_cons, List.not_mem_nil, or_false] at he
  rcases he with rfl | rfl | rfl | rfl | rfl | rfl | rfl | rfl | rfl | rfl | rfl | rfl <;> cases place <;> rfl

/-- What a query answers for an item that is in the table. -/
def answer (place : Place) (placeRow : PlaceColumn → Nat) (it : Item) : List Value :=
  place.query.map fun
    | .col c => it.column c
    | .place c => .num (placeRow c)
    | .zero => .num 0

theorem select_saveToDB (hplace : placeRow .item = it.guid) (hstate : state = .new ∨ state = .changed ∧ it.guid ∈ items.keys) :
    select place.query placeRow (it.saveToDB state items) = some (place.answer placeRow it) := by
  rw [select, hplace, Item.find?_saveToDB hstate]
  rfl

theorem field_answer {e : Nat × Column} (he : e ∈ columnsRead) : field (place.answer placeRow it) e.1 = it.column e.2 := by
  rw [field, List.getD_eq_getElem?_getD, answer, List.getElem?_map, columns_of_place place e he]
  rfl

/-- The owner an item is loaded for: of the guild bank and the auction house, nobody. -/
def owner (place : Place) (it : Item) (player : Nat) : Nat :=
  match place with
  | .inventory => player
  | .mail => it.owner
  | .auction => 0
  | .guildBank => 0

theorem load_answer (h : it.InRange) (hproto : templates it.entry = some proto) (hplace : placeRow .item = it.guid) :
    place.load templates player (place.answer placeRow it) = some (it.restored proto (place.owner it player)) := by
  have hguid : Value.getUInt32 (.num (placeRow .item)) = it.guid := by
    rw [hplace]
    exact getUInt32_num h.guid
  have hentry : (it.column .itemEntry).getUInt32 = it.entry := getUInt32_num (Nat.lt_trans h.entry (by decide))
  have howner : (it.column .owner_guid).getUInt32 = it.owner := getUInt32_num h.owner
  have hload (owner : Nat) : loadFromDB templates it.guid owner (place.answer placeRow it) it.entry =
      some (it.restored proto owner) := loadFromDB_saved h hproto fun e he => field_answer he
  cases place with
  | inventory =>
    show loadFromDB templates (Value.getUInt32 (.num (placeRow .item))) player _ (it.column .itemEntry).getUInt32 = _
    rw [hguid, hentry]
    exact hload player
  | mail =>
    show loadFromDB templates (Value.getUInt32 (.num (placeRow .item))) (it.column .owner_guid).getUInt32 _
      (it.column .itemEntry).getUInt32 = _
    rw [hguid, hentry, howner]
    exact hload it.owner
  | auction =>
    show loadFromDB templates (Value.getUInt32 (.num (placeRow .item))) 0 _ (it.column .itemEntry).getUInt32 = _
    rw [hguid, hentry]
    exact hload 0
  | guildBank =>
    show loadFromDB templates (Value.getUInt32 (.num (placeRow .item))) 0 _ (it.column .itemEntry).getUInt32 = _
    rw [hguid, hentry]
    exact hload 0

/-- A saved item, read back with the query of a place. -/
def readBack (place : Place) (templates : Nat → Option ItemTemplate) (player : Nat) (placeRow : PlaceColumn → Nat)
    (items : OMap Nat Row) : Option Item :=
  (select place.query placeRow items).bind (place.load templates player)

theorem readBack_saveToDB (h : it.InRange) (hproto : templates it.entry = some proto) (hplace : placeRow .item = it.guid)
    (hstate : state = .new ∨ state = .changed ∧ it.guid ∈ items.keys) :
    place.readBack templates player placeRow (it.saveToDB state items) =
      some (it.restored proto (place.owner it player)) := by
  rw [readBack, select_saveToDB hplace hstate]
  exact load_answer h hproto hplace

end Place

/-- What is left of an item after it is saved and loaded, with the template it has then. -/
structure Survives (proto : ItemTemplate) (it loaded : Item) : Prop where
  entry : loaded.entry = it.entry
  creator : loaded.creator = it.creator
  giftCreator : loaded.giftCreator = it.giftCreator
  count : loaded.count = it.count
  duration : loaded.duration = if (proto.duration = 0 ↔ it.duration = 0) then it.duration else proto.duration
  spellCharges : loaded.spellCharges = it.spellCharges
  flags : loaded.flags = if it.hasFlag ITEM_FIELD_FLAG_SOULBOUND ∧ proto.noBind
    then it.flags &&& (2 ^ 32 - 1 - ITEM_FIELD_FLAG_SOULBOUND) else it.flags
  enchantments : loaded.enchantments = it.enchantments
  randomPropertyId : loaded.randomPropertyId = it.randomPropertyId
  durability : it.durability ≤ proto.maxDurability → loaded.durability = it.durability
  playedTime : loaded.playedTime = it.playedTime
  text : loaded.text = it.text
  transmog : loaded.transmog = it.transmog

theorem survives_restored (it : Item) (proto : ItemTemplate) (owner : Nat) : Survives proto it (it.restored proto owner) where
  entry := rfl
  creator := rfl
  giftCreator := rfl
  count := rfl
  duration := by
    by_cases hp : proto.duration = 0 <;> by_cases hd : it.duration = 0 <;> simp [Item.restored, hp, hd]
  spellCharges := rfl
  flags := by simp [Item.restored, Item.restoredFlags]
  enchantments := rfl
  randomPropertyId := rfl
  durability hle := by
    have hnot : ¬ it.durability > proto.maxDurability := Nat.not_lt.2 hle
    simp [Item.restored, hnot]
  playedTime := rfl
  text := rfl
  transmog := rfl

/-- An item survives saving and loading from every place: only its duration is taken from the template where just one of the
two has one, and it is no longer bound where the template does not bind. -/
theorem item_survives (place : Place) (templates : Nat → Option ItemTemplate) (proto : ItemTemplate) (it : Item)
    (state : UpdateState) (items : OMap Nat Row) (placeRow : PlaceColumn → Nat) (player : Nat) (h : it.InRange)
    (hproto : templates it.entry = some proto) (hplace : placeRow .item = it.guid)
    (hstate : state = .new ∨ state = .changed ∧ it.guid ∈ items.keys) :
    ∃ loaded, place.readBack templates player placeRow (it.saveToDB state items) = some loaded ∧ Survives proto it loaded :=
  ⟨_, Place.readBack_saveToDB h hproto hplace hstate, survives_restored it proto _⟩

/-- A shield of a player, damaged, bound and with one use left. -/
def shield : Item :=
  { guid := 7, entry := 5196, owner := 3, count := 1, flags := 1, durability := 12, transmog := 1168
    spellCharges := fun i => if i = 0 then -1 else 0 }

theorem shield_inRange : shield.InRange :=
  ⟨by decide, by decide, by decide, by decide, by decide, by decide, by decide, by decide, by decide, by decide, by decide,
    by decide, by decide, by decide⟩

theorem item_survives_shield : ∃ loaded,
    Place.readBack .guildBank (fun _ => some ⟨0, false, 45, 0⟩) 3 (fun _ => 7) (shield.saveToDB .new .empty) = some loaded ∧
      Survives ⟨0, false, 45, 0⟩ shield loaded :=
  item_survives .guildBank _ ⟨0, false, 45, 0⟩ shield .new .empty (fun _ => 7) 3 shield_inRange rfl rfl (.inl rfl)

/-- Of a template that does not bind, the shield is not bound any more. -/
theorem flags_change : ¬ ∀ (place : Place) (templates : Nat → Option ItemTemplate) (it : Item) (state : UpdateState)
    (items : OMap Nat Row) (placeRow : PlaceColumn → Nat) (player : Nat), it.InRange → (templates it.entry).isSome →
    placeRow .item = it.guid → (state = .new ∨ state = .changed ∧ it.guid ∈ items.keys) →
    ∃ loaded, place.readBack templates player placeRow (it.saveToDB state items) = some loaded ∧ loaded.flags = it.flags := by
  intro h
  obtain ⟨loaded, hload, hflags⟩ := h .mail (fun _ => some ⟨0, true, 45, 0⟩) shield .new .empty (fun _ => 7) 3 shield_inRange
    rfl rfl (.inl rfl)
  rw [Place.readBack_saveToDB shield_inRange rfl rfl (.inl rfl)] at hload
  cases hload
  exact absurd hflags (by decide)

end AtlasWow.ItemInstance
