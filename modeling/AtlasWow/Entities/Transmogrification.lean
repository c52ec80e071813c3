/-
`Transmogrification::Transmogrify`: the look of one item is given to another,
for tokens and money. The tokens are destroyed before the money is asked for,
and are lost if there is too little of it (`allOrNothing_iff`).

The items are in the order in which `DestroyItemCount` goes through them. The
modifier of the cost is a parameter (`scaled`), and so are the templates and
what is asked of a player. Played times, the update queue, the refund and
trade tables and packets are left out, and so are tokens that are bags or an
item of the two that was never saved.
-/
import AtlasWow.Entities.ObjectGuid
import AtlasWow.Entities.PlayerMoney
import Mathlib.Algebra.GroupWithZero.Nat

namespace AtlasWow

namespace Transmogrification

def EQUIPMENT_SLOT_END : Nat := 19

inductive TransmogTrinityStrings where
  | ok | invalidSlot | missingSrcItem | missingDestItem | invalidItems | notEnoughMoney | notEnoughTokens
deriving DecidableEq, Repr

/-! ## Which items go together -/

inductive Quality where
  | poor | normal | uncommon | rare | epic | legendary | artifact | heirloom
deriving DecidableEq

inductive Team where
  | alliance | horde
deriving DecidableEq

structure ItemTemplate where
  itemId : Nat
  displayInfoID : Nat
  itemClass : Nat
  subClass : Nat
  inventoryType : Nat
  /-- `none` is a quality that has no setting. -/
  quality : Option Quality
  /-- `ITEM_FLAG2_FACTION_HORDE` and `ITEM_FLAG2_FACTION_ALLIANCE`. -/
  factionHorde : Bool
  factionAlliance : Bool
  allowableClass : UInt32
  allowableRace : UInt32
  requiredSkill : Nat
  requiredSkillRank : Nat
  requiredSpell : Nat
  requiredLevel : Nat
  holidayId : Nat
  /-- `RandomProperty` or `RandomSuffix`. -/
  randomStats : Bool
  itemStat : List Int
  bonding : Nat
  sellPrice : UInt32

def ITEM_CLASS_WEAPON : Nat := 2
def ITEM_CLASS_ARMOR : Nat := 4
def ITEM_SUBCLASS_WEAPON_BOW : Nat := 2
def ITEM_SUBCLASS_WEAPON_GUN : Nat := 3
def ITEM_SUBCLASS_WEAPON_CROSSBOW : Nat := 18
def ITEM_SUBCLASS_WEAPON_FISHING_POLE : Nat := 20
def INVTYPE_CHEST : Nat := 5
def INVTYPE_FINGER : Nat := 11
def INVTYPE_TRINKET : Nat := 12
def INVTYPE_WEAPON : Nat := 13
def INVTYPE_2HWEAPON : Nat := 17
def INVTYPE_BAG : Nat := 18
def INVTYPE_ROBE : Nat := 20
def INVTYPE_WEAPONMAINHAND : Nat := 21
def INVTYPE_WEAPONOFFHAND : Nat := 22
def INVTYPE_AMMO : Nat := 24
def INVTYPE_QUIVER : Nat := 27
def INVTYPE_RELIC : Nat := 28
def BIND_WHEN_PICKED_UP : Nat := 1
def BIND_WHEN_EQUIPED : Nat := 2
def BIND_WHEN_USE : Nat := 3
def BIND_QUEST_ITEM : Nat := 4

/-- The settings. -/
structure Config where
  /-- `cost *= ScaledCostModifier`. -/
  scaled (cost : Int) : Int
  copperCost : Int
  requireToken : Bool
  tokenEntry : Nat
  tokenAmount : Nat
  allowed : List Nat
  notAllowed : List Nat
  allowQuality (quality : Quality) : Bool
  allowMixedArmorTypes : Bool
  allowMixedWeaponTypes : Bool
  allowMixedInventoryTypes : Bool
  allowFishingPoles : Bool
  ignoreReqRace : Bool
  ignoreReqClass : Bool
  ignoreReqSkill : Bool
  ignoreReqSpell : Bool
  ignoreReqLevel : Bool
  ignoreReqEvent : Bool
  ignoreReqStats : Bool
  isHolidayActive (holidayId : Nat) : Bool
  getItemTemplate (entry : Nat) : Option ItemTemplate

/-- What is asked of a player. -/
structure Wearer where
  guid : ObjectGuid
  team : Team
  classMask : UInt32
  raceMask : UInt32
  getSkillValue (skill : Nat) : Nat
  hasSpell (spell : Nat) : Bool
  level : Nat

def isRangedWeapon (itemClass subClass : Nat) : Bool :=
  itemClass = ITEM_CLASS_WEAPON && (subClass = ITEM_SUBCLASS_WEAPON_BOW || subClass = ITEM_SUBCLASS_WEAPON_GUN ||
    subClass = ITEM_SUBCLASS_WEAPON_CROSSBOW)

def suitableForTransmogrification (cfg : Config) (player : Wearer) (proto : ItemTemplate) : Bool :=
  if proto.itemClass ≠ ITEM_CLASS_ARMOR ∧ proto.itemClass ≠ ITEM_CLASS_WEAPON then false
  -- skip all checks for allowed items
  else if proto.itemId ∈ cfg.allowed then true
  else if proto.itemId ∈ cfg.notAllowed then false
  else if !cfg.allowFishingPoles && proto.itemClass = ITEM_CLASS_WEAPON &&
      proto.subClass = ITEM_SUBCLASS_WEAPON_FISHING_POLE then false
  else if !proto.quality.any cfg.allowQuality then false
  else if proto.factionHorde && player.team ≠ .horde then false
  else if proto.factionAlliance && player.team ≠ .alliance then false
  else if !cfg.ignoreReqClass && proto.allowableClass &&& player.classMask = 0 then false
  else if !cfg.ignoreReqRace && proto.allowableRace &&& player.raceMask = 0 then false
  else if !cfg.ignoreReqSkill && proto.requiredSkill ≠ 0 && (player.getSkillValue proto.requiredSkill = 0 ||
      player.getSkillValue proto.requiredSkill < proto.requiredSkillRank) then false
  else if !cfg.ignoreReqSpell && proto.requiredSpell ≠ 0 && !player.hasSpell proto.requiredSpell then false
  else if !cfg.ignoreReqLevel && player.level < proto.requiredLevel then false
  -- if the world event is not active, prevent using event dependant items
  else if !cfg.ignoreReqEvent && proto.holidayId ≠ 0 && !cfg.isHolidayActive proto.holidayId then false
  else if !cfg.ignoreReqStats && !proto.randomStats && proto.itemStat.all (· = 0) then false
  else true

/-- Types that neither item may have. -/
def excludedTypes : List Nat := [INVTYPE_BAG, INVTYPE_RELIC, INVTYPE_FINGER, INVTYPE_TRINKET, INVTYPE_AMMO, INVTYPE_QUIVER]

def canTransmogrifyItemWithItem (cfg : Config) (player : Wearer) (target source : Option ItemTemplate) : Bool :=
  match target, source with
  | some target, some source =>
    let ranged := isRangedWeapon target.itemClass target.subClass
    if source.itemId = target.itemId then false
    else if source.displayInfoID = target.displayInfoID then false
    else if source.itemClass ≠ target.itemClass then false
    else if source.inventoryType ∈ excludedTypes then false
    else if target.inventoryType ∈ excludedTypes then false
    else if !suitableForTransmogrification cfg player target || !suitableForTransmogrification cfg player source then false
    else if isRangedWeapon source.itemClass source.subClass ≠ ranged then false
    else if source.subClass ≠ target.subClass && !ranged && source.itemClass = ITEM_CLASS_ARMOR &&
        !cfg.allowMixedArmorTypes then false
    else if source.subClass ≠ target.subClass && !ranged && source.itemClass = ITEM_CLASS_WEAPON &&
        !cfg.allowMixedWeaponTypes then false
    else if source.inventoryType ≠ target.inventoryType && source.itemClass = ITEM_CLASS_WEAPON &&
        !(ranged || cfg.allowMixedInventoryTypes ||
          (target.inventoryType ∈ [INVTYPE_WEAPON, INVTYPE_2HWEAPON] && source.inventoryType ∈ [INVTYPE_WEAPON, INVTYPE_2HWEAPON]) ||
          (target.inventoryType ∈ [INVTYPE_WEAPONMAINHAND, INVTYPE_WEAPONOFFHAND] &&
            source.inventoryType ∈ [INVTYPE_WEAPON, INVTYPE_2HWEAPON])) then false
    else if source.inventoryType ≠ target.inventoryType && source.itemClass = ITEM_CLASS_ARMOR &&
        !(source.inventoryType ∈ [INVTYPE_CHEST, INVTYPE_ROBE] && target.inventoryType ∈ [INVTYPE_CHEST, INVTYPE_ROBE]) then false
    else true
  | _, _ => false

def getSpecialPrice (proto : ItemTemplate) : UInt32 := if proto.sellPrice < 10000 then 10000 else proto.sellPrice

/-! ## The items of a player -/

inductive Place where
  | inventory | keyring | bags
  | equipment (slot : Nat)
  | bank
deriving DecidableEq

/-- An item, with its stack. -/
structure WornItem where
  guid : ObjectGuid
  entry : Nat
  place : Place
  count : Nat
  inTrade : Bool
  transmog : Nat
  soulbound : Bool
  refundable : Bool
  bopTradeable : Bool
  owner : ObjectGuid
  hcount : 0 < count

structure Inventory where
  items : List WornItem
  money : Nat
  hmoney : money < 2 ^ 32

/-- An item that counts as a token. -/
def isToken (entry : Nat) (item : WornItem) : Bool := item.entry = entry && !item.inTrade

/-- `HasItemCount`, without the bank; one item at least is looked for. -/
def hasItemCount (entry count : Nat) (items : List WornItem) : Bool :=
  let found := items.filter fun item => isToken entry item && item.place ≠ .bank
  !found.isEmpty && count ≤ (found.map WornItem.count).sum

/-- `DestroyItemCount`: stacks go until so many are gone, and the last one is made smaller. -/
def destroyItemCount (entry : Nat) : Nat → List WornItem → List WornItem
  | _, [] => []
  | count, item :: items =>
    if !isToken entry item then item :: destroyItemCount entry count items
    else if h : count < item.count then { item with count := item.count - count, hcount := Nat.sub_pos_of_lt h } :: items
    else if count - item.count = 0 then items
    else destroyItemCount entry (count - item.count) items

def modifyItem (guid : ObjectGuid) (f : WornItem → WornItem) (items : List WornItem) : List WornItem :=
  items.map fun item => if item.guid = guid then f item else item

/-- `ModifyMoney`. -/
def pay (amount : Int) (s : Inventory) : Inventory :=
  match h : modifyMoney amount s.money with
  | none => s
  | some money => { s with money := money, hmoney := modifyMoney_lt h s.hmoney }

/-! ## Transmogrify -/

/-- The item that is worn in a slot. -/
def getItemByPos (slot : Nat) (s : Inventory) : Option WornItem := s.items.find? (·.place = .equipment slot)

def getItemByGuid (guid : ObjectGuid) (s : Inventory) : Option WornItem := s.items.find? (·.guid = guid)

/-- The price, as the code computes it; it takes nothing if it is not positive. -/
def copper (cfg : Config) (target : ItemTemplate) : Int :=
  int32 (int32 (cfg.scaled (int32 (getSpecialPrice target).toNat)) + cfg.copperCost)

/-- An item afterwards: it is the player's for good. -/
def keep (player : Wearer) (item : WornItem) : WornItem :=
  { item with owner := player.guid, refundable := false, bopTradeable := false }

/-- The item gets its look, and the other one is bound to the player if it ever is. -/
def change (cfg : Config) (player : Wearer) (target source : WornItem) (s : Inventory) : Inventory :=
  let binds := (cfg.getItemTemplate source.entry).any fun proto =>
    proto.bonding ∈ [BIND_WHEN_EQUIPED, BIND_WHEN_PICKED_UP, BIND_QUEST_ITEM, BIND_WHEN_USE]
  let items := modifyItem target.guid (fun item => keep player { item with transmog := source.entry }) s.items
  { s with items := modifyItem source.guid (fun item => keep player { item with soulbound := item.soulbound || binds }) items }

/-- Tokens and money are paid; `none` is a price that is not met, with what is left then. -/
def payCost (cfg : Config) (target : ItemTemplate) (s : Inventory) : TransmogTrinityStrings × Inventory :=
  if cfg.requireToken && !hasItemCount cfg.tokenEntry cfg.tokenAmount s.items then (.notEnoughTokens, s)
  else
    let s := if cfg.requireToken then { s with items := destroyItemCount cfg.tokenEntry cfg.tokenAmount s.items } else s
    let cost := copper cfg target
    if cost ≤ 0 then (.ok, s)
    else if (s.money : Int) < cost then (.notEnoughMoney, s)
    else (.ok, pay (-cost) s)

def transmogrify (cfg : Config) (player : Wearer) (itemGUID : ObjectGuid) (slot : Nat) (noCost : Bool) (s : Inventory) :
    TransmogTrinityStrings × Inventory :=
  if EQUIPMENT_SLOT_END ≤ slot then (.invalidSlot, s)
  -- guid of the transmogrifier item, if it's not 0
  else if itemGUID ≠ 0 ∧ (getItemByGuid itemGUID s).isNone then (.missingSrcItem, s)
  else
    match getItemByPos slot s with
    | none => (.missingDestItem, s)
    | some target =>
      match if itemGUID = 0 then none else getItemByGuid itemGUID s with
      -- reset look
      | none => (.ok, { s with items := modifyItem target.guid (fun item => { item with transmog := 0 }) s.items })
      | some source =>
        match cfg.getItemTemplate target.entry with
        | none => (.invalidItems, s)
        | some proto =>
          if !canTransmogrifyItemWithItem cfg player (some proto) (cfg.getItemTemplate source.entry) then (.invalidItems, s)
          else
            let paid := if noCost then (.ok, s) else payCost cfg proto s
            if paid.1 = .ok then (.ok, change cfg player target source paid.2) else paid

/-! ## All or nothing -/

/-- How many items of a kind there are, by their stacks. -/
def countWhere (p : WornItem → Bool) (items : List WornItem) : Nat := ((items.filter p).map WornItem.count).sum

def countItems (entry : Nat) (items : List WornItem) : Nat := countWhere (·.entry = entry) items

/-- The look of an item, and whether it is bound. -/
def look (guid : ObjectGuid) (s : Inventory) : Option (Nat × Bool) := (getItemByGuid guid s).map fun item => (item.transmog, item.soulbound)

/-- The money that is asked for; taking a look back costs nothing. -/
def price (cfg : Config) (itemGUID : ObjectGuid) (slot : Nat) (noCost : Bool) (s : Inventory) : Nat :=
  if itemGUID = 0 || noCost then 0
  else ((getItemByPos slot s).bind fun target => cfg.getItemTemplate target.entry).elim 0 fun proto => (copper cfg proto).toNat

/-- The tokens that are asked for. -/
def tokens (cfg : Config) (itemGUID : ObjectGuid) (noCost : Bool) : Nat :=
  if itemGUID = 0 || noCost || !cfg.requireToken then 0 else cfg.tokenAmount

/-- A failure leaves money, tokens, looks and bindings as they were, and a success takes the price and the tokens. -/
structure AllOrNothing (cfg : Config) (price tokens : Nat) (s : Inventory) (r : TransmogTrinityStrings × Inventory) : Prop where
  nothing : r.1 ≠ .ok → r.2.money = s.money ∧ countItems cfg.tokenEntry r.2.items = countItems cfg.tokenEntry s.items ∧
    ∀ guid, look guid r.2 = look guid s
  all : r.1 = .ok → r.2.money + price = s.money ∧ countItems cfg.tokenEntry r.2.items + tokens = countItems cfg.tokenEntry s.items

/-- Tokens are asked for and are there, and the money is not. -/
def TokensLost (cfg : Config) (target : ItemTemplate) (s : Inventory) : Prop :=
  cfg.requireToken = true ∧ 0 < cfg.tokenAmount ∧ hasItemCount cfg.tokenEntry cfg.tokenAmount s.items = true ∧
    0 < copper cfg target ∧ (s.money : Int) < copper cfg target

/-- The call gets as far as the price, and can pay the tokens alone. -/
def TokensOnly (cfg : Config) (player : Wearer) (itemGUID : ObjectGuid) (slot : Nat) (noCost : Bool) (s : Inventory) : Prop :=
  slot < EQUIPMENT_SLOT_END ∧ itemGUID ≠ 0 ∧ noCost = false ∧
    ∃ target source proto, getItemByPos slot s = some target ∧ getItemByGuid itemGUID s = some source ∧
      cfg.getItemTemplate target.entry = some proto ∧
      canTransmogrifyItemWithItem cfg player (some proto) (cfg.getItemTemplate source.entry) = true ∧ TokensLost cfg proto s

section

variable {cfg : Config} {player : Wearer} {itemGUID : ObjectGuid} {slot : Nat} {noCost : Bool} {s : Inventory} {entry count : Nat}
  {items : List WornItem}

theorem countWhere_cons (p : WornItem → Bool) (item : WornItem) (items : List WornItem) :
    countWhere p (item :: items) = (if p item then item.count else 0) + countWhere p items := by
  unfold countWhere
  by_cases h : p item = true
  · rw [List.filter_cons_of_pos h, if_pos h, List.map_cons, List.sum_cons]
  · rw [List.filter_cons_of_neg h, if_neg h, Nat.zero_add]

theorem countWhere_mono {p q : WornItem → Bool} (h : ∀ item, p item = true → q item = true) (items : List WornItem) :
    countWhere p items ≤ countWhere q items := by
  induction items with
  | nil => exact Nat.le_refl _
  | cons item items ih =>
    rw [countWhere_cons, countWhere_cons]
    refine Nat.add_le_add ?_ ih
    split
    next hp =>
      exact Nat.le_of_eq (if_pos (h item hp)).symm
    next => exact Nat.zero_le _

theorem countItems_cons (entry : Nat) (item : WornItem) (items : List WornItem) :
    countItems entry (item :: items) = (if item.entry = entry then item.count else 0) + countItems entry items := by
  unfold countItems
  rw [countWhere_cons]
  simp only [decide_eq_true_eq]

/-- What is looked for outside of the bank is there to be taken. -/
theorem le_tokens (h : hasItemCount entry count items = true) : count ≤ countWhere (isToken entry) items := by
  unfold hasItemCount at h
  rw [Bool.and_eq_true, decide_eq_true_eq] at h
  exact Nat.le_trans h.2 (countWhere_mono (fun _ hi => (Bool.and_eq_true_iff.1 hi).1) items)

/-- So many tokens are taken. -/
theorem countItems_destroy : ∀ {items : List WornItem} {count : Nat}, count ≤ countWhere (isToken entry) items →
    countItems entry (destroyItemCount entry count items) + count = countItems entry items
  | [], count, h => by
    have h : count ≤ 0 := h
    rw [Nat.le_zero.1 h]
    rfl
  | item :: items, count, h => by
    rw [countWhere_cons] at h
    unfold destroyItemCount
    split
    next hno =>
      rw [if_neg (by simpa using hno), Nat.zero_add] at h
      rw [countItems_cons, countItems_cons, Nat.add_assoc, countItems_destroy h]
    next htoken =>
    have htoken : isToken entry item = true := by simpa using htoken
    have hentry : item.entry = entry := by
      unfold isToken at htoken
      rw [Bool.and_eq_true] at htoken
      exact of_decide_eq_true htoken.1
    rw [if_pos htoken] at h
    split
    next hless =>
      rw [countItems_cons, countItems_cons, if_pos hentry, if_pos hentry]
      dsimp only
      omega
    next hmore =>
    rw [countItems_cons, if_pos hentry]
    split
    next => omega
    next =>
    have hrest := @countItems_destroy items (count - item.count) (by omega)
    omega

/-- No tokens are taken where none are asked for. -/
theorem destroyItemCount_zero (entry : Nat) : ∀ items, destroyItemCount entry 0 items = items
  | [] => rfl
  | item :: items => by
    unfold destroyItemCount
    split
    next => rw [destroyItemCount_zero entry items]
    next => rw [dif_pos item.hcount]; rfl

theorem countItems_modify (guid : ObjectGuid) {f : WornItem → WornItem} (hf : ∀ item, (f item).entry = item.entry ∧
    (f item).count = item.count) (entry : Nat) (items : List WornItem) :
    countItems entry (modifyItem guid f items) = countItems entry items := by
  unfold modifyItem
  induction items with
  | nil => rfl
  | cons item items ih =>
    rw [List.map_cons, countItems_cons, countItems_cons, ih]
    split
    next => rw [(hf item).1, (hf item).2]
    next => rfl

theorem countItems_change (target source : WornItem) (s : Inventory) :
    countItems entry (change cfg player target source s).items = countItems entry s.items ∧
      (change cfg player target source s).money = s.money := by
  refine ⟨?_, rfl⟩
  unfold change
  dsimp only
  rw [countItems_modify, countItems_modify]
  · exact fun _ => ⟨rfl, rfl⟩
  · exact fun _ => ⟨rfl, rfl⟩

theorem pay_spec {cost : Int} (hpos : 0 < cost) (hcost : cost ≤ s.money) :
    (pay (-cost) s).money + cost.toNat = s.money ∧ (pay (-cost) s).items = s.items := by
  obtain ⟨money, hpaid, hmoney⟩ := modifyMoney_afford hpos hcost s.hmoney
  unfold pay
  split
  next hnone =>
    rw [hnone] at hpaid
    cases hpaid
  next money' hsome =>
  rw [hsome] at hpaid
  cases hpaid
  exact ⟨hmoney, rfl⟩

/-- A call that does nothing. -/
theorem AllOrNothing.of_failed {price tokens : Nat} {code : TransmogTrinityStrings} (h : code ≠ .ok) :
    AllOrNothing cfg price tokens s (code, s) := ⟨fun _ => ⟨rfl, rfl, fun _ => rfl⟩, fun hok => absurd hok h⟩

/-- What is paid: all of it, or nothing but the tokens where the money is missing. -/
theorem payCost_spec (target : ItemTemplate) (s : Inventory) :
    ((payCost cfg target s).1 = .ok → (payCost cfg target s).2.money + (copper cfg target).toNat = s.money ∧
        countItems cfg.tokenEntry (payCost cfg target s).2.items + (if cfg.requireToken then cfg.tokenAmount else 0) =
          countItems cfg.tokenEntry s.items) ∧
      ((payCost cfg target s).1 ≠ .ok →
        payCost cfg target s = ((payCost cfg target s).1, s) ∧ ¬ TokensLost cfg target s ∨
        TokensLost cfg target s ∧
          countItems cfg.tokenEntry (payCost cfg target s).2.items + cfg.tokenAmount = countItems cfg.tokenEntry s.items) := by
  unfold payCost TokensLost
  split
  next hfew =>
    rw [Bool.and_eq_true, Bool.not_eq_true'] at hfew
    refine ⟨nofun, fun _ => .inl ⟨rfl, fun h => ?_⟩⟩
    rw [hfew.2] at h
    cases h.2.2.1
  next htokens =>
  obtain ⟨s', hs'⟩ : ∃ s', s' = if cfg.requireToken then
    { s with items := destroyItemCount cfg.tokenEntry cfg.tokenAmount s.items } else s := ⟨_, rfl⟩
  have htaken : s'.money = s.money ∧ countItems cfg.tokenEntry s'.items + (if cfg.requireToken then cfg.tokenAmount else 0) =
      countItems cfg.tokenEntry s.items := by
    rw [hs']
    cases hrequire : cfg.requireToken with
    | false => exact ⟨rfl, rfl⟩
    | true =>
      rw [hrequire, Bool.true_and, Bool.not_eq_true', Bool.not_eq_false] at htokens
      exact ⟨rfl, countItems_destroy (le_tokens htokens)⟩
  dsimp only
  rw [← hs']
  split
  next hfree =>
    refine ⟨fun _ => ⟨?_, htaken.2⟩, fun h => absurd rfl h⟩
    rw [Int.toNat_of_nonpos hfree]
    exact htaken.1
  next hcost =>
  split
  next hpoor =>
    refine ⟨nofun, fun _ => ?_⟩
    by_cases hamount : cfg.requireToken = true ∧ 0 < cfg.tokenAmount
    · obtain ⟨hrequire, hamount⟩ := hamount
      rw [hrequire, Bool.true_and, Bool.not_eq_true', Bool.not_eq_false] at htokens
      rw [hrequire] at htaken
      exact .inr ⟨⟨hrequire, hamount, htokens, Int.not_le.1 hcost, htaken.1 ▸ hpoor⟩, htaken.2⟩
    refine .inl ⟨congrArg _ ?_, fun h => hamount ⟨h.1, h.2.1⟩⟩
    rw [hs']
    split
    next hrequire =>
      have hzero : cfg.tokenAmount = 0 := Nat.eq_zero_of_not_pos fun h => hamount ⟨hrequire, h⟩
      rw [hzero, destroyItemCount_zero]
    next => rfl
  next hrich =>
  obtain ⟨hmoney, hitems⟩ := pay_spec (Int.not_le.1 hcost) (Int.not_lt.1 hrich)
  refine ⟨fun _ => ⟨hmoney.trans htaken.1, ?_⟩, fun h => absurd rfl h⟩
  rw [hitems]
  exact htaken.2

theorem tokensOnly_iff {target source : WornItem} {proto : ItemTemplate} (hslot : slot < EQUIPMENT_SLOT_END) (hne : itemGUID ≠ 0)
    (htarget : getItemByPos slot s = some target) (hsource : getItemByGuid itemGUID s = some source)
    (hproto : cfg.getItemTemplate target.entry = some proto) : TokensOnly cfg player itemGUID slot noCost s ↔ noCost = false ∧
      canTransmogrifyItemWithItem cfg player (some proto) (cfg.getItemTemplate source.entry) = true ∧ TokensLost cfg proto s := by
  constructor
  · rintro ⟨_, _, hcost, target', source', proto', htarget', hsource', hproto', hcan⟩
    rw [htarget] at htarget'
    cases htarget'
    rw [hsource] at hsource'
    cases hsource'
    rw [hproto] at hproto'
    cases hproto'
    exact ⟨hcost, hcan⟩
  · rintro ⟨hcost, hcan⟩
    exact ⟨hslot, hne, hcost, target, source, proto, htarget, hsource, hproto, hcan⟩

/-- Items that go together: everything depends on what is paid. -/
theorem allOrNothing_paid (target source : WornItem) (proto : ItemTemplate) :
    AllOrNothing cfg (copper cfg proto).toNat (if cfg.requireToken then cfg.tokenAmount else 0) s
      (if (payCost cfg proto s).1 = .ok then (.ok, change cfg player target source (payCost cfg proto s).2) else payCost cfg proto s) ↔
    ¬ TokensLost cfg proto s := by
  obtain ⟨hpaid, hfailed⟩ := @payCost_spec cfg proto s
  by_cases hok : (payCost cfg proto s).1 = .ok
  · obtain ⟨hmoney, htokens⟩ := hpaid hok
    obtain ⟨hitems, hmoney'⟩ := @countItems_change cfg player cfg.tokenEntry target source (payCost cfg proto s).2
    rw [if_pos hok]
    refine iff_of_true ⟨fun h => absurd rfl h, fun _ => ?_⟩ fun h => ?_
    · dsimp only
      rw [hmoney', hitems]
      exact ⟨hmoney, htokens⟩
    · have hpoor := h.2.2.2.2
      omega
  rw [if_neg hok]
  rcases hfailed hok with ⟨hsame, hnot⟩ | ⟨hlost, htokens⟩
  · rw [hsame]
    exact iff_of_true (.of_failed hok) hnot
  refine iff_of_false (fun h => ?_) (not_not_intro hlost)
  have hsame := (h.nothing hok).2.1
  have hamount := hlost.2.1
  omega

/-- Transmogrification is all or nothing, except where the tokens are there and the money is not. -/
theorem allOrNothing_iff (cfg : Config) (player : Wearer) (itemGUID : ObjectGuid) (slot : Nat) (noCost : Bool) (s : Inventory) :
    AllOrNothing cfg (price cfg itemGUID slot noCost s) (tokens cfg itemGUID noCost) s
        (transmogrify cfg player itemGUID slot noCost s) ↔ ¬ TokensOnly cfg player itemGUID slot noCost s := by
  unfold transmogrify
  split
  next hslot => exact iff_of_true (.of_failed nofun) fun h => absurd h.1 (Nat.not_lt.2 hslot)
  next hslot =>
    split
    next hmissing =>
      refine iff_of_true (.of_failed nofun) fun ⟨_, _, _, _, _, _, _, hsource, _⟩ => ?_
      rw [hsource] at hmissing
      cases hmissing.2
    next hsource =>
      split
      next hnone =>
        refine iff_of_true (.of_failed nofun) fun ⟨_, _, _, _, _, _, htarget, _⟩ => ?_
        rw [hnone] at htarget
        cases htarget
      next target htarget =>
        split
        next hreset =>
          have hzero : itemGUID = 0 := by
            by_contra hne
            rw [if_neg hne] at hreset
            exact hsource ⟨hne, hreset ▸ rfl⟩
          refine iff_of_true ⟨fun h => absurd rfl h, fun _ => ?_⟩ fun h => h.2.1 hzero
          unfold price tokens
          rw [decide_eq_true hzero, Bool.true_or, Bool.true_or]
          refine ⟨rfl, ?_⟩
          dsimp only
          rw [countItems_modify]
          · rfl
          · exact fun _ => ⟨rfl, rfl⟩
        next source hsource' =>
          have hne : itemGUID ≠ 0 := fun h => by
            rw [if_pos h] at hsource'
            cases hsource'
          rw [if_neg hne] at hsource'
          split
          next hnone =>
            refine iff_of_true (.of_failed nofun) fun ⟨_, _, _, _, _, _, htarget', _, hproto, _⟩ => ?_
            rw [htarget] at htarget'
            cases htarget'
            rw [hnone] at hproto
            cases hproto
          next proto hproto =>
            rw [tokensOnly_iff (Nat.not_le.1 hslot) hne htarget hsource' hproto]
            split
            next hcannot =>
              refine iff_of_true (.of_failed nofun) fun h => ?_
              rw [h.2.1] at hcannot
              cases hcannot
            next hcan =>
              rw [Bool.not_eq_true', Bool.not_eq_false] at hcan
              unfold price tokens
              rw [htarget, Option.bind_some, hproto, Option.elim_some, decide_eq_false hne, Bool.false_or]
              cases noCost with
              | true =>
                obtain ⟨hitems, hmoney⟩ := @countItems_change cfg player cfg.tokenEntry target source s
                exact iff_of_true ⟨fun h => absurd rfl h, fun _ => ⟨hmoney, hitems⟩⟩ fun h => (nomatch h.1)
              | false =>
                rw [and_iff_right rfl, and_iff_right hcan, ← @allOrNothing_paid cfg player s target source proto]
                cases cfg.requireToken <;> exact Iff.rfl

end

/-! ### A player with a token and 5 copper -/

/-- Swords 100 and 101 go together, for a token and a gold. -/
def swords : Config where
  scaled := id
  copperCost := 0
  requireToken := true
  tokenEntry := 49426
  tokenAmount := 1
  allowed := [100, 101]
  notAllowed := []
  allowQuality _ := true
  allowMixedArmorTypes := false
  allowMixedWeaponTypes := false
  allowMixedInventoryTypes := false
  allowFishingPoles := false
  ignoreReqRace := false
  ignoreReqClass := false
  ignoreReqSkill := false
  ignoreReqSpell := false
  ignoreReqLevel := false
  ignoreReqEvent := false
  ignoreReqStats := false
  isHolidayActive _ := false
  getItemTemplate entry := some ⟨entry, entry, ITEM_CLASS_WEAPON, 7, INVTYPE_WEAPON, some .rare, false, false, 0, 0, 0, 0, 0, 0, 0,
    false, [], BIND_WHEN_EQUIPED, 20⟩

def poorPlayer : Inventory where
  items := [⟨3, 49426, .inventory, 1, false, 0, false, false, false, 9, by decide⟩,
    ⟨2, 101, .inventory, 1, false, 0, false, false, false, 9, by decide⟩,
    ⟨1, 100, .equipment 15, 1, false, 0, true, false, false, 9, by decide⟩]
  money := 5
  hmoney := by decide

/-- The money is missing, and the token is gone. -/
theorem token_lost : (transmogrify swords ⟨9, .alliance, 1, 1, fun _ => 0, fun _ => false, 80⟩ 2 15 false poorPlayer).1 = .notEnoughMoney ∧
    countItems 49426 poorPlayer.items = 1 ∧
    countItems 49426 (transmogrify swords ⟨9, .alliance, 1, 1, fun _ => 0, fun _ => false, 80⟩ 2 15 false poorPlayer).2.items = 0 ∧
    ¬ AllOrNothing swords (price swords 2 15 false poorPlayer) (tokens swords 2 false) poorPlayer
      (transmogrify swords ⟨9, .alliance, 1, 1, fun _ => 0, fun _ => false, 80⟩ 2 15 false poorPlayer) := by
  have hcode : (transmogrify swords ⟨9, .alliance, 1, 1, fun _ => 0, fun _ => false, 80⟩ 2 15 false poorPlayer).1 = .notEnoughMoney := by
    decide +kernel
  have hgone : countItems 49426 (transmogrify swords ⟨9, .alliance, 1, 1, fun _ => 0, fun _ => false, 80⟩ 2 15 false
      poorPlayer).2.items = 0 := by decide +kernel
  refine ⟨hcode, by decide, hgone, fun h => ?_⟩
  have hsame := (h.nothing (by rw [hcode]; decide)).2.1
  have hone : countItems swords.tokenEntry poorPlayer.items = 1 := by decide
  rw [hone] at hsame
  exact absurd (hgone.symm.trans hsame) (by decide)

end Transmogrification

end AtlasWow
