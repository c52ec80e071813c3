/-
Cooldowns of a unit's spells (`SpellHistory.cpp`, `SpellHistory.h`).

`_categoryCooldowns` points into `_spellCooldowns`: a pointer is a spell's id
with the serial number of the map's node, which no later node shares, so that
a pointer to an erased node is told from one to its successor. Packets and
global cooldowns are left out. Times are clock ticks (nanoseconds).
-/
import AtlasWow.Lib.Machine
import AtlasWow.Lib.OrderedMap
import Mathlib.Algebra.Group.Nat.Defs

namespace AtlasWow.Spells

/-! ## Spells -/

/-- What the cooldowns ask of a `SpellInfo`. -/
structure SpellInfo where
  recoveryTime : Int := 0
  categoryRecoveryTime : Int := 0
  category : Nat := 0
  isCooldownStartedOnEvent : Bool := false
  isAutoRepeatRangedSpell : Bool := false
  /-- `PreventionType == SPELL_PREVENTION_TYPE_SILENCE`. -/
  preventedBySilence : Bool := false
  schoolMask : Nat := 0
  /-- `SPELL_ATTR6_IGNORE_CATEGORY_COOLDOWN_MODS`. -/
  ignoreCategoryCooldownMods : Bool := false

/-- A spell of an item template. -/
structure ItemSpell where
  spellId : Nat
  spellCooldown : Int
  spellCategory : Nat
  spellCategoryCooldown : Int

/-- The loaded spells and item templates. `info` is what `AssertSpellInfo` answers: the spells in play are loaded. -/
structure Stores where
  loaded : Nat → Bool
  info : Nat → SpellInfo
  itemTemplate : Nat → Option (List ItemSpell)

structure Durations where
  cooldown : Int
  categoryId : Nat
  categoryCooldown : Int

/-- `GetCooldownDurations`. -/
def getCooldownDurations (stores : Stores) (spellId itemId : Nat) : Durations :=
  let proto := if itemId ≠ 0 then stores.itemTemplate itemId else none
  let tmp : Durations :=
    match proto.bind fun spells => spells.find? (·.spellId = spellId) with
    | some spell => ⟨spell.spellCooldown, spell.spellCategory, spell.spellCategoryCooldown⟩
    | none => ⟨-1, 0, -1⟩
  if tmp.cooldown < 0 && tmp.categoryCooldown < 0 then
    let spellInfo := stores.info spellId
    ⟨spellInfo.recoveryTime, spellInfo.category, spellInfo.categoryRecoveryTime⟩
  else tmp

/-- What changes a cooldown when it starts. -/
structure Modifiers where
  /-- `GetAttackTime(RANGED_ATTACK)`. -/
  attackTime : Int := 0
  /-- `ApplySpellMod` with `SPELLMOD_COOLDOWN`, of the owner's mod owner. -/
  spellMod : Int → Int := id
  /-- `SPELL_AURA_MOD_COOLDOWN`, in seconds; zero for a player's aura if the spell is not his own. -/
  cooldownMod : Int := 0

/-! ## The history -/

structure CooldownEntry where
  spellId : Nat
  cooldownEnd : Int
  itemId : Nat := 0
  categoryId : Nat := 0
  categoryEnd : Int
  onHold : Bool := false
  deriving DecidableEq, Repr

/-- A node of `_spellCooldowns`. -/
structure Node where
  serial : Nat
  entry : CooldownEntry
  deriving DecidableEq, Repr

structure Pointer where
  spellId : Nat
  serial : Nat
  deriving DecidableEq, Repr

def MaxSpellSchool : Nat := 7
def millisecond : Int := 1000000
/-- `InfinityCooldownDelay`: a month. -/
def infinityCooldownDelay : Int := 30 * 24 * 60 * 60 * 1000 * millisecond

structure SpellHistory where
  spellCooldowns : OMap Nat Node := .empty
  spellCooldownsBeforeDuel : OMap Nat CooldownEntry := .empty
  categoryCooldowns : OMap Nat Pointer := .empty
  schoolLockouts : Nat → Int := fun _ => 0
  /-- The serial number of the next node. -/
  nextSerial : Nat := 0
  /-- `GameTime::GetGameTimeSystemPoint()`. -/
  now : Int := 0

namespace SpellHistory

/-- `*pointer`, unless the node is gone. -/
def deref (h : SpellHistory) (p : Pointer) : Option CooldownEntry :=
  (h.spellCooldowns.find? p.spellId).bind fun node => if node.serial = p.serial then some node.entry else none

/-- `_spellCooldowns[spellId] = entry`. -/
def put (h : SpellHistory) (spellId : Nat) (entry : CooldownEntry) : SpellHistory :=
  match h.spellCooldowns.find? spellId with
  | some node => { h with spellCooldowns := h.spellCooldowns.insert spellId { node with entry := entry } }
  | none =>
    { h with
      spellCooldowns := h.spellCooldowns.insert spellId ⟨h.nextSerial, entry⟩
      nextSerial := h.nextSerial + 1 }

/-- `&_spellCooldowns[spellId]`. -/
def addressOf (h : SpellHistory) (spellId : Nat) : Pointer :=
  ⟨spellId, ((h.spellCooldowns.find? spellId).map (·.serial)).getD 0⟩

/-- `AddCooldown`, with the values in an entry. -/
def addCooldown (h : SpellHistory) (entry : CooldownEntry) : SpellHistory :=
  let h := h.put entry.spellId entry
  if entry.categoryId ≠ 0 then
    { h with categoryCooldowns := h.categoryCooldowns.insert entry.categoryId (h.addressOf entry.spellId) }
  else h

/-- The cooldown that `StartCooldown` adds, if it adds one. -/
def startedCooldown (stores : Stores) (now : Int) (spellId itemId : Nat) (mods : Modifiers) (onHold : Bool) :
    Option CooldownEntry :=
  let spellInfo := stores.info spellId
  let durations := getCooldownDurations stores spellId itemId
  let times : Option (Int × Int) :=
    if onHold then
      let catrecTime := if durations.categoryCooldown > 0 then now + infinityCooldownDelay else now
      some (if durations.cooldown > 0 then now + infinityCooldownDelay else catrecTime, catrecTime)
    else
      let cooldown :=
        if durations.cooldown ≤ 0 && durations.categoryCooldown ≤ 0 &&
            (durations.categoryId = 76 || spellInfo.isAutoRepeatRangedSpell && spellId ≠ 75) then mods.attackTime
        else durations.cooldown
      let cooldown := if cooldown ≥ 0 then mods.spellMod cooldown else cooldown
      let categoryCooldown :=
        if durations.categoryCooldown ≥ 0 && !spellInfo.ignoreCategoryCooldownMods then
          mods.spellMod durations.categoryCooldown
        else durations.categoryCooldown
      let cooldown := max (cooldown + mods.cooldownMod * 1000) 0
      let categoryCooldown := max categoryCooldown 0
      if cooldown = 0 && categoryCooldown = 0 then none
      else
        let catrecTime := if categoryCooldown ≠ 0 then now + categoryCooldown * millisecond else now
        some (if cooldown ≠ 0 then now + cooldown * millisecond else catrecTime, catrecTime)
  match times with
  | none => none
  | some (recTime, catrecTime) =>
    if recTime ≠ now then
      some
        { spellId := spellId, cooldownEnd := recTime, itemId := itemId, categoryId := durations.categoryId
          categoryEnd := catrecTime, onHold := onHold }
    else none

/-- `StartCooldown`. -/
def startCooldown (stores : Stores) (h : SpellHistory) (spellId itemId : Nat) (mods : Modifiers) (onHold : Bool) :
    SpellHistory :=
  match startedCooldown stores h.now spellId itemId mods onHold with
  | some entry => h.addCooldown entry
  | none => h

/-- The spell whose entry the category's pointer leads to, if it is another one; `none` where the entry is gone. -/
def categorySpell (stores : Stores) (h : SpellHistory) (spellId itemId : Nat) : Option (Option Nat) :=
  match h.categoryCooldowns.find? (getCooldownDurations stores spellId itemId).categoryId with
  | none => some none
  | some p => (h.deref p).map fun entry => if entry.spellId ≠ spellId then some entry.spellId else none

/-- `SendCooldownEvent`. -/
def sendCooldownEvent (stores : Stores) (h : SpellHistory) (hasPlayerOwner : Bool) (spellId itemId : Nat)
    (mods : Nat → Modifiers) (start : Bool) : Option SpellHistory :=
  let h' : Option SpellHistory :=
    if hasPlayerOwner then
      (h.categorySpell stores spellId itemId).map fun other =>
        match other with
        | some other => if start then h.startCooldown stores other itemId (mods other) false else h
        | none => h
    else some h
  h'.map fun h => if start then h.startCooldown stores spellId itemId (mods spellId) false else h

/-- `EraseCooldown`, at the iterator to the spell's node. -/
def eraseCooldown (h : SpellHistory) (spellId : Nat) : SpellHistory :=
  match h.spellCooldowns.find? spellId with
  | some node =>
    { h with
      categoryCooldowns := h.categoryCooldowns.erase node.entry.categoryId
      spellCooldowns := h.spellCooldowns.erase spellId }
  | none => h

/-- The loops that erase every cooldown of a kind; the order of the unordered map does not matter to them. -/
def eraseCooldowns (h : SpellHistory) (predicate : Nat → CooldownEntry → Bool) : SpellHistory :=
  h.spellCooldowns.entries.foldl (fun h e => if predicate e.1 e.2.entry then h.eraseCooldown e.1 else h) h

/-- `ModifyCooldown`. -/
def modifyCooldown (h : SpellHistory) (spellId : Nat) (cooldownModMs : Int) : SpellHistory :=
  match h.spellCooldowns.find? spellId with
  | none => h
  | some node =>
    if cooldownModMs = 0 then h
    else
      let offset := cooldownModMs * millisecond
      if node.entry.cooldownEnd + offset > h.now then
        h.put spellId { node.entry with cooldownEnd := node.entry.cooldownEnd + offset }
      else h.eraseCooldown spellId

/-- The first loop of `Update`: it reads every category's entry. -/
def updateCategories (h : SpellHistory) : Option SpellHistory :=
  if h.categoryCooldowns.entries.all fun e => (h.deref e.2).isSome then
    some
      { h with
        categoryCooldowns := h.categoryCooldowns.filterMap fun _ p =>
          if (h.deref p).any fun entry => entry.categoryEnd < h.now then none else some p }
  else none

/-- `Update`. -/
def update (h : SpellHistory) : Option SpellHistory :=
  h.updateCategories.map fun h => h.eraseCooldowns fun _ entry => entry.cooldownEnd < h.now

/-- `HasCooldown`. -/
def hasCooldown (stores : Stores) (h : SpellHistory) (spellId itemId : Nat) (ignoreCategoryCooldown : Bool) : Bool :=
  if (h.spellCooldowns.find? spellId).isSome then true
  else if ignoreCategoryCooldown then false
  else
    let category := (getCooldownDurations stores spellId itemId).categoryId
    category ≠ 0 && (h.categoryCooldowns.find? category).isSome

def remaining (h : SpellHistory) (finish : Int) : Nat :=
  if finish < h.now then 0 else ((finish - h.now) / millisecond).toNat % 2 ^ 32

/-- `GetRemainingCooldown`. -/
def getRemainingCooldown (stores : Stores) (h : SpellHistory) (spellId : Nat) : Option Nat :=
  match h.spellCooldowns.find? spellId with
  | some node => some (h.remaining node.entry.cooldownEnd)
  | none =>
    match h.categoryCooldowns.find? (stores.info spellId).category with
    | none => some 0
    | some p => (h.deref p).map fun entry => h.remaining entry.categoryEnd

/-- A spell that a lock of the schools can take. -/
def lockable (stores : Stores) (schoolMask spellId : Nat) : Bool :=
  let spellInfo := stores.info spellId
  !spellInfo.isCooldownStartedOnEvent && spellInfo.preventedBySilence && schoolMask &&& spellInfo.schoolMask ≠ 0

def lockSpell (stores : Stores) (schoolMask lockoutTime : Nat) (h : SpellHistory) (spellId : Nat) : Option SpellHistory :=
  if lockable stores schoolMask spellId then
    (h.getRemainingCooldown stores spellId).map fun left =>
      if left < lockoutTime then
        h.addCooldown { spellId := spellId, cooldownEnd := h.now + lockoutTime * millisecond, categoryEnd := h.now }
      else h
  else some h

/-- `LockSpellSchool`; `knownSpells` is the set of the owner's spells, in its order. -/
def lockSpellSchool (stores : Stores) (h : SpellHistory) (schoolMask lockoutTime : Nat) (knownSpells : List Nat) :
    Option SpellHistory :=
  let h :=
    { h with
      schoolLockouts := fun i =>
        if i < MaxSpellSchool && 1 <<< i &&& schoolMask ≠ 0 then h.now + lockoutTime * millisecond
        else h.schoolLockouts i }
  knownSpells.foldlM (lockSpell stores schoolMask lockoutTime) h

/-- `LoadFromDB`: the rows of spells that are loaded. -/
def loadFromDB (stores : Stores) (h : SpellHistory) (rows : List CooldownEntry) : SpellHistory :=
  rows.foldl (fun h row => if stores.loaded row.spellId then h.addCooldown { row with onHold := false } else h) h

/-- A profession's cooldown: more than ten minutes. -/
def isProfessionCooldown (stores : Stores) (spellId : Nat) : Bool :=
  (stores.info spellId).recoveryTime > 10 * 60 * 1000 || (stores.info spellId).categoryRecoveryTime > 10 * 60 * 1000

/-- The cooldowns from before the duel, with those of professions created in it. -/
def beforeDuel (stores : Stores) (h : SpellHistory) : OMap Nat CooldownEntry :=
  h.spellCooldownsBeforeDuel.insertAll
    ((h.spellCooldowns.entries.filter fun e => isProfessionCooldown stores e.1).map fun e => (e.1, e.2.entry))

def restoreEntry (h : SpellHistory) (e : Nat × CooldownEntry) : SpellHistory :=
  if !e.2.onHold && !((h.spellCooldowns.find? e.1).map (·.entry.onHold)).getD false then h.put e.1 e.2 else h

/-- `RestoreCooldownStateAfterDuel`, of a player. -/
def restoreCooldownStateAfterDuel (stores : Stores) (h : SpellHistory) : SpellHistory :=
  let h := { h with spellCooldownsBeforeDuel := h.beforeDuel stores }
  h.spellCooldownsBeforeDuel.entries.foldl restoreEntry h

end SpellHistory

/-! ## Steps -/

inductive Operation
  | addCooldown (entry : CooldownEntry)
  | startCooldown (spellId itemId : Nat) (mods : Modifiers) (onHold : Bool)
  | sendCooldownEvent (hasPlayerOwner : Bool) (spellId itemId : Nat) (mods : Nat → Modifiers) (start : Bool)
  | modifyCooldown (spellId : Nat) (cooldownModMs : Int)
  | resetCooldown (spellId : Nat)
  | resetCooldowns (predicate : Nat → CooldownEntry → Bool)
  | resetAllCooldowns
  | lockSpellSchool (schoolMask lockoutTime : Nat) (knownSpells : List Nat)
  | getRemainingCooldown (spellId : Nat)
  | update
  | saveCooldownStateBeforeDuel
  | restoreCooldownStateAfterDuel
  | loadFromDB (rows : List CooldownEntry)

open SpellHistory

/-- One operation; `none` where it reads an entry that is gone. -/
def perform (stores : Stores) (h : SpellHistory) : Operation → Option SpellHistory
  | .addCooldown entry => some (h.addCooldown entry)
  | .startCooldown spellId itemId mods onHold => some (h.startCooldown stores spellId itemId mods onHold)
  | .sendCooldownEvent hasPlayerOwner spellId itemId mods start =>
    h.sendCooldownEvent stores hasPlayerOwner spellId itemId mods start
  | .modifyCooldown spellId cooldownModMs => some (h.modifyCooldown spellId cooldownModMs)
  | .resetCooldown spellId => some (h.eraseCooldown spellId)
  | .resetCooldowns predicate => some (h.eraseCooldowns predicate)
  | .resetAllCooldowns => some { h with categoryCooldowns := .empty, spellCooldowns := .empty }
  | .lockSpellSchool schoolMask lockoutTime knownSpells => h.lockSpellSchool stores schoolMask lockoutTime knownSpells
  | .getRemainingCooldown spellId => (h.getRemainingCooldown stores spellId).map fun _ => h
  | .update => h.update
  | .saveCooldownStateBeforeDuel =>
    some { h with spellCooldownsBeforeDuel := h.spellCooldowns.mapValues fun _ node => node.entry }
  | .restoreCooldownStateAfterDuel => some (h.restoreCooldownStateAfterDuel stores)
  | .loadFromDB rows => some (h.loadFromDB stores rows)

/-- Time passes, then an operation. -/
structure Event where
  elapsed : Nat
  operation : Operation

def SpellHistory.elapse (h : SpellHistory) (elapsed : Nat) : SpellHistory := { h with now := h.now + elapsed }

def step (stores : Stores) (e : Event) (h : SpellHistory) : Option SpellHistory :=
  perform stores (h.elapse e.elapsed) e.operation

end AtlasWow.Spells
