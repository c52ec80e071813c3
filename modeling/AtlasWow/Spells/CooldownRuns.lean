/-
Runs of operations on the cooldowns: in which of them the category cooldowns
are those of the stored ones.
-/
import AtlasWow.Spells.CategoryCooldowns

namespace AtlasWow.Spells

open SpellHistory

variable {stores : Stores} {h h' : SpellHistory} {e : Event}

/-- What an operation writes or erases, at the time it does, leaves every category with an entry of its own and with
all that go on. -/
def Sound (stores : Stores) (e : Event) (h : SpellHistory) : Prop :=
  match e.operation with
  | .addCooldown entry => Keeps (h.elapse e.elapsed) entry.spellId entry.categoryId
  | .startCooldown spellId itemId mods onHold => StartOk stores (h.elapse e.elapsed) spellId itemId mods onHold
  | .sendCooldownEvent hasPlayerOwner spellId itemId mods start =>
    SendOk stores (h.elapse e.elapsed) hasPlayerOwner spellId itemId mods start
  | .modifyCooldown spellId cooldownModMs => ModifyOk (h.elapse e.elapsed) spellId cooldownModMs
  | .resetCooldown spellId => Alone (h.elapse e.elapsed) fun k _ => k = spellId
  | .resetCooldowns predicate => Alone (h.elapse e.elapsed) fun k entry => predicate k entry = true
  | .lockSpellSchool schoolMask lockoutTime knownSpells =>
    LockOk stores (h.elapse e.elapsed) schoolMask lockoutTime knownSpells
  | .update => UpdateOk (h.elapse e.elapsed)
  | .restoreCooldownStateAfterDuel =>
    ∀ k entry, (h.beforeDuel stores).find? k = some entry → RestoreOk (h.elapse e.elapsed) k entry
  | .loadFromDB rows => LoadOk stores rows (h.elapse e.elapsed)
  | .resetAllCooldowns | .getRemainingCooldown _ | .saveCooldownStateBeforeDuel => True

/-- An operation that is sound reads no entry that is gone and keeps the categories right. -/
theorem step_coherent (hl : Coherent h) (hs : Sound stores e h) : ∃ h', step stores e h = some h' ∧ Coherent h' := by
  have hl' := elapse_coherent hl e.elapsed
  obtain ⟨elapsed, operation⟩ := e
  unfold step
  cases operation with
  | addCooldown entry => exact ⟨_, rfl, hl'.addCooldown hs⟩
  | startCooldown spellId itemId mods onHold => exact ⟨_, rfl, hl'.startCooldown hs⟩
  | sendCooldownEvent hasPlayerOwner spellId itemId mods start => exact hl'.sendCooldownEvent hs
  | modifyCooldown spellId cooldownModMs => exact ⟨_, rfl, hl'.modifyCooldown hs⟩
  | resetCooldown spellId => exact ⟨_, rfl, hl'.erases (eraseCooldown_erases _ spellId) hs⟩
  | resetCooldowns predicate => exact ⟨_, rfl, hl'.erases (eraseCooldowns_erases _ predicate) hs⟩
  | resetAllCooldowns => exact ⟨_, rfl, ⟨⟨nofun, nofun⟩, nofun⟩⟩
  | lockSpellSchool schoolMask lockoutTime knownSpells => exact hl'.lockSpellSchool hs
  | getRemainingCooldown spellId =>
    obtain ⟨left, hleft⟩ := hl'.toLive.getRemainingCooldown stores spellId
    exact ⟨_, by rw [perform, hleft, Option.map_some], hl'⟩
  | update => exact hl'.update hs
  | saveCooldownStateBeforeDuel => exact ⟨_, rfl, ⟨⟨hl'.nonzero, hl'.live⟩, hl'.reported⟩⟩
  | restoreCooldownStateAfterDuel => exact ⟨_, rfl, hl'.restoreCooldownStateAfterDuel hs⟩
  | loadFromDB rows => exact ⟨_, rfl, hl'.loadFromDB hs⟩

/-- A spell of a category that is stored is on cooldown. -/
theorem Coherent.hasCooldown (hl : Coherent h) {k : Nat} {node : Node} (hk : h.spellCooldowns.find? k = some node)
    (hc : node.entry.categoryId ≠ 0) (hend : h.now < node.entry.categoryEnd) {spellId itemId : Nat}
    (hcat : (getCooldownDurations stores spellId itemId).categoryId = node.entry.categoryId) :
    h.hasCooldown stores spellId itemId false = true := by
  unfold SpellHistory.hasCooldown
  split
  · rfl
  rw [if_neg Bool.false_ne_true, hcat]
  dsimp only
  rw [hl.reported k node hk hc hend, Bool.and_true, decide_eq_true_eq]
  exact hc

/-- In every run of sound operations each category points to a stored entry of its own, every spell of a category that
some stored entry holds for longer is on cooldown, and no operation that is sound reads an entry that is gone. -/
theorem category_cooldowns_coherent (stores : Stores) (start : Int)
    (hr : Reaches (step stores) (Sound stores) { now := start } h) :
    (∀ category p, h.categoryCooldowns.find? category = some p →
      ∃ entry, h.deref p = some entry ∧ entry.categoryId = category) ∧
    (∀ k node, h.spellCooldowns.find? k = some node → node.entry.categoryId ≠ 0 → h.now < node.entry.categoryEnd →
      ∀ spellId itemId, (getCooldownDurations stores spellId itemId).categoryId = node.entry.categoryId →
        h.hasCooldown stores spellId itemId false = true) ∧
    ∀ e, Sound stores e h → ∃ h', step stores e h = some h' := by
  have hl : Coherent h := by
    refine hr.invariant Coherent ?_ ⟨⟨nofun, nofun⟩, nofun⟩
    intro e a b ha hok hstep
    obtain ⟨b', hb, hl⟩ := step_coherent ha hok
    rw [hstep] at hb
    cases hb
    exact hl
  refine ⟨hl.live, fun k node hk hc hend spellId itemId hcat => hl.hasCooldown hk hc hend hcat, fun e hs => ?_⟩
  obtain ⟨h', hstep, -⟩ := step_coherent hl hs
  exact ⟨h', hstep⟩

/-! ## Shocks -/

/-- Spells of one school and one category that a silence prevents. -/
def shocks : Stores where
  loaded := fun _ => true
  info := fun _ => { recoveryTime := 6000, categoryRecoveryTime := 6000, category := 19, preventedBySilence := true, schoolMask := 8 }
  itemTemplate := fun _ => none

def startShock (spellId : Nat) : Event := ⟨0, .startCooldown spellId 0 {} false⟩

def lookAtShock (spellId : Nat) : Event := ⟨3000000000, .getRemainingCooldown spellId⟩

/-- A shock is cast, and its cooldown is looked at three seconds later. -/
theorem category_cooldowns_coherent_shock :
    ∃ h, runSteps (step shocks) [startShock 8042, lookAtShock 8042] { now := 0 } = some h ∧
    (∀ category p, h.categoryCooldowns.find? category = some p →
      ∃ entry, h.deref p = some entry ∧ entry.categoryId = category) ∧
    (∀ k node, h.spellCooldowns.find? k = some node → node.entry.categoryId ≠ 0 → h.now < node.entry.categoryEnd →
      ∀ spellId itemId, (getCooldownDurations shocks spellId itemId).categoryId = node.entry.categoryId →
        h.hasCooldown shocks spellId itemId false = true) ∧
    ∀ e, Sound shocks e h → ∃ h', step shocks e h = some h' := by
  refine ⟨_, rfl, category_cooldowns_coherent shocks 0 (.tail (lookAtShock 8042) (.tail (startShock 8042) .refl ?_ rfl)
    trivial rfl)⟩
  rintro entry - c p hp
  cases hp

/-- A shock is on cooldown, its school is locked and then its cooldown reset: the next `Update` reads the erased entry.
Two shocks are on cooldown, and the first one's is reset: the category of the second is free. -/
theorem category_cooldown_lost :
    (∃ h, runSteps (step shocks) [startShock 8042, ⟨0, .lockSpellSchool 8 10000 [8042]⟩, ⟨0, .resetCooldown 8042⟩]
      { now := 0 } = some h ∧ step shocks ⟨0, .update⟩ h = none) ∧
    ∃ h, runSteps (step shocks) [startShock 8042, startShock 8050, ⟨0, .resetCooldown 8042⟩] { now := 0 } = some h ∧
      (∃ node, h.spellCooldowns.find? 8050 = some node ∧ node.entry.categoryId = 19 ∧ h.now < node.entry.categoryEnd) ∧
      (getCooldownDurations shocks 8042 0).categoryId = 19 ∧ h.hasCooldown shocks 8042 0 false = false := by
  refine ⟨⟨_, rfl, rfl⟩, ⟨_, rfl, ⟨_, rfl, rfl, ?_⟩, rfl, rfl⟩⟩
  decide

end AtlasWow.Spells
