/-
The category cooldowns are those of the stored cooldowns (`Coherent`) in every
run in which no cooldown that a category points to is rewritten with another
category, and none is erased while another of its category goes on.
-/
import AtlasWow.Spells.SpellHistory

namespace AtlasWow.Spells

open SpellHistory

variable {stores : Stores} {h h' : SpellHistory} {entry : CooldownEntry} {p : Pointer} {node : Node} {spellId k c : Nat}

/-- Every category points to a stored entry of its own. -/
structure Live (h : SpellHistory) : Prop where
  nonzero : ∀ c p, h.categoryCooldowns.find? c = some p → c ≠ 0
  live : ∀ c p, h.categoryCooldowns.find? c = some p → ∃ entry, h.deref p = some entry ∧ entry.categoryId = c

/-- A stored entry whose category goes on keeps its category on cooldown. -/
def Reported (h : SpellHistory) : Prop :=
  ∀ k node, h.spellCooldowns.find? k = some node → node.entry.categoryId ≠ 0 → h.now < node.entry.categoryEnd →
    (h.categoryCooldowns.find? node.entry.categoryId).isSome = true

structure Coherent (h : SpellHistory) : Prop extends Live h where
  reported : Reported h

/-! ## Writes to an entry -/

@[simp] theorem put_categoryCooldowns (h : SpellHistory) (k : Nat) (entry : CooldownEntry) :
    (h.put k entry).categoryCooldowns = h.categoryCooldowns := by unfold put; split <;> rfl

@[simp] theorem put_now (h : SpellHistory) (k : Nat) (entry : CooldownEntry) : (h.put k entry).now = h.now := by
  unfold put; split <;> rfl

theorem find?_put (h : SpellHistory) (k : Nat) (entry : CooldownEntry) :
    ∃ serial, (h.put k entry).spellCooldowns.find? k = some ⟨serial, entry⟩ := by
  unfold put
  split
  next node _ => exact ⟨node.serial, OMap.find?_insert_self _ _ _⟩
  next => exact ⟨h.nextSerial, OMap.find?_insert_self _ _ _⟩

theorem find?_put_of_ne {k' : Nat} (hne : k' ≠ k) (h : SpellHistory) (entry : CooldownEntry) :
    (h.put k entry).spellCooldowns.find? k' = h.spellCooldowns.find? k' := by
  unfold put
  split
  · exact OMap.find?_insert_of_ne hne
  · exact OMap.find?_insert_of_ne hne

theorem deref_eq_some : h.deref p = some entry ↔ h.spellCooldowns.find? p.spellId = some ⟨p.serial, entry⟩ := by
  unfold deref
  rw [Option.bind_eq_some_iff]
  constructor
  · rintro ⟨⟨serial, e⟩, hf, he⟩
    split at he
    next hs =>
      cases he
      have hs : serial = p.serial := hs
      rw [hf, hs]
    next => cases he
  · intro hf
    exact ⟨_, hf, if_pos rfl⟩

/-- A pointer that leads to an entry leads to what is written there. -/
theorem deref_put (hp : h.deref p = some entry) (k : Nat) (e : CooldownEntry) :
    (h.put k e).deref p = some (if p.spellId = k then e else entry) := by
  rw [deref_eq_some] at hp ⊢
  split
  next hk =>
    subst hk
    rw [put, hp]
    exact OMap.find?_insert_self _ _ _
  next hk => rw [find?_put_of_ne hk, hp]

theorem deref_addressOf (hk : h.spellCooldowns.find? k = some node) : h.deref (h.addressOf k) = some node.entry := by
  rw [deref_eq_some]
  simp only [addressOf, hk, Option.map_some, Option.getD_some]

/-- No category points to the spell's cooldown, unless it is the one given. -/
def Keeps (h : SpellHistory) (spellId category : Nat) : Prop :=
  ∀ c p, h.categoryCooldowns.find? c = some p → p.spellId = spellId → c = category

theorem Live.put (hl : Live h) (hok : Keeps h k entry.categoryId) : Live (h.put k entry) where
  nonzero := by
    rw [put_categoryCooldowns]
    exact hl.nonzero
  live := by
    intro c p hp
    rw [put_categoryCooldowns] at hp
    obtain ⟨e, he, hc⟩ := hl.live c p hp
    refine ⟨_, deref_put he k entry, ?_⟩
    split
    next hk => exact (hok c p hp hk).symm
    next => exact hc

/-- `AddCooldown` keeps the categories right if the entry it writes to is not another category's. -/
theorem Coherent.addCooldown (hl : Coherent h) (hok : Keeps h entry.spellId entry.categoryId) :
    Coherent (h.addCooldown entry) := by
  obtain ⟨serial, hself⟩ := find?_put h entry.spellId entry
  have hput : Live (h.put entry.spellId entry) := hl.put hok
  have hrest : ∀ k node, (h.put entry.spellId entry).spellCooldowns.find? k = some node →
      node.entry = entry ∨ h.spellCooldowns.find? k = some node := by
    intro k node hk
    by_cases he : k = entry.spellId
    · rw [he, hself] at hk
      cases hk
      exact .inl rfl
    · rw [find?_put_of_ne he] at hk
      exact .inr hk
  unfold SpellHistory.addCooldown
  dsimp only
  split
  next hne =>
    refine ⟨⟨?_, ?_⟩, ?_⟩
    · intro c p hp
      rw [OMap.find?_insert] at hp
      split at hp
      next he => rw [he]; exact hne
      next => exact hput.nonzero c p hp
    · intro c p hp
      rw [OMap.find?_insert] at hp
      split at hp
      next he =>
        cases hp
        exact ⟨entry, deref_addressOf hself, he.symm⟩
      next => exact hput.live c p hp
    · intro k node hk hc hend
      rw [OMap.find?_insert]
      split
      · rfl
      next hother =>
      rcases hrest k node hk with he | hk
      · exact absurd (congrArg CooldownEntry.categoryId he) hother
      rw [put_now] at hend
      rw [put_categoryCooldowns]
      exact hl.reported k node hk hc hend
  next hzero =>
  refine ⟨hput, ?_⟩
  intro k node hk hc hend
  rcases hrest k node hk with he | hk
  · rw [he] at hc
    exact absurd hc hzero
  rw [put_now] at hend
  rw [put_categoryCooldowns]
  exact hl.reported k node hk hc hend

/-! ## Erasures -/

/-- The history without the cooldowns of a kind, and without the categories these have. -/
structure Erases (h h' : SpellHistory) (gone : Nat → CooldownEntry → Prop) : Prop where
  now : h'.now = h.now
  spells : ∀ k node, h'.spellCooldowns.find? k = some node ↔
    h.spellCooldowns.find? k = some node ∧ ¬ gone k node.entry
  categories : ∀ c p, h'.categoryCooldowns.find? c = some p ↔ h.categoryCooldowns.find? c = some p ∧
    ∀ k node, h.spellCooldowns.find? k = some node → gone k node.entry → node.entry.categoryId ≠ c

variable {gone gone' : Nat → CooldownEntry → Prop} {itemId schoolMask lockoutTime : Nat} {knownSpells : List Nat}

theorem eraseCooldown_erases (h : SpellHistory) (spellId : Nat) :
    Erases h (h.eraseCooldown spellId) fun k _ => k = spellId := by
  unfold eraseCooldown
  cases hk : h.spellCooldowns.find? spellId with
  | none =>
    refine ⟨rfl, fun k node => ⟨fun hf => ⟨hf, ?_⟩, fun hf => hf.1⟩, fun c p => ⟨fun hf => ⟨hf, ?_⟩, fun hf => hf.1⟩⟩
    · rintro rfl
      rw [hk] at hf
      cases hf
    · rintro k node hn rfl
      rw [hk] at hn
      cases hn
  | some node =>
    refine ⟨rfl, fun k node' => ?_, fun c p => ?_⟩
    · show (h.spellCooldowns.erase spellId).find? k = some node' ↔ _
      rw [OMap.find?_erase]
      split
      next he => exact ⟨nofun, fun hf => absurd he hf.2⟩
      next he => exact ⟨fun hf => ⟨hf, he⟩, fun hf => hf.1⟩
    · show (h.categoryCooldowns.erase node.entry.categoryId).find? c = some p ↔ _
      rw [OMap.find?_erase]
      split
      next he => exact ⟨nofun, fun hf => absurd he.symm (hf.2 spellId node hk rfl)⟩
      next he =>
      refine ⟨fun hf => ⟨hf, ?_⟩, fun hf => hf.1⟩
      rintro k node' hn rfl
      rw [hk] at hn
      cases hn
      exact Ne.symm he

theorem Erases.trans {h'' : SpellHistory} (e : Erases h h' gone)
    (e' : Erases h' h'' gone') : Erases h h'' fun k entry => gone k entry ∨ gone' k entry where
  now := e'.now.trans e.now
  spells := by
    intro k node
    rw [e'.spells, e.spells, not_or, and_assoc]
  categories := by
    intro c p
    rw [e'.categories, e.categories]
    constructor
    · rintro ⟨⟨hp, h₁⟩, h₂⟩
      refine ⟨hp, fun k node hk hg => ?_⟩
      by_cases hgone : gone k node.entry
      · exact h₁ k node hk hgone
      · exact h₂ k node ((e.spells k node).2 ⟨hk, hgone⟩) (hg.resolve_left hgone)
    · rintro ⟨hp, h₁⟩
      exact ⟨⟨hp, fun k node hk hg => h₁ k node hk (.inl hg)⟩,
        fun k node hk hg => h₁ k node ((e.spells k node).1 hk).1 (.inr hg)⟩

theorem Erases.congr (e : Erases h h' gone)
    (hg : ∀ k node, h.spellCooldowns.find? k = some node → (gone k node.entry ↔ gone' k node.entry)) :
    Erases h h' gone' where
  now := e.now
  spells := fun k node => (e.spells k node).trans (and_congr_right fun hk => not_congr (hg k node hk))
  categories := fun c p => (e.categories c p).trans
    (and_congr_right fun _ => forall₃_congr fun k node hk => by rw [hg k node hk])

/-- Each cooldown of the kind is erased, whatever the order. -/
theorem foldl_erases (predicate : Nat → CooldownEntry → Bool) (l : List (Nat × Node)) (h : SpellHistory) :
    Erases h (l.foldl (fun h e => if predicate e.1 e.2.entry then h.eraseCooldown e.1 else h) h)
      fun k _ => ∃ node, (k, node) ∈ l ∧ predicate k node.entry = true := by
  induction l generalizing h with
  | nil =>
    exact ⟨rfl, fun k node => by simp, fun c p => by simp⟩
  | cons e l ih =>
    rw [List.foldl_cons]
    split
    next hp =>
      refine ((eraseCooldown_erases h e.1).trans (ih _)).congr fun k _ _ => ?_
      constructor
      · rintro (rfl | ⟨node, hn, hp'⟩)
        · exact ⟨e.2, List.mem_cons_self, hp⟩
        · exact ⟨node, List.mem_cons_of_mem _ hn, hp'⟩
      · rintro ⟨node, hn, hp'⟩
        rcases List.mem_cons.1 hn with he | hn
        · exact .inl (congrArg Prod.fst he)
        · exact .inr ⟨node, hn, hp'⟩
    next hp =>
    refine (ih h).congr fun k _ _ => ?_
    constructor
    · rintro ⟨node, hn, hp'⟩
      exact ⟨node, List.mem_cons_of_mem _ hn, hp'⟩
    · rintro ⟨node, hn, hp'⟩
      rcases List.mem_cons.1 hn with he | hn
      · cases he
        exact absurd hp' hp
      · exact ⟨node, hn, hp'⟩

theorem eraseCooldowns_erases (h : SpellHistory) (predicate : Nat → CooldownEntry → Bool) :
    Erases h (h.eraseCooldowns predicate) fun k entry => predicate k entry = true := by
  refine (foldl_erases predicate h.spellCooldowns.entries h).congr fun k node hk => ?_
  constructor
  · rintro ⟨node', hn, hp⟩
    rw [OMap.mem_entries, hk] at hn
    cases hn
    exact hp
  · intro hp
    exact ⟨node, OMap.mem_entries.2 hk, hp⟩

/-- A category that is left points to an entry that is left. -/
theorem Live.erases (hl : Live h) (e : Erases h h' gone) : Live h' where
  nonzero := fun c p hp => hl.nonzero c p ((e.categories c p).1 hp).1
  live := by
    intro c p hp
    obtain ⟨hp, hleft⟩ := (e.categories c p).1 hp
    obtain ⟨entry, he, hc⟩ := hl.live c p hp
    refine ⟨entry, ?_, hc⟩
    rw [deref_eq_some] at he ⊢
    exact (e.spells _ _).2 ⟨he, fun hg => hleft _ _ he hg hc⟩

/-- Nothing of the kind shares its category with a cooldown that goes on. -/
def Alone (h : SpellHistory) (gone : Nat → CooldownEntry → Prop) : Prop :=
  ∀ k node, h.spellCooldowns.find? k = some node → ¬ gone k node.entry → node.entry.categoryId ≠ 0 →
    h.now < node.entry.categoryEnd → ∀ k' node', h.spellCooldowns.find? k' = some node' → gone k' node'.entry →
      node'.entry.categoryId ≠ node.entry.categoryId

theorem Coherent.erases (hl : Coherent h) (e : Erases h h' gone) (hok : Alone h gone) : Coherent h' where
  toLive := hl.toLive.erases e
  reported := by
    intro k node hk hc hend
    obtain ⟨hk, hg⟩ := (e.spells k node).1 hk
    rw [e.now] at hend
    obtain ⟨p, hp⟩ := Option.isSome_iff_exists.1 (hl.reported k node hk hc hend)
    rw [(e.categories _ p).2 ⟨hp, hok k node hk hg hc hend⟩]
    rfl

/-! ## The operations -/

theorem elapse_coherent (hl : Coherent h) (elapsed : Nat) : Coherent (h.elapse elapsed) where
  nonzero := hl.nonzero
  live := hl.live
  reported := by
    intro k node hk hc hend
    have hend : h.now + elapsed < node.entry.categoryEnd := hend
    exact hl.reported k node hk hc (by omega)

/-- What `StartCooldown` would add may be written. -/
def StartOk (stores : Stores) (h : SpellHistory) (spellId itemId : Nat) (mods : Modifiers) (onHold : Bool) : Prop :=
  ∀ entry, startedCooldown stores h.now spellId itemId mods onHold = some entry → Keeps h entry.spellId entry.categoryId

theorem Coherent.startCooldown (hl : Coherent h) {mods : Modifiers} {onHold : Bool}
    (hok : StartOk stores h spellId itemId mods onHold) : Coherent (h.startCooldown stores spellId itemId mods onHold) := by
  unfold SpellHistory.startCooldown
  split
  next entry he => exact hl.addCooldown (hok entry he)
  next => exact hl

theorem Live.categorySpell (hl : Live h) (stores : Stores) (spellId itemId : Nat) :
    ∃ other, h.categorySpell stores spellId itemId = some other := by
  unfold SpellHistory.categorySpell
  split
  · exact ⟨none, rfl⟩
  next p hp =>
  obtain ⟨entry, he, -⟩ := hl.live _ p hp
  exact ⟨_, by rw [he, Option.map_some]⟩

/-- The cooldown of the category's spell starts first, then the spell's own. -/
def SendOk (stores : Stores) (h : SpellHistory) (hasPlayerOwner : Bool) (spellId itemId : Nat) (mods : Nat → Modifiers)
    (start : Bool) : Prop :=
  start = true →
    match (if hasPlayerOwner then h.categorySpell stores spellId itemId else some none) with
    | some (some other) => StartOk stores h other itemId (mods other) false ∧
        StartOk stores (h.startCooldown stores other itemId (mods other) false) spellId itemId (mods spellId) false
    | _ => StartOk stores h spellId itemId (mods spellId) false

theorem Coherent.sendCooldownEvent (hl : Coherent h) {hasPlayerOwner start : Bool} {mods : Nat → Modifiers}
    (hok : SendOk stores h hasPlayerOwner spellId itemId mods start) :
    ∃ h', h.sendCooldownEvent stores hasPlayerOwner spellId itemId mods start = some h' ∧ Coherent h' := by
  obtain ⟨other, hother⟩ := hl.toLive.categorySpell stores spellId itemId
  unfold SpellHistory.sendCooldownEvent
  unfold SendOk at hok
  rw [hother] at hok ⊢
  cases start with
  | false => cases hasPlayerOwner <;> cases other <;> exact ⟨h, rfl, hl⟩
  | true =>
    have hok := hok rfl
    cases hasPlayerOwner with
    | false => exact ⟨_, rfl, hl.startCooldown hok⟩
    | true =>
      cases other with
      | none => exact ⟨_, rfl, hl.startCooldown hok⟩
      | some other => exact ⟨_, rfl, (hl.startCooldown hok.1).startCooldown hok.2⟩

theorem Live.keeps (hl : Live h) (hk : h.spellCooldowns.find? k = some node) : Keeps h k node.entry.categoryId := by
  rintro c p hp rfl
  obtain ⟨entry, he, hc⟩ := hl.live c p hp
  rw [deref_eq_some, hk] at he
  cases he
  exact hc.symm

/-- A write that leaves the categories alone. -/
theorem Coherent.put (hl : Coherent h) (hok : Keeps h k entry.categoryId)
    (hrep : entry.categoryId ≠ 0 → h.now < entry.categoryEnd →
      (h.categoryCooldowns.find? entry.categoryId).isSome = true) : Coherent (h.put k entry) where
  toLive := hl.toLive.put hok
  reported := by
    intro k' node hk' hc hend
    rw [put_now] at hend
    rw [put_categoryCooldowns]
    by_cases he : k' = k
    · obtain ⟨serial, hself⟩ := find?_put h k entry
      rw [he, hself] at hk'
      cases hk'
      exact hrep hc hend
    · rw [find?_put_of_ne he] at hk'
      exact hl.reported k' node hk' hc hend

/-- A cooldown that is cut to nothing is erased. -/
def ModifyOk (h : SpellHistory) (spellId : Nat) (cooldownModMs : Int) : Prop :=
  ∀ node, h.spellCooldowns.find? spellId = some node → cooldownModMs ≠ 0 →
    node.entry.cooldownEnd + cooldownModMs * millisecond ≤ h.now → Alone h fun k _ => k = spellId

theorem Coherent.modifyCooldown (hl : Coherent h) {cooldownModMs : Int} (hok : ModifyOk h spellId cooldownModMs) :
    Coherent (h.modifyCooldown spellId cooldownModMs) := by
  unfold SpellHistory.modifyCooldown
  cases hk : h.spellCooldowns.find? spellId with
  | none => exact hl
  | some node =>
    dsimp only
    split
    · exact hl
    next hne =>
    split
    next =>
      refine hl.put ?_ ?_
      · exact hl.toLive.keeps hk
      · exact hl.reported spellId node hk
    next hend => exact hl.erases (eraseCooldown_erases h spellId) (hok node hk hne (by omega))

/-- No cooldown that stays goes on in a category that `Update` removes: one whose pointer leads to an entry with an
earlier category end, or one of a cooldown that is over. -/
def UpdateOk (h : SpellHistory) : Prop :=
  ∀ k node, h.spellCooldowns.find? k = some node → h.now ≤ node.entry.cooldownEnd → node.entry.categoryId ≠ 0 →
    h.now < node.entry.categoryEnd →
      (∀ p entry, h.categoryCooldowns.find? node.entry.categoryId = some p → h.deref p = some entry →
        h.now ≤ entry.categoryEnd) ∧
      ∀ k' node', h.spellCooldowns.find? k' = some node' → node'.entry.cooldownEnd < h.now →
        node'.entry.categoryId ≠ node.entry.categoryId

theorem Live.updateCategories (hl : Live h) : ∃ h', h.updateCategories = some h' ∧ h'.now = h.now ∧
    h'.spellCooldowns = h.spellCooldowns ∧ ∀ c p, h'.categoryCooldowns.find? c = some p ↔
      h.categoryCooldowns.find? c = some p ∧ ∀ entry, h.deref p = some entry → h.now ≤ entry.categoryEnd := by
  have hall : (h.categoryCooldowns.entries.all fun e => (h.deref e.2).isSome) = true := by
    rw [List.all_eq_true]
    rintro ⟨c, p⟩ hmem
    obtain ⟨entry, he, -⟩ := hl.live c p (OMap.mem_entries.1 hmem)
    rw [he]
    rfl
  unfold SpellHistory.updateCategories
  refine ⟨_, if_pos hall, rfl, rfl, fun c p => ?_⟩
  rw [OMap.find?_filterMap, Option.bind_eq_some_iff]
  constructor
  · rintro ⟨p', hp', hs⟩
    split at hs
    · cases hs
    next hend =>
    cases hs
    refine ⟨hp', fun entry he => ?_⟩
    rw [he, Option.any_some, decide_eq_true_eq] at hend
    exact not_lt.1 hend
  · rintro ⟨hp, hend⟩
    refine ⟨p, hp, if_neg ?_⟩
    obtain ⟨entry, he, -⟩ := hl.live c p hp
    rw [he, Option.any_some, decide_eq_true_eq]
    exact not_lt.2 (hend entry he)

theorem Coherent.update (hl : Coherent h) (hok : UpdateOk h) : ∃ h', h.update = some h' ∧ Coherent h' := by
  obtain ⟨h₁, hu, hnow, hspells, hcat⟩ := hl.toLive.updateCategories
  have hderef : ∀ p, h₁.deref p = h.deref p := fun p => by rw [deref, deref, hspells]
  have hlive : Live h₁ := by
    refine ⟨fun c p hp => hl.nonzero c p ((hcat c p).1 hp).1, fun c p hp => ?_⟩
    rw [hderef]
    exact hl.live c p ((hcat c p).1 hp).1
  have e := eraseCooldowns_erases h₁ fun _ entry => entry.cooldownEnd < h₁.now
  refine ⟨_, by rw [SpellHistory.update, hu, Option.map_some], hlive.erases e, ?_⟩
  intro k node hk hc hend
  obtain ⟨hk, hg⟩ := (e.spells k node).1 hk
  rw [e.now, hnow] at hend
  rw [hspells] at hk
  rw [decide_eq_true_eq, hnow, not_lt] at hg
  obtain ⟨hptr, hover⟩ := hok k node hk hg hc hend
  obtain ⟨p, hp⟩ := Option.isSome_iff_exists.1 (hl.reported k node hk hc hend)
  have hp₁ := (hcat _ p).2 ⟨hp, fun entry he => hptr p entry hp he⟩
  refine Option.isSome_iff_exists.2 ⟨p, (e.categories _ p).2 ⟨hp₁, fun k' node' hk' hg' => ?_⟩⟩
  rw [hspells] at hk'
  rw [decide_eq_true_eq, hnow] at hg'
  exact hover k' node' hk' hg'

theorem Live.getRemainingCooldown (hl : Live h) (stores : Stores) (spellId : Nat) :
    ∃ left, h.getRemainingCooldown stores spellId = some left := by
  unfold SpellHistory.getRemainingCooldown
  split
  · exact ⟨_, rfl⟩
  split
  · exact ⟨_, rfl⟩
  next p hp =>
  obtain ⟨entry, he, -⟩ := hl.live _ p hp
  exact ⟨_, by rw [he, Option.map_some]⟩

/-- No category points to the cooldown of a spell that is locked. -/
def LockOk (stores : Stores) (h : SpellHistory) (schoolMask lockoutTime : Nat) (knownSpells : List Nat) : Prop :=
  ∀ spellId ∈ knownSpells, lockable stores schoolMask spellId = true →
    (∀ left, h.getRemainingCooldown stores spellId = some left → left < lockoutTime) → Keeps h spellId 0

/-- The categories and what they point to are as before. -/
structure SameCategories (h h' : SpellHistory) : Prop where
  now : h'.now = h.now
  categories : h'.categoryCooldowns = h.categoryCooldowns
  spells : ∀ c p, h.categoryCooldowns.find? c = some p →
    h'.spellCooldowns.find? p.spellId = h.spellCooldowns.find? p.spellId

theorem lockSpell_coherent {h₀ : SpellHistory}
    (hok : LockOk stores h₀ schoolMask lockoutTime knownSpells) (hmem : spellId ∈ knownSpells) (hl : Coherent h)
    (hsame : SameCategories h₀ h) :
    ∃ h', lockSpell stores schoolMask lockoutTime h spellId = some h' ∧ Coherent h' ∧ SameCategories h₀ h' := by
  unfold lockSpell
  split
  next hlock =>
    obtain ⟨left, hleft⟩ := hl.toLive.getRemainingCooldown stores spellId
    rw [hleft, Option.map_some]
    split
    next hlt =>
      have hkeeps : Keeps h spellId 0 := by
        intro c p hp hid
        rw [hsame.categories] at hp
        -- the entry is as before the lock, so the spell was one to be locked then
        have hf := hsame.spells c p hp
        rw [hid] at hf
        refine hok spellId hmem hlock (fun left' hleft' => ?_) c p hp hid
        obtain ⟨entry, he, -⟩ := hl.live c p (by rw [hsame.categories]; exact hp)
        rw [deref_eq_some, hid] at he
        rw [SpellHistory.getRemainingCooldown, he] at hleft
        rw [SpellHistory.getRemainingCooldown, ← hf, he] at hleft'
        cases hleft
        cases hleft'
        rw [remaining, hsame.now] at hlt
        exact hlt
      refine ⟨_, rfl, hl.addCooldown hkeeps, ?_⟩
      have hnone : ∀ c p, h₀.categoryCooldowns.find? c = some p → p.spellId ≠ spellId := by
        intro c p hp hid
        rw [← hsame.categories] at hp
        exact hl.nonzero c p hp (hkeeps c p hp hid)
      rw [SpellHistory.addCooldown, if_neg (by simp)]
      exact ⟨(put_now _ _ _).trans hsame.now, (put_categoryCooldowns _ _ _).trans hsame.categories, fun c p hp =>
        (find?_put_of_ne (hnone c p hp) _ _).trans (hsame.spells c p hp)⟩
    next => exact ⟨h, rfl, hl, hsame⟩
  next => exact ⟨h, rfl, hl, hsame⟩

theorem foldlM_lockSpell {h₀ : SpellHistory} {schoolMask lockoutTime : Nat} {knownSpells : List Nat}
    (hok : LockOk stores h₀ schoolMask lockoutTime knownSpells) : ∀ (l : List Nat) {h : SpellHistory}, l ⊆ knownSpells →
      Coherent h → SameCategories h₀ h →
      ∃ h', l.foldlM (lockSpell stores schoolMask lockoutTime) h = some h' ∧ Coherent h'
  | [], h, _, hl, _ => ⟨h, rfl, hl⟩
  | spellId :: l, h, hsub, hl, hsame => by
    obtain ⟨h₁, hs, hl₁, hsame₁⟩ := lockSpell_coherent hok (hsub List.mem_cons_self) hl hsame
    obtain ⟨h', hf, hl'⟩ := foldlM_lockSpell hok l (fun x hx => hsub (List.mem_cons_of_mem _ hx)) hl₁ hsame₁
    exact ⟨h', by rw [List.foldlM_cons, hs]; exact hf, hl'⟩

theorem Coherent.lockSpellSchool (hl : Coherent h) (hok : LockOk stores h schoolMask lockoutTime knownSpells) :
    ∃ h', h.lockSpellSchool stores schoolMask lockoutTime knownSpells = some h' ∧ Coherent h' :=
  @foldlM_lockSpell _ { h with schoolLockouts := _ } _ _ _ hok knownSpells _ (fun _ hx => hx)
    ⟨⟨hl.nonzero, hl.live⟩, hl.reported⟩ ⟨rfl, rfl, fun _ _ _ => rfl⟩

/-- Each row, when its turn comes, may be written. -/
def LoadOk (stores : Stores) : List CooldownEntry → SpellHistory → Prop
  | [], _ => True
  | row :: rows, h =>
    if stores.loaded row.spellId then
      Keeps h row.spellId row.categoryId ∧ LoadOk stores rows (h.addCooldown { row with onHold := false })
    else LoadOk stores rows h

theorem Coherent.loadFromDB : ∀ {rows : List CooldownEntry} {h : SpellHistory}, Coherent h → LoadOk stores rows h →
    Coherent (h.loadFromDB stores rows)
  | [], _, hl, _ => hl
  | row :: rows, h, hl, hok => by
    unfold LoadOk at hok
    rw [SpellHistory.loadFromDB, List.foldl_cons]
    split at hok
    next hloaded =>
      rw [if_pos hloaded]
      exact Coherent.loadFromDB (hl.addCooldown hok.1) hok.2
    next hloaded =>
    rw [if_neg hloaded]
    exact Coherent.loadFromDB hl hok

/-- An entry from before the duel may be written back: `RestoreCooldownStateAfterDuel` leaves the categories alone. -/
def RestoreOk (h : SpellHistory) (k : Nat) (entry : CooldownEntry) : Prop :=
  entry.onHold = false → (∀ node, h.spellCooldowns.find? k = some node → node.entry.onHold = false) →
    Keeps h k entry.categoryId ∧ (entry.categoryId ≠ 0 → h.now < entry.categoryEnd →
      (h.categoryCooldowns.find? entry.categoryId).isSome = true)

theorem foldl_restoreEntry : ∀ {l : List (Nat × CooldownEntry)} {h : SpellHistory}, (l.map Prod.fst).Nodup → Coherent h →
    (∀ e ∈ l, RestoreOk h e.1 e.2) → Coherent (l.foldl restoreEntry h)
  | [], _, _, hl, _ => hl
  | e :: l, h, hnodup, hl, hok => by
    rw [List.map_cons, List.nodup_cons] at hnodup
    rw [List.foldl_cons]
    have hrest : ∀ e' ∈ l, RestoreOk h e'.1 e'.2 := fun e' he' => hok e' (List.mem_cons_of_mem _ he')
    unfold restoreEntry
    split
    next hw =>
      rw [Bool.and_eq_true, Bool.not_eq_true', Bool.not_eq_true'] at hw
      obtain ⟨hkeeps, hrep⟩ := hok e List.mem_cons_self hw.1 (fun node hk => by rw [hk] at hw; exact hw.2)
      refine foldl_restoreEntry hnodup.2 (hl.put hkeeps hrep) fun e' he' hhold hcur => ?_
      have hne : e'.1 ≠ e.1 := fun heq => hnodup.1 (heq ▸ List.mem_map_of_mem he')
      rw [find?_put_of_ne hne] at hcur
      rw [put_now, put_categoryCooldowns]
      refine ⟨?_, (hrest e' he' hhold hcur).2⟩
      intro c p hp
      rw [put_categoryCooldowns] at hp
      exact (hrest e' he' hhold hcur).1 c p hp
    next => exact foldl_restoreEntry hnodup.2 hl hrest

theorem Coherent.restoreCooldownStateAfterDuel (hl : Coherent h)
    (hok : ∀ k entry, (h.beforeDuel stores).find? k = some entry → RestoreOk h k entry) :
    Coherent (h.restoreCooldownStateAfterDuel stores) :=
  foldl_restoreEntry (h.beforeDuel stores).nodup_keys ⟨⟨hl.nonzero, hl.live⟩, hl.reported⟩
    fun e he => hok e.1 e.2 (OMap.mem_entries.1 he)

end AtlasWow.Spells
