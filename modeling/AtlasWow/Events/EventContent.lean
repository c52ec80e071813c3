/-
The content of the world while a list of events is active (`during`): base data,
and behind them what each event gives. Starting the events one after the other
in the order of their ids leads there (`content_startAll`). One start or stop
leads there exactly if it is clean: `StartsCleanly` and `StopsCleanly` say for
each kind of content when that is.
-/
import AtlasWow.Events.GameEventMgr

namespace AtlasWow.Events

open World

variable {t : GameEvents} {base s : World} {active : List Nat} {e : Nat}

/-- Quest relations, vendor lists, creature data and flags. -/
structure Content where
  creatureQuests : Nat → List Nat
  gameObjectQuests : Nat → List Nat
  vendorItems : Nat → List VendorItem
  creatureData : Nat → Option CreatureData
  creatures : List Creature

def World.content (s : World) : Content :=
  ⟨s.creatureQuestRelations, s.gameObjectQuestRelations, s.vendorItems, s.creatureData, s.creatures⟩

/-! ## The tables of the events -/

/-- What events give to one key, in their order. -/
def given {α : Type} (l : Nat → List (Nat × α)) (es : List Nat) (k : Nat) : List α := es.flatMap fun e => valuesOf k (l e)

variable {α : Type} {es : List Nat} {spawnId : Nat}

@[simp] theorem given_nil (l : Nat → List (Nat × α)) (k : Nat) : given l [] k = [] := rfl

theorem given_append (l : Nat → List (Nat × α)) (es es' : List Nat) (k : Nat) :
    given l (es ++ es') k = given l es k ++ given l es' k := List.flatMap_append

theorem given_cons (l : Nat → List (Nat × α)) (e : Nat) (es : List Nat) (k : Nat) :
    given l (e :: es) k = valuesOf k (l e) ++ given l es k := rfl

theorem mem_given {l : Nat → List (Nat × α)} {k : Nat} {a : α} : a ∈ given l es k ↔ ∃ e ∈ es, (k, a) ∈ l e := by
  simp only [given, List.mem_flatMap, mem_valuesOf]

def GameEvents.sold (t : GameEvents) (e : Nat) : List (Nat × VendorItem) :=
  (t.vendors e).map fun v => (v.entry, vendorItem v)

/-- The data an event gives to creatures. -/
def World.wanted (s : World) (e : Nat) : List (Nat × CreatureData) :=
  (s.modelEquip e).map fun p => (p.1, ⟨p.2.modelid, p.2.equipmentId⟩)

/-- The data it has saved of them. -/
def World.saved (s : World) (e : Nat) : List (Nat × CreatureData) :=
  (s.modelEquip e).map fun p => (p.1, ⟨p.2.modelidPrev, p.2.equipementIdPrev⟩)

def GameEvents.lists (t : GameEvents) (es : List Nat) (spawnId : Nat) : Bool :=
  es.any fun e => (t.npcFlags e).any (·.1 = spawnId)

/-- `GetNPCFlag` while the events are active. -/
def GameEvents.flags (t : GameEvents) (es : List Nat) (spawnId : Nat) : Nat :=
  es.foldl (fun mask e => (t.npcFlags e).foldl (fun mask f => if f.1 = spawnId then mask ||| f.2 else mask) mask) 0

/-- A creature with the flags of its template and of the events. -/
def flagged (t : GameEvents) (es : List Nat) (c : Creature) : Creature :=
  { c with npcFlags := t.flags es c.spawnId ||| (t.templateFlags c.entry).getD 0 }

theorem flags_unlisted {l : List (Nat × Nat)} (h : l.any (·.1 = spawnId) = false) (mask : Nat) :
    l.foldl (fun mask f => if f.1 = spawnId then mask ||| f.2 else mask) mask = mask := by
  induction l with
  | nil => rfl
  | cons f l ih =>
    rw [List.any_cons, Bool.or_eq_false_iff, decide_eq_false_iff_not] at h
    rw [List.foldl_cons, if_neg h.1]
    exact ih h.2

theorem flags_of_not_lists (h : t.lists es spawnId = false) : t.flags es spawnId = 0 := by
  unfold GameEvents.flags
  generalize 0 = mask
  induction es with
  | nil => rfl
  | cons e es ih =>
    rw [GameEvents.lists, List.any_cons, Bool.or_eq_false_iff] at h
    rw [List.foldl_cons, flags_unlisted h.1]
    exact ih h.2

/-- An event that lists no creature of the spawn makes no difference to its flags. -/
theorem flags_insert {es' : List Nat} (h : t.lists [e] spawnId = false) :
    t.flags (es ++ e :: es') spawnId = t.flags (es ++ es') spawnId := by
  rw [GameEvents.lists, List.any_cons, Bool.or_eq_false_iff] at h
  rw [GameEvents.flags, GameEvents.flags, List.foldl_append, List.foldl_append, List.foldl_cons, flags_unlisted h.1]

/-! ## The content during events -/

def creatureDuring (t : GameEvents) (base : World) (es : List Nat) (c : Creature) : Creature :=
  if t.lists es c.spawnId && (base.creatureData c.spawnId).isSome then flagged t es c else c

def dataDuring (base : World) (es : List Nat) (spawnId : Nat) : Option CreatureData :=
  (base.creatureData spawnId).map fun d => (given base.wanted es spawnId).getLast?.getD d

/-- The content of the world while events are active: what the base has, and then what they give, in their order. -/
def during (t : GameEvents) (base : World) (es : List Nat) : Content where
  creatureQuests npc := base.creatureQuestRelations npc ++ given t.creatureQuests es npc
  gameObjectQuests go := base.gameObjectQuestRelations go ++ given t.gameObjectQuests es go
  vendorItems entry := base.vendorItems entry ++ given t.sold es entry
  creatureData := dataDuring base es
  creatures := base.creatures.map (creatureDuring t base es)

theorem during_nil (t : GameEvents) (base : World) : during t base [] = base.content := by
  have hdata : dataDuring base [] = base.creatureData := by
    funext spawnId
    exact congrFun (@Option.map_id CreatureData) _
  unfold during content
  rw [hdata]
  simp only [given_nil, List.append_nil, Content.mk.injEq, true_and]
  exact List.map_id'' (fun _ => rfl) _

/-! ## The parts of a start and a stop -/

/-- Stopping erases the quests that no other active event has. -/
theorem updateRelations_false (held : Nat → Bool) (quests : List (Nat × Nat)) : ∀ relations : Nat → List Nat,
    updateRelations held false relations quests = eraseAll relations (quests.filter fun r => !held r.2) := by
  induction quests with
  | nil => exact fun _ => rfl
  | cons r quests ih =>
    intro relations
    rw [List.filter_cons]
    refine (ih _).trans ?_
    beta_reduce
    cases hheld : held r.2 with
    | true => rfl
    | false => rfl

theorem vendors_true (l : List NPCVendorEntry) : ∀ items : Nat → List VendorItem,
    l.foldl (fun items v => if true then addVendorItem items v else removeVendorItem items v.entry v.item) items =
      appendAll items (l.map fun v => (v.entry, vendorItem v)) := by
  induction l with
  | nil => exact fun _ => rfl
  | cons v l ih => exact fun items => ih _

theorem vendors_false (l : List NPCVendorEntry) : ∀ items : Nat → List VendorItem,
    l.foldl (fun items v => if false then addVendorItem items v else removeVendorItem items v.entry v.item) items =
      removeAll (·.item) items (l.map fun v => (v.entry, v.item)) := by
  induction l with
  | nil => exact fun _ => rfl
  | cons v l ih => exact fun items => ih _

theorem changeAll_true (l : List (Nat × ModelEquip)) : ∀ data : Nat → Option CreatureData,
    (changeAll true data l).1 = overwriteAll data (l.map fun p => (p.1, ⟨p.2.modelid, p.2.equipmentId⟩)) ∧
      (changeAll true data l).2.map (fun p => (p.1, (⟨p.2.modelid, p.2.equipmentId⟩ : CreatureData))) =
        l.map fun p => (p.1, ⟨p.2.modelid, p.2.equipmentId⟩) := by
  induction l with
  | nil => exact fun _ => ⟨rfl, rfl⟩
  | cons p l ih =>
    intro data
    obtain ⟨hdata, hl⟩ := ih (changeOne true data p).1
    rw [changeAll]
    refine ⟨hdata.trans ?_, ?_⟩
    · rw [List.map_cons, overwriteAll_cons, changeOne]
      cases data p.1 with
      | none => rfl
      | some d => rfl
    · rw [List.map_cons, List.map_cons, hl, changeOne]
      cases data p.1 with
      | none => rfl
      | some d => rfl

theorem changeAll_false (l : List (Nat × ModelEquip)) : ∀ data : Nat → Option CreatureData,
    (changeAll false data l).1 = overwriteAll data (l.map fun p => (p.1, ⟨p.2.modelidPrev, p.2.equipementIdPrev⟩)) ∧
      (changeAll false data l).2 = l := by
  induction l with
  | nil => exact fun _ => ⟨rfl, rfl⟩
  | cons p l ih =>
    intro data
    obtain ⟨hdata, hl⟩ := ih (changeOne false data p).1
    rw [changeAll]
    refine ⟨hdata.trans ?_, ?_⟩
    · rw [List.map_cons, overwriteAll_cons, changeOne]
      cases data p.1 with
      | none => rfl
      | some d => rfl
    · rw [hl, changeOne]
      cases data p.1 with
      | none => rfl
      | some d => rfl

/-- A creature after the flags of the listed ones are written, with `es` active. -/
def reflagged (t : GameEvents) (es : List Nat) (data : Nat → Option CreatureData) (e : Nat) (c : Creature) : Creature :=
  if t.lists [e] c.spawnId && (data c.spawnId).isSome then flagged t es c else c

theorem creatures_updateEventNPCFlags (t : GameEvents) (s : World) (e : Nat) :
    (updateEventNPCFlags t s e).creatures = s.creatures.map (reflagged t s.activeEvents s.creatureData e) := by
  refine List.map_congr_left fun c _ => ?_
  rw [reflagged, GameEvents.lists, List.any_cons, List.any_nil, Bool.or_false]
  rfl

/-- What a start makes of each part. -/
theorem content_startEvent (t : GameEvents) (s : World) (e : Nat) : (startEvent t s e).content =
    { creatureQuests := appendAll s.creatureQuestRelations (t.creatureQuests e)
      gameObjectQuests := appendAll s.gameObjectQuestRelations (t.gameObjectQuests e)
      vendorItems := appendAll s.vendorItems (t.sold e)
      creatureData := overwriteAll s.creatureData (s.wanted e)
      creatures := s.creatures.map
        (reflagged t (insertActive e s.activeEvents) (overwriteAll s.creatureData (s.wanted e)) e) } := by
  have hdata := (changeAll_true (s.modelEquip e) s.creatureData).1
  rw [content, Content.mk.injEq]
  refine ⟨rfl, rfl, vendors_true _ _, hdata, ?_⟩
  refine (creatures_updateEventNPCFlags t _ e).trans ?_
  exact congrArg (fun data => s.creatures.map (reflagged t (insertActive e s.activeEvents) data e)) hdata

/-- What a stop makes of each part. -/
theorem content_stopEvent (t : GameEvents) (s : World) (e : Nat) : (stopEvent t s e).content =
    { creatureQuests := eraseAll s.creatureQuestRelations ((t.creatureQuests e).filter fun r =>
        !hasCreatureQuestActiveEventExcept t (s.removeActiveEvent e) r.2 e)
      gameObjectQuests := eraseAll s.gameObjectQuestRelations ((t.gameObjectQuests e).filter fun r =>
        !hasGameObjectQuestActiveEventExcept t (s.removeActiveEvent e) r.2 e)
      vendorItems := removeAll (·.item) s.vendorItems ((t.vendors e).map fun v => (v.entry, v.item))
      creatureData := overwriteAll s.creatureData (s.saved e)
      creatures := s.creatures.map
        (reflagged t (s.activeEvents.filter (· ≠ e)) (overwriteAll s.creatureData (s.saved e)) e) } := by
  have hdata := (changeAll_false (s.modelEquip e) s.creatureData).1
  rw [content, Content.mk.injEq]
  refine ⟨updateRelations_false (fun quest => hasCreatureQuestActiveEventExcept t (s.removeActiveEvent e) quest e) _ _,
    updateRelations_false (fun quest => hasGameObjectQuestActiveEventExcept t (s.removeActiveEvent e) quest e) _ _,
    vendors_false _ _, hdata, ?_⟩
  refine (creatures_updateEventNPCFlags t _ e).trans ?_
  exact congrArg (fun data => s.creatures.map (reflagged t (s.activeEvents.filter (· ≠ e)) data e)) hdata

/-- What the events want of creatures is never changed. -/
theorem wanted_startEvent (t : GameEvents) (s : World) (e e' : Nat) : (startEvent t s e).wanted e' = s.wanted e' := by
  by_cases h : e' = e
  · subst h
    have hl := (changeAll_true (s.modelEquip e') s.creatureData).2
    show (Function.update s.modelEquip e' _ e').map _ = _
    rw [Function.update_self]
    exact hl
  show (Function.update s.modelEquip e _ e').map _ = _
  rw [Function.update_of_ne h]
  rfl

theorem wanted_stopEvent (t : GameEvents) (s : World) (e e' : Nat) : (stopEvent t s e).wanted e' = s.wanted e' := by
  by_cases h : e' = e
  · subst h
    have hl := (changeAll_false (s.modelEquip e') s.creatureData).2
    show (Function.update s.modelEquip e' _ e').map _ = _
    rw [Function.update_self]
    exact congrArg _ hl
  show (Function.update s.modelEquip e _ e').map _ = _
  rw [Function.update_of_ne h]
  rfl

end AtlasWow.Events
