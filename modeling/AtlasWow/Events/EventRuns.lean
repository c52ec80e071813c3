/-
Runs of starts and stops. After each of them the content of the world is what
the active events make of the base data, started in the order of their ids,
exactly as long as every start and stop is clean.

A start is not clean where a later event (one with a greater id) is active that
gives other things to the same key: they come in another order, or the model of
the wrong event shows. A stop is not clean where another active event still
needs a quest, where the base data or another active event sells an item that is
taken away, where the model saved is not the one to go back to, or where a
creature's own flags were not those of its template.
-/
import AtlasWow.Events.EventContent
import Mathlib.Data.List.Induction
import Mathlib.Order.Nat

namespace AtlasWow.Events

open World

variable {t : GameEvents} {base s : World} {active : List Nat} {e : Nat}

/-! ## Sets of events -/

def earlier (e : Nat) (active : List Nat) : List Nat := active.filter (· < e)
def later (e : Nat) (active : List Nat) : List Nat := active.filter (e < ·)

theorem filter_lt_eq_nil {l : List Nat} (h : ∀ a ∈ l, e < a) : earlier e l = [] ∧ later e l = l :=
  ⟨List.filter_eq_nil_iff.2 fun a ha => by simpa using le_of_lt (h a ha), List.filter_eq_self.2 fun a ha => by simpa using h a ha⟩

theorem eq_earlier_later (hsorted : active.Pairwise (· < ·)) (he : e ∉ active) : active = earlier e active ++ later e active := by
  induction active with
  | nil => rfl
  | cons a active ih =>
    obtain ⟨ha, hsorted⟩ := List.pairwise_cons.1 hsorted
    rw [List.mem_cons, not_or] at he
    rcases Nat.lt_or_ge e a with hlt | hge
    · obtain ⟨h₁, h₂⟩ := filter_lt_eq_nil (l := a :: active) (e := e) fun b hb => by
        rcases List.mem_cons.1 hb with rfl | hb
        · exact hlt
        · exact lt_trans hlt (ha b hb)
      rw [h₁, h₂, List.nil_append]
    have hlt : a < e := lt_of_le_of_ne hge (Ne.symm he.1)
    have hfirst : earlier e (a :: active) = a :: earlier e active := List.filter_cons_of_pos (decide_eq_true hlt)
    have hlast : later e (a :: active) = later e active := List.filter_cons_of_neg (by simpa using hge)
    rw [hfirst, hlast, List.cons_append, ← ih hsorted he.2]

theorem eq_earlier_cons_later (hsorted : active.Pairwise (· < ·)) (he : e ∈ active) :
    active = earlier e active ++ e :: later e active := by
  induction active with
  | nil => cases he
  | cons a active ih =>
    obtain ⟨ha, hsorted⟩ := List.pairwise_cons.1 hsorted
    rcases List.mem_cons.1 he with rfl | he
    · obtain ⟨h₁, h₂⟩ := filter_lt_eq_nil ha
      have hfirst : earlier e (e :: active) = earlier e active := List.filter_cons_of_neg (by simp)
      have hlast : later e (e :: active) = later e active := List.filter_cons_of_neg (by simp)
      rw [hfirst, hlast, h₁, h₂, List.nil_append]
    have hlt : a < e := ha e he
    have hfirst : earlier e (a :: active) = a :: earlier e active := List.filter_cons_of_pos (decide_eq_true hlt)
    have hlast : later e (a :: active) = later e active := List.filter_cons_of_neg (by simpa using le_of_lt hlt)
    rw [hfirst, hlast, List.cons_append, ← ih hsorted he]

theorem filter_ne_eq (hsorted : active.Pairwise (· < ·)) (he : e ∈ active) :
    active.filter (· ≠ e) = earlier e active ++ later e active := by
  have hlo : (earlier e active).filter (· ≠ e) = earlier e active := List.filter_eq_self.2 fun a ha => by
    have := of_decide_eq_true (List.mem_filter.1 ha).2
    exact decide_eq_true (by omega)
  have hhi : (later e active).filter (· ≠ e) = later e active := List.filter_eq_self.2 fun a ha => by
    have := of_decide_eq_true (List.mem_filter.1 ha).2
    exact decide_eq_true (by omega)
  conv_lhs => rw [eq_earlier_cons_later hsorted he]
  rw [List.filter_append, List.filter_cons_of_neg (by simp), hlo, hhi]

theorem pairwise_insertActive (hsorted : active.Pairwise (· < ·)) (e : Nat) : (insertActive e active).Pairwise (· < ·) := by
  refine List.pairwise_append.2 ⟨hsorted.filter _, List.pairwise_cons.2 ⟨fun a ha => ?_, hsorted.filter _⟩, fun a ha b hb => ?_⟩
  · exact of_decide_eq_true (List.mem_filter.1 ha).2
  · have ha := of_decide_eq_true (List.mem_filter.1 ha).2
    rcases List.mem_cons.1 hb with rfl | hb
    · exact ha
    · exact lt_trans ha (of_decide_eq_true (List.mem_filter.1 hb).2)

/-! ## Clean starts and stops -/

/-- When a start leads to what the active events make of the base data. -/
structure StartsCleanly (t : GameEvents) (base : World) (active : List Nat) (e : Nat) : Prop where
  /-- What later events give to the giver and what this one gives may come in either order. -/
  creatureQuests : ∀ npc, given t.creatureQuests (later e active) npc ++ valuesOf npc (t.creatureQuests e) =
    valuesOf npc (t.creatureQuests e) ++ given t.creatureQuests (later e active) npc
  gameObjectQuests : ∀ go, given t.gameObjectQuests (later e active) go ++ valuesOf go (t.gameObjectQuests e) =
    valuesOf go (t.gameObjectQuests e) ++ given t.gameObjectQuests (later e active) go
  vendorItems : ∀ entry, given t.sold (later e active) entry ++ valuesOf entry (t.sold e) =
    valuesOf entry (t.sold e) ++ given t.sold (later e active) entry
  /-- No later event wants other data for a creature. -/
  creatureData : ∀ spawnId, (base.creatureData spawnId).isSome → ∀ d ∈ (valuesOf spawnId (base.wanted e)).getLast?,
    ∀ d' ∈ (given base.wanted (later e active) spawnId).getLast?, d = d'

/-- When the quests of an event are taken back: no other active event has one of them, and erasing them leaves what stood
before them as it was. -/
def QuestsTakenBack (l : Nat → List (Nat × Nat)) (relations : Nat → List Nat) (active : List Nat) (e : Nat) : Prop :=
  (∀ r ∈ l e, ∀ e' ∈ active, e' ≠ e → ∀ npc, (npc, r.2) ∉ l e') ∧
    ∀ npc, (relations npc ++ given l (earlier e active) npc ++ valuesOf npc (l e)).diff (valuesOf npc (l e)) =
      relations npc ++ given l (earlier e active) npc

/-- When a stop leads to what the other active events make of the base data. -/
structure StopsCleanly (t : GameEvents) (base s : World) (e : Nat) : Prop where
  creatureQuests : QuestsTakenBack t.creatureQuests base.creatureQuestRelations s.activeEvents e
  gameObjectQuests : QuestsTakenBack t.gameObjectQuests base.gameObjectQuestRelations s.activeEvents e
  /-- No item that is taken away is sold there otherwise. -/
  vendorItems : ∀ v ∈ t.vendors e, (∀ i ∈ base.vendorItems v.entry, i.item ≠ v.item) ∧
    ∀ e' ∈ s.activeEvents, e' ≠ e → ∀ v' ∈ t.vendors e', v'.entry = v.entry → v'.item ≠ v.item
  /-- The data saved last are those to go back to. -/
  creatureData : ∀ spawnId, (base.creatureData spawnId).isSome → ∀ d ∈ (valuesOf spawnId (s.saved e)).getLast?,
    dataDuring base (s.activeEvents.filter (· ≠ e)) spawnId = some d
  /-- A creature that no other active event gives flags had those of its template. -/
  creatures : ∀ c ∈ base.creatures, (base.creatureData c.spawnId).isSome → t.lists [e] c.spawnId = true →
    t.lists (s.activeEvents.filter (· ≠ e)) c.spawnId = false → c.npcFlags = (t.templateFlags c.entry).getD 0

def Cleanly (t : GameEvents) (base : World) (r : Request) (s : World) : Prop :=
  match r with
  | .startEvent e => e ∉ s.activeEvents → StartsCleanly t base s.activeEvents e
  | .stopEvent e => e ∈ s.activeEvents → StopsCleanly t base s e

/-! ## One kind of content at a time -/

theorem lists_append (es es' : List Nat) (spawnId : Nat) :
    t.lists (es ++ es') spawnId = (t.lists es spawnId || t.lists es' spawnId) := List.any_append

theorem lists_insert (es es' : List Nat) (spawnId : Nat) :
    t.lists (es ++ e :: es') spawnId = (t.lists [e] spawnId || t.lists (es ++ es') spawnId) := by
  rw [lists_append, lists_append, ← List.singleton_append, lists_append]
  cases t.lists es spawnId <;> simp

theorem appended_iff {α : Type} (l : Nat → List (Nat × α)) (b : Nat → List α) (es es' : List Nat) (e : Nat) :
    appendAll (fun k => b k ++ given l (es ++ es') k) (l e) = (fun k => b k ++ given l (es ++ e :: es') k) ↔
      ∀ k, given l es' k ++ valuesOf k (l e) = valuesOf k (l e) ++ given l es' k := by
  rw [funext_iff]
  refine forall_congr' fun k => ?_
  rw [appendAll_apply, given_append, given_append, given_cons]
  simp only [List.append_assoc, List.append_cancel_left_eq]

theorem held_iff {l : Nat → List (Nat × Nat)} {quest : Nat} :
    hasQuestActiveEventExcept l s quest e = false ↔ ∀ e' ∈ s.activeEvents, e' ≠ e → ∀ npc, (npc, quest) ∉ l e' := by
  rw [hasQuestActiveEventExcept, List.any_eq_false]
  refine forall₂_congr fun e' _ => ?_
  rw [Bool.and_eq_true, not_and, decide_eq_true_eq, List.any_eq_true]
  refine imp_congr_right fun _ => ?_
  constructor
  · exact fun h npc hmem => h ⟨_, hmem, decide_eq_true rfl⟩
  · rintro h ⟨⟨npc, q⟩, hmem, hq⟩
    have hq : q = quest := of_decide_eq_true hq
    exact h npc (hq ▸ hmem)

/-- The quests of an event are taken back. -/
theorem erased_iff (l : Nat → List (Nat × Nat)) (b : Nat → List Nat) (hsorted : s.activeEvents.Pairwise (· < ·))
    (he : e ∈ s.activeEvents) :
    eraseAll (fun k => b k ++ given l s.activeEvents k)
        ((l e).filter fun r => !hasQuestActiveEventExcept l (s.removeActiveEvent e) r.2 e) =
      (fun k => b k ++ given l (s.activeEvents.filter (· ≠ e)) k) ↔ QuestsTakenBack l b s.activeEvents e := by
  have hheld : ∀ {quest}, (!hasQuestActiveEventExcept l (s.removeActiveEvent e) quest e) = true ↔
      ∀ e' ∈ s.activeEvents, e' ≠ e → ∀ npc, (npc, quest) ∉ l e' := by
    intro quest
    rw [Bool.not_eq_true', held_iff]
    refine forall_congr' fun e' => ?_
    rw [removeActiveEvent, List.mem_filter, decide_eq_true_eq]
    exact ⟨fun h h₁ h₂ => h ⟨h₁, h₂⟩ h₂, fun h h₁ h₂ => h h₁.1 h₂⟩
  have hgiven : (fun k => b k ++ given l s.activeEvents k) =
      fun k => b k ++ given l (earlier e s.activeEvents ++ e :: later e s.activeEvents) k :=
    congrArg (fun es => fun k => b k ++ given l es k) (eq_earlier_cons_later hsorted he)
  rw [hgiven, funext_iff, QuestsTakenBack, filter_ne_eq hsorted he]
  have hkey : ∀ k, (eraseAll (fun k => b k ++ given l (earlier e s.activeEvents ++ e :: later e s.activeEvents) k)
      ((l e).filter fun r => !hasQuestActiveEventExcept l (s.removeActiveEvent e) r.2 e) k =
        b k ++ given l (earlier e s.activeEvents ++ later e s.activeEvents) k ↔
      (∀ quest ∈ valuesOf k (l e), ∀ e' ∈ s.activeEvents, e' ≠ e → ∀ npc, (npc, quest) ∉ l e') ∧
        (b k ++ given l (earlier e s.activeEvents) k ++ valuesOf k (l e)).diff (valuesOf k (l e)) =
          b k ++ given l (earlier e s.activeEvents) k) := by
    intro k
    rw [eraseAll_apply, valuesOf_filter k (fun quest => !hasQuestActiveEventExcept l (s.removeActiveEvent e) quest e),
      given_append, given_append, given_cons]
    have hdiff := diff_filter_eq_iff (fun quest => !hasQuestActiveEventExcept l (s.removeActiveEvent e) quest e)
      (b k ++ given l (earlier e s.activeEvents) k) (valuesOf k (l e)) (given l (later e s.activeEvents) k)
    simp only [List.append_assoc] at hdiff ⊢
    refine hdiff.trans (and_congr_left fun _ => ?_)
    exact forall₂_congr fun quest _ => hheld
  rw [forall_congr' hkey, forall_and]
  refine and_congr_left fun _ => ?_
  constructor
  · rintro h ⟨npc, quest⟩ hr
    exact h npc quest (mem_valuesOf.2 hr)
  · intro h npc quest hquest
    exact h (npc, quest) (mem_valuesOf.1 hquest)

theorem valuesOf_named (t : GameEvents) (e entry : Nat) :
    valuesOf entry ((t.vendors e).map fun v => (v.entry, v.item)) = (valuesOf entry (t.sold e)).map (·.item) := by
  rw [← valuesOf_map, GameEvents.sold, List.map_map]
  rfl

/-- The items of an event are taken away. -/
theorem removed_iff (b : Nat → List VendorItem) (hsorted : active.Pairwise (· < ·)) (he : e ∈ active) :
    removeAll (·.item) (fun k => b k ++ given t.sold active k) ((t.vendors e).map fun v => (v.entry, v.item)) =
        (fun k => b k ++ given t.sold (active.filter (· ≠ e)) k) ↔
      ∀ v ∈ t.vendors e, (∀ i ∈ b v.entry, i.item ≠ v.item) ∧
        ∀ e' ∈ active, e' ≠ e → ∀ v' ∈ t.vendors e', v'.entry = v.entry → v'.item ≠ v.item := by
  have hkey : ∀ k, (removeAll (·.item) (fun k => b k ++ given t.sold active k) ((t.vendors e).map fun v => (v.entry, v.item)) k =
      b k ++ given t.sold (active.filter (· ≠ e)) k ↔
        ∀ i ∈ b k ++ given t.sold (active.filter (· ≠ e)) k, i.item ∉ (valuesOf k (t.sold e)).map (·.item)) := by
    intro k
    have hgiven : given t.sold active k = given t.sold (earlier e active) k ++
        (valuesOf k (t.sold e) ++ given t.sold (later e active) k) := by
      rw [← given_cons, ← given_append, ← eq_earlier_cons_later hsorted he]
    have hown : ∀ i ∈ valuesOf k (t.sold e), decide (i.item ∉ (valuesOf k (t.sold e)).map (·.item)) = false :=
      fun i hi => decide_eq_false (not_not.2 (List.mem_map_of_mem hi))
    have hfilter := filter_eq_iff (fun i : VendorItem => decide (i.item ∉ (valuesOf k (t.sold e)).map (·.item)))
      (b k ++ given t.sold (earlier e active) k) (given t.sold (later e active) k) hown
    rw [removeAll_apply, valuesOf_named, hgiven, filter_ne_eq hsorted he, given_append]
    simpa only [List.append_assoc, decide_eq_true_eq] using hfilter
  rw [funext_iff, forall_congr' hkey]
  constructor
  · intro h v hv
    have hnamed : v.item ∈ (valuesOf v.entry (t.sold e)).map (·.item) :=
      List.mem_map.2 ⟨vendorItem v, mem_valuesOf.2 (List.mem_map.2 ⟨v, hv, rfl⟩), rfl⟩
    refine ⟨fun i hi hne => h v.entry i (List.mem_append_left _ hi) (hne ▸ hnamed), fun e' he' hne v' hv' hentry hitem => ?_⟩
    refine h v.entry (vendorItem v') (List.mem_append_right _ (mem_given.2 ⟨e', ?_, ?_⟩)) ?_
    · exact List.mem_filter.2 ⟨he', decide_eq_true hne⟩
    · exact List.mem_map.2 ⟨v', hv', by rw [hentry]⟩
    · show v'.item ∈ _
      rw [hitem]
      exact hnamed
  · intro h k i hi hnamed
    obtain ⟨i', hi', hitem⟩ := List.mem_map.1 hnamed
    obtain ⟨v, hv, hvi⟩ := List.mem_map.1 (mem_valuesOf.1 hi')
    obtain ⟨hk, hi'⟩ := Prod.mk.inj hvi
    have hitem : v.item = i.item := (congrArg VendorItem.item hi').trans hitem
    obtain ⟨hbase, hothers⟩ := h v hv
    rcases List.mem_append.1 hi with hi | hi
    · exact hbase i (hk ▸ hi) hitem.symm
    obtain ⟨e', he', hmem⟩ := mem_given.1 hi
    obtain ⟨he', hne⟩ := List.mem_filter.1 he'
    obtain ⟨v', hv', hvi'⟩ := List.mem_map.1 hmem
    obtain ⟨hk', hi''⟩ := Prod.mk.inj hvi'
    have hitem' : v'.item = i.item := congrArg VendorItem.item hi''
    exact hothers e' he' (of_decide_eq_true hne) v' hv' (hk'.trans hk.symm) (hitem'.trans hitem.symm)

/-- An event gives creatures its data. -/
theorem overwritten_iff (base : World) (es es' : List Nat) (e : Nat) :
    overwriteAll (dataDuring base (es ++ es')) (base.wanted e) = dataDuring base (es ++ e :: es') ↔
      ∀ spawnId, (base.creatureData spawnId).isSome → ∀ d ∈ (valuesOf spawnId (base.wanted e)).getLast?,
        ∀ d' ∈ (given base.wanted es' spawnId).getLast?, d = d' := by
  rw [funext_iff]
  refine forall_congr' fun spawnId => ?_
  rw [overwriteAll_apply, dataDuring, dataDuring, given_append, given_append, given_cons]
  cases base.creatureData spawnId with
  | none => simp
  | some d =>
    rw [Option.map_some, Option.map_some, Option.map_some, Option.some.injEq, ← getLast?_append_getD, ← List.append_assoc,
      getLast?_swap]
    exact ⟨fun h _ => h, fun h => h rfl⟩

theorem wanted_of_saved {spawnId : Nat} (h : valuesOf spawnId (s.saved e) = []) : valuesOf spawnId (s.wanted e) = [] := by
  have hsaved := valuesOf_map spawnId (fun m : ModelEquip => (⟨m.modelidPrev, m.equipementIdPrev⟩ : CreatureData)) (s.modelEquip e)
  have hwanted := valuesOf_map spawnId (fun m : ModelEquip => (⟨m.modelid, m.equipmentId⟩ : CreatureData)) (s.modelEquip e)
  have hnone := List.map_eq_nil_iff.1 (hsaved.symm.trans h)
  rw [hnone] at hwanted
  exact hwanted

/-- An event puts back the data it saved. -/
theorem restored_iff (hwanted : s.wanted e = base.wanted e) (hsorted : active.Pairwise (· < ·)) (he : e ∈ active) :
    overwriteAll (dataDuring base active) (s.saved e) = dataDuring base (active.filter (· ≠ e)) ↔
      ∀ spawnId, (base.creatureData spawnId).isSome → ∀ d ∈ (valuesOf spawnId (s.saved e)).getLast?,
        dataDuring base (active.filter (· ≠ e)) spawnId = some d := by
  rw [funext_iff]
  refine forall_congr' fun spawnId => ?_
  rw [overwriteAll_apply]
  cases hlast : (valuesOf spawnId (s.saved e)).getLast? with
  | none =>
    have hnone : valuesOf spawnId (base.wanted e) = [] := by
      rw [← hwanted]
      exact wanted_of_saved (List.getLast?_eq_none_iff.1 hlast)
    have hgiven : given base.wanted active spawnId = given base.wanted (active.filter (· ≠ e)) spawnId := by
      rw [filter_ne_eq hsorted he, given_append]
      conv_lhs => rw [eq_earlier_cons_later hsorted he, given_append, given_cons, hnone, List.nil_append]
    refine ⟨fun _ _ => nofun, fun _ => ?_⟩
    rw [dataDuring, dataDuring, hgiven]
    exact congrFun (@Option.map_id CreatureData) _
  | some d =>
    rw [dataDuring, dataDuring]
    cases base.creatureData spawnId with
    | none => simp
    | some d' =>
      simp only [Option.map_some, Option.getD_some, Option.some.injEq, Option.isSome_some, forall_const,
        Option.mem_def, forall_eq']
      exact eq_comm

/-- The flags of the listed creatures are written at a start. -/
theorem reflagged_start (data : Nat → Option CreatureData) (hdata : ∀ g, (data g).isSome = (base.creatureData g).isSome)
    (es es' : List Nat) (e : Nat) (c : Creature) :
    reflagged t (es ++ e :: es') data e (creatureDuring t base (es ++ es') c) = creatureDuring t base (es ++ e :: es') c := by
  have hspawn : (creatureDuring t base (es ++ es') c).spawnId = c.spawnId := by
    unfold creatureDuring
    split <;> rfl
  have hflagged : flagged t (es ++ e :: es') (creatureDuring t base (es ++ es') c) = flagged t (es ++ e :: es') c := by
    unfold creatureDuring
    split <;> rfl
  rw [reflagged, hspawn, hdata, hflagged]
  rw [creatureDuring, creatureDuring, lists_insert]
  cases hlist : t.lists [e] c.spawnId with
  | true =>
    rw [Bool.true_and, Bool.true_or, Bool.true_and]
    cases hsome : (base.creatureData c.spawnId).isSome with
    | true => rfl
    | false => simp
  | false =>
    have hflags : flagged t (es ++ e :: es') c = flagged t (es ++ es') c := by
      rw [flagged, flagged, flags_insert hlist]
    rw [Bool.false_and, Bool.false_or, hflags]
    rfl

/-- They are written at a stop. -/
theorem reflagged_stop (data : Nat → Option CreatureData) (hdata : ∀ g, (data g).isSome = (base.creatureData g).isSome)
    (es es' : List Nat) (e : Nat) (c : Creature) :
    reflagged t (es ++ es') data e (creatureDuring t base (es ++ e :: es') c) = creatureDuring t base (es ++ es') c ↔
      ((base.creatureData c.spawnId).isSome → t.lists [e] c.spawnId = true → t.lists (es ++ es') c.spawnId = false →
        c.npcFlags = (t.templateFlags c.entry).getD 0) := by
  have hspawn : (creatureDuring t base (es ++ e :: es') c).spawnId = c.spawnId := by
    unfold creatureDuring
    split <;> rfl
  have hflagged : flagged t (es ++ es') (creatureDuring t base (es ++ e :: es') c) = flagged t (es ++ es') c := by
    unfold creatureDuring
    split <;> rfl
  rw [reflagged, hspawn, hdata, hflagged]
  rw [creatureDuring, creatureDuring, lists_insert]
  cases hsome : (base.creatureData c.spawnId).isSome with
  | false => simp
  | true =>
    cases hlist : t.lists [e] c.spawnId with
    | false =>
      have hflags : flagged t (es ++ e :: es') c = flagged t (es ++ es') c := by
        rw [flagged, flagged, flags_insert hlist]
      simp [hflags]
    | true =>
      cases hothers : t.lists (es ++ es') c.spawnId with
      | true => simp
      | false =>
        have hzero := flags_of_not_lists hothers
        simp only [Bool.and_true, if_true, Bool.false_eq_true, if_false, forall_const]
        rw [flagged, hzero, Nat.zero_or]
        constructor
        · exact fun h => (congrArg Creature.npcFlags h).symm
        · intro h
          rw [← h]

/-! ## Runs -/

/-- The state of the world in a clean run. -/
structure InStep (t : GameEvents) (base s : World) : Prop where
  sorted : s.activeEvents.Pairwise (· < ·)
  wanted : ∀ e, s.wanted e = base.wanted e
  content : s.content = during t base s.activeEvents

theorem isSome_dataDuring (base : World) (es : List Nat) (spawnId : Nat) :
    (dataDuring base es spawnId).isSome = (base.creatureData spawnId).isSome := Option.isSome_map

theorem content_startEvent_iff (h : InStep t base s) (he : e ∉ s.activeEvents) :
    (startEvent t s e).content = during t base (insertActive e s.activeEvents) ↔ StartsCleanly t base s.activeEvents e := by
  have hcontent := h.content
  rw [eq_earlier_later h.sorted he, World.content, during, Content.mk.injEq] at hcontent
  obtain ⟨hcreature, hobject, hvendor, hdata, hcreatures⟩ := hcontent
  have hflags : ∀ c, reflagged t (insertActive e s.activeEvents) (overwriteAll s.creatureData (s.wanted e)) e
      (creatureDuring t base (earlier e s.activeEvents ++ later e s.activeEvents) c) =
        creatureDuring t base (insertActive e s.activeEvents) c := by
    refine reflagged_start _ (fun g => ?_) _ _ e
    rw [isSome_overwriteAll, hdata, isSome_dataDuring]
  rw [content_startEvent, during, Content.mk.injEq, hcreature, hobject, hvendor, hcreatures, List.map_map, h.wanted]
  rw [h.wanted] at hflags
  have hall : base.creatures.map (reflagged t (insertActive e s.activeEvents) (overwriteAll s.creatureData (base.wanted e)) e ∘
      creatureDuring t base (earlier e s.activeEvents ++ later e s.activeEvents)) =
        base.creatures.map (creatureDuring t base (insertActive e s.activeEvents)) :=
    List.map_congr_left fun c _ => hflags c
  rw [hall, hdata]
  have hq := appended_iff t.creatureQuests base.creatureQuestRelations (earlier e s.activeEvents) (later e s.activeEvents) e
  have hg := appended_iff t.gameObjectQuests base.gameObjectQuestRelations (earlier e s.activeEvents) (later e s.activeEvents) e
  have hv := appended_iff t.sold base.vendorItems (earlier e s.activeEvents) (later e s.activeEvents) e
  have hd := overwritten_iff base (earlier e s.activeEvents) (later e s.activeEvents) e
  constructor
  · rintro ⟨h₁, h₂, h₃, h₄, -⟩
    exact ⟨hq.1 h₁, hg.1 h₂, hv.1 h₃, hd.1 h₄⟩
  · rintro ⟨h₁, h₂, h₃, h₄⟩
    exact ⟨hq.2 h₁, hg.2 h₂, hv.2 h₃, hd.2 h₄, rfl⟩

theorem content_stopEvent_iff (h : InStep t base s) (he : e ∈ s.activeEvents) :
    (stopEvent t s e).content = during t base (s.activeEvents.filter (· ≠ e)) ↔ StopsCleanly t base s e := by
  have hcontent := h.content
  rw [World.content, during, Content.mk.injEq] at hcontent
  obtain ⟨hcreature, hobject, hvendor, hdata, hcreatures⟩ := hcontent
  have hflags : ∀ c, reflagged t (s.activeEvents.filter (· ≠ e)) (overwriteAll s.creatureData (s.saved e)) e
      (creatureDuring t base s.activeEvents c) = creatureDuring t base (s.activeEvents.filter (· ≠ e)) c ↔
        ((base.creatureData c.spawnId).isSome → t.lists [e] c.spawnId = true →
          t.lists (s.activeEvents.filter (· ≠ e)) c.spawnId = false → c.npcFlags = (t.templateFlags c.entry).getD 0) := by
    intro c
    have hiff := @reflagged_stop t base (overwriteAll s.creatureData (s.saved e))
      (fun g => by rw [isSome_overwriteAll, hdata, isSome_dataDuring]) (earlier e s.activeEvents) (later e s.activeEvents) e c
    rwa [← filter_ne_eq h.sorted he, ← eq_earlier_cons_later h.sorted he] at hiff
  have hq := erased_iff (s := s) t.creatureQuests base.creatureQuestRelations h.sorted he
  have hg := erased_iff (s := s) t.gameObjectQuests base.gameObjectQuestRelations h.sorted he
  have hv := removed_iff (t := t) base.vendorItems h.sorted he
  have hd := restored_iff (h.wanted e) h.sorted he
  rw [content_stopEvent, during, Content.mk.injEq, hcreature, hobject, hvendor, hcreatures, List.map_map, List.map_inj_left]
  rw [hdata] at hflags ⊢
  constructor
  · rintro ⟨h₁, h₂, h₃, h₄, h₅⟩
    exact ⟨hq.1 h₁, hg.1 h₂, hv.1 h₃, hd.1 h₄, fun c hc => (hflags c).1 (h₅ c hc)⟩
  · rintro ⟨h₁, h₂, h₃, h₄, h₅⟩
    exact ⟨hq.2 h₁, hg.2 h₂, hv.2 h₃, hd.2 h₄, fun c hc => (hflags c).2 (h₅ c hc)⟩

theorem activeEvents_startEvent (t : GameEvents) (s : World) (e : Nat) :
    (startEvent t s e).activeEvents = insertActive e s.activeEvents := rfl

/-- The events started one after the other. -/
def startAll (t : GameEvents) (base : World) (es : List Nat) : World := es.foldl (startEvent t) base

theorem inStep_base (hbase : base.activeEvents = []) : InStep t base base :=
  ⟨by rw [hbase]; exact .nil, fun _ => rfl, by rw [hbase, during_nil]⟩

/-- Started in the order of their ids, events lead to what they make of the base data. -/
theorem inStep_startAll (hbase : base.activeEvents = []) : ∀ {es : List Nat}, es.Pairwise (· < ·) →
    InStep t base (startAll t base es) ∧ (startAll t base es).activeEvents = es := by
  intro es
  induction es using List.reverseRecOn with
  | nil => exact fun _ => ⟨inStep_base hbase, hbase⟩
  | append_singleton es e ih =>
    intro hsorted
    obtain ⟨hes, -, hlt⟩ := List.pairwise_append.1 hsorted
    obtain ⟨hstep, hactive⟩ := ih hes
    have hlt : ∀ a ∈ es, a < e := fun a ha => hlt a ha e List.mem_cons_self
    have hlo : earlier e es = es := List.filter_eq_self.2 fun a ha => decide_eq_true (hlt a ha)
    have hhi : later e es = [] := List.filter_eq_nil_iff.2 fun a ha => by simpa using le_of_lt (hlt a ha)
    have hins : insertActive e es = es ++ [e] := by
      show earlier e es ++ e :: later e es = _
      rw [hlo, hhi]
    have hstart : startAll t base (es ++ [e]) = startEvent t (startAll t base es) e := List.foldl_concat ..
    have hactive' : (startAll t base (es ++ [e])).activeEvents = es ++ [e] := by
      rw [hstart, activeEvents_startEvent, hactive, hins]
    have hnot : e ∉ (startAll t base es).activeEvents := by
      rw [hactive]
      exact fun he => lt_irrefl e (hlt e he)
    refine ⟨⟨by rwa [hactive'], fun e' => ?_, ?_⟩, hactive'⟩
    · rw [hstart, wanted_startEvent]
      exact hstep.wanted e'
    · have hiff := content_startEvent_iff hstep hnot
      rw [hactive, hins] at hiff
      rw [hactive', hstart]
      refine hiff.2 ?_
      constructor <;> simp [hhi]

/-- What is asked after a start or stop: content as if the active events had been started in the order of their ids. -/
def InOrder (t : GameEvents) (base : World) (r : Request) (s : World) : Prop :=
  (handle t r s).content = (startAll t base (handle t r s).activeEvents).content

theorem pairwise_handle (h : InStep t base s) (r : Request) : (handle t r s).activeEvents.Pairwise (· < ·) := by
  cases r with
  | startEvent e =>
    unfold handle
    dsimp only
    split
    · exact h.sorted
    · exact pairwise_insertActive h.sorted e
  | stopEvent e =>
    unfold handle
    dsimp only
    split
    · exact h.sorted.filter _
    · exact h.sorted

theorem wanted_handle (t : GameEvents) (r : Request) (s : World) (e : Nat) : (handle t r s).wanted e = s.wanted e := by
  cases r with
  | startEvent e' =>
    unfold handle
    dsimp only
    split
    · rfl
    · exact wanted_startEvent t s e' e
  | stopEvent e' =>
    unfold handle
    dsimp only
    split
    · exact wanted_stopEvent t s e' e
    · rfl

theorem inOrder_iff_during (hbase : base.activeEvents = []) (h : InStep t base s) (r : Request) :
    InOrder t base r s ↔ (handle t r s).content = during t base (handle t r s).activeEvents := by
  obtain ⟨hstep, hactive⟩ := inStep_startAll (t := t) hbase (pairwise_handle h r)
  rw [InOrder, hstep.content, hactive]

theorem inOrder_iff_cleanly (hbase : base.activeEvents = []) (h : InStep t base s) (r : Request) :
    InOrder t base r s ↔ Cleanly t base r s := by
  rw [inOrder_iff_during hbase h]
  cases r with
  | startEvent e =>
    unfold handle isActiveEvent Cleanly
    dsimp only
    by_cases he : e ∈ s.activeEvents
    · rw [if_pos (decide_eq_true he)]
      exact ⟨fun _ hn => absurd he hn, fun _ => h.content⟩
    · rw [if_neg (by simpa using he)]
      exact (content_startEvent_iff h he).trans ⟨fun hc _ => hc, fun hc => hc he⟩
  | stopEvent e =>
    unfold handle isActiveEvent Cleanly
    dsimp only
    by_cases he : e ∈ s.activeEvents
    · rw [if_pos (decide_eq_true he)]
      exact (content_stopEvent_iff h he).trans ⟨fun hc _ => hc, fun hc => hc he⟩
    · rw [if_neg (by simpa using he)]
      exact ⟨fun _ hn => absurd hn he, fun _ => h.content⟩

/-- In every sequence of starts and stops, the content of the world is after each of them what it is when the active
events are started from the base data in the order of their ids, exactly if each of them is clean. -/
theorem content_of_active_events (t : GameEvents) (hbase : base.activeEvents = []) (requests : List Request) :
    Along (handle t) (InOrder t base) requests base ↔ Along (handle t) (Cleanly t base) requests base := by
  refine along_congr (fun _ => InStep t base) (fun r _ s h => inOrder_iff_cleanly hbase h r) (fun r _ s h hclean => ?_)
    requests (inStep_base hbase)
  refine ⟨pairwise_handle h r, fun e => (wanted_handle t r s e).trans (h.wanted e), ?_⟩
  exact (inOrder_iff_during hbase h r).1 ((inOrder_iff_cleanly hbase h r).2 hclean)

/-- Two festivals that share a quest and a creature; the first sells an item that the vendor has anyway. -/
def festivals : GameEvents where
  creatureQuests e := if e = 1 ∨ e = 2 then [(7, 5)] else []
  gameObjectQuests _ := []
  vendors e := if e = 1 then [⟨3, 40, 0, 0, 9⟩] else []
  npcFlags _ := []
  templateFlags _ := none

def village : World where
  activeEvents := []
  creatureQuestRelations _ := []
  gameObjectQuestRelations _ := []
  vendorItems entry := if entry = 3 then [⟨40, 0, 0, 0⟩] else []
  creatureData spawnId := if spawnId = 10 then some ⟨100, 0⟩ else none
  modelEquip e := if e = 1 then [(10, ⟨200, 0, 0, 0⟩)] else if e = 2 then [(10, ⟨300, 0, 0, 0⟩)] else []
  creatures := []

/-- The second festival alone. -/
theorem content_of_active_events_festival :
    Along (handle festivals) (InOrder festivals village) [.startEvent 2, .stopEvent 2] village ↔
      Along (handle festivals) (Cleanly festivals village) [.startEvent 2, .stopEvent 2] village :=
  content_of_active_events festivals rfl _

/-- After both festivals have been stopped in the order in which they were started, the quest is still given, the vendor
no longer sells his own item, and the creature has the first festival's model. -/
theorem festivals_leave_traces :
    let s := [Request.startEvent 1, .startEvent 2, .stopEvent 1, .stopEvent 2].foldl (fun s r => handle festivals r s) village
    s.activeEvents = [] ∧ s.creatureQuestRelations 7 ≠ village.creatureQuestRelations 7 ∧
      s.vendorItems 3 ≠ village.vendorItems 3 ∧ s.creatureData 10 ≠ village.creatureData 10 := by
  decide

end AtlasWow.Events
