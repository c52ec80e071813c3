/-
Lists of conditions, and the mask of object types by which a spell restricts
its grid search. Both walk the list by else groups, references likewise, and
come down to an else group whose conditions all hold (`Open`). The mask does
not look at which target a condition tests, so that a condition on the caster
can lose a target: `searcherMask_sound_iff` says exactly when.
-/
import AtlasWow.Conditions.Condition
import AtlasWow.Lib.Machine
import AtlasWow.Lib.OrderedMap

namespace AtlasWow.Conditions

structure ConditionReferenceStore where
  lists : Nat → Option (List Condition)
  /-- A template has the rows it was made of. -/
  filled : ∀ id l, lists id = some l → l ≠ []

/-- The store without circles: a template refers to those of a lower rank. -/
structure ConditionReferences extends ConditionReferenceStore where
  rank : Nat → Nat
  descends : ∀ id l, lists id = some l → ∀ c ∈ l, c.referenceId ≠ 0 → rank c.referenceId < rank id

instance : Coe ConditionReferences ConditionReferenceStore := ⟨ConditionReferences.toConditionReferenceStore⟩

namespace ConditionMgr

section

variable (S : ConditionReferenceStore) {Obj : Type} (w : World Obj) (onConditionCheck : Condition → Targets Obj → Bool)
  (targets : Targets Obj)

/-- One condition of a list, or the list it refers to. -/
def conditionMet (meetList : List Condition → Option Bool) (c : Condition) : Option Bool :=
  if c.referenceId ≠ 0 then
    match S.lists c.referenceId with
    | some l => meetList l
    -- checked at loading, should never happen
    | none => some true
  else some (c.meets w onConditionCheck targets)

/-- A round of the loop of `IsObjectMeetToConditionList`. -/
def meetStep (meetList : List Condition → Option Bool) (elseGroupStore : OMap Nat Bool) (c : Condition) :
    Option (OMap Nat Bool) :=
  if c.isLoaded then
    match elseGroupStore.find? c.elseGroup with
    | some false => some elseGroupStore
    | some true => (conditionMet S w onConditionCheck targets meetList c).map fun met =>
        if met then elseGroupStore else elseGroupStore.insert c.elseGroup false
    | none => (conditionMet S w onConditionCheck targets meetList c).map fun met =>
        elseGroupStore.insert c.elseGroup met
  else some elseGroupStore

/-- `IsObjectMeetToConditionList`, for references up to a depth. -/
def isObjectMeetToConditionList : Nat → List Condition → Option Bool
  | 0, _ => none
  | depth + 1, conditions =>
    (conditions.foldlM (meetStep S w onConditionCheck targets (isObjectMeetToConditionList depth)) .empty).map
      fun elseGroupStore => elseGroupStore.entries.any (·.2)

/-- `none` where a reference is not found or a condition asserts. -/
def conditionMask (maskList : List Condition → Option Nat) (c : Condition) : Option Nat :=
  if c.referenceId ≠ 0 then (S.lists c.referenceId).bind maskList else c.getSearcherTypeMask

/-- A round of the loop of `GetSearcherTypeMaskForConditionList`. -/
def maskStep (maskList : List Condition → Option Nat) (elseGroupSearcherTypeMasks : OMap Nat Nat) (c : Condition) :
    Option (OMap Nat Nat) :=
  if c.isLoaded then
    match elseGroupSearcherTypeMasks.find? c.elseGroup with
    | some 0 => some elseGroupSearcherTypeMasks
    | found => (conditionMask S maskList c).map fun mask =>
        elseGroupSearcherTypeMasks.insert c.elseGroup (found.getD GRID_MAP_TYPE_MASK_ALL &&& mask)
  else none

def searcherTypeMaskForConditionList : Nat → List Condition → Option Nat
  | 0, _ => none
  | depth + 1, conditions =>
    if conditions.isEmpty then some GRID_MAP_TYPE_MASK_ALL
    else (conditions.foldlM (maskStep S (searcherTypeMaskForConditionList depth)) .empty).map
      fun elseGroupSearcherTypeMasks => elseGroupSearcherTypeMasks.entries.foldl (fun mask e => mask ||| e.2) 0

end

variable (S : ConditionReferences) {Obj : Type} (w : World Obj) (onConditionCheck : Condition → Targets Obj → Bool)
  (targets : Targets Obj)

/-- As deep as the references of a list go. -/
def depth (conditions : List Condition) : Nat := (conditions.map fun c => S.rank c.referenceId).foldr max 0 + 2

def isObjectMeetToConditions (conditions : List Condition) : Option Bool :=
  if conditions.isEmpty then some true
  else isObjectMeetToConditionList S w onConditionCheck targets (depth S conditions) conditions

def getSearcherTypeMaskForConditionList (conditions : List Condition) : Option Nat :=
  searcherTypeMaskForConditionList S (depth S conditions) conditions

end ConditionMgr

open ConditionMgr

/-! ## Else groups -/

/-- There is an else group whose conditions are all good, references likewise. -/
inductive Open (S : ConditionReferenceStore) (P : Condition → Prop) : List Condition → Prop
  | empty : Open S P []
  | group {conditions : List Condition} (g : Nat) (hg : ∃ c ∈ conditions, c.elseGroup = g)
    (own : ∀ c ∈ conditions, c.elseGroup = g → c.referenceId = 0 → P c)
    (refs : ∀ c ∈ conditions, c.elseGroup = g → c.referenceId ≠ 0 → ∀ l, S.lists c.referenceId = some l → Open S P l) :
    Open S P conditions

/-- A condition is good, or what it refers to is. -/
def Good (S : ConditionReferenceStore) (P : Condition → Prop) (c : Condition) : Prop :=
  (c.referenceId = 0 → P c) ∧ (c.referenceId ≠ 0 → ∀ l, S.lists c.referenceId = some l → Open S P l)

section

variable {S : ConditionReferenceStore} {P Q : Condition → Prop} {conditions : List Condition} {c : Condition}

theorem Open.mono (hPQ : ∀ c, c.referenceId = 0 → P c → Q c) (h : Open S P conditions) : Open S Q conditions := by
  induction h with
  | empty => exact .empty
  | group g hg own _ ih => exact .group g hg (fun c hc hgroup h => hPQ c h (own c hc hgroup h)) ih

theorem open_iff (hne : conditions ≠ []) : Open S P conditions ↔
    ∃ g, (∃ c ∈ conditions, c.elseGroup = g) ∧ ∀ c ∈ conditions, c.elseGroup = g → Good S P c := by
  constructor
  · intro h
    cases h with
    | empty => exact absurd rfl hne
    | group g hg own refs => exact ⟨g, hg, fun c hc hgroup => ⟨own c hc hgroup, refs c hc hgroup⟩⟩
  · intro h
    obtain ⟨g, hg, hgood⟩ := h
    exact .group g hg (fun c hc hgroup => (hgood c hc hgroup).1) fun c hc hgroup => (hgood c hc hgroup).2

theorem isLoaded_eq (c : Condition) : c.isLoaded = true := by
  unfold Condition.isLoaded
  rcases c.accepted with h | h
  · simp [h]
  · simp [h.1]

/-- The store of a loop after the conditions it has seen: a group for each, good while its conditions are. -/
structure Groups {β : Type} (S : ConditionReferenceStore) (P : Condition → Prop) (good : β → Prop) (seen : List Condition)
    (store : OMap Nat β) : Prop where
  absent : ∀ g, store.find? g = none ↔ ∀ c ∈ seen, c.elseGroup ≠ g
  value : ∀ g v, store.find? g = some v → (good v ↔ ∀ c ∈ seen, c.elseGroup = g → Good S P c)

variable {β : Type} {good : β → Prop} {seen : List Condition} {store store' : OMap Nat β}

theorem Groups.empty : Groups S P good [] (.empty : OMap Nat β) where
  absent g := iff_of_true rfl fun c hc => by cases hc
  value g v hv := by cases hv

theorem Groups.step (h : Groups S P good seen store)
    (hother : ∀ g, g ≠ c.elseGroup → store'.find? g = store.find? g)
    (hself : ∃ v, store'.find? c.elseGroup = some v ∧
      (good v ↔ (∀ old, store.find? c.elseGroup = some old → good old) ∧ Good S P c)) :
    Groups S P good (seen ++ [c]) store' := by
  obtain ⟨v, hv, hgood⟩ := hself
  refine ⟨fun g => ?_, fun g v' hv' => ?_⟩
  · by_cases hg : g = c.elseGroup
    · subst hg
      rw [hv]
      exact iff_of_false (Option.some_ne_none v) fun hall => hall c (List.mem_append_right _ List.mem_cons_self) rfl
    · rw [hother g hg, h.absent g]
      refine ⟨fun hall c' hc' => ?_, fun hall c' hc' => hall c' (List.mem_append_left _ hc')⟩
      rcases List.mem_append.1 hc' with hc' | hc'
      · exact hall c' hc'
      · rw [List.mem_singleton.1 hc']
        exact Ne.symm hg
  · by_cases hg : g = c.elseGroup
    · subst hg
      rw [hv] at hv'
      cases hv'
      rw [hgood]
      constructor
      · intro hall c' hc' hgroup
        rcases List.mem_append.1 hc' with hc' | hc'
        · cases hold : store.find? c.elseGroup with
          | none => exact absurd hgroup ((h.absent _).1 hold c' hc')
          | some old => exact (h.value _ old hold).1 (hall.1 old hold) c' hc' hgroup
        · rw [List.mem_singleton.1 hc']
          exact hall.2
      · intro hall
        refine ⟨fun old hold => (h.value _ old hold).2 fun c' hc' => hall c' (List.mem_append_left _ hc'), ?_⟩
        exact hall c (List.mem_append_right _ List.mem_cons_self) rfl
    · rw [hother g hg] at hv'
      rw [h.value g v' hv']
      refine ⟨fun hall c' hc' hgroup => ?_, fun hall c' hc' => hall c' (List.mem_append_left _ hc')⟩
      rcases List.mem_append.1 hc' with hc' | hc'
      · exact hall c' hc' hgroup
      · rw [List.mem_singleton.1 hc'] at hgroup
        exact absurd hgroup.symm hg

/-- A loop over the list keeps the groups. -/
theorem Groups.foldlM {step : OMap Nat β → Condition → Option (OMap Nat β)}
    (hstep : ∀ c ∈ conditions, ∀ seen store store', Groups S P good seen store → step store c = some store' →
      Groups S P good (seen ++ [c]) store') :
    ∀ {seen : List Condition} {store store' : OMap Nat β}, Groups S P good seen store →
      conditions.foldlM step store = some store' → Groups S P good (seen ++ conditions) store' := by
  induction conditions with
  | nil =>
    intro seen store store' h hrun
    cases hrun
    rw [List.append_nil]
    exact h
  | cons c conditions ih =>
    intro seen store store' h hrun
    obtain ⟨store₁, hone, hrest⟩ := Option.bind_eq_some_iff.1 ((List.foldlM_cons).symm.trans hrun)
    have hall := ih (fun c hc => hstep c (List.mem_cons_of_mem _ hc)) (hstep c List.mem_cons_self _ _ _ h hone) hrest
    rw [List.append_assoc] at hall
    exact hall

/-- A good group at the end is an else group that is open. -/
theorem Groups.open_iff (h : Groups S P good conditions store) (hne : conditions ≠ []) :
    (∃ g v, store.find? g = some v ∧ good v) ↔ Open S P conditions := by
  rw [Conditions.open_iff hne]
  constructor
  · intro hex
    obtain ⟨g, v, hv, hgood⟩ := hex
    have hsome : ¬ ∀ c ∈ conditions, c.elseGroup ≠ g := fun hall => by
      rw [(h.absent g).2 hall] at hv
      cases hv
    push Not at hsome
    exact ⟨g, hsome, (h.value g v hv).1 hgood⟩
  · intro hex
    obtain ⟨g, ⟨c, hc, hgroup⟩, hall⟩ := hex
    cases hv : store.find? g with
    | none => exact absurd hgroup ((h.absent g).1 hv c hc)
    | some v => exact ⟨g, v, hv, (h.value g v hv).2 hall⟩

end

/-! ## The two functions -/

section

variable {S : ConditionReferences} {R : ConditionReferenceStore} {Obj : Type} {w : World Obj}
  {onConditionCheck : Condition → Targets Obj → Bool} {targets : Targets Obj} {conditions : List Condition}
  {c : Condition} {d : Nat} {type : TypeId} {maskList : List Condition → Option Nat}

/-- The references of a list are below a depth. -/
def Below (S : ConditionReferences) (d : Nat) (conditions : List Condition) : Prop :=
  ∀ c ∈ conditions, c.referenceId ≠ 0 → S.rank c.referenceId < d

theorem below_depth (S : ConditionReferences) (conditions : List Condition) :
    ∃ d, depth S conditions = d + 1 ∧ Below S d conditions := by
  refine ⟨_, rfl, fun c hc _ => Nat.lt_succ_of_le ?_⟩
  induction conditions with
  | nil => cases hc
  | cons c' conditions ih =>
    rw [List.map_cons, List.foldr_cons]
    rcases List.mem_cons.1 hc with rfl | hc
    · exact Nat.le_max_left ..
    · exact (ih hc).trans (Nat.le_max_right ..)

theorem Below.reference (h : Below S (d + 1) conditions) (hc : c ∈ conditions) (href : c.referenceId ≠ 0)
    {l : List Condition} (hl : S.lists c.referenceId = some l) : Below S d l :=
  fun c' hc' href' => Nat.lt_of_lt_of_le (S.descends _ l hl c' hc' href') (Nat.le_of_lt_succ (h c hc href))

theorem Below.pos (h : Below S d conditions) (hc : c ∈ conditions) (href : c.referenceId ≠ 0) : d ≠ 0 := by
  have hlt := h c hc href
  omega

theorem conditionMet_spec {meetList : List Condition → Option Bool}
    (hlist : c.referenceId ≠ 0 → ∀ l, R.lists c.referenceId = some l →
      ∃ met, meetList l = some met ∧ (met = true ↔ Open R (fun c => c.meets w onConditionCheck targets = true) l)) :
    ∃ met, conditionMet R w onConditionCheck targets meetList c = some met ∧
      (met = true ↔ Good R (fun c => c.meets w onConditionCheck targets = true) c) := by
  unfold conditionMet Good
  by_cases href : c.referenceId ≠ 0
  · rw [if_pos href]
    cases hl : R.lists c.referenceId with
    | none => exact ⟨true, rfl, iff_of_true rfl ⟨fun h => absurd h href, fun _ l hl => by cases hl⟩⟩
    | some l =>
      obtain ⟨met, hmet, hopen⟩ := hlist href l hl
      refine ⟨met, hmet, hopen.trans ⟨fun h => ⟨fun hzero => absurd hzero href, fun _ l' hl' => ?_⟩, fun h => h.2 href l rfl⟩⟩
      cases hl'
      exact h
  · rw [if_neg href]
    exact ⟨_, rfl, fun h => ⟨fun _ => h, fun h => absurd h href⟩, fun h => h.1 (not_not.1 href)⟩

theorem meetStep_spec {meetList : List Condition → Option Bool} {store : OMap Nat Bool} {met : Bool}
    (hmet : conditionMet R w onConditionCheck targets meetList c = some met) :
    ∃ store', meetStep R w onConditionCheck targets meetList store c = some store' ∧
      ∀ {P : Condition → Prop} {seen : List Condition}, (met = true ↔ Good R P c) →
        Groups R P (fun v => v = true) seen store → Groups R P (fun v => v = true) (seen ++ [c]) store' := by
  unfold meetStep
  rw [if_pos (isLoaded_eq c)]
  split
  next hfound =>
    refine ⟨store, rfl, fun _ h => h.step (fun _ _ => rfl) ⟨false, hfound, iff_of_false Bool.false_ne_true fun hall => ?_⟩⟩
    exact Bool.false_ne_true (hall.1 false hfound)
  next hfound =>
    rw [hmet, Option.map_some]
    refine ⟨_, rfl, fun hgood h => ?_⟩
    have hold : ∀ old, store.find? c.elseGroup = some old → old = true := fun old hold => by
      rw [hfound] at hold
      exact (Option.some.inj hold).symm
    cases met with
    | true => exact h.step (fun _ _ => rfl) ⟨true, hfound, iff_of_true rfl ⟨hold, hgood.1 rfl⟩⟩
    | false =>
      refine h.step (fun g hg => OMap.find?_insert_of_ne hg) ⟨false, OMap.find?_insert_self .., ?_⟩
      exact iff_of_false Bool.false_ne_true fun hall => Bool.false_ne_true (hgood.2 hall.2)
  next hfound =>
  rw [hmet, Option.map_some]
  refine ⟨_, rfl, fun hgood h => h.step (fun g hg => OMap.find?_insert_of_ne hg)
    ⟨met, OMap.find?_insert_self .., hgood.trans ⟨fun hc => ⟨fun old hold => ?_, hc⟩, fun hc => hc.2⟩⟩⟩
  rw [hfound] at hold
  cases hold

/-- The check of a list ends: it says whether an else group is open. -/
theorem isObjectMeetToConditionList_spec (d : Nat) : ∀ {conditions : List Condition}, conditions ≠ [] →
    Below S d conditions → ∃ met, isObjectMeetToConditionList S w onConditionCheck targets (d + 1) conditions = some met ∧
      (met = true ↔ Open S (fun c => c.meets w onConditionCheck targets = true) conditions) := by
  induction d using Nat.strongRecOn with
  | ind d ih =>
    intro conditions hne hbelow
    have hcond : ∀ c ∈ conditions, ∃ met,
        conditionMet S w onConditionCheck targets (isObjectMeetToConditionList S w onConditionCheck targets d) c = some met ∧
          (met = true ↔ Good S (fun c => c.meets w onConditionCheck targets = true) c) := by
      refine fun c hc => conditionMet_spec fun href l hl => ?_
      obtain ⟨d', rfl⟩ := Nat.exists_eq_succ_of_ne_zero (hbelow.pos hc href)
      exact ih d' (Nat.lt_succ_self d') (S.filled _ l hl) (hbelow.reference hc href hl)
    obtain ⟨store, hrun⟩ := foldlM_some (s := (.empty : OMap Nat Bool)) fun c hc store => by
      obtain ⟨met, hmet, -⟩ := hcond c hc
      obtain ⟨store', hstep, -⟩ := @meetStep_spec S Obj w onConditionCheck targets c _ store met hmet
      exact ⟨store', hstep⟩
    have hgroups : Groups S (fun c => c.meets w onConditionCheck targets = true) (fun v => v = true) conditions store :=
      Groups.foldlM (fun c hc seen store store' h hstep => by
        obtain ⟨met, hmet, hgood⟩ := hcond c hc
        obtain ⟨store'', hstep', hnext⟩ := @meetStep_spec S Obj w onConditionCheck targets c _ store met hmet
        rw [hstep] at hstep'
        cases hstep'
        exact hnext hgood h) .empty hrun
    refine ⟨_, Option.map_eq_some_iff.2 ⟨store, hrun, rfl⟩, ?_⟩
    rw [← hgroups.open_iff hne, List.any_eq_true]
    constructor
    · intro hany
      obtain ⟨⟨g, v⟩, hmem, hv⟩ := hany
      exact ⟨g, v, OMap.mem_entries.1 hmem, hv⟩
    · intro hex
      obtain ⟨g, v, hfind, hv⟩ := hex
      exact ⟨(g, v), OMap.mem_entries.2 hfind, hv⟩

theorem conditionMask_spec {mask : Nat}
    (hlist : c.referenceId ≠ 0 → ∀ l mask, R.lists c.referenceId = some l → maskList l = some mask →
      (mask.testBit type.gridBit = true ↔ Open R (Condition.Admits type) l))
    (hmask : conditionMask R maskList c = some mask) :
    mask.testBit type.gridBit = true ↔ Good R (Condition.Admits type) c := by
  unfold conditionMask at hmask
  unfold Good
  by_cases href : c.referenceId ≠ 0
  · rw [if_pos href] at hmask
    obtain ⟨l, hl, hmask⟩ := Option.bind_eq_some_iff.1 hmask
    refine (hlist href l mask hl hmask).trans ⟨fun h => ⟨fun hzero => absurd hzero href, fun _ l' hl' => ?_⟩,
      fun h => h.2 href l hl⟩
    rw [hl] at hl'
    cases hl'
    exact h
  rw [if_neg href] at hmask
  refine ⟨fun h => ⟨fun _ => ⟨mask, hmask, h⟩, fun h => absurd h href⟩, fun h => ?_⟩
  obtain ⟨mask', hmask', hbit⟩ := h.1 (not_not.1 href)
  rw [hmask] at hmask'
  cases hmask'
  exact hbit

theorem maskStep_spec {store store' : OMap Nat Nat} {P : Condition → Prop} {seen : List Condition}
    (hgood : ∀ mask, conditionMask R maskList c = some mask → (mask.testBit type.gridBit = true ↔ Good R P c))
    (hstep : maskStep R maskList store c = some store')
    (h : Groups R P (fun v => v.testBit type.gridBit = true) seen store) :
    Groups R P (fun v => v.testBit type.gridBit = true) (seen ++ [c]) store' := by
  unfold maskStep at hstep
  rw [if_pos (isLoaded_eq c)] at hstep
  split at hstep
  next hfound =>
    -- no type is left in the group
    cases hstep
    refine h.step (fun _ _ => rfl) ⟨0, hfound, iff_of_false (by simp) fun hall => ?_⟩
    have hzero := hall.1 0 hfound
    simp at hzero
  next hfound =>
  obtain ⟨mask, hmask, rfl⟩ := Option.map_eq_some_iff.1 hstep
  refine h.step (fun g hg => OMap.find?_insert_of_ne hg) ⟨_, OMap.find?_insert_self .., ?_⟩
  rw [Nat.testBit_and, Bool.and_eq_true, hgood mask hmask]
  refine and_congr_left fun _ => ?_
  cases hold : store.find? c.elseGroup with
  | none => exact iff_of_true (Condition.all_testBit type) fun old hold => by cases hold
  | some old => exact ⟨fun hbit old' hold' => by cases hold'; exact hbit, fun hall => hall old rfl⟩

theorem testBit_foldl_or (k : Nat) : ∀ (l : List (Nat × Nat)) (mask : Nat),
    (l.foldl (fun mask e => mask ||| e.2) mask).testBit k = true ↔
      mask.testBit k = true ∨ ∃ e ∈ l, e.2.testBit k = true
  | [], mask => by simp
  | e :: l, mask => by
    rw [List.foldl_cons, testBit_foldl_or k l, Nat.testBit_or, Bool.or_eq_true, or_assoc]
    simp only [List.mem_cons, exists_eq_or_imp]

/-- The mask of a list has the types for which an else group is open. -/
theorem searcherTypeMaskForConditionList_spec (d : Nat) : ∀ {conditions : List Condition} {mask : Nat},
    searcherTypeMaskForConditionList R d conditions = some mask →
      (mask.testBit type.gridBit = true ↔ Open R (Condition.Admits type) conditions) := by
  induction d with
  | zero =>
    intro conditions mask hmask
    cases hmask
  | succ d ih =>
    intro conditions mask hmask
    unfold searcherTypeMaskForConditionList at hmask
    split at hmask
    next hempty =>
      cases hmask
      rw [List.isEmpty_iff.1 hempty]
      exact iff_of_true (Condition.all_testBit type) .empty
    next hne =>
    obtain ⟨store, hrun, rfl⟩ := Option.map_eq_some_iff.1 hmask
    have hgroups : Groups R (Condition.Admits type) (fun v => v.testBit type.gridBit = true) conditions store :=
      Groups.foldlM (fun c _ seen store store' h hstep =>
        maskStep_spec (fun mask hmask => conditionMask_spec (fun _ l mask _ hmask => ih hmask) hmask) hstep h) .empty hrun
    rw [← hgroups.open_iff fun h => hne (List.isEmpty_iff.2 h), testBit_foldl_or, Nat.zero_testBit]
    simp only [Bool.false_eq_true, false_or]
    constructor
    · intro hex
      obtain ⟨⟨g, v⟩, hmem, hv⟩ := hex
      exact ⟨g, v, OMap.mem_entries.1 hmem, hv⟩
    · intro hex
      obtain ⟨g, v, hfind, hv⟩ := hex
      exact ⟨(g, v), OMap.mem_entries.2 hfind, hv⟩

/-! ## The mask and the targets -/

/-- A condition on another target than the searched one, and for objects of other types than that has. -/
def ForOthers (type : TypeId) (c : Condition) : Prop := c.conditionTarget ≠ 0 ∧ ¬ c.Admits type

/-- A condition that the searched object meets is for its type, unless it tests another target. -/
theorem admits_of_meets {object : Obj} (htarget : targets 0 = some object) (hown : c.referenceId = 0)
    (hmeets : c.meets w onConditionCheck targets = true) (hothers : ¬ ForOthers (w.getTypeId object) c) :
    c.Admits (w.getTypeId object) := by
  by_cases htested : c.conditionTarget ≠ 0
  · exact not_not.1 fun h => hothers ⟨htested, h⟩
  cases hnegative : c.negativeCondition with
  | true => exact Condition.admits_negative hnegative _
  | false =>
    unfold Condition.meets at hmeets
    rw [not_not.1 htested, htarget] at hmeets
    dsimp only at hmeets
    rw [hnegative, Bool.bne_false] at hmeets
    exact Condition.admits_of_condMeets hnegative hown (Bool.and_eq_true_iff.1 hmeets).1

/-- The searched object passes else groups, but only such as have a condition for others, and no else group is all for
its type. -/
def Lost (S : ConditionReferences) (w : World Obj) (onConditionCheck : Condition → Targets Obj → Bool)
    (targets : Targets Obj) (object : Obj) (conditions : List Condition) : Prop :=
  Open S (fun c => c.meets w onConditionCheck targets = true) conditions ∧
    ¬ Open S (fun c => c.meets w onConditionCheck targets = true ∧ ¬ ForOthers (w.getTypeId object) c) conditions ∧
    ¬ Open S (Condition.Admits (w.getTypeId object)) conditions

/-- The check of a list, at any depth. -/
theorem isObjectMeetToConditions_spec (S : ConditionReferences) (w : World Obj)
    (onConditionCheck : Condition → Targets Obj → Bool) (targets : Targets Obj) (conditions : List Condition) :
    ∃ met, isObjectMeetToConditions S w onConditionCheck targets conditions = some met ∧
      (met = true ↔ Open S (fun c => c.meets w onConditionCheck targets = true) conditions) := by
  unfold isObjectMeetToConditions
  split
  next hempty =>
    rw [List.isEmpty_iff.1 hempty]
    exact ⟨true, rfl, iff_of_true rfl .empty⟩
  next hne =>
  obtain ⟨d, hd, hbelow⟩ := below_depth S conditions
  rw [hd]
  exact isObjectMeetToConditionList_spec d (fun h => hne (List.isEmpty_iff.2 h)) hbelow

/-- The search by the mask loses no valid target, but one that passes the list by conditions on the caster that are for
other objects. -/
theorem searcherMask_sound_iff {object : Obj} {mask : Nat} (htarget : targets 0 = some object)
    (hmask : getSearcherTypeMaskForConditionList S conditions = some mask) :
    ∃ met, isObjectMeetToConditions S w onConditionCheck targets conditions = some met ∧
      ((met = true → mask.testBit (w.getTypeId object).gridBit = true) ↔
        ¬ Lost S w onConditionCheck targets object conditions) := by
  have hbit : mask.testBit (w.getTypeId object).gridBit = true ↔
      Open S (Condition.Admits (w.getTypeId object)) conditions := searcherTypeMaskForConditionList_spec _ hmask
  obtain ⟨met, hmet, hopen⟩ := isObjectMeetToConditions_spec S w onConditionCheck targets conditions
  refine ⟨met, hmet, ?_⟩
  rw [hopen, hbit]
  constructor
  · intro hsound hlost
    exact hlost.2.2 (hsound hlost.1)
  · intro hfound hpass
    by_contra hclosed
    -- an else group it passes without a condition for others is for its type
    refine hfound ⟨hpass, fun hown => hclosed (hown.mono fun c hc h => ?_), hclosed⟩
    exact admits_of_meets htarget hc h.1 h.2

end

/-! ## A condition on the caster -/

/-- No templates. -/
def ConditionReferences.none : ConditionReferences where
  lists _ := Option.none
  rank _ := 0
  filled _ _ h := by cases h
  descends _ _ h := by cases h

/-- Objects that are no more than their types; units have every aura. -/
def World.auras : World TypeId := { (default : World TypeId) with getTypeId := id, hasAuraEffect := fun _ _ _ => true }

/-- CONDITION_AURA, of a target. -/
def Condition.aura (conditionTarget : Fin 3) : Condition where
  elseGroup := 0
  conditionType := .aura
  conditionValue1 := 8326
  conditionValue2 := 0
  conditionValue3 := 0
  referenceId := 0
  conditionTarget := conditionTarget
  negativeCondition := false
  accepted := .inr (by decide)

/-- Of an object, with a player for the caster. -/
def Targets.byPlayer (object : TypeId) : Targets TypeId := fun i =>
  if i = 0 then some object else if i = 1 then some .player else Option.none

/-- A game object is a valid target while the caster has an aura, but game objects are not searched. -/
theorem aura_of_caster_loses_gameObject :
    isObjectMeetToConditions .none .auras (fun _ _ => true) (.byPlayer .gameObject) [.aura 1] = some true ∧
      ∃ mask, getSearcherTypeMaskForConditionList .none [.aura 1] = some mask ∧
        mask.testBit (World.auras.getTypeId TypeId.gameObject).gridBit = false :=
  ⟨rfl, GRID_MAP_TYPE_MASK_CREATURE ||| GRID_MAP_TYPE_MASK_PLAYER, rfl, by decide⟩

theorem searcherMask_sound_aura : ∃ met,
    isObjectMeetToConditions .none .auras (fun _ _ => true) (.byPlayer .unit) [.aura 0] = some met ∧
      ((met = true → (GRID_MAP_TYPE_MASK_CREATURE ||| GRID_MAP_TYPE_MASK_PLAYER).testBit TypeId.unit.gridBit = true) ↔
        ¬ Lost .none .auras (fun _ _ => true) (.byPlayer .unit) .unit [.aura 0]) :=
  searcherMask_sound_iff (w := World.auras) rfl rfl

end AtlasWow.Conditions
