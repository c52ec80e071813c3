/-
Whether the evaluation of conditions ends. The loader skips a row of a template
that refers to the template itself, but templates can refer to each other in a
circle, and both evaluations follow the references. The search mask also asserts
where a reference is not found, which the loader does not look for.
-/
import AtlasWow.Conditions.LoadConditions
import AtlasWow.Lib.Walks

namespace AtlasWow.Conditions

open ConditionMgr

/-- The conditions before one in its else group leave no type of object. -/
def Closed (R : ConditionReferenceStore) (before : List Condition) (c : Condition) : Prop :=
  ∀ type, ¬ ∀ c' ∈ before, c'.elseGroup = c.elseGroup → Good R (Condition.Admits type) c'

/-- A template that is missing is referred to only where no type of object is left. -/
def Covered (R : ConditionReferenceStore) (conditions : List Condition) : Prop :=
  ∀ before c after, conditions = before ++ c :: after → c.referenceId ≠ 0 → R.lists c.referenceId = none →
    Closed R before c

/-- A template has a condition that refers to another. -/
def Refers (R : ConditionReferenceStore) (id id' : Nat) : Prop :=
  ∃ l, R.lists id = some l ∧ ∃ c ∈ l, c.referenceId = id' ∧ id' ≠ 0

/-- Both evaluations return for every list, whatever they are asked about. -/
structure EvaluationEnds (stores : ConditionStores) : Prop where
  meets : ∀ place, stores place ≠ [] → ∀ {Obj : Type} (w : World Obj) (onConditionCheck : Condition → Targets Obj → Bool)
    (targets : Targets Obj), ∃ depth met,
      isObjectMeetToConditionList stores.references w onConditionCheck targets depth (stores place) = some met
  mask : ∀ place, stores place ≠ [] → ∃ depth mask,
    searcherTypeMaskForConditionList stores.references depth (stores place) = some mask
  wellFounded : WellFounded fun id' id => Refers stores.references id id'

/-! ## The mask of a list -/

/-- A mask of types has a type, unless it is empty. -/
theorem exists_type {mask : Nat} (hle : mask ≤ GRID_MAP_TYPE_MASK_ALL) (hne : mask ≠ 0) :
    ∃ type : TypeId, mask.testBit type.gridBit = true := by
  obtain ⟨i, hbit⟩ := Nat.exists_testBit_of_ne_zero hne
  have hlt : i < 5 := by
    by_contra hi
    have hpow : 2 ^ 5 ≤ 2 ^ i := Nat.pow_le_pow_right Nat.two_pos (Nat.le_of_not_lt hi)
    have hmask : mask < 2 ^ 5 := Nat.lt_of_le_of_lt hle (by decide)
    rw [Nat.testBit_lt_two_pow (hmask.trans_le hpow)] at hbit
    cases hbit
  match i with
  | 0 => exact ⟨.corpse, hbit⟩
  | 1 => exact ⟨.unit, hbit⟩
  | 2 => exact ⟨.dynamicObject, hbit⟩
  | 3 => exact ⟨.gameObject, hbit⟩
  | 4 => exact ⟨.player, hbit⟩
  | i + 5 => omega

/-- The masks of the else groups, for every type of object. -/
structure Masks (R : ConditionReferenceStore) (seen : List Condition) (store : OMap Nat Nat) : Prop where
  groups : ∀ type : TypeId, Groups R (Condition.Admits type) (fun v => v.testBit type.gridBit = true) seen store
  le_all : ∀ g v, store.find? g = some v → v ≤ GRID_MAP_TYPE_MASK_ALL

section

variable {R : ConditionReferenceStore} {maskList : List Condition → Option Nat} {store store' : OMap Nat Nat}
  {seen conditions : List Condition} {c : Condition}

theorem Masks.empty : Masks R [] .empty where
  groups _ := .empty
  le_all g v hv := by cases hv

/-- An else group is done with when no type is left. -/
theorem Masks.closed_iff (h : Masks R seen store) : store.find? c.elseGroup = some 0 ↔ Closed R seen c := by
  cases hfound : store.find? c.elseGroup with
  | none =>
    refine iff_of_false (by simp) fun hclosed => hclosed .unit fun c' hc' hgroup => ?_
    exact absurd hgroup (((h.groups .unit).absent _).1 hfound c' hc')
  | some v =>
    have hgood := fun type => (h.groups type).value _ v hfound
    constructor
    · intro hzero type hall
      have hbit := (hgood type).2 hall
      rw [Option.some.inj hzero, Nat.zero_testBit] at hbit
      cases hbit
    · intro hclosed
      by_contra hv
      obtain ⟨type, hbit⟩ := exists_type (h.le_all _ v hfound) fun hzero => hv (congrArg some hzero)
      exact hclosed type ((hgood type).1 hbit)

theorem maskStep_le_all (h : ∀ g v, store.find? g = some v → v ≤ GRID_MAP_TYPE_MASK_ALL)
    (hstep : maskStep R maskList store c = some store') {g v : Nat} (hv : store'.find? g = some v) :
    v ≤ GRID_MAP_TYPE_MASK_ALL := by
  unfold maskStep at hstep
  rw [if_pos (isLoaded_eq c)] at hstep
  split at hstep
  next =>
    cases hstep
    exact h g v hv
  next =>
  obtain ⟨mask, -, rfl⟩ := Option.map_eq_some_iff.1 hstep
  by_cases hg : g = c.elseGroup
  · rw [hg, OMap.find?_insert_self] at hv
    cases hv
    refine Nat.and_le_left.trans ?_
    cases hold : store.find? c.elseGroup with
    | none => exact Nat.le_refl _
    | some old => exact h _ old hold
  · rw [OMap.find?_insert_of_ne hg] at hv
    exact h g v hv

theorem Masks.step (h : Masks R seen store)
    (hgood : ∀ (type : TypeId) mask, conditionMask R maskList c = some mask →
      (mask.testBit type.gridBit = true ↔ Good R (Condition.Admits type) c))
    (hstep : maskStep R maskList store c = some store') : Masks R (seen ++ [c]) store' where
  groups type := maskStep_spec (hgood type) hstep (h.groups type)
  le_all _ _ hv := maskStep_le_all h.le_all hstep hv

theorem maskStep_isSome : (∃ store', maskStep R maskList store c = some store') ↔
    store.find? c.elseGroup = some 0 ∨ ∃ mask, conditionMask R maskList c = some mask := by
  unfold maskStep
  rw [if_pos (isLoaded_eq c)]
  split
  next hzero => exact iff_of_true ⟨_, rfl⟩ (.inl hzero)
  next hnonzero =>
  rw [or_iff_right fun hzero => hnonzero hzero]
  constructor
  · intro hex
    obtain ⟨store', hstep⟩ := hex
    obtain ⟨mask, hmask, -⟩ := Option.map_eq_some_iff.1 hstep
    exact ⟨mask, hmask⟩
  · intro hex
    obtain ⟨mask, hmask⟩ := hex
    exact ⟨_, Option.map_eq_some_iff.2 ⟨mask, hmask, rfl⟩⟩

/-- The loop over a list ends when the conditions without a mask are not reached. -/
theorem maskStep_foldlM (hgood : ∀ c ∈ conditions, ∀ (type : TypeId) mask, conditionMask R maskList c = some mask →
      (mask.testBit type.gridBit = true ↔ Good R (Condition.Admits type) c)) (h : Masks R seen store) :
    (∃ store', conditions.foldlM (maskStep R maskList) store = some store') ↔
      ∀ before c after, conditions = before ++ c :: after → conditionMask R maskList c = none →
        Closed R (seen ++ before) c := by
  induction conditions generalizing seen store with
  | nil => exact iff_of_true ⟨store, rfl⟩ fun before c after hsplit => by simp at hsplit
  | cons c conditions ih =>
    rw [List.foldlM_cons]
    have hfirst : (∃ store', maskStep R maskList store c = some store') ↔
        (conditionMask R maskList c = none → Closed R seen c) := by
      rw [maskStep_isSome, h.closed_iff]
      cases conditionMask R maskList c with
      | none => exact ⟨fun hor _ => hor.resolve_right fun hex => by simp at hex, fun hclosed => .inl (hclosed rfl)⟩
      | some mask => exact iff_of_true (.inr ⟨mask, rfl⟩) fun hnone => by cases hnone
    constructor
    · intro hrun
      obtain ⟨store', hrun⟩ := hrun
      obtain ⟨store₁, hone, hrest⟩ := Option.bind_eq_some_iff.1 hrun
      intro before c' after hsplit hnone
      cases before with
      | nil =>
        cases hsplit
        rw [List.append_nil]
        exact hfirst.1 ⟨store₁, hone⟩ hnone
      | cons c'' before =>
        cases hsplit
        have hnext := h.step (hgood c List.mem_cons_self) hone
        have hclosed := (ih (fun c hc => hgood c (List.mem_cons_of_mem _ hc)) hnext).1 ⟨store', hrest⟩ _ _ _ rfl hnone
        rw [List.append_assoc] at hclosed
        exact hclosed
    · intro hall
      obtain ⟨store₁, hone⟩ := hfirst.2 fun hnone => by
        have hclosed := hall [] c conditions rfl hnone
        rw [List.append_nil] at hclosed
        exact hclosed
      have hnext := h.step (hgood c List.mem_cons_self) hone
      obtain ⟨store', hrest⟩ := (ih (fun c hc => hgood c (List.mem_cons_of_mem _ hc)) hnext).2
        fun before c' after hsplit hnone => by
          rw [List.append_assoc]
          exact hall (c :: before) c' after (by rw [hsplit, List.cons_append]) hnone
      exact ⟨store', Option.bind_eq_some_iff.2 ⟨store₁, hone, hrest⟩⟩

theorem searcherTypeMask_isSome {d : Nat} (hne : conditions ≠ []) :
    (∃ mask, searcherTypeMaskForConditionList R (d + 1) conditions = some mask) ↔
      ∀ before c after, conditions = before ++ c :: after →
        conditionMask R (searcherTypeMaskForConditionList R d) c = none → Closed R before c := by
  unfold searcherTypeMaskForConditionList
  rw [if_neg fun h => hne (List.isEmpty_iff.1 h)]
  rw [← Option.isSome_iff_exists, Option.isSome_map, Option.isSome_iff_exists]
  exact maskStep_foldlM (fun c _ type mask hmask =>
    conditionMask_spec (fun _ l mask _ hmask => searcherTypeMaskForConditionList_spec d hmask) hmask) Masks.empty

theorem Condition.getSearcherTypeMask_isSome (hown : c.referenceId = 0) : ∃ mask, c.getSearcherTypeMask = some mask := by
  obtain ⟨-, hswap, -, -⟩ := c.accepted.resolve_left fun h => h hown
  unfold Condition.getSearcherTypeMask
  split
  next => exact ⟨_, rfl⟩
  next =>
  cases htype : c.conditionType with
  | terrainSwap => exact absurd htype hswap
  | objectEntryGuid =>
    dsimp only
    split_ifs <;> exact ⟨_, rfl⟩
  | _ => exact ⟨_, rfl⟩

/-- A condition has no mask when its template is missing or has none itself. -/
theorem conditionMask_eq_none : conditionMask R maskList c = none ↔
    c.referenceId ≠ 0 ∧ ∀ l, R.lists c.referenceId = some l → maskList l = none := by
  unfold conditionMask
  by_cases href : c.referenceId ≠ 0
  · rw [if_pos href, Option.bind_eq_none_iff]
    exact (and_iff_right href).symm
  rw [if_neg href]
  obtain ⟨mask, hmask⟩ := Condition.getSearcherTypeMask_isSome (not_not.1 href)
  rw [hmask]
  exact iff_of_false (Option.some_ne_none mask) fun h => href h.1

theorem covered_of_mask {d mask : Nat} (hmask : searcherTypeMaskForConditionList R d conditions = some mask) :
    Covered R conditions := by
  intro before c after hsplit href hmissing
  cases d with
  | zero => cases hmask
  | succ d =>
    have hne : conditions ≠ [] := fun h => by simp [h] at hsplit
    refine (searcherTypeMask_isSome hne).1 ⟨mask, hmask⟩ before c after hsplit (conditionMask_eq_none.2 ⟨href, ?_⟩)
    intro l hl
    rw [hmissing] at hl
    cases hl

/-- Without circles the mask of a list is found, when the lists do not need a missing template. -/
theorem mask_of_covered {S : ConditionReferences} (htemplates : ∀ id l, S.lists id = some l → Covered S l) (d : Nat) :
    ∀ {conditions : List Condition}, conditions ≠ [] → Covered S conditions → Below S d conditions →
      ∃ mask, searcherTypeMaskForConditionList S (d + 1) conditions = some mask := by
  induction d using Nat.strongRecOn with
  | ind d ih =>
    intro conditions hne hcovered hbelow
    refine (searcherTypeMask_isSome hne).2 fun before c after hsplit hnone => ?_
    obtain ⟨href, hlist⟩ := conditionMask_eq_none.1 hnone
    refine hcovered before c after hsplit href ?_
    cases hl : S.lists c.referenceId with
    | none => rfl
    | some l =>
      have hc : c ∈ conditions := hsplit ▸ List.mem_append_right _ List.mem_cons_self
      obtain ⟨d', rfl⟩ := Nat.exists_eq_succ_of_ne_zero (hbelow.pos hc href)
      obtain ⟨mask, hmask⟩ := ih d' (Nat.lt_succ_self d') (S.filled _ l hl) (htemplates _ l hl)
        (hbelow.reference hc href hl)
      rw [hlist l hl] at hmask
      cases hmask

end

/-! ## Circles -/

section

variable {s : LoadStores} {rows : List ConditionRow} {row : ConditionRow} {c : Condition} {id id' : Nat}

/-- A row of a template refers to another template. -/
def RefersTo (rows : List ConditionRow) (id id' : Nat) : Prop :=
  id ≠ 0 ∧ id' ≠ 0 ∧ id ≠ id' ∧
    ∃ row ∈ rows, row.sourceTypeOrReferenceId = -(id : Int) ∧ row.conditionTypeOrReference = -(id' : Int)

/-- What a row refers to. -/
theorem toCondition_referenceId (hc : row.toCondition s = some c) :
    c.referenceId ≠ 0 ↔ row.conditionTypeOrReference < 0 := by
  unfold ConditionRow.toCondition at hc
  split at hc
  next href =>
    split at hc
    next => cases hc
    next =>
    cases hc
    exact iff_of_true (Int.natAbs_ne_zero.2 href.ne) href
  next href =>
  split at hc
  next => cases hc
  next =>
  split at hc
  next =>
    cases hc
    exact iff_of_false (fun h => h rfl) href
  next => cases hc

theorem toCondition_reference (href : row.conditionTypeOrReference < 0) :
    (∃ c, row.toCondition s = some c ∧ c.referenceId = id) ↔
      row.conditionTypeOrReference ≠ row.sourceTypeOrReferenceId ∧ row.conditionTypeOrReference.natAbs = id := by
  unfold ConditionRow.toCondition
  rw [dif_pos href]
  split
  next hself => exact iff_of_false (fun h => by obtain ⟨c, hc, -⟩ := h; cases hc) fun h => h.1 hself
  next hself =>
  constructor
  · intro hex
    obtain ⟨c, hc, hid⟩ := hex
    cases hc
    exact ⟨hself, hid⟩
  · intro hid
    exact ⟨_, rfl, hid.2⟩

/-- The templates refer to each other as the rows of the table do, but not to themselves. -/
theorem refers_iff : Refers (loadConditions s rows).references id id' ↔ RefersTo rows id id' := by
  constructor
  · intro hrefers
    obtain ⟨l, hl, c, hc, hid, hne⟩ := hrefers
    rw [← (ConditionStores.references_lists.1 hl).1, mem_loadConditions] at hc
    obtain ⟨row, hrow, hc, htemplate, hsource⟩ := hc
    have htemplate : row.sourceTypeOrReferenceId < 0 := of_decide_eq_true htemplate
    have href := (toCondition_referenceId hc).1 (hid ▸ hne)
    obtain ⟨hself, habs⟩ := (toCondition_reference href).1 ⟨c, hc, hid⟩
    refine ⟨by omega, hne, fun h => hself (by omega), row, hrow, by omega, by omega⟩
  · intro hrefers
    obtain ⟨hid, hne, hself, row, hrow, hsource, href⟩ := hrefers
    obtain ⟨c, hc, habs⟩ := (@toCondition_reference s row id' (by omega)).2 ⟨by omega, by omega⟩
    have hmem : c ∈ loadConditions s rows (.reference id) :=
      mem_loadConditions.2 ⟨row, hrow, hc, decide_eq_true (by omega), by omega⟩
    exact ⟨_, ConditionStores.references_lists.2 ⟨rfl, List.ne_nil_of_mem hmem⟩, c, hmem, habs, hne⟩

theorem wellFounded_refers_iff : WellFounded (fun id' id => Refers (loadConditions s rows).references id id') ↔
    Walks.Acyclic (RefersTo rows) := by
  simp only [refers_iff]
  refine Walks.wellFounded_iff_acyclic (rows.map fun row => row.conditionTypeOrReference.natAbs) fun id id' h => ?_
  obtain ⟨-, -, -, row, hrow, -, href⟩ := h
  exact List.mem_map.2 ⟨row, hrow, by omega⟩

/-- Evaluation ends when the templates do not refer to each other in a circle, and no list needs a template that is
missing. -/
theorem evaluationEnds_iff (s : LoadStores) (rows : List ConditionRow) :
    EvaluationEnds (loadConditions s rows) ↔ Walks.Acyclic (RefersTo rows) ∧
      ∀ place, Covered (loadConditions s rows).references (loadConditions s rows place) := by
  constructor
  · intro h
    refine ⟨wellFounded_refers_iff.1 h.wellFounded, fun place => ?_⟩
    by_cases hplace : loadConditions s rows place = []
    · intro before c after hsplit
      simp [hplace] at hsplit
    · obtain ⟨depth, mask, hmask⟩ := h.mask place hplace
      exact covered_of_mask hmask
  · intro h
    obtain ⟨hacyclic, hcovered⟩ := h
    obtain ⟨rank, hrank⟩ := hacyclic.exists_rank (rows.map fun row => row.conditionTypeOrReference.natAbs)
      fun id id' hrefers => by
        obtain ⟨-, -, -, row, hrow, -, href⟩ := hrefers
        exact List.mem_map.2 ⟨row, hrow, by omega⟩
    let S : ConditionReferences :=
      { (loadConditions s rows).references with
        rank := rank
        descends := fun id l hl c hc href => hrank id _ (refers_iff.1 ⟨l, hl, c, hc, rfl, href⟩) }
    refine ⟨fun place hplace Obj w onConditionCheck targets => ?_, fun place hplace => ?_, wellFounded_refers_iff.2 hacyclic⟩
    · obtain ⟨d, -, hbelow⟩ := below_depth S (loadConditions s rows place)
      obtain ⟨met, hmet, -⟩ := @isObjectMeetToConditionList_spec S Obj w onConditionCheck targets d _ hplace hbelow
      exact ⟨d + 1, met, hmet⟩
    · obtain ⟨d, -, hbelow⟩ := below_depth S (loadConditions s rows place)
      refine ⟨d + 1, mask_of_covered (S := S) (fun id l hl => ?_) d hplace (hcovered place) hbelow⟩
      rw [← (ConditionStores.references_lists.1 hl).1]
      exact hcovered _

/-- Lists that begin with references to each other are followed without end. -/
theorem evaluation_diverges {R : ConditionReferenceStore} {circle : List Condition → Prop}
    (hcircle : ∀ l, circle l → ∃ c rest l', l = c :: rest ∧ c.referenceId ≠ 0 ∧ R.lists c.referenceId = some l' ∧ circle l')
    {Obj : Type} (w : World Obj) (onConditionCheck : Condition → Targets Obj → Bool) (targets : Targets Obj) (depth : Nat) :
    ∀ l, circle l → isObjectMeetToConditionList R w onConditionCheck targets depth l = none ∧
      searcherTypeMaskForConditionList R depth l = none := by
  induction depth with
  | zero => exact fun l _ => ⟨rfl, rfl⟩
  | succ depth ih =>
    intro l hl
    obtain ⟨c, rest, l', rfl, href, hlist, hl'⟩ := hcircle l hl
    obtain ⟨hmeet, hmask⟩ := ih l' hl'
    have hcmeet : conditionMet R w onConditionCheck targets
        (isObjectMeetToConditionList R w onConditionCheck targets depth) c = none := by
      unfold conditionMet
      rw [if_pos href, hlist]
      exact hmeet
    have hcmask : conditionMask R (searcherTypeMaskForConditionList R depth) c = none := by
      refine conditionMask_eq_none.2 ⟨href, fun l'' hl'' => ?_⟩
      rw [hlist] at hl''
      cases hl''
      exact hmask
    constructor
    · unfold isObjectMeetToConditionList
      rw [List.foldlM_cons]
      unfold meetStep
      rw [if_pos (isLoaded_eq c), OMap.find?_empty]
      dsimp only
      rw [hcmeet]
      rfl
    · unfold searcherTypeMaskForConditionList
      rw [if_neg (by simp), List.foldlM_cons]
      unfold maskStep
      rw [if_pos (isLoaded_eq c), OMap.find?_empty]
      dsimp only
      rw [hcmask]
      rfl

/-- A row that is a reference. -/
def ConditionRow.referring (sourceTypeOrReferenceId sourceEntry conditionTypeOrReference : Int) : ConditionRow where
  sourceTypeOrReferenceId := sourceTypeOrReferenceId
  sourceGroup := 0
  sourceEntry := sourceEntry
  sourceId := 0
  elseGroup := 0
  conditionTypeOrReference := conditionTypeOrReference
  conditionTarget := 0
  conditionValue1 := 0
  conditionValue2 := 0
  conditionValue3 := 0
  negativeCondition := false

/-- The conditions of a spell, by two templates that refer to each other. -/
def rowsInCircle : List ConditionRow := [.referring 17 133 (-1), .referring (-1) 0 (-2), .referring (-2) 0 (-1)]

/-- The check of the spell's conditions recurses without end, for any caster. -/
theorem circle_of_two_templates : ¬ EvaluationEnds (loadConditions default rowsInCircle) ∧
    ∀ (targets : Targets TypeId) (depth : Nat),
      isObjectMeetToConditionList (loadConditions default rowsInCircle).references .auras (fun _ _ => true) targets depth
        (loadConditions default rowsInCircle (.notGrouped .spell 133)) = none := by
  let template := fun id => loadConditions default rowsInCircle (.reference id)
  have hcircle : ∀ l, l = template 1 ∨ l = template 2 → ∃ c rest l', l = c :: rest ∧ c.referenceId ≠ 0 ∧
      (loadConditions default rowsInCircle).references.lists c.referenceId = some l' ∧
        (l' = template 1 ∨ l' = template 2) := by
    intro l hl
    rcases hl with rfl | rfl
    · exact ⟨_, [], _, rfl, by decide, rfl, .inr rfl⟩
    · exact ⟨_, [], _, rfl, by decide, rfl, .inl rfl⟩
  -- the spell has what the second template has, a reference to the first
  have hdiverges := fun targets depth =>
    (evaluation_diverges hcircle World.auras (fun _ _ => true) targets depth (template 2) (.inr rfl)).1
  refine ⟨fun hends => ?_, hdiverges⟩
  obtain ⟨depth, met, hmet⟩ := hends.meets (.notGrouped .spell 133) (List.cons_ne_nil _ _) World.auras (fun _ _ => true)
    fun _ => none
  exact Option.some_ne_none met (hmet.symm.trans (hdiverges _ depth))

end

end AtlasWow.Conditions
