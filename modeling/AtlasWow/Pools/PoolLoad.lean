/-
Pools in pools, as `PoolMgr::LoadFromDB` loads them: the rows of `pool_pool`
make each pool a child of at most one mother, and a check then removes links
until no pool is its own ancestor.

The check follows the mothers from each pool in turn, and ends where it comes
to a pool it has seen. What it removes is one link of each cycle (`check_spec`).
-/
import AtlasWow.Lib.Links
import AtlasWow.Lib.OrderedMap
import AtlasWow.Lib.UnorderedMap
import AtlasWow.Pools.PoolGroup

namespace AtlasWow.Pools

/-- A row of `pool_pool`, whose key is the child. -/
structure PoolRow where
  poolId : Nat
  motherPool : Nat
  chance : Rat

/-- `PoolMgr`, without the searches by object; the templates are their limits. -/
structure PoolMgr where
  poolTemplate : UMap Nat UInt32
  poolCreatureGroups : UMap Nat PoolGroup
  poolGameobjectGroups : UMap Nat PoolGroup
  poolPoolGroups : UMap Nat PoolGroup
  poolQuestGroups : UMap Nat PoolGroup
  poolSearchMap : OMap Nat Nat

namespace PoolMgr

variable (pl : Placement Nat PoolGroup)

/-- A child is added to the group of its mother, and to the search map. -/
def addLink (mgr : PoolMgr) (row : PoolRow) (maxLimit : UInt32) : PoolMgr :=
  let group := { (mgr.poolPoolGroups.find? row.motherPool).getD (.empty 0) with poolId := row.motherPool }
  { mgr with
    poolPoolGroups := mgr.poolPoolGroups.insert pl row.motherPool (group.addEntry ⟨row.poolId, |row.chance|⟩ maxLimit)
    poolSearchMap := if (mgr.poolSearchMap.find? row.poolId).isSome then mgr.poolSearchMap
      else mgr.poolSearchMap.insert row.poolId row.motherPool }

/-- A row is a link, unless one of its pools is unknown, both are the same, or its chance is out of range. -/
def loadPool (mgr : PoolMgr) (row : PoolRow) : PoolMgr :=
  match mgr.poolTemplate.find? row.motherPool with
  | none => mgr
  | some maxLimit =>
    if (mgr.poolTemplate.find? row.poolId).isNone then mgr
    else if row.motherPool = row.poolId then mgr
    else if row.chance < 0 || 100 < row.chance then mgr
    else mgr.addLink pl row maxLimit

/-- A link is taken out of the group of the mother and out of the search map. -/
def removeLink (mgr : PoolMgr) (childPool motherPool : Nat) : PoolMgr :=
  { mgr with
    poolPoolGroups := mgr.poolPoolGroups.insert pl motherPool
      (((mgr.poolPoolGroups.find? motherPool).getD (.empty 0)).removeOneRelation childPool)
    poolSearchMap := mgr.poolSearchMap.erase childPool }

/-- The mothers are followed from a pool until there is none, or one that was checked; `none` if the fuel runs out. -/
def checkMothers : Nat → OMap Nat Unit → Nat → PoolMgr → Option PoolMgr
  | 0, _, _, _ => none
  | fuel + 1, checkedPools, poolId, mgr =>
    match mgr.poolSearchMap.find? poolId with
    | none => some mgr
    | some motherPool =>
      let checkedPools := checkedPools.insert poolId ()
      if motherPool ∈ checkedPools.keys then some (mgr.removeLink pl poolId motherPool)
      else checkMothers fuel checkedPools motherPool mgr

/-- The check for circular references. -/
def check (fuel : Nat) (mgr : PoolMgr) : Option PoolMgr :=
  (mgr.poolTemplate.entries.map Prod.fst).foldlM (fun mgr poolId => checkMothers pl fuel .empty poolId mgr) mgr

/-- The rows of `pool_pool`, before the check. -/
def loadPools (mgr : PoolMgr) (rows : List PoolRow) : PoolMgr := rows.foldl (loadPool pl) mgr

/-! ## What is loaded -/

/-- The mother of a pool. -/
def mother (mgr : PoolMgr) (poolId : Nat) : Option Nat := mgr.poolSearchMap.find? poolId

/-- The pools in the group of a pool. -/
def children (mgr : PoolMgr) (poolId : Nat) : List Nat := ((mgr.poolPoolGroups.find? poolId).getD (.empty 0)).guids

/-- The rows that are not skipped. -/
def Accepts (mgr : PoolMgr) (row : PoolRow) : Prop :=
  (mgr.poolTemplate.find? row.motherPool).isSome ∧ (mgr.poolTemplate.find? row.poolId).isSome ∧
    row.motherPool ≠ row.poolId ∧ 0 ≤ row.chance ∧ row.chance ≤ 100

/-- The groups hold what the search map says, and all pools that are linked have templates. -/
structure Linked (mgr : PoolMgr) : Prop where
  nodup : ∀ m, (mgr.children m).Nodup
  groups : ∀ m c, c ∈ mgr.children m ↔ mgr.mother c = some m
  known : ∀ c, (mgr.mother c).isSome → (mgr.poolTemplate.find? c).isSome

variable {mgr : PoolMgr}

theorem children_addLink (mgr : PoolMgr) (row : PoolRow) (maxLimit : UInt32) (m : Nat) :
    ((mgr.addLink pl row maxLimit).children m).Perm
      (if m = row.motherPool then row.poolId :: mgr.children m else mgr.children m) := by
  rw [addLink, children, UMap.find?_insert]
  split
  next he =>
    rw [he]
    exact PoolGroup.guids_addEntry _ _ _
  next => rfl

variable {row : PoolRow}

theorem mother_addLink (hnew : mgr.mother row.poolId = none) (maxLimit : UInt32) (c : Nat) :
    (mgr.addLink pl row maxLimit).mother c = if c = row.poolId then some row.motherPool else mgr.mother c := by
  rw [mother] at hnew
  rw [addLink, mother, mother, hnew]
  exact OMap.find?_insert _ _ _ _

theorem loadPool_skipped (h : ¬mgr.Accepts row) : mgr.loadPool pl row = mgr := by
  rw [loadPool]
  split
  next => rfl
  next hmother =>
  split
  next => rfl
  next hchild =>
  split
  next => rfl
  next hself =>
  split
  next => rfl
  next hchance =>
  rw [Bool.or_eq_true, decide_eq_true_iff, decide_eq_true_iff, not_or, not_lt, not_lt] at hchance
  refine absurd ⟨?_, ?_, hself, hchance⟩ h
  · rw [hmother]
    rfl
  · rwa [Bool.not_eq_true, Option.isNone_eq_false_iff] at hchild

theorem loadPool_accepted (h : mgr.Accepts row) : ∃ maxLimit, mgr.loadPool pl row = mgr.addLink pl row maxLimit := by
  obtain ⟨hmother, hchild, hself, hlow, hhigh⟩ := h
  obtain ⟨maxLimit, hmax⟩ := Option.isSome_iff_exists.1 hmother
  refine ⟨maxLimit, ?_⟩
  rw [loadPool, hmax]
  simp only
  rw [if_neg, if_neg hself, if_neg]
  · rw [Bool.or_eq_true, decide_eq_true_iff, decide_eq_true_iff, not_or, not_lt, not_lt]
    exact ⟨hlow, hhigh⟩
  · rwa [Bool.not_eq_true, Option.isNone_eq_false_iff]

theorem Linked.loadPool (h : Linked mgr) (hnew : mgr.mother row.poolId = none) : Linked (mgr.loadPool pl row) := by
  by_cases haccepts : mgr.Accepts row
  · obtain ⟨maxLimit, hload⟩ := loadPool_accepted pl haccepts
    rw [hload]
    refine ⟨fun m => ?_, fun m c => ?_, fun c hc => ?_⟩
    · rw [(children_addLink pl mgr row maxLimit m).nodup_iff]
      split
      · refine List.nodup_cons.2 ⟨fun hmem => ?_, h.nodup m⟩
        exact Option.some_ne_none m (((h.groups m _).1 hmem).symm.trans hnew)
      · exact h.nodup m
    · rw [(children_addLink pl mgr row maxLimit m).mem_iff, mother_addLink pl hnew]
      split <;> split
      next hm hc => simp [hm, hc]
      next hm hc => rw [List.mem_cons, or_iff_right hc, h.groups]
      next hm hc =>
        rw [hc, h.groups, hnew]
        simp [Ne.symm hm]
      next hm hc => exact h.groups m c
    · rw [mother_addLink pl hnew] at hc
      split at hc
      next he => exact he ▸ haccepts.2.1
      next => exact h.known c hc
  · rwa [loadPool_skipped pl haccepts]

/-- What a row of a new child changes. -/
theorem loadPool_spec (hnew : mgr.mother row.poolId = none) : (mgr.loadPool pl row).poolTemplate = mgr.poolTemplate ∧
      (mgr.loadPool pl row).poolSearchMap.size ≤ mgr.poolSearchMap.size + 1 ∧
      ∀ c m, (mgr.loadPool pl row).mother c = some m ↔
        mgr.mother c = some m ∨ mgr.Accepts row ∧ row.poolId = c ∧ row.motherPool = m := by
  by_cases haccepts : mgr.Accepts row
  · obtain ⟨maxLimit, hload⟩ := loadPool_accepted pl haccepts
    rw [hload]
    refine ⟨rfl, ?_, fun c m => ?_⟩
    · have hnone : row.poolId ∉ mgr.poolSearchMap.keys := OMap.find?_eq_none.1 hnew
      rw [mother] at hnew
      rw [addLink, hnew]
      exact (OMap.size_insert_of_notMem hnone _).le
    · rw [mother_addLink pl hnew]
      split
      next hc =>
        rw [hc, hnew]
        simp [haccepts]
      next hc =>
      rw [or_iff_left]
      exact fun h => hc h.2.1.symm
  · rw [loadPool_skipped pl haccepts]
    exact ⟨rfl, Nat.le_succ _, fun c m => (or_iff_left fun h => haccepts h.1).symm⟩

/-- Rows of new children that are all different are linked as far as they are accepted. -/
theorem Linked.loadPools {rows : List PoolRow} : ∀ {mgr : PoolMgr}, Linked mgr → (rows.map (·.poolId)).Nodup →
    (∀ row ∈ rows, mgr.mother row.poolId = none) →
    Linked (mgr.loadPools pl rows) ∧ (mgr.loadPools pl rows).poolTemplate = mgr.poolTemplate ∧
      (mgr.loadPools pl rows).poolSearchMap.size ≤ mgr.poolSearchMap.size + rows.length ∧
      ∀ c m, (mgr.loadPools pl rows).mother c = some m ↔
        mgr.mother c = some m ∨ ∃ row ∈ rows, mgr.Accepts row ∧ row.poolId = c ∧ row.motherPool = m := by
  induction rows with
  | nil => exact fun h _ _ => ⟨h, rfl, Nat.le_refl _, fun c m => (or_iff_left fun ⟨row, hrow, _⟩ => nomatch hrow).symm⟩
  | cons row rows ih =>
    intro mgr h hdistinct hnew
    rw [List.map_cons, List.nodup_cons] at hdistinct
    have hrow := hnew row List.mem_cons_self
    obtain ⟨htemplate, hsize, hmother⟩ := loadPool_spec pl hrow
    have haccepts : ∀ row', (mgr.loadPool pl row).Accepts row' ↔ mgr.Accepts row' := fun row' => by
      rw [Accepts, Accepts, htemplate]
    obtain ⟨hlinked, htemplate', hsize', hmother'⟩ := ih (h.loadPool pl hrow) hdistinct.2 fun row' hrow' => by
      refine Option.eq_none_iff_forall_ne_some.2 fun m hm => ?_
      rcases (hmother _ _).1 hm with hold | hadded
      · exact Option.some_ne_none m (hold.symm.trans (hnew row' (List.mem_cons_of_mem row hrow')))
      · exact hdistinct.1 (hadded.2.1 ▸ List.mem_map_of_mem hrow')
    refine ⟨hlinked, htemplate'.trans htemplate, ?_, fun c m => ?_⟩
    · rw [List.length_cons]
      exact hsize'.trans (by omega)
    · simp only [PoolMgr.loadPools, List.foldl_cons] at hmother' ⊢
      rw [hmother', hmother, List.exists_mem_cons_iff, or_assoc]
      simp only [haccepts]

/-! ## The check -/

theorem mother_removeLink (mgr : PoolMgr) (c m : Nat) : (mgr.removeLink pl c m).mother = Links.cutAt c mgr.mother :=
  funext fun c' => OMap.find?_erase _ _ c'

theorem Linked.removeLink (h : Linked mgr) {c m : Nat} (hc : mgr.mother c = some m) : Linked (mgr.removeLink pl c m) := by
  have hchildren : ∀ m', (mgr.removeLink pl c m).children m' = (mgr.children m').filter fun c' => m' = m → c' ≠ c := by
    intro m'
    rw [PoolMgr.removeLink, children, UMap.find?_insert]
    split
    next he =>
      simp only [Option.getD_some, he, forall_const]
      exact PoolGroup.guids_removeOneRelation (h.nodup m) c
    next he => simp [he, children]
  refine ⟨fun m' => ?_, fun m' c' => ?_, fun c' hc' => ?_⟩
  · rw [hchildren]
    exact (h.nodup m').filter _
  · rw [hchildren, mother_removeLink, List.mem_filter, decide_eq_true_iff, h.groups, Links.cutAt]
    split
    next he =>
      rw [he, hc]
      simp [eq_comm]
    next he => simp [he]
  · rw [mother_removeLink, Links.cutAt] at hc'
    split at hc'
    next => exact absurd hc' (by simp)
    next => exact h.known c' hc'

/-- What following the mothers from a pool comes to: an end, or a link of a cycle, which goes. -/
def Checked (mgr : PoolMgr) (poolId : Nat) (mgr' : PoolMgr) : Prop :=
  (mgr' = mgr ∧ ∃ top, Links.Reach mgr.mother poolId top ∧ mgr.mother top = none) ∨
    ∃ c m, mgr.mother c = some m ∧ Links.OnCycle mgr.mother c ∧ Links.Reach mgr.mother poolId c ∧ mgr' = mgr.removeLink pl c m

/-- The pools that were checked lead to the one that comes next, and there are not more of them than links. -/
theorem checkMothers_spec (mgr : PoolMgr) : ∀ (fuel : Nat) (checkedPools : OMap Nat Unit) (poolId : Nat),
    (∀ c ∈ checkedPools.keys, c ∈ mgr.poolSearchMap.keys ∧ Relation.TransGen (Links.Step mgr.mother) c poolId) →
    poolId ∉ checkedPools.keys → mgr.poolSearchMap.size < fuel + checkedPools.size →
    ∃ mgr', checkMothers pl fuel checkedPools poolId mgr = some mgr' ∧ Checked pl mgr poolId mgr' := by
  intro fuel
  induction fuel with
  | zero =>
    intro checkedPools poolId hchecked _ hfuel
    have hle : checkedPools.keys.length ≤ mgr.poolSearchMap.keys.length :=
      (checkedPools.nodup_keys.subperm fun c hc => (hchecked c hc).1).length_le
    rw [OMap.length_keys, OMap.length_keys] at hle
    omega
  | succ fuel ih =>
    intro checkedPools poolId hchecked hnew hfuel
    rw [checkMothers]
    split
    next hnone => exact ⟨mgr, rfl, .inl ⟨rfl, poolId, .refl, hnone⟩⟩
    next motherPool hmother =>
    have hstep : Links.Step mgr.mother poolId motherPool := hmother
    simp only
    split
    next hseen =>
      refine ⟨_, rfl, .inr ⟨poolId, motherPool, hmother, ?_, .refl, rfl⟩⟩
      rcases OMap.mem_keys_insert.1 hseen with he | hseen
      · exact .single (he ▸ hstep)
      · exact .head hstep (hchecked _ hseen).2
    next hunseen =>
    have hkey : poolId ∈ mgr.poolSearchMap.keys := OMap.mem_keys.2 ⟨_, hmother⟩
    obtain ⟨mgr', hrun, hresult⟩ := ih (checkedPools.insert poolId ()) motherPool
      (fun c hc => by
        rcases OMap.mem_keys_insert.1 hc with rfl | hc
        · exact ⟨hkey, .single hstep⟩
        · exact ⟨(hchecked c hc).1, (hchecked c hc).2.tail hstep⟩)
      hunseen (by
        rw [OMap.size_insert_of_notMem hnew]
        omega)
    refine ⟨mgr', hrun, hresult.imp ?_ ?_⟩
    · rintro ⟨he, top, hreach, hnone⟩
      exact ⟨he, top, .head hstep hreach, hnone⟩
    · rintro ⟨c, m, hc, hcycle, hreach, he⟩
      exact ⟨c, m, hc, hcycle, .head hstep hreach, he⟩

/-- The check of `linked`, once it is done with some pools. -/
structure Checking (linked : PoolMgr) (done : List Nat) (mgr : PoolMgr) : Prop where
  isLinked : Linked mgr
  breaks : Links.Breaks linked.mother mgr.mother
  template : mgr.poolTemplate = linked.poolTemplate
  size : mgr.poolSearchMap.size ≤ linked.poolSearchMap.size
  done : ∀ p ∈ done, ¬Links.OnCycle mgr.mother p

theorem Checking.next {linked mgr' : PoolMgr} {done : List Nat} (h : Checking linked done mgr) {poolId : Nat}
    (hchecked : Checked pl mgr poolId mgr') : Checking linked (poolId :: done) mgr' := by
  rcases hchecked with ⟨rfl, top, hreach, hnone⟩ | ⟨c, m, hc, hcycle, hreach, rfl⟩
  · exact { h with done := List.forall_mem_cons.2 ⟨Links.not_onCycle hreach hnone, h.done⟩ }
  have hbreaks := h.breaks.cutAt hcycle
  have hcut := (Links.Breaks.refl mgr.mother).cutAt hcycle
  refine ⟨h.isLinked.removeLink pl hc, ?_, h.template, ?_, ?_⟩
  · rwa [mother_removeLink]
  · have hsize := OMap.size_erase (OMap.mem_keys.2 ⟨m, hc⟩)
    exact (Nat.le_of_succ_le hsize.le).trans h.size
  · rw [mother_removeLink]
    exact List.forall_mem_cons.2 ⟨Links.not_onCycle_cutAt hcycle hreach, fun p hp hon => h.done p hp (hcut.isCut.onCycle hon)⟩

/-- The check ends, keeps the groups and the search map in step, and leaves no cycle, having cut one link of each. -/
theorem check_spec {linked : PoolMgr} (h : Linked linked) {fuel : Nat} (hfuel : linked.poolSearchMap.size < fuel) :
    ∃ mgr, linked.check pl fuel = some mgr ∧ Linked mgr ∧ mgr.poolSearchMap.size ≤ linked.poolSearchMap.size ∧
      Links.Breaks linked.mother mgr.mother ∧ ∀ p, ¬Links.OnCycle mgr.mother p := by
  have hrun : ∀ (pools : List Nat) {done : List Nat} {mgr : PoolMgr}, Checking linked done mgr →
      ∃ mgr', pools.foldlM (fun mgr poolId => checkMothers pl fuel .empty poolId mgr) mgr = some mgr' ∧
        Checking linked (pools.reverse ++ done) mgr' := by
    intro pools
    induction pools with
    | nil => exact fun hchecking => ⟨_, rfl, hchecking⟩
    | cons poolId pools ih =>
      intro done mgr hchecking
      obtain ⟨mgr', hcheck, hchecked⟩ := checkMothers_spec pl mgr fuel .empty poolId (fun c hc => nomatch hc) (fun hc => nomatch hc) (hchecking.size.trans_lt hfuel)
      obtain ⟨mgr'', hrest, hdone⟩ := ih (hchecking.next pl hchecked)
      refine ⟨mgr'', ?_, ?_⟩
      · rw [List.foldlM_cons, hcheck]
        exact hrest
      · rwa [List.reverse_cons, List.append_assoc]
  obtain ⟨mgr, hcheck, hchecking⟩ := hrun (linked.poolTemplate.entries.map Prod.fst)
    (⟨h, .refl _, rfl, Nat.le_refl _, fun p hp => nomatch hp⟩ : Checking linked [] linked)
  refine ⟨mgr, hcheck, hchecking.isLinked, hchecking.size, hchecking.breaks, fun p hp => hchecking.done p ?_ hp⟩
  -- a pool on a cycle has a mother, and so a template
  obtain ⟨m, hm, _⟩ := hp.linked
  obtain ⟨maxLimit, hmax⟩ := Option.isSome_iff_exists.1 (hchecking.isLinked.known p (by rw [hm]; rfl))
  rw [hchecking.template] at hmax
  rw [List.append_nil, List.mem_reverse]
  exact UMap.mem_keys.2 ⟨maxLimit, hmax⟩

end PoolMgr

end AtlasWow.Pools
