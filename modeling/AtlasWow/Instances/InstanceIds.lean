/-
The ids of instances (`MapManager.cpp`): those in the database are registered
when the server starts, later ones are generated and freed.

Over every run the id that is generated is the lowest one that is not in use
(`reaches_lowest`). The rows have to be registered in ascending order for it,
and `_nextInstanceId` stays within the bits, which its cast to 32 bits needs.
-/
import AtlasWow.Lib.Machine
import Mathlib.Data.List.Basic

namespace AtlasWow.Instances

/-- `_freeInstanceIds` and `_nextInstanceId`, with the ids given at some time, and those not freed since. -/
structure InstanceIds where
  free : List Bool
  next : Nat
  given : List Nat
  used : List Nat

namespace InstanceIds

/-- `find_next` of a bitset. -/
def findNext (bits : List Bool) (pos : Nat) : Option Nat :=
  (List.range bits.length).find? fun i => pos < i && bits[i]? == some true

def initInstanceIds (rows : List Nat) : InstanceIds :=
  ⟨(List.replicate (rows.foldr max 0 + 2) true).set 0 false, 1, [], []⟩

/-- `none` where a bit that is not there is written. -/
def registerInstanceId (instanceId : Nat) (s : InstanceIds) : Option InstanceIds :=
  if instanceId < s.free.length then some {
    free := s.free.set instanceId false
    next := if s.next = instanceId then (s.next + 1) % 0x100000000 else s.next
    given := instanceId :: s.given
    used := instanceId :: s.used }
  else none

def generateInstanceId (s : InstanceIds) : Option (Nat × InstanceIds) :=
  if s.next = 0xFFFFFFFF then some (s.next, s)
  else if s.next < s.free.length then
    let free := s.free.set s.next false
    let given := s.next :: s.given
    let used := s.next :: s.used
    some (s.next, match findNext free s.next with
      | none => ⟨free ++ [true], free.length % 0x100000000, given, used⟩
      | some nextFreedId => ⟨free, nextFreedId % 0x100000000, given, used⟩)
  else none

def freeInstanceId (instanceId : Nat) (s : InstanceIds) : Option InstanceIds :=
  if instanceId < s.free.length then some {
    s with
    free := s.free.set instanceId true
    next := min instanceId s.next
    used := s.used.filter (· ≠ instanceId) }
  else none

/-- The start: `LoadResetTimes` registers the rows of the table. -/
def loadInstanceIds (rows : List Nat) : Option InstanceIds :=
  rows.foldlM (fun s instanceId => s.registerInstanceId instanceId) (initInstanceIds rows)

inductive Call
  | generate
  | free (instanceId : Nat)

def step : Call → InstanceIds → Option InstanceIds
  | .generate, s => s.generateInstanceId.map (·.2)
  | .free instanceId, s => s.freeInstanceId instanceId

/-- An id is freed that was given at some time; it may be free already. -/
def Call.allowed : Call → InstanceIds → Bool
  | .generate, _ => true
  | .free instanceId, s => s.given.contains instanceId

structure Inv (s : InstanceIds) : Prop where
  bits : ∀ i, s.free[i]? = some true ↔ 0 < i ∧ i < s.free.length ∧ i ∉ s.used
  next : s.free[s.next]? = some true
  below : ∀ i, 0 < i → i < s.next → i ∈ s.used
  given : ∀ i ∈ s.given, 0 < i ∧ i < s.free.length ∧ i < 0xFFFFFFFF
  used : ∀ i ∈ s.used, i ∈ s.given
  length : s.free.length ≤ 0x100000000

variable {s s' : InstanceIds} {instanceId : Nat}

theorem Inv.register (h : s.Inv) (hid : 0 < instanceId ∧ instanceId < 0xFFFFFFFF) (hroom : instanceId + 1 < s.free.length)
    (hasc : ∀ i ∈ s.used, i < instanceId) : ∃ s', s.registerInstanceId instanceId = some s' ∧ s'.Inv ∧
      s'.free.length = s.free.length ∧ s'.used = instanceId :: s.used := by
  have hgiven := h.given
  refine ⟨_, if_pos (Nat.lt_of_succ_lt hroom), ⟨fun i => ?_, ?_, fun i hi hlt => ?_, by grind, fun i hi => ?_, ?_⟩,
    List.length_set, rfl⟩
  · grind [h.bits i]
  · -- all that were registered are below
    grind [h.bits (instanceId + 1), h.next]
  · grind [h.below i hi]
  · grind [h.used i]
  · grind [h.length]

theorem findNext_none {bits : List Bool} {pos i : Nat} (h : findNext bits pos = none) (hi : pos < i) :
    bits[i]? ≠ some true := fun hbit => by
  have hlt := (List.getElem?_eq_some_iff.1 hbit).1
  simpa [hi, hbit] using List.find?_range_eq_none.1 h i hlt

theorem findNext_some {bits : List Bool} {pos i j : Nat} (h : findNext bits pos = some i) :
    pos < i ∧ bits[i]? = some true ∧ (pos < j → j < i → bits[j]? ≠ some true) := by
  obtain ⟨hbit, -, hfirst⟩ := List.find?_range_eq_some.1 h
  rw [Bool.and_eq_true, decide_eq_true_eq, beq_iff_eq] at hbit
  refine ⟨hbit.1, hbit.2, fun hj hlt hbit => ?_⟩
  simpa [hj, hbit] using hfirst j hlt

theorem Inv.generate (h : s.Inv) : ∃ s', s.generateInstanceId = some (s.next, s') ∧ s'.Inv := by
  unfold generateInstanceId
  split
  · exact ⟨s, rfl, h⟩
  next hmax =>
  obtain ⟨hpos, hlt, hfree⟩ := (h.bits s.next).1 h.next
  rw [if_pos hlt]
  refine ⟨_, rfl, ?_⟩
  have hlength := h.length
  have hused : ∀ i ∈ s.used, 0 < i ∧ i < s.free.length ∧ i < 0xFFFFFFFF := fun i hi => h.given i (h.used i hi)
  have hgiven := h.given
  cases hfind : findNext (s.free.set s.next false) s.next with
  | none =>
    have habove : ∀ i, s.next < i → i < s.free.length → i ∈ s.used := by
      have := fun i => h.bits i
      have := fun i => @findNext_none _ _ i hfind
      grind
    -- the last id is never given, so there is room for one more
    have hroom : s.free.length ≤ 0xFFFFFFFF := by grind
    refine ⟨fun i => ?_, by grind, fun i hi hlt => ?_, by grind, fun i hi => ?_, by grind⟩
    · grind [h.bits i]
    · grind [h.below i hi]
    · grind [h.used i]
  | some i =>
    obtain ⟨hi, hbit, -⟩ := @findNext_some _ _ _ 0 hfind
    have hbetween : ∀ j, s.next < j → j < i → j ∈ s.used := by
      have := fun j => h.bits j
      have := fun j => (@findNext_some _ _ _ j hfind).2.2
      grind
    refine ⟨fun i => ?_, by grind, fun i hi hlt => ?_, by grind, fun i hi => ?_, by grind⟩
    · grind [h.bits i]
    · grind [h.below i hi]
    · grind [h.used i]

theorem Inv.free (h : s.Inv) (hgiven : instanceId ∈ s.given) : ∃ s', s.freeInstanceId instanceId = some s' ∧ s'.Inv := by
  have hid := h.given
  refine ⟨_, if_pos (hid _ hgiven).2.1, fun i => ?_, by grind [h.next], fun i hi hlt => ?_, by grind, fun i hi => ?_, by grind [h.length]⟩
  · grind [h.bits i]
  · grind [h.below i hi]
  · grind [h.used i]

theorem inv_initInstanceIds {rows : List Nat} (hrows : rows.foldr max 0 < 0xFFFFFFFF) : (initInstanceIds rows).Inv := by
  refine ⟨fun i => ?_, ?_, ?_, ?_, ?_, ?_⟩ <;> grind [initInstanceIds]

theorem load_from {rows : List Nat} (h : s.Inv) (hasc : rows.Pairwise (· < ·)) (hused : ∀ i ∈ s.used, ∀ id ∈ rows, i < id)
    (hrows : ∀ id ∈ rows, 0 < id ∧ id < 0xFFFFFFFF ∧ id + 1 < s.free.length) :
    ∃ s', rows.foldlM (fun s instanceId => s.registerInstanceId instanceId) s = some s' ∧ s'.Inv := by
  induction rows generalizing s with
  | nil => exact ⟨s, rfl, h⟩
  | cons id rows ih =>
    obtain ⟨hid, hrows⟩ := List.forall_mem_cons.1 hrows
    obtain ⟨hbefore, hasc⟩ := List.pairwise_cons.1 hasc
    obtain ⟨s₁, hs₁, h₁, hlength, hused₁⟩ := h.register ⟨hid.1, hid.2.1⟩ hid.2.2 fun i hi => hused i hi id List.mem_cons_self
    obtain ⟨s', hs', h'⟩ := ih h₁ hasc (by grind) (by grind)
    exact ⟨s', by rw [List.foldlM_cons, hs₁]; exact hs', h'⟩

/-- From the rows of the table in ascending order, and over any calls after them: the id that is generated is the lowest one
not in use, and each id that was given can be freed. -/
theorem reaches_lowest {rows : List Nat} (hasc : rows.Pairwise (· < ·)) (hrows : ∀ id ∈ rows, 0 < id ∧ id < 0xFFFFFFFF) :
    ∃ s₀, loadInstanceIds rows = some s₀ ∧ ∀ s, Reaches step (fun call s => call.allowed s = true) s₀ s →
      (∃ s', s.generateInstanceId = some (s.next, s')) ∧ 0 < s.next ∧ s.next ∉ s.used ∧ (∀ i, 0 < i → i < s.next → i ∈ s.used) ∧
      ∀ id ∈ s.given, (s.freeInstanceId id).isSome = true := by
  obtain ⟨hmax, hlt⟩ : (∀ id ∈ rows, id ≤ rows.foldr max 0) ∧ rows.foldr max 0 < 0xFFFFFFFF := by
    clear hasc
    induction rows with
    | nil => exact ⟨fun _ hid => absurd hid List.not_mem_nil, by decide⟩
    | cons id rows ih =>
      obtain ⟨hid, hrows⟩ := List.forall_mem_cons.1 hrows
      obtain ⟨hmax, hlt⟩ := ih hrows
      grind
  obtain ⟨s₀, hs₀, h₀⟩ := load_from (inv_initInstanceIds hlt) hasc (fun i hi => absurd hi List.not_mem_nil) fun id hid =>
    ⟨(hrows id hid).1, (hrows id hid).2, by grind [initInstanceIds]⟩
  refine ⟨s₀, hs₀, fun s hreach => ?_⟩
  have h : s.Inv := hreach.invariant Inv (fun call a b ha hok hstep => by
    cases call with
    | generate =>
      obtain ⟨s', hs', h'⟩ := ha.generate
      rw [step, hs'] at hstep
      exact Option.some.inj hstep ▸ h'
    | free id =>
      obtain ⟨s', hs', h'⟩ := ha.free (List.contains_iff_mem.1 hok)
      exact Option.some.inj (hs'.symm.trans hstep) ▸ h') h₀
  obtain ⟨s', hs', -⟩ := h.generate
  obtain ⟨hpos, -, hfree⟩ := (h.bits s.next).1 h.next
  refine ⟨⟨s', hs'⟩, hpos, hfree, h.below, fun id hid => ?_⟩
  obtain ⟨s', hs', -⟩ := h.free hid
  rw [hs']
  rfl

/-- Two rows with a gap: the id between them is generated and freed, and then the first. -/
theorem reaches_lowest_gap : ∃ s : InstanceIds, (s.used = [3] ∧ s.next = 1) ∧ s.next ∉ s.used := by
  obtain ⟨s₀, hs₀, hall⟩ := @reaches_lowest [1, 3] (by decide) (by decide)
  have hrun : ((loadInstanceIds [1, 3]).bind (runSteps (allowed step fun call s => call.allowed s = true)
      [.generate, .free 2, .free 1])).any (fun s => s.used = [3] && s.next = 1) = true := by decide
  rw [hs₀, Option.bind_some] at hrun
  obtain ⟨s, hs, hany⟩ := (Option.any_eq_true _ _).1 hrun
  rw [Bool.and_eq_true, decide_eq_true_eq, decide_eq_true_eq] at hany
  exact ⟨s, hany, (hall s (.of_allowed (.of_runSteps hs))).2.2.1⟩

end InstanceIds

end AtlasWow.Instances
