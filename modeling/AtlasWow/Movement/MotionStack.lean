/-
What the methods of the stack keep while no update is in progress: every
object is either in use, in one place, or has been finalised and deleted once
(`Ledger`); the active generators are sorted by priority, no two alike, and
the base unit states are theirs (`Shape`). Each method succeeds and keeps this
(`StackInv`).
-/
import AtlasWow.Movement.MotionMaster
import Mathlib.Data.List.Pairwise
import Mathlib.Order.Nat

namespace AtlasWow.Movement

variable {s s' : Stack} {p q : GeneratorPtr} {l l' : List GeneratorPtr}

/-! ## The objects -/

/-- How often an object has been finalised. -/
def Stack.finalizedTimes (s : Stack) (p : GeneratorPtr) : Nat := s.finalized.countP (·.generator = p)

/-- The objects in use are those of a list, each there once; any other that there has been was finalised and deleted once. -/
structure Ledger (s : Stack) (l : List GeneratorPtr) : Prop where
  nodup : (l.filter (· ≠ IDLE_GENERATOR)).Nodup
  live : ∀ p, s.live p = true ↔ p = IDLE_GENERATOR ∨ p ∈ l
  bound : ∀ p, s.live p = true → p < s.next
  unfinished : ∀ p, p ≠ IDLE_GENERATOR → s.live p = true ∨ s.next ≤ p → s.finalizedTimes p = 0 ∧ s.deleted p = 0
  once : ∀ p, p ≠ IDLE_GENERATOR → p < s.next → s.live p = false → s.finalizedTimes p = 1 ∧ s.deleted p = 1

theorem Ledger.congr (h : Ledger s l) (hlive : s'.live = s.live) (hnext : s'.next = s.next)
    (hfinalized : s'.finalized = s.finalized) (hdeleted : s'.deleted = s.deleted) : Ledger s' l := by
  have htimes : ∀ p, s'.finalizedTimes p = s.finalizedTimes p := fun p => by
    unfold Stack.finalizedTimes
    rw [hfinalized]
  refine ⟨h.nodup, ?_, ?_, ?_, ?_⟩
  · rw [hlive]; exact h.live
  · rw [hlive, hnext]; exact h.bound
  · intro p hp hl
    rw [hlive, hnext] at hl
    rw [htimes, hdeleted]
    exact h.unfinished p hp hl
  · intro p hp hl hd
    rw [hnext] at hl
    rw [hlive] at hd
    rw [htimes, hdeleted]
    exact h.once p hp hl hd

theorem Ledger.perm (h : Ledger s l) (hl : l.Perm l') : Ledger s l' :=
  ⟨(hl.filter _).nodup_iff.1 h.nodup, fun p => by rw [h.live, hl.mem_iff], h.bound, h.unfinished, h.once⟩

/-- One object leaves the list: it is finalised, and deleted unless it is the static one. -/
theorem Ledger.retire {active inform : Bool} (h : Ledger s (p :: l))
    (hlive : s'.live = if p = IDLE_GENERATOR then s.live else Function.update s.live p false) (hnext : s'.next = s.next)
    (hfinalized : s'.finalized = ⟨p, active, inform⟩ :: s.finalized)
    (hdeleted : s'.deleted = if p = IDLE_GENERATOR then s.deleted else Function.update s.deleted p (s.deleted p + 1)) :
    Ledger s' l := by
  have htimes : ∀ q, s'.finalizedTimes q = s.finalizedTimes q + if p = q then 1 else 0 := fun q => by
    unfold Stack.finalizedTimes
    rw [hfinalized, List.countP_cons]
    simp
  by_cases hp : p = IDLE_GENERATOR
  · rw [if_pos hp] at hlive hdeleted
    refine ⟨?_, fun q => ?_, ?_, ?_, ?_⟩
    · have := h.nodup
      rwa [List.filter_cons_of_neg (by simp [hp])] at this
    · rw [hlive, h.live, List.mem_cons, hp]
      exact ⟨fun hq => hq.elim .inl (Or.imp_left id), fun hq => hq.imp_right .inr⟩
    · rw [hlive, hnext]; exact h.bound
    · intro q hq hl
      rw [hlive, hnext] at hl
      rw [htimes, if_neg fun he : p = q => hq (he ▸ hp), hdeleted]
      exact h.unfinished q hq hl
    · intro q hq hl hd
      rw [hnext] at hl
      rw [hlive] at hd
      rw [htimes, if_neg fun he : p = q => hq (he ▸ hp), hdeleted]
      exact h.once q hq hl hd
  · rw [if_neg hp] at hlive hdeleted
    have hn := h.nodup
    rw [List.filter_cons_of_pos (by simpa using hp), List.nodup_cons, List.mem_filter] at hn
    have hnot : p ∉ l := fun hpl => hn.1 ⟨hpl, by simpa using hp⟩
    have hself : s.live p = true := (h.live p).2 (.inr List.mem_cons_self)
    refine ⟨hn.2, fun q => ?_, fun q hq => ?_, fun q hq hl => ?_, fun q hq hl hd => ?_⟩
    · rw [hlive]
      by_cases he : q = p
      · subst he
        rw [Function.update_self]
        exact ⟨fun h => (Bool.false_ne_true h).elim, fun h => (h.elim hp hnot).elim⟩
      · rw [Function.update_of_ne he, h.live, List.mem_cons, or_iff_right he]
    · rw [hlive] at hq
      rw [hnext]
      by_cases he : q = p
      · exact he ▸ h.bound p hself
      · exact h.bound q (by rwa [Function.update_of_ne he] at hq)
    · have he : q ≠ p := by
        rintro rfl
        rcases hl with hl | hl
        · rw [hlive, Function.update_self] at hl
          cases hl
        · exact absurd (h.bound q hself) (not_lt.2 (hnext ▸ hl))
      rw [hlive, hnext, Function.update_of_ne he] at hl
      rw [htimes, if_neg (Ne.symm he), hdeleted, Function.update_of_ne he]
      exact h.unfinished q hq hl
    · rw [hnext] at hl
      rw [htimes, hdeleted]
      by_cases he : q = p
      · subst he
        obtain ⟨h₁, h₂⟩ := h.unfinished q hq (.inl hself)
        rw [if_pos rfl, Function.update_self, h₁, h₂]
        exact ⟨rfl, rfl⟩
      rw [hlive, Function.update_of_ne he] at hd
      rw [if_neg (Ne.symm he), Function.update_of_ne he]
      exact h.once q hq hl hd

theorem Ledger.allocate (h : Ledger s l) (g : MovementGenerator) : Ledger (s.allocate g) (s.next :: l) := by
  have hnew : s.live s.next = false := by
    by_contra hl
    exact absurd (h.bound s.next (by simpa using hl)) (lt_irrefl _)
  have hne : s.next ≠ IDLE_GENERATOR := by
    have := h.bound IDLE_GENERATOR ((h.live _).2 (.inl rfl))
    exact Nat.ne_of_gt this
  have hnot : s.next ∉ l := fun hl => by
    rw [(h.live _).2 (.inr hl)] at hnew
    cases hnew
  refine ⟨?_, fun p => ?_, fun p hp => ?_, fun p hp hl => ?_, fun p hp hl hd => ?_⟩
  · rw [List.filter_cons_of_pos (by simpa using hne), List.nodup_cons]
    exact ⟨fun hm => hnot (List.mem_of_mem_filter hm), h.nodup⟩
  · show Function.update s.live s.next true p = true ↔ _
    by_cases he : p = s.next
    · subst he
      rw [Function.update_self]
      exact ⟨fun _ => .inr List.mem_cons_self, fun _ => rfl⟩
    · rw [Function.update_of_ne he, h.live, List.mem_cons, or_iff_right he]
  · have hp : Function.update s.live s.next true p = true := hp
    show p < s.next + 1
    by_cases he : p = s.next
    · exact Nat.lt_succ_of_le (Nat.le_of_eq he)
    · exact Nat.lt_succ_of_lt (h.bound p (by rwa [Function.update_of_ne he] at hp))
  · refine h.unfinished p hp ?_
    by_cases he : p = s.next
    · exact .inr he.ge
    refine hl.imp (fun hl => ?_) fun hl => Nat.le_of_succ_le hl
    have hl : Function.update s.live s.next true p = true := hl
    rwa [Function.update_of_ne he] at hl
  · have hd : Function.update s.live s.next true p = false := hd
    have he : p ≠ s.next := by
      rintro rfl
      rw [Function.update_self] at hd
      cases hd
    rw [Function.update_of_ne he] at hd
    exact h.once p hp (lt_of_le_of_ne (Nat.le_of_lt_succ hl) he) hd

/-! ## Base unit states -/

def SingleBit (b : UnitState) : Prop := ∃ i, b = BitVec.twoPow 32 i

variable {b u : UnitState} {slot : MovementSlot} {g : MovementGenerator} {m : List (UnitState × GeneratorPtr)}
  {s'' : Stack}

/-- States that share a bit are the same. -/
theorem SingleBit.eq_of_bit {c : UnitState} (hb : SingleBit b) (hc : SingleBit c) {i : Nat} (hbi : b.getLsbD i = true)
    (hci : c.getLsbD i = true) : b = c := by
  obtain ⟨j, rfl⟩ := hb
  obtain ⟨k, rfl⟩ := hc
  rw [BitVec.getLsbD_twoPow, Bool.and_eq_true, decide_eq_true_eq, decide_eq_true_eq] at hbi hci
  rw [hbi.2, hci.2]

/-- A state has exactly the bits of the entries of a map. -/
def HasBits (u : UnitState) (m : List (UnitState × GeneratorPtr)) : Prop :=
  ∀ i, u.getLsbD i = m.any fun e => e.1.getLsbD i

theorem HasBits.add (h : HasBits u m) (p : GeneratorPtr) : HasBits (u ||| b) ((b, p) :: m) := by
  intro i
  rw [BitVec.getLsbD_or, h i, List.any_cons, Bool.or_comm]

/-- An entry goes, and its bit with it if it was the last one of its state. -/
theorem HasBits.clear (h : HasBits u m) (hb : SingleBit b) (hm : ∀ e ∈ m, SingleBit e.1) (p : GeneratorPtr) :
    HasBits (if (m.filter (· ≠ (b, p))).all (·.1 ≠ b) then u &&& ~~~b else u) (m.filter (· ≠ (b, p))) := by
  intro i
  -- the entries that go have the bits of `b`
  have hgone : b.getLsbD i = false → (m.any fun e => e.1.getLsbD i) = (m.filter (· ≠ (b, p))).any fun e => e.1.getLsbD i := by
    intro hbi
    rw [List.any_filter]
    congr 1
    funext e
    by_cases he : e = (b, p)
    · simp [he, hbi]
    · simp [he]
  split
  next hall =>
    rw [BitVec.getLsbD_and, BitVec.getLsbD_not, h i]
    cases hbi : b.getLsbD i with
    | false =>
      rw [hgone hbi]
      cases hany : ((m.filter (· ≠ (b, p))).any fun e => e.1.getLsbD i) with
      | false => rfl
      | true =>
        obtain ⟨e, -, he⟩ := List.any_eq_true.1 hany
        have hi : i < 32 := BitVec.lt_of_getLsbD he
        simp [hi]
    | true =>
      rw [Bool.not_true, Bool.and_false, Bool.and_false]
      refine (List.any_eq_false.2 fun e he hei => ?_).symm
      rw [List.all_eq_true] at hall
      have hne := hall e he
      have heq := hb.eq_of_bit (hm e (List.mem_of_mem_filter he)) hbi hei
      simp [heq] at hne
  next hsome =>
  rw [h i]
  cases hbi : b.getLsbD i with
  | false => exact hgone hbi
  | true =>
    rw [List.all_eq_true] at hsome
    push Not at hsome
    obtain ⟨e, he, heb⟩ := hsome
    have heb : e.1 = b := by simpa using heb
    have hei : e.1.getLsbD i = true := heb ▸ hbi
    rw [List.any_eq_true.2 ⟨e, he, hei⟩]
    exact List.any_eq_true.2 ⟨e, List.mem_of_mem_filter he, hei⟩

theorem HasBits.nil : HasBits u [] ↔ u = 0#32 := by
  refine ⟨fun h => BitVec.eq_of_getLsbD_eq fun i _ => ?_, ?_⟩
  · rw [h i]
    simp
  · rintro rfl i
    simp

/-- The entries of the generators of a list that have a base state. -/
def baseEntries (object : GeneratorPtr → MovementGenerator) (l : List GeneratorPtr) : List (UnitState × GeneratorPtr) :=
  (l.filter fun p => (object p).baseUnitState ≠ 0#32).map fun p => ((object p).baseUnitState, p)

section BaseEntries

variable {object : GeneratorPtr → MovementGenerator}

theorem mem_baseEntries {e : UnitState × GeneratorPtr} :
    e ∈ baseEntries object l ↔ e.2 ∈ l ∧ (object e.2).baseUnitState = e.1 ∧ e.1 ≠ 0#32 := by
  obtain ⟨b, p⟩ := e
  simp only [baseEntries, List.mem_map, List.mem_filter, decide_eq_true_eq, Prod.mk.injEq]
  constructor
  · rintro ⟨q, ⟨hq, hne⟩, rfl, rfl⟩
    exact ⟨hq, rfl, hne⟩
  · rintro ⟨hp, rfl, hne⟩
    exact ⟨p, ⟨hp, hne⟩, rfl, rfl⟩

theorem baseEntries_perm (h : l.Perm l') : (baseEntries object l).Perm (baseEntries object l') := (h.filter _).map _

theorem baseEntries_erase (h : l.Nodup) (p : GeneratorPtr) :
    baseEntries object (l.erase p) = (baseEntries object l).filter (·.2 ≠ p) := by
  unfold baseEntries
  rw [h.erase_eq_filter, List.filter_map, List.filter_filter, List.filter_filter]
  congr 1
  refine List.filter_congr fun q _ => ?_
  by_cases he : q = p <;> simp [he]

theorem baseEntries_cons (p : GeneratorPtr) (l : List GeneratorPtr) : baseEntries object (p :: l) =
    if (object p).baseUnitState = 0#32 then baseEntries object l
    else ((object p).baseUnitState, p) :: baseEntries object l := by
  unfold baseEntries
  split
  next h => rw [List.filter_cons_of_neg (by simpa using h)]
  next h => rw [List.filter_cons_of_pos (by simpa using h), List.map_cons]

end BaseEntries

/-! ## The invariant -/

/-- The objects that the stack and the delayed requests have a place for; `held` are those that requests are going to add. -/
def Stack.owned (s : Stack) (held : List (GeneratorPtr × MovementSlot)) : List GeneratorPtr :=
  s.defaultGenerator.toList ++ (s.generators ++ held.map (·.1))

theorem owned_hold (s : Stack) (p : GeneratorPtr) (slot : MovementSlot) (held : List (GeneratorPtr × MovementSlot)) :
    (p :: s.owned held).Perm (s.owned ((p, slot) :: held)) :=
  List.perm_middle.symm.trans (List.Perm.append_left _ List.perm_middle.symm)

structure Shape (s : Stack) : Prop where
  idle : (s.object IDLE_GENERATOR).cls = .idle
  ready : ∀ p, s.live p = true → (s.object p).cls = .idle → (s.object p).initPending = false ∧ (s.object p).deactivated = false
  sorted : s.generators.Pairwise fun p q => (s.object q).priority < (s.object p).priority
  notIdle : IDLE_GENERATOR ∉ s.generators
  entries : s.baseUnitStatesMap.Perm (baseEntries s.object s.generators)
  modes : ∀ p, s.live p = true → (s.object p).mode = MOTION_MODE_DEFAULT
  states : ∀ p, s.live p = true → (s.object p).baseUnitState = 0#32 ∨ SingleBit (s.object p).baseUnitState

structure StackInv (s : Stack) (held : List (GeneratorPtr × MovementSlot)) : Prop where
  ledger : Ledger s (s.owned held)
  shape : Shape s
  held : ∀ e ∈ held, e.1 = IDLE_GENERATOR → e.2 = .default

variable {held : List (GeneratorPtr × MovementSlot)}

theorem StackInv.live_generator (hi : StackInv s held) (hp : p ∈ s.generators) : s.live p = true :=
  (hi.ledger.live p).2 (.inr (List.mem_append_right _ (List.mem_append_left _ hp)))

theorem StackInv.live_default (hi : StackInv s held) (hp : s.defaultGenerator = some p) : s.live p = true :=
  (hi.ledger.live p).2 (.inr (List.mem_append_left _ (Option.mem_toList.2 hp)))

theorem StackInv.readable (hi : StackInv s held) : s.readable = true :=
  List.all_eq_true.2 fun _ hp => hi.live_generator hp

theorem Shape.nodup (h : Shape s) : s.generators.Nodup := h.sorted.imp fun {p q} hlt he => by
  subst he
  exact lt_irrefl _ hlt

theorem Shape.priority_ne (h : Shape s) (hp : p ∈ s.generators) (hq : q ∈ s.generators) (hne : p ≠ q) :
    (s.object p).priority ≠ (s.object q).priority := by
  have hpair : s.generators.Pairwise fun x y => (s.object x).priority ≠ (s.object y).priority :=
    h.sorted.imp fun {x y} hlt => hlt.ne'
  have : Std.Symm fun x y => (s.object x).priority ≠ (s.object y).priority := ⟨fun _ _ h => h.symm⟩
  exact hpair.forall hp hq hne

theorem Shape.singleBit (hi : StackInv s held) {e : UnitState × GeneratorPtr} (he : e ∈ s.baseUnitStatesMap) : SingleBit e.1 := by
  obtain ⟨hmem, hbase, hne⟩ := mem_baseEntries.1 (hi.shape.entries.mem_iff.1 he)
  have h := hi.shape.states e.2 (hi.live_generator hmem)
  rw [hbase] at h
  exact h.resolve_left hne

theorem deref_of_live (h : s.live p = true) : s.deref p = some (s.object p) := if_pos h

/-! ## Deleting -/

/-- What `Delete` does to an object that is not the static one. -/
structure Deleted (s s' : Stack) (p : GeneratorPtr) : Prop where
  live : s'.live = Function.update s.live p false
  deleted : s'.deleted = Function.update s.deleted p (s.deleted p + 1)
  finalized : ∃ active inform, s'.finalized = ⟨p, active, inform⟩ :: s.finalized
  next : s'.next = s.next
  object : s'.object = s.object
  generators : s'.generators = s.generators
  default : s'.defaultGenerator = s.defaultGenerator
  map : s'.baseUnitStatesMap = if (s.object p).baseUnitState = 0#32 then s.baseUnitStatesMap
    else s.baseUnitStatesMap.filter (· ≠ ((s.object p).baseUnitState, p))
  state : s'.unitState = if (s.object p).baseUnitState = 0#32 then s.unitState
    else if (s.baseUnitStatesMap.filter (· ≠ ((s.object p).baseUnitState, p))).all (·.1 ≠ (s.object p).baseUnitState) then
      s.unitState &&& ~~~(s.object p).baseUnitState else s.unitState

theorem delete_spec (hlive : s.live p = true) (hp : p ≠ IDLE_GENERATOR) (active inform : Bool) :
    ∃ s', s.delete p active inform = some s' ∧ Deleted s s' p := by
  have hdelete : s.delete p active inform = ((({ s with finalized := ⟨p, active, inform⟩ :: s.finalized } : Stack).clearBaseUnitState p).map
      (·.pointerDeleter p)) := by
    rw [Stack.delete, Stack.generatorFinalize, deref_of_live hlive]
    rfl
  have hclear : ({ s with finalized := ⟨p, active, inform⟩ :: s.finalized } : Stack).deref p = some (s.object p) := if_pos hlive
  rw [hdelete, Stack.clearBaseUnitState, hclear, Option.map_some, Option.map_some]
  refine ⟨_, rfl, ?_⟩
  unfold Stack.pointerDeleter
  rw [if_neg hp]
  by_cases hb : (s.object p).baseUnitState = 0#32
  · simp only [if_pos hb]
    exact ⟨rfl, rfl, ⟨_, _, rfl⟩, rfl, rfl, rfl, rfl, by rw [if_pos hb], by rw [if_pos hb]⟩
  simp only [if_neg hb]
  split
  next hall => exact ⟨rfl, rfl, ⟨_, _, rfl⟩, rfl, rfl, rfl, rfl, by rw [if_neg hb]; rfl, by rw [if_neg hb, if_pos hall]; rfl⟩
  next hsome => exact ⟨rfl, rfl, ⟨_, _, rfl⟩, rfl, rfl, rfl, rfl, by rw [if_neg hb], by rw [if_neg hb, if_neg hsome]⟩

/-- The stack has the base states of its map, and only these. -/
def Stack.InState (s : Stack) : Prop := HasBits s.unitState s.baseUnitStatesMap

/-- From `s` to `s'` the active generators have become those of a list. -/
structure Reduced (s s' : Stack) (l : List GeneratorPtr) : Prop where
  generators : s'.generators = l
  default : s'.defaultGenerator = s.defaultGenerator
  object : s'.object = s.object
  inState : s.InState → s'.InState

theorem removeAt_spec (hi : StackInv s held) (hp : p ∈ s.generators) (active inform : Bool) :
    ∃ s', s.removeAt p active inform = some s' ∧ StackInv s' held ∧ Reduced s s' (s.generators.erase p) := by
  have hlive := hi.live_generator hp
  have hne : p ≠ IDLE_GENERATOR := fun he => hi.shape.notIdle (he ▸ hp)
  obtain ⟨s', hs', hd⟩ := delete_spec (s := { s with generators := s.generators.erase p }) hlive hne active inform
  have hentries : (s'.baseUnitStatesMap).Perm (baseEntries s.object (s.generators.erase p)) := by
    rw [hd.map, baseEntries_erase hi.shape.nodup]
    have hfilter : ((baseEntries s.object s.generators).filter (· ≠ ((s.object p).baseUnitState, p))) =
        (baseEntries s.object s.generators).filter (·.2 ≠ p) := by
      refine List.filter_congr fun e he => ?_
      obtain ⟨-, hbase, -⟩ := mem_baseEntries.1 he
      obtain ⟨b, q⟩ := e
      by_cases hq : q = p
      · subst hq
        have hbase : (s.object q).baseUnitState = b := hbase
        simp [hbase]
      · simp [hq]
    split
    next hb =>
      refine hi.shape.entries.trans (.of_eq ?_)
      refine (List.filter_eq_self.2 fun e he => ?_).symm
      obtain ⟨-, hbase, hne⟩ := mem_baseEntries.1 he
      exact decide_eq_true fun hq => hne (hbase.symm.trans ((congrArg (fun q => (s.object q).baseUnitState) hq).trans hb))
    next hb => exact (hi.shape.entries.filter _).trans (.of_eq hfilter)
  have howned : (s.owned held).Perm (p :: s'.owned held) := by
    unfold Stack.owned
    rw [hd.default, hd.generators]
    exact (List.Perm.append_left _ ((List.perm_cons_erase hp).append_right _)).trans List.perm_middle
  obtain ⟨a, i, hfinalized⟩ := hd.finalized
  refine ⟨s', hs', ⟨?_, ?_, hi.held⟩, hd.generators, hd.default, hd.object, fun hbits => ?_⟩
  · refine (hi.ledger.perm howned).retire ?_ hd.next hfinalized ?_
    · rw [if_neg hne]; exact hd.live
    · rw [if_neg hne]; exact hd.deleted
  · have hmore : ∀ q, s'.live q = true → s.live q = true := fun q hq => by
      rw [hd.live] at hq
      by_cases he : q = p
      · exact he ▸ hlive
      · rwa [Function.update_of_ne he] at hq
    refine ⟨?_, fun q hq => ?_, ?_, ?_, ?_, fun q hq => ?_, fun q hq => ?_⟩
    · rw [hd.object]; exact hi.shape.idle
    · rw [hd.object]; exact hi.shape.ready q (hmore q hq)
    · rw [hd.object, hd.generators]; exact hi.shape.sorted.sublist List.erase_sublist
    · rw [hd.generators]; exact fun h => hi.shape.notIdle (List.mem_of_mem_erase h)
    · rw [hd.object, hd.generators]; exact hentries
    · rw [hd.object]; exact hi.shape.modes q (hmore q hq)
    · rw [hd.object]; exact hi.shape.states q (hmore q hq)
  · have hstate := hd.state
    have hmap := hd.map
    dsimp only at hstate hmap
    unfold Stack.InState at *
    rw [hstate, hmap]
    by_cases hzero : (s.object p).baseUnitState = 0#32
    · rw [if_pos hzero, if_pos hzero]
      exact hbits
    · rw [if_neg hzero, if_neg hzero]
      exact hbits.clear ((hi.shape.states p hlive).resolve_left hzero) (fun e he => Shape.singleBit hi he) p

/-! ## The default generator -/

theorem Shape.congr (h : Shape s) (hobject : s'.object = s.object) (hgenerators : s'.generators = s.generators)
    (hmap : s'.baseUnitStatesMap = s.baseUnitStatesMap) (hlive : ∀ p, s'.live p = true → s.live p = true) : Shape s' := by
  refine ⟨?_, fun p hp => ?_, ?_, ?_, ?_, fun p hp => ?_, fun p hp => ?_⟩
  · rw [hobject]; exact h.idle
  · rw [hobject]; exact h.ready p (hlive p hp)
  · rw [hobject, hgenerators]; exact h.sorted
  · rw [hgenerators]; exact h.notIdle
  · rw [hobject, hgenerators, hmap]; exact h.entries
  · rw [hobject]; exact h.modes p (hlive p hp)
  · rw [hobject]; exact h.states p (hlive p hp)

theorem Ledger.cons_idle (h : Ledger s l) : Ledger s (IDLE_GENERATOR :: l) := by
  refine ⟨?_, fun p => ?_, h.bound, h.unfinished, h.once⟩
  · rw [List.filter_cons_of_neg (by simp)]
    exact h.nodup
  · rw [h.live, List.mem_cons]
    exact ⟨fun hp => hp.imp_right .inr, fun hp => hp.elim .inl id⟩

/-- An object that no container holds any more is finalised and deleted. -/
theorem retire_spec (hlive : s.live p = true) (active inform : Bool) :
    ∃ s', (s.generatorFinalize p active inform).map (·.pointerDeleter p) = some s' ∧
      (∀ l, Ledger s (p :: l) → Ledger s' l) ∧ (∀ q, s'.live q = true → s.live q = true) ∧ s'.object = s.object ∧
      s'.generators = s.generators ∧ s'.baseUnitStatesMap = s.baseUnitStatesMap ∧ s'.unitState = s.unitState := by
  rw [Stack.generatorFinalize, deref_of_live hlive, Option.map_some, Option.map_some]
  refine ⟨_, rfl, fun l hl => ?_, fun q hq => ?_, ?_⟩
  · unfold Stack.pointerDeleter
    refine @Ledger.retire _ _ _ _ active inform hl ?_ ?_ ?_ ?_ <;> split <;> rfl
  · unfold Stack.pointerDeleter at hq
    split at hq
    · exact hq
    have hq : Function.update s.live p false q = true := hq
    by_cases he : q = p
    · exact he ▸ hlive
    · rwa [Function.update_of_ne he] at hq
  · unfold Stack.pointerDeleter
    split <;> exact ⟨rfl, rfl, rfl, rfl⟩

/-- From `s` to `s'` only the default generator changes. -/
structure Defaulted (s s' : Stack) (p : GeneratorPtr) : Prop where
  default : s'.defaultGenerator = some p
  generators : s'.generators = s.generators
  object : s'.object = s.object
  inState : s.InState → s'.InState

theorem deleteDefault_spec (hi : StackInv s held) (hp : s.defaultGenerator = some p) (active : Bool) :
    ∃ s', s.deleteDefault active false = some s' ∧ StackInv s' held ∧ Defaulted s s' IDLE_GENERATOR := by
  obtain ⟨s₁, h₁, hledger, hlive, hobject, hgenerators, hmap, hstate⟩ := retire_spec (hi.live_default hp) active false
  have hfin : ∃ s₀, s.generatorFinalize p active false = some s₀ ∧ s₀.pointerDeleter p = s₁ := by
    obtain ⟨s₀, h₀, he⟩ := Option.map_eq_some_iff.1 h₁
    exact ⟨s₀, h₀, he⟩
  obtain ⟨s₀, h₀, he⟩ := hfin
  refine ⟨{ s₁ with defaultGenerator := some IDLE_GENERATOR, staticInitPending := true }, ?_, ⟨?_, ?_, hi.held⟩,
    rfl, hgenerators, hobject, fun hbits => ?_⟩
  · rw [Stack.deleteDefault, hp, Option.bind_some, h₀, Option.map_some, he]
  · have hl := hi.ledger
    rw [Stack.owned, hp] at hl
    have hl' : Ledger { s₁ with defaultGenerator := some IDLE_GENERATOR, staticInitPending := true } _ :=
      (hledger _ hl).cons_idle.congr rfl rfl rfl rfl
    rwa [← hgenerators] at hl'
  · exact hi.shape.congr hobject hgenerators hmap hlive
  · unfold Stack.InState at *
    show HasBits s₁.unitState s₁.baseUnitStatesMap
    rwa [hstate, hmap]

theorem directClearDefault_spec (hi : StackInv s held) : ∃ s', s.directClearDefault = some s' ∧ StackInv s' held ∧
    s'.generators = s.generators ∧ s'.object = s.object ∧ (s.InState → s'.InState) ∧
    (s.defaultGenerator.isSome = true → s'.defaultGenerator.isSome = true) := by
  unfold Stack.directClearDefault
  split
  next h =>
    obtain ⟨p, hp⟩ := Option.isSome_iff_exists.1 h
    obtain ⟨s', hs', hi', hd⟩ := deleteDefault_spec hi hp s.generators.isEmpty
    exact ⟨s', hs', hi', hd.generators, hd.object, hd.inState, fun _ => by rw [hd.default]; rfl⟩
  next h => exact ⟨s, rfl, hi, rfl, rfl, id, fun h' => absurd h' h⟩

/-- A generator that was held for it becomes the default one. -/
theorem directAdd_default_spec (hi : StackInv s ((p, slot) :: held)) :
    ∃ s', s.directAdd p .default = some s' ∧ StackInv s' held ∧ Defaulted s s' p := by
  have hheld : ∀ e ∈ held, e.1 = IDLE_GENERATOR → e.2 = .default := fun e he => hi.held e (List.mem_cons_of_mem _ he)
  have hl := hi.ledger
  unfold Stack.owned at hl
  have hmove : (s.generators ++ ((p, slot) :: held).map (·.1)).Perm (p :: (s.generators ++ held.map (·.1))) :=
    List.perm_middle
  unfold Stack.directAdd
  cases hd : s.defaultGenerator with
  | none =>
    rw [hd] at hl
    refine ⟨_, rfl, ⟨(hl.perm hmove).congr rfl rfl rfl rfl, hi.shape.congr rfl rfl rfl fun _ h => h, hheld⟩, rfl, rfl, rfl, id⟩
  | some old =>
    rw [hd] at hl
    obtain ⟨s₁, h₁, hledger, hlive, hobject, hgenerators, hmap, hstate⟩ := retire_spec (hi.live_default hd) s.generators.isEmpty false
    have h₁ : ((s.generatorFinalize old s.generators.isEmpty false).map fun s : Stack => s.pointerDeleter old) = some s₁ := h₁
    dsimp only
    rw [h₁, Option.map_some]
    refine ⟨_, rfl, ⟨?_, hi.shape.congr hobject hgenerators hmap hlive, hheld⟩, rfl, hgenerators, hobject, fun hbits => ?_⟩
    · have hl' := hledger _ (hl.perm (List.Perm.append_left [old] hmove))
      rw [← hgenerators] at hl'
      exact hl'.congr rfl rfl rfl rfl
    · unfold Stack.InState at *
      show HasBits s₁.unitState s₁.baseUnitStatesMap
      rwa [hstate, hmap]

/-! ## Clearing and removing -/

/-- From `s` to `s'` the unit stays with a default generator and in the states of its map. -/
structure Kept (s s' : Stack) : Prop where
  default : s.defaultGenerator.isSome = true → s'.defaultGenerator.isSome = true
  inState : s.InState → s'.InState

theorem Kept.refl (s : Stack) : Kept s s := ⟨id, id⟩

theorem Kept.trans (h : Kept s s') (h' : Kept s' s'') : Kept s s'' :=
  ⟨fun hs => h'.default (h.default hs), fun hs => h'.inState (h.inState hs)⟩

theorem Reduced.kept (h : Reduced s s' l) : Kept s s' := ⟨fun hs => by rwa [h.default], h.inState⟩

theorem Defaulted.kept (h : Defaulted s s' p) : Kept s s' := ⟨fun _ => by rw [h.default]; rfl, h.inState⟩

theorem pop_spec (hi : StackInv s held) (hl : s.generators = p :: l) (active inform : Bool) :
    ∃ s', s.pop active inform = some s' ∧ StackInv s' held ∧ Reduced s s' l := by
  obtain ⟨s', hs', hi', hr⟩ := removeAt_spec hi (p := p) (by rw [hl]; exact List.mem_cons_self) active inform
  rw [hl, List.erase_cons_head] at hr
  refine ⟨s', ?_, hi', hr⟩
  unfold Stack.pop
  rw [hl]
  exact hs'

theorem directClear_spec (hi : StackInv s held) :
    ∃ s', s.directClear = some s' ∧ StackInv s' held ∧ s'.generators = [] ∧ Kept s s' := by
  obtain ⟨s₁, h₁, hi₁, hk₁, hlen⟩ : ∃ s₁, (if s.generators.isEmpty then some s else s.pop true false) = some s₁ ∧
      StackInv s₁ held ∧ Kept s s₁ ∧ s₁.generators.length ≤ s.generators.length := by
    cases hl : s.generators with
    | nil => exact ⟨s, rfl, hi, .refl s, by rw [hl]⟩
    | cons p l =>
      obtain ⟨s₁, h₁, hi₁, hr⟩ := pop_spec hi hl true false
      exact ⟨s₁, h₁, hi₁, hr.kept, by rw [hr.generators]; exact Nat.le_succ _⟩
  obtain ⟨s₂, h₂, ⟨hi₂, hk₂⟩, hempty⟩ := @whileLoop_ends Stack (fun s => !s.generators.isEmpty)
    (fun s => s.pop false false) (fun a => StackInv a held ∧ Kept s a) (fun a => a.generators.length)
    (fun a ha hc => by
      obtain ⟨p, l, hl⟩ : ∃ p l, a.generators = p :: l := List.exists_cons_of_ne_nil (by simpa using hc)
      obtain ⟨b, hb, hib, hr⟩ := pop_spec ha.1 hl false false
      exact ⟨b, hb, ⟨hib, ha.2.trans hr.kept⟩, by rw [hr.generators, hl]; exact Nat.lt_succ_self _⟩)
    _ _ ⟨hi₁, hk₁⟩ hlen
  have hnil : s₂.generators = [] := by simpa using hempty
  have hmap : s₂.baseUnitStatesMap = [] := by
    have h := hi₂.shape.entries
    rw [hnil] at h
    exact List.perm_nil.1 h
  have hclear : s₂.clearBaseUnitStates = s₂ := by
    obtain ⟨u, t, o, v, n, f, d, g, gs, m, sp⟩ := s₂
    dsimp only at hmap
    subst hmap
    unfold Stack.clearBaseUnitStates Stack.ClearUnitState
    rw [List.foldl_nil, BitVec.not_zero, BitVec.and_allOnes]
  refine ⟨s₂, ?_, hi₂, hnil, hk₂⟩
  rw [Stack.directClear, h₁, Option.bind_some, h₂, Option.map_some, hclear]

theorem directClearFilter_spec (hi : StackInv s held) (filter : MovementGenerator → Bool) :
    ∃ s', s.directClearFilter filter = some s' ∧ StackInv s' held ∧ Kept s s' := by
  have loop : ∀ (top : Option GeneratorPtr) (l : List GeneratorPtr) {s : Stack}, StackInv s held → l.Nodup →
      (∀ p ∈ l, p ∈ s.generators) → ∃ s', l.foldlM (fun s p => (s.deref p).bind fun g =>
        if filter g then s.removeAt p (top = some p) false else some s) s = some s' ∧ StackInv s' held ∧ Kept s s' := by
    intro top l
    induction l with
    | nil => exact fun {s} hi _ _ => ⟨s, rfl, hi, .refl s⟩
    | cons p l ih =>
      intro s hi hn hl
      obtain ⟨hp, hn⟩ := List.nodup_cons.1 hn
      have hmem := hl p List.mem_cons_self
      rw [List.foldlM_cons, deref_of_live (hi.live_generator hmem), Option.bind_some]
      split
      next =>
        obtain ⟨s₁, h₁, hi₁, hr⟩ := removeAt_spec hi hmem (top = some p) false
        obtain ⟨s₂, h₂, hi₂, hk₂⟩ := ih hi₁ hn fun q hq => by
          rw [hr.generators]
          exact (List.mem_erase_of_ne fun he : q = p => hp (he ▸ hq)).2 (hl q (List.mem_cons_of_mem _ hq))
        refine ⟨s₂, ?_, hi₂, hr.kept.trans hk₂⟩
        rw [h₁]
        exact h₂
      next => exact ih hi hn fun q hq => hl q (List.mem_cons_of_mem _ hq)
  exact loop s.GetCurrentMovementGenerator s.generators hi hi.shape.nodup fun _ h => h

/-- A generator of the container is removed, if there is one to be. -/
theorem removeFound_spec (hi : StackInv s held) {found : Option GeneratorPtr} (hf : ∀ p, found = some p → p ∈ s.generators)
    (active : GeneratorPtr → Bool) : ∃ s', (match found with
      | some a => s.removeAt a (active a) false
      | none => some s) = some s' ∧ StackInv s' held ∧ Kept s s' := by
  cases found with
  | none => exact ⟨s, rfl, hi, .refl s⟩
  | some a =>
    obtain ⟨s', hs', hi', hr⟩ := removeAt_spec hi (hf a rfl) (active a) false
    exact ⟨s', hs', hi', hr.kept⟩

theorem directClearDefault_kept (hi : StackInv s held) : ∃ s', s.directClearDefault = some s' ∧ StackInv s' held ∧ Kept s s' := by
  obtain ⟨s', hs', hi', -, -, hstate, hdefault⟩ := directClearDefault_spec hi
  exact ⟨s', hs', hi', hdefault, hstate⟩

/-- A pointer that `Remove` may read: the object is live, or there is nothing to compare it with. -/
def Stack.Readable (s : Stack) (p : GeneratorPtr) : MovementSlot → Prop
  | .default => True
  | .active => s.generators = [] ∨ s.live p = true

theorem directRemove_spec (hi : StackInv s held) (hp : s.Readable p slot) :
    ∃ s', s.directRemove p slot = some s' ∧ StackInv s' held ∧ Kept s s' := by
  cases slot with
  | default =>
    unfold Stack.directRemove
    dsimp only
    split
    · exact directClearDefault_kept hi
    · exact ⟨s, rfl, hi, .refl s⟩
  | active =>
    unfold Stack.directRemove
    dsimp only
    split
    next => exact ⟨s, rfl, hi, .refl s⟩
    next hne =>
    have hlive : s.live p = true := hp.resolve_left (by simpa using hne)
    rw [deref_of_live hlive, Option.bind_some, if_pos hi.readable]
    refine removeFound_spec hi (fun q hq => ?_) fun a => s.GetCurrentMovementGenerator = some a
    split at hq
    next hin =>
      cases hq
      exact (List.dropWhile_sublist _).subset ((List.takeWhile_sublist _).subset hin)
    next => exact (List.dropWhile_sublist _).subset ((List.dropWhile_sublist _).subset (List.mem_of_mem_head? hq))

theorem directRemoveType_spec (hi : StackInv s held) (type : MovementGeneratorType) (slot : MovementSlot) :
    ∃ s', s.directRemoveType type slot = some s' ∧ StackInv s' held ∧ Kept s s' := by
  cases slot with
  | default =>
    unfold Stack.directRemoveType
    cases hd : s.defaultGenerator with
    | none => exact ⟨s, rfl, hi, .refl s⟩
    | some d =>
      dsimp only
      rw [deref_of_live (hi.live_default hd), Option.bind_some]
      split
      · exact directClearDefault_kept hi
      · exact ⟨s, rfl, hi, .refl s⟩
  | active =>
    unfold Stack.directRemoveType
    rw [if_pos hi.readable]
    exact removeFound_spec hi (fun q hq => List.mem_of_find?_eq_some hq) fun a => s.GetCurrentMovementGenerator = some a

/-! ## Adding -/

theorem baseEntries_congr {object object' : GeneratorPtr → MovementGenerator}
    (h : ∀ p ∈ l, (object' p).baseUnitState = (object p).baseUnitState) : baseEntries object' l = baseEntries object l := by
  have hfilter : (l.filter fun p => (object' p).baseUnitState ≠ 0#32) = l.filter fun p => (object p).baseUnitState ≠ 0#32 :=
    List.filter_congr fun p hp => by rw [h p hp]
  unfold baseEntries
  rw [hfilter]
  exact List.map_congr_left fun p hp => by rw [h p (List.mem_of_mem_filter hp)]

/-- From `s` to `s'` only flags of generators and of the stack change. -/
structure Flagged (s s' : Stack) : Prop where
  generators : s'.generators = s.generators
  default : s'.defaultGenerator = s.defaultGenerator
  live : s'.live = s.live
  mode : ∀ p, (s'.object p).mode = (s.object p).mode
  priority : ∀ p, (s'.object p).priority = (s.object p).priority
  base : ∀ p, (s'.object p).baseUnitState = (s.object p).baseUnitState
  cls : ∀ p, (s'.object p).cls = (s.object p).cls
  map : s'.baseUnitStatesMap = s.baseUnitStatesMap

theorem Flagged.refl (s : Stack) : Flagged s s := ⟨rfl, rfl, rfl, fun _ => rfl, fun _ => rfl, fun _ => rfl, fun _ => rfl, rfl⟩

theorem Flagged.trans (h : Flagged s s') (h' : Flagged s' s'') : Flagged s s'' where
  generators := h'.generators.trans h.generators
  default := h'.default.trans h.default
  live := h'.live.trans h.live
  mode := fun p => (h'.mode p).trans (h.mode p)
  priority := fun p => (h'.priority p).trans (h.priority p)
  base := fun p => (h'.base p).trans (h.base p)
  cls := fun p => (h'.cls p).trans (h.cls p)
  map := h'.map.trans h.map

theorem Flagged.shape (h : Flagged s s') (hs : Shape s) (hidle : ∀ p, (s.object p).cls = .idle → s'.object p = s.object p) :
    Shape s' := by
  refine ⟨?_, fun p hp hc => ?_, ?_, ?_, ?_, fun p hp => ?_, fun p hp => ?_⟩
  · rw [h.cls]; exact hs.idle
  · rw [h.cls] at hc
    rw [hidle p hc]
    exact hs.ready p (by rwa [← h.live]) hc
  · rw [h.generators]
    refine hs.sorted.imp fun {p q} hlt => ?_
    rwa [h.priority, h.priority]
  · rw [h.generators]; exact hs.notIdle
  · rw [h.map, h.generators, baseEntries_congr fun p _ => h.base p]; exact hs.entries
  · rw [h.mode]; exact hs.modes p (by rwa [← h.live])
  · rw [h.base]; exact hs.states p (by rwa [← h.live])

theorem flagged_modify (hmode : g.mode = (s.object p).mode) (hpriority : g.priority = (s.object p).priority)
    (hbase : g.baseUnitState = (s.object p).baseUnitState) (hcls : g.cls = (s.object p).cls) : Flagged s (s.modify p g) := by
  have hat : ∀ {α : Type} (f : MovementGenerator → α), f g = f (s.object p) → ∀ q, f ((s.modify p g).object q) = f (s.object q) := by
    intro α f hf q
    show f (Function.update s.object p g q) = _
    by_cases hq : q = p
    · subst hq
      rw [Function.update_self, hf]
    · rw [Function.update_of_ne hq]
  exact ⟨rfl, rfl, rfl, hat _ hmode, hat _ hpriority, hat _ hbase, hat _ hcls, rfl⟩

theorem object_modify_idle (hp : (s.object p).cls ≠ .idle) (q : GeneratorPtr)
    (hq : (s.object q).cls = .idle) : (s.modify p g).object q = s.object q :=
  Function.update_of_ne (fun he : q = p => hp (he ▸ hq)) _ _

theorem generatorDeactivate_spec (hi : StackInv s held) (hp : s.live p = true) :
    ∃ s', s.generatorDeactivate p = some s' ∧ StackInv s' held ∧ Flagged s s' ∧ Kept s s' := by
  unfold Stack.generatorDeactivate
  rw [deref_of_live hp, Option.map_some]
  by_cases hc : (s.object p).cls = .idle
  · rw [if_pos hc]
    exact ⟨s, rfl, hi, .refl s, .refl s⟩
  rw [if_neg hc]
  have hf := flagged_modify (s := s) (p := p) (g := { s.object p with deactivated := true }) rfl rfl rfl rfl
  exact ⟨_, rfl, ⟨hi.ledger.congr rfl rfl rfl rfl, hf.shape hi.shape (object_modify_idle hc), hi.held⟩, hf, id, id⟩

theorem insertSorted_sorted (hmode : ∀ q ∈ p :: l, (s.object q).mode = MOTION_MODE_DEFAULT)
    (hsorted : l.Pairwise fun p q => (s.object q).priority < (s.object p).priority)
    (hno : ∀ q ∈ l, (s.object q).priority ≠ (s.object p).priority) :
    (HandleHeap.insertSorted (fun a b => !generatorBefore (s.object a) (s.object b)) p l).Pairwise
      fun p q => (s.object q).priority < (s.object p).priority := by
  induction l with
  | nil => exact List.pairwise_singleton _ _
  | cons q l ih =>
    obtain ⟨hq, hl⟩ := List.pairwise_cons.1 hsorted
    have hbefore : generatorBefore (s.object p) (s.object q) = decide ((s.object q).priority < (s.object p).priority) := by
      unfold generatorBefore
      rw [hmode p List.mem_cons_self, hmode q (List.mem_cons_of_mem _ List.mem_cons_self), if_neg (lt_irrefl _), if_pos rfl]
    rw [HandleHeap.insertSorted, hbefore]
    split
    next hle =>
      have hle : (s.object p).priority ≤ (s.object q).priority := by simpa using hle
      have hlt := lt_of_le_of_ne hle (Ne.symm (hno q List.mem_cons_self))
      refine List.pairwise_cons.2 ⟨fun r hr => ?_, ih (fun r hr => ?_) hl fun r hr => hno r (List.mem_cons_of_mem _ hr)⟩
      · rcases List.mem_cons.1 ((HandleHeap.insertSorted_perm _ p l).mem_iff.1 hr) with rfl | hr
        · exact hlt
        · exact hq r hr
      · refine hmode r ?_
        rcases List.mem_cons.1 hr with rfl | hr
        · exact List.mem_cons_self
        · exact List.mem_cons_of_mem _ (List.mem_cons_of_mem _ hr)
    next hgt =>
    have hlt : (s.object q).priority < (s.object p).priority := by simpa using hgt
    refine List.pairwise_cons.2 ⟨fun r hr => ?_, hsorted⟩
    rcases List.mem_cons.1 hr with rfl | hr
    · exact hlt
    · exact (hq r hr).trans hlt

/-- A generator that was held for it becomes an active one, where none has its priority. -/
theorem emplace_spec (hi : StackInv s ((p, .active) :: held))
    (hno : ∀ q ∈ s.generators, (s.object q).priority ≠ (s.object p).priority) :
    ∃ s', (s.emplace p).bind (·.addBaseUnitState p) = some s' ∧ StackInv s' held ∧ Kept s s' := by
  have hne : p ≠ IDLE_GENERATOR := fun he => nomatch hi.held (p, .active) List.mem_cons_self he
  have hlive : s.live p = true := (hi.ledger.live p).2 (.inr (List.mem_append_right _ (List.mem_append_right _ List.mem_cons_self)))
  let l := HandleHeap.insertSorted (fun a b => !generatorBefore (s.object a) (s.object b)) p s.generators
  have hperm : l.Perm (p :: s.generators) := HandleHeap.insertSorted_perm _ _ _
  let m := if (s.object p).baseUnitState = 0#32 then s.baseUnitStatesMap
    else ((s.object p).baseUnitState, p) :: s.baseUnitStatesMap
  let u := if (s.object p).baseUnitState = 0#32 then s.unitState else s.unitState ||| (s.object p).baseUnitState
  have hadd : (s.emplace p).bind (·.addBaseUnitState p) =
      some { s with generators := l, baseUnitStatesMap := m, unitState := u } := by
    rw [Stack.emplace, hlive, hi.readable]
    show Option.map _ (({ s with generators := l } : Stack).deref p) = _
    rw [show ({ s with generators := l } : Stack).deref p = some (s.object p) from if_pos hlive, Option.map_some]
    by_cases hb : (s.object p).baseUnitState = 0#32
    · simp only [l, m, u, if_pos hb]
    · simp only [l, m, u, if_neg hb]
      rfl
  have hentries : m.Perm (baseEntries s.object l) := by
    refine List.Perm.trans ?_ (baseEntries_perm hperm).symm
    rw [baseEntries_cons]
    by_cases hb : (s.object p).baseUnitState = 0#32
    · simp only [m, if_pos hb]
      exact hi.shape.entries
    · simp only [m, if_neg hb]
      exact hi.shape.entries.cons _
  refine ⟨_, hadd, ⟨?_, ?_, fun e he => hi.held e (List.mem_cons_of_mem _ he)⟩, id, fun hbits => ?_⟩
  · refine (hi.ledger.perm ?_).congr rfl rfl rfl rfl
    exact List.Perm.append_left _ (List.perm_middle.trans (hperm.symm.append_right (held.map fun e : GeneratorPtr × MovementSlot => e.1)))
  · refine ⟨hi.shape.idle, hi.shape.ready, ?_, ?_, hentries, hi.shape.modes, hi.shape.states⟩
    · refine insertSorted_sorted (fun q hq => hi.shape.modes q ?_) hi.shape.sorted hno
      rcases List.mem_cons.1 hq with rfl | hq
      · exact hlive
      · exact hi.live_generator hq
    · intro hmem
      rcases List.mem_cons.1 (hperm.mem_iff.1 hmem) with he | hmem
      · exact hne he.symm
      · exact hi.shape.notIdle hmem
  · unfold Stack.InState at *
    show HasBits u m
    by_cases hb : (s.object p).baseUnitState = 0#32
    · simp only [u, m, if_pos hb]
      exact hbits
    · simp only [u, m, if_neg hb]
      exact hbits.add p

/-- A generator that was held for it becomes an active one; one of its priority goes, and a lower one on top is deactivated. -/
theorem directAdd_active_spec (hi : StackInv s ((p, .active) :: held)) (hdefault : s.defaultGenerator.isSome = true) :
    ∃ s', s.directAdd p .active = some s' ∧ StackInv s' held ∧ Kept s s' := by
  have hlive : s.live p = true := (hi.ledger.live p).2 (.inr (List.mem_append_right _ (List.mem_append_right _ List.mem_cons_self)))
  unfold Stack.directAdd
  dsimp only
  cases hl : s.generators with
  | nil =>
    obtain ⟨d, hd⟩ := Option.isSome_iff_exists.1 hdefault
    obtain ⟨s₁, h₁, hi₁, hf, hk⟩ := generatorDeactivate_spec hi (hi.live_default hd)
    obtain ⟨s₂, h₂, hi₂, hk₂⟩ := emplace_spec hi₁ fun q hq => by
      rw [hf.generators, hl] at hq
      cases hq
    refine ⟨s₂, ?_, hi₂, hk.trans hk₂⟩
    dsimp only
    rw [hd, Option.bind_some, h₁, Option.bind_some]
    exact h₂
  | cons top l =>
    have hsorted := hi.shape.sorted
    rw [hl] at hsorted
    obtain ⟨htop, hrest⟩ := List.pairwise_cons.1 hsorted
    have hmem : top ∈ s.generators := by rw [hl]; exact List.mem_cons_self
    dsimp only
    rw [deref_of_live hlive, Option.bind_some, deref_of_live (hi.live_generator hmem), Option.bind_some]
    split
    next hle =>
      split
      next heq =>
        obtain ⟨s₁, h₁, hi₁, hr⟩ := removeAt_spec hi hmem true false
        rw [hl, List.erase_cons_head] at hr
        obtain ⟨s₂, h₂, hi₂, hk₂⟩ := emplace_spec hi₁ fun q hq => by
          rw [hr.generators] at hq
          rw [hr.object, heq]
          exact (htop q hq).ne
        refine ⟨s₂, ?_, hi₂, hr.kept.trans hk₂⟩
        rw [h₁, Option.bind_some]
        exact h₂
      next hne =>
      obtain ⟨s₁, h₁, hi₁, hf, hk⟩ := generatorDeactivate_spec hi (hi.live_generator hmem)
      obtain ⟨s₂, h₂, hi₂, hk₂⟩ := emplace_spec hi₁ fun q hq => by
        have hlt : (s.object top).priority < (s.object p).priority := lt_of_le_of_ne hle (Ne.symm hne)
        rw [hf.generators, hl] at hq
        rw [hf.priority, hf.priority]
        rcases List.mem_cons.1 hq with rfl | hq
        · exact hlt.ne
        · exact ((htop q hq).trans hlt).ne
      refine ⟨s₂, ?_, hi₂, hk.trans hk₂⟩
      rw [h₁, Option.bind_some]
      exact h₂
    next =>
    rw [if_pos hi.readable, ← hl]
    cases hfind : s.generators.find? fun a => (s.object a).priority = (s.object p).priority with
    | none =>
      obtain ⟨s₂, h₂, hi₂, hk₂⟩ := emplace_spec hi fun q hq => by
        have := List.find?_eq_none.1 hfind q hq
        simpa using this
      exact ⟨s₂, h₂, hi₂, hk₂⟩
    | some a =>
      have ha := List.mem_of_find?_eq_some hfind
      have hsame : (s.object a).priority = (s.object p).priority := by simpa using List.find?_some hfind
      obtain ⟨s₁, h₁, hi₁, hr⟩ := removeAt_spec hi ha false false
      obtain ⟨s₂, h₂, hi₂, hk₂⟩ := emplace_spec hi₁ fun q hq => by
        rw [hr.generators] at hq
        rw [hr.object, ← hsame]
        have hqa : q ≠ a := by
          rintro rfl
          exact hi.shape.nodup.not_mem_erase hq
        exact hi.shape.priority_ne (List.mem_of_mem_erase hq) ha hqa
      refine ⟨s₂, ?_, hi₂, hr.kept.trans hk₂⟩
      dsimp only
      rw [h₁, Option.bind_some]
      exact h₂

/-! ## Whatever is asked of the stack -/

theorem GeneratorClass.states_create (c : GeneratorClass) :
    c.create.baseUnitState = 0#32 ∨ SingleBit c.create.baseUnitState := by
  cases c with
  | idle => exact .inl rfl
  | rotate => exact .inr ⟨21, rfl⟩
  | distract | assistanceDistract => exact .inr ⟨12, rfl⟩
  | confused => exact .inr ⟨11, rfl⟩
  | chase => exact .inr ⟨5, rfl⟩
  | flightPath => exact .inr ⟨8, rfl⟩
  | fleeing | timedFleeing => exact .inr ⟨7, rfl⟩
  | follow => exact .inr ⟨9, rfl⟩
  | random | waypoint | home | point | assistance | splineChain | formation | generic => exact .inr ⟨4, rfl⟩

theorem NewGenerator.states_create (g : NewGenerator) : g.create.baseUnitState = 0#32 ∨ SingleBit g.create.baseUnitState := by
  unfold NewGenerator.create
  cases hb : g.baseUnitState with
  | none => exact g.cls.states_create
  | some b =>
    rcases g.launched b hb with rfl | rfl
    · exact .inr ⟨17, rfl⟩
    · exact .inr ⟨18, rfl⟩

theorem allocate_spec (hi : StackInv s held) (hmode : g.mode = MOTION_MODE_DEFAULT)
    (hstate : g.baseUnitState = 0#32 ∨ SingleBit g.baseUnitState) (hidle : g.cls ≠ .idle) (slot : MovementSlot) :
    StackInv (s.allocate g) ((s.next, slot) :: held) := by
  have hnext : IDLE_GENERATOR < s.next := hi.ledger.bound _ ((hi.ledger.live _).2 (.inl rfl))
  have hlt : ∀ p, s.live p = true → p ≠ s.next := fun p hp => (hi.ledger.bound p hp).ne
  have hold : ∀ p, p ≠ s.next → (s.allocate g).object p = s.object p := fun p hp => Function.update_of_ne hp _ _
  have hnew : (s.allocate g).object s.next = g := Function.update_self _ _ _
  have hgen : ∀ p ∈ s.generators, (s.allocate g).object p = s.object p := fun p hp => hold p (hlt p (hi.live_generator hp))
  have hlive : ∀ p, (s.allocate g).live p = true → p = s.next ∨ s.live p = true := fun p hp => by
    by_cases he : p = s.next
    · exact .inl he
    · have hp : Function.update s.live s.next true p = true := hp
      exact .inr (by rwa [Function.update_of_ne he] at hp)
  refine ⟨?_, ⟨?_, fun p hp hc => ?_, ?_, hi.shape.notIdle, ?_, fun p hp => ?_, fun p hp => ?_⟩, fun e he => ?_⟩
  · exact (hi.ledger.allocate g).perm (owned_hold s _ slot held)
  · rw [hold _ hnext.ne]
    exact hi.shape.idle
  · rcases hlive p hp with rfl | hp
    · exact absurd (hnew ▸ hc) hidle
    · rw [hold p (hlt p hp)] at hc ⊢
      exact hi.shape.ready p hp hc
  · refine hi.shape.sorted.imp_of_mem fun {p q} hp hq hlt => ?_
    rwa [hgen p hp, hgen q hq]
  · exact hi.shape.entries.trans (.of_eq (baseEntries_congr fun p hp => by rw [hgen p hp]).symm)
  · rcases hlive p hp with rfl | hp
    · rw [hnew]; exact hmode
    · rw [hold p (hlt p hp)]; exact hi.shape.modes p hp
  · rcases hlive p hp with rfl | hp
    · rw [hnew]; exact hstate
    · rw [hold p (hlt p hp)]; exact hi.shape.states p hp
  · rcases List.mem_cons.1 he with rfl | he
    · exact fun h => absurd h hnext.ne'
    · exact hi.held e he

theorem hold_idle (hi : StackInv s held) : StackInv s ((IDLE_GENERATOR, .default) :: held) := by
  refine ⟨hi.ledger.cons_idle.perm (owned_hold s _ _ held), hi.shape, fun e he => ?_⟩
  rcases List.mem_cons.1 he with rfl | he
  · exact fun _ => rfl
  · exact hi.held e he

theorem initDefault_spec (hi : StackInv s held) :
    ∃ s' p, s.initDefault = some s' ∧ StackInv s' held ∧ s'.defaultGenerator = some p ∧ (s.InState → s'.InState) := by
  unfold Stack.initDefault
  cases s.defaultMovementType with
  | idle =>
    obtain ⟨s', hs', hi', hd⟩ := directAdd_default_spec (hold_idle hi)
    exact ⟨s', _, hs', hi', hd.default, hd.inState⟩
  | random =>
    obtain ⟨s', hs', hi', hd⟩ := directAdd_default_spec
      (allocate_spec hi rfl (GeneratorClass.random.states_create) nofun .default)
    exact ⟨s', _, hs', hi', hd.default, hd.inState⟩
  | waypoint =>
    obtain ⟨s', hs', hi', hd⟩ := directAdd_default_spec
      (allocate_spec hi rfl (GeneratorClass.waypoint.states_create) nofun .default)
    exact ⟨s', _, hs', hi', hd.default, hd.inState⟩

theorem directInit_spec (hi : StackInv s held) : ∃ s', s.directInit = some s' ∧ StackInv s' held ∧
    s'.defaultGenerator.isSome = true ∧ (s.InState → s'.InState) := by
  obtain ⟨s₁, h₁, hi₁, hk₁⟩ := directClearDefault_kept hi
  obtain ⟨s₂, h₂, hi₂, -, hk₂⟩ := directClear_spec hi₁
  obtain ⟨s₃, p, h₃, hi₃, hp, hbits⟩ := initDefault_spec hi₂
  refine ⟨s₃, ?_, hi₃, by rw [hp]; rfl, fun hs => hbits (hk₂.inState (hk₁.inState hs))⟩
  rw [Stack.directInit, h₁, Option.bind_some, h₂, Option.bind_some, h₃]

/-- A change that may be carried out: one that names a pointer may read it. -/
def Stack.Safe (s : Stack) : Change → Prop
  | .remove p slot => s.Readable p slot
  | _ => True

theorem change_spec (hi : StackInv s held) {c : Change} (hc : s.Safe c) : ∃ s', s.change c = some s' ∧ StackInv s' held ∧ Kept s s' := by
  have hskip : ∀ {o : Option Stack}, (∃ s', o = some s' ∧ StackInv s' held ∧ Kept s s') →
      ∃ s', (if s.Empty then some s else o) = some s' ∧ StackInv s' held ∧ Kept s s' := by
    intro o ho
    split
    · exact ⟨s, rfl, hi, .refl s⟩
    · exact ho
  have hclear : ∃ s', s.directClear = some s' ∧ StackInv s' held ∧ Kept s s' := by
    obtain ⟨s', hs', hi', -, hk⟩ := directClear_spec hi
    exact ⟨s', hs', hi', hk⟩
  cases c with
  | remove p slot => exact hskip (directRemove_spec hi hc)
  | removeType type slot => exact hskip (directRemoveType_spec hi type slot)
  | clear => exact hskip hclear
  | clearSlot slot =>
    cases slot with
    | default => exact hskip (directClearDefault_kept hi)
    | active => exact hskip hclear
  | clearMode mode => exact hskip (directClearFilter_spec hi _)
  | clearPriority priority => exact hskip (directClearFilter_spec hi _)
  | init =>
    obtain ⟨s', hs', hi', hd, hbits⟩ := directInit_spec hi
    exact ⟨s', hs', hi', fun _ => hd, hbits⟩

theorem directAdd_spec (hi : StackInv s ((p, slot) :: held)) (hdefault : s.defaultGenerator.isSome = true) :
    ∃ s', s.directAdd p slot = some s' ∧ StackInv s' held ∧ Kept s s' := by
  cases slot with
  | default =>
    obtain ⟨s', hs', hi', hd⟩ := directAdd_default_spec hi
    exact ⟨s', hs', hi', hd.kept⟩
  | active => exact directAdd_active_spec hi hdefault

end AtlasWow.Movement
