/-
What holds of the threat managers in every world reached: a threat list, its
heap and the threatened-by-me lists are views of the live references.

Most calls only tune references where they stand (`SamePlaces`). A reference
leaves its three places at once (`unregisterAndFree_inv`), and so the loops
that clear lists take one entry each round (`clearAllThreat_ends`,
`removeMeFromThreatLists_ends`).
-/
import AtlasWow.Combat.ThreatManager

namespace AtlasWow.Combat

variable {P : Platform} {env : Env P} {s s' : ThreatState P} {o v : ObjectGuid}

/-! ## The invariant -/

/-- A live reference on `o`'s list. -/
def OnList (s : ThreatState P) (o : ObjectGuid) (t : ThreatId) : Prop :=
  ∃ ref, s.refs t = some ref ∧ ref.owner = o

/-- A live reference on `o`'s list for `v`. -/
def Threatens (s : ThreatState P) (o v : ObjectGuid) (t : ThreatId) : Prop :=
  ∃ ref, s.refs t = some ref ∧ ref.owner = o ∧ ref.victim = v

/-- The three places hold exactly the live references, and the two cached
pointers of a manager are among its own. -/
structure ThreatInv (s : ThreatState P) : Prop where
  list : ∀ o v t, (s.mgr o).myThreatListEntries.find? v = some t ↔ Threatens s o v t
  byMe : ∀ v o t, (s.mgr v).threatenedByMe.find? o = some t ↔ Threatens s o v t
  heap : ∀ o t, t ∈ P.heap.elems (s.mgr o).sortedThreatList ↔ OnList s o t
  nodup : ∀ o, (P.heap.elems (s.mgr o).sortedThreatList).Nodup
  fresh : ∀ t, s.nextRef ≤ t → s.refs t = none
  current : ∀ o t, (s.mgr o).currentVictimRef = some t → OnList s o t
  fixate : ∀ o t, (s.mgr o).fixateRef = some t → OnList s o t

@[simp] theorem onList_setMgr {u : ObjectGuid} {m : ThreatManager P} {t : ThreatId} :
    OnList (s.setMgr u m) o t ↔ OnList s o t := Iff.rfl

theorem Threatens.onList {t : ThreatId} (h : Threatens s o v t) : OnList s o t := by
  obtain ⟨ref, ht, ho, -⟩ := h
  exact ⟨ref, ht, ho⟩

theorem threatens_of_ref {t : ThreatId} {ref : ThreatReference P.fmt} (h : s.refs t = some ref) :
    Threatens s ref.owner ref.victim t := ⟨ref, h, rfl, rfl⟩

theorem ThreatInv.unique {t t' : ThreatId} (hi : ThreatInv s) (h : Threatens s o v t)
    (h' : Threatens s o v t') : t = t' := by
  have h₁ := (hi.list o v t).2 h
  rw [(hi.list o v t').2 h'] at h₁
  exact (Option.some.inj h₁).symm

theorem threatInv_init (can : ObjectGuid → Bool) : ThreatInv (.init P can) where
  list := by intro o v t; simp [ThreatState.init, ThreatManager.init, Threatens]
  byMe := by intro o v t; simp [ThreatState.init, ThreatManager.init, Threatens]
  heap := by intro o t; simp [ThreatState.init, ThreatManager.init, OnList, P.heap.elems_empty]
  nodup := by intro o; simp [ThreatState.init, ThreatManager.init, P.heap.elems_empty]
  fresh := fun _ _ => rfl
  current := by intro o t h; cases h
  fixate := by intro o t h; cases h

/-! ## Tuning references where they stand -/

/-- From `s` to `s'` nothing is linked or unlinked. -/
structure SamePlaces (s s' : ThreatState P) : Prop where
  threatens : ∀ o v t, Threatens s' o v t ↔ Threatens s o v t
  live : ∀ t, (s'.refs t).isSome = (s.refs t).isSome
  nextRef : s'.nextRef = s.nextRef
  list : ∀ o, (s'.mgr o).myThreatListEntries = (s.mgr o).myThreatListEntries
  byMe : ∀ o, (s'.mgr o).threatenedByMe = (s.mgr o).threatenedByMe
  heap : ∀ o, (P.heap.elems (s'.mgr o).sortedThreatList).Perm (P.heap.elems (s.mgr o).sortedThreatList)
  current : ∀ o, (s'.mgr o).currentVictimRef = (s.mgr o).currentVictimRef
  fixate : ∀ o, (s'.mgr o).fixateRef = (s.mgr o).fixateRef
  canHave : ∀ o, (s'.mgr o).ownerCanHaveThreatList = (s.mgr o).ownerCanHaveThreatList

namespace SamePlaces

theorem refl (s : ThreatState P) : SamePlaces s s :=
  ⟨fun _ _ _ => Iff.rfl, fun _ => rfl, rfl, fun _ => rfl, fun _ => rfl, fun _ => .refl _, fun _ => rfl,
    fun _ => rfl, fun _ => rfl⟩

variable {s'' : ThreatState P} {u me target : ObjectGuid} {ref ref' : ThreatReference P.fmt}
    {amount factor : Fl P.fmt} {percent : Int} {canExpire : Bool}

theorem trans (h : SamePlaces s s') (h' : SamePlaces s' s'') : SamePlaces s s'' where
  threatens := fun o v t => (h'.threatens o v t).trans (h.threatens o v t)
  live := fun t => (h'.live t).trans (h.live t)
  nextRef := h'.nextRef.trans h.nextRef
  list := fun o => (h'.list o).trans (h.list o)
  byMe := fun o => (h'.byMe o).trans (h.byMe o)
  heap := fun o => (h'.heap o).trans (h.heap o)
  current := fun o => (h'.current o).trans (h.current o)
  fixate := fun o => (h'.fixate o).trans (h.fixate o)
  canHave := fun o => (h'.canHave o).trans (h.canHave o)

theorem after (h' : SamePlaces s' s'') (h : SamePlaces s s') : SamePlaces s s'' := h.trans h'

variable {t : ThreatId} {up : Bool} {owner : ObjectGuid}

theorem onList (h : SamePlaces s s') {o : ObjectGuid} : OnList s' o t ↔ OnList s o t := by
  constructor
  · rintro ⟨ref, ht, rfl⟩; exact ((h.threatens _ _ _).1 (threatens_of_ref ht)).onList
  · rintro ⟨ref, ht, rfl⟩; exact ((h.threatens _ _ _).2 (threatens_of_ref ht)).onList

theorem inv (h : SamePlaces s s') (hi : ThreatInv s) : ThreatInv s' where
  list := by intro o v t; rw [h.list, h.threatens]; exact hi.list o v t
  byMe := by intro v o t; rw [h.byMe, h.threatens]; exact hi.byMe v o t
  heap := by intro o t; rw [(h.heap o).mem_iff, h.onList]; exact hi.heap o t
  nodup := fun o => (h.heap o).nodup_iff.2 (hi.nodup o)
  fresh := by
    intro t ht
    rw [h.nextRef] at ht
    have := h.live t
    rw [hi.fresh t ht] at this
    simpa using this
  current := by intro o t; rw [h.current, h.onList]; exact hi.current o t
  fixate := by intro o t; rw [h.fixate, h.onList]; exact hi.fixate o t

/-- A change of a manager that leaves its lists and pointers alone. -/
theorem setMgr {m : ThreatManager P}
    (h₁ : m.myThreatListEntries = (s.mgr u).myThreatListEntries) (h₂ : m.threatenedByMe = (s.mgr u).threatenedByMe)
    (h₃ : (P.heap.elems m.sortedThreatList).Perm (P.heap.elems (s.mgr u).sortedThreatList))
    (h₄ : m.currentVictimRef = (s.mgr u).currentVictimRef) (h₅ : m.fixateRef = (s.mgr u).fixateRef)
    (h₆ : m.ownerCanHaveThreatList = (s.mgr u).ownerCanHaveThreatList) : SamePlaces s (s.setMgr u m) := by
  refine ⟨fun _ _ _ => Iff.rfl, fun _ => rfl, rfl, fun o => ?_, fun o => ?_, fun o => ?_, fun o => ?_,
    fun o => ?_, fun o => ?_⟩ <;>
    by_cases hu : o = u <;> (try subst hu) <;> simp_all

theorem setNeedClientUpdate (s : ThreatState P) (u : ObjectGuid) (b : Bool) :
    SamePlaces s (s.setNeedClientUpdate u b) := setMgr rfl rfl (.refl _) rfl rfl rfl

theorem setHeap {heap : P.heap.Carrier} (hp : (P.heap.elems heap).Perm (P.heap.elems (s.mgr u).sortedThreatList)) :
    SamePlaces s (s.setMgr u { s.mgr u with sortedThreatList := heap }) := setMgr rfl rfl hp rfl rfl rfl

/-- A change of a reference that leaves its two units alone. -/
theorem setRef (ht : s.refs t = some ref)
    (ho : ref'.owner = ref.owner) (hv : ref'.victim = ref.victim) : SamePlaces s (s.setRef t ref') where
  threatens := by
    intro o v t'
    by_cases h : t' = t
    · subst h; simp [Threatens, ThreatState.setRef, ht, ho, hv]
    · simp [Threatens, ThreatState.setRef, h]
  live := by
    intro t'
    by_cases h : t' = t
    · subst h; simp [ThreatState.setRef, ht]
    · simp [ThreatState.setRef, h]
  nextRef := rfl
  list := fun _ => rfl
  byMe := fun _ => rfl
  heap := fun _ => .refl _
  current := fun _ => rfl
  fixate := fun _ => rfl
  canHave := fun _ => rfl

/-- What is only recorded about the heaps does not count. -/
theorem recorded (h : SamePlaces s s') (inPlace : ThreatId → Option (Position P.fmt))
    (log : List (HeapNotify P.fmt)) : SamePlaces s { s' with inPlace := inPlace, heapLog := log } :=
  ⟨h.threatens, h.live, h.nextRef, h.list, h.byMe, h.heap, h.current, h.fixate, h.canHave⟩

theorem heapNotify (h : heapNotify s t up = some s') : SamePlaces s s' := by
  simp only [Combat.heapNotify, Option.bind_eq_bind, Option.bind_eq_some_iff] at h
  obtain ⟨ref, -, h⟩ := h
  cases h
  have hp : (P.heap.elems (if up then P.heap.increase (compareThreat s) (s.mgr ref.owner).sortedThreatList t
      else P.heap.decrease (compareThreat s) (s.mgr ref.owner).sortedThreatList t)).Perm
      (P.heap.elems (s.mgr ref.owner).sortedThreatList) := by
    cases up
    · exact P.heap.elems_decrease _ _ _
    · exact P.heap.elems_increase _ _ _
  exact recorded (setHeap hp) _ _

/-- A reference changes and the heap is told. -/
theorem setRefNotify (ht : s.refs t = some ref)
    (h : Combat.heapNotify (s.setRef t ref') t up = some s') (ho : ref'.owner = ref.owner)
    (hv : ref'.victim = ref.victim) : SamePlaces s s' :=
  (setRef ht ho hv).trans (heapNotify h)

theorem foldlM {α : Type} {f : ThreatState P → α → Option (ThreatState P)} {l : List α}
    (hf : ∀ x {a b}, f a x = some b → SamePlaces a b) (h : l.foldlM f s = some s') : SamePlaces s s' :=
  foldlM_invariant (SamePlaces s) (fun x _ _ ha hab => ha.trans (hf x hab)) (.refl s) h

theorem refAddThreat (h : refAddThreat s t amount = some s') : SamePlaces s s' := by
  unfold Combat.refAddThreat at h
  split at h
  · cases h; exact .refl s
  simp only [Option.bind_eq_bind, Option.bind_eq_some_iff] at h
  obtain ⟨ref, ht, s₁, h₁, h⟩ := h
  cases h
  have hs₁ : SamePlaces s s₁ := by split at h₁ <;> exact setRefNotify ht h₁ rfl rfl
  exact hs₁.trans (setNeedClientUpdate _ _ _)

theorem refScaleThreat (h : refScaleThreat s t factor = some s') : SamePlaces s s' := by
  unfold Combat.refScaleThreat at h
  split at h
  · cases h; exact .refl s
  simp only [Option.bind_eq_bind, Option.bind_eq_some_iff] at h
  obtain ⟨ref, ht, s₁, h₁, h⟩ := h
  cases h
  have hs₁ : SamePlaces s s₁ := by split at h₁ <;> exact setRefNotify ht h₁ rfl rfl
  exact hs₁.trans (setNeedClientUpdate _ _ _)

theorem refModifyThreatByPercent (h : refModifyThreatByPercent s t percent = some s') : SamePlaces s s' := by
  unfold Combat.refModifyThreatByPercent at h
  split at h
  · exact refScaleThreat h
  · cases h; exact .refl s

theorem updateOffline (h : updateOffline env s t = some s') : SamePlaces s s' := by
  simp only [Combat.updateOffline, Option.bind_eq_bind, Option.bind_eq_some_iff] at h
  obtain ⟨ref, ht, h⟩ := h
  split at h
  · cases h; exact .refl s
  split at h
  · exact setRefNotify ht h rfl rfl
  · exact setRefNotify ht h rfl rfl

theorem updateTauntState {state : Nat} (h : updateTauntState env s t state = some s') : SamePlaces s s' := by
  simp only [Combat.updateTauntState, Option.bind_eq_bind, Option.bind_eq_some_iff] at h
  obtain ⟨ref, ht, h⟩ := h
  generalize (if (decide (state < TAUNT_STATE_TAUNT) && env.hasDetauntAuraFrom ref.victim ref.owner) = true
    then TAUNT_STATE_DETAUNT else state) = state at h
  split at h
  · cases h; exact .refl s
  simp only [Option.bind_eq_some_iff] at h
  obtain ⟨s₁, h₁, h⟩ := h
  cases h
  have hs₁ : SamePlaces s s₁ := by split at h₁ <;> exact setRefNotify ht h₁ rfl rfl
  exact hs₁.trans (setNeedClientUpdate _ _ _)

theorem evaluateSuppressedRef (h : evaluateSuppressedRef env canExpire s t = some s') : SamePlaces s s' := by
  simp only [Combat.evaluateSuppressedRef, Option.bind_eq_bind, Option.bind_eq_some_iff] at h
  obtain ⟨ref, ht, h⟩ := h
  split at h
  · exact setRefNotify ht h rfl rfl
  split at h
  · exact setRefNotify ht h rfl rfl
  · cases h; exact .refl s

theorem evaluateSuppressed (h : evaluateSuppressed env s me canExpire = some s') : SamePlaces s s' :=
  foldlM (fun _ _ _ => evaluateSuppressedRef) h

theorem tauntUpdate (h : tauntUpdate env s owner = some s') : SamePlaces s s' := by
  simp only [Combat.tauntUpdate, Option.bind_eq_bind, Option.bind_eq_some_iff] at h
  obtain ⟨s₁, h₁, h⟩ := h
  exact (foldlM (fun _ _ _ => updateTauntState) h₁).trans (evaluateSuppressed h)

theorem scaleThreat (h : scaleThreat s owner target factor = some s') : SamePlaces s s' := by
  unfold Combat.scaleThreat at h
  split at h
  · cases h; exact .refl s
  · exact refScaleThreat h

theorem modifyThreatByPercent (h : modifyThreatByPercent s owner target percent = some s') : SamePlaces s s' := by
  unfold Combat.modifyThreatByPercent at h
  split at h
  · exact scaleThreat h
  · cases h; exact .refl s

theorem resetAllThreat (h : resetAllThreat s owner = some s') : SamePlaces s s' :=
  foldlM (fun _ _ _ => refScaleThreat) h

theorem setTempModifier {mod : Int} (h : setTempModifier mod up s t = some s') : SamePlaces s s' := by
  simp only [Combat.setTempModifier, Option.bind_eq_bind, Option.bind_eq_some_iff] at h
  obtain ⟨ref, ht, h⟩ := h
  split at h <;> exact setRefNotify ht h rfl rfl

theorem updateMyTempModifiers (h : updateMyTempModifiers env s me = some s') : SamePlaces s s' := by
  simp only [Combat.updateMyTempModifiers] at h
  split at h
  · cases h; exact .refl s
  simp only [Option.bind_eq_bind, Option.bind_eq_some_iff] at h
  obtain ⟨first, -, h⟩ := h
  exact foldlM (fun _ _ _ => setTempModifier) h

theorem calculateModifiedThreat (env : Env P) (s : ThreatState P) (threat : Fl P.fmt) (victim : ObjectGuid)
    (spell : Option SpellInfo) : SamePlaces s (calculateModifiedThreat env s threat victim spell).1 := by
  simp only [Combat.calculateModifiedThreat]
  split
  · exact .refl s
  split
  · exact .refl s
  · exact setMgr rfl rfl (.refl _) rfl rfl rfl

theorem modifyAmount (env : Env P) (s : ThreatState P) (amount : Fl P.fmt) (target : ObjectGuid)
    (spell : Option SpellInfo) (im : Bool) : SamePlaces s (modifyAmount env s amount target spell im).1 := by
  unfold Combat.modifyAmount
  split
  · exact .refl s
  · exact calculateModifiedThreat env s amount target spell

theorem updateRedirectInfo (s : ThreatState P) (me : ObjectGuid) : SamePlaces s (updateRedirectInfo s me) :=
  setMgr rfl rfl (.refl _) rfl rfl rfl

theorem registerRedirectThreat (env : Env P) (s : ThreatState P) (me : ObjectGuid) (spellId : Nat)
    (victim : ObjectGuid) (pct : Nat) : SamePlaces s (registerRedirectThreat env s me spellId victim pct) :=
  SamePlaces.after (updateRedirectInfo _ _) (setMgr rfl rfl (.refl _) rfl rfl rfl)

theorem unregisterRedirectThreat (s : ThreatState P) (me : ObjectGuid) (spellId : Nat) :
    SamePlaces s (unregisterRedirectThreat s me spellId) := by
  simp only [Combat.unregisterRedirectThreat]
  split
  · exact .refl s
  · exact SamePlaces.after (updateRedirectInfo _ _) (setMgr rfl rfl (.refl _) rfl rfl rfl)

theorem unregisterRedirectThreatFor (env : Env P) (s : ThreatState P) (me : ObjectGuid) (spellId : Nat)
    (victim : ObjectGuid) : SamePlaces s (unregisterRedirectThreatFor env s me spellId victim) := by
  simp only [Combat.unregisterRedirectThreatFor]
  split
  · exact .refl s
  split
  · exact .refl s
  · exact SamePlaces.after (updateRedirectInfo _ _) (setMgr rfl rfl (.refl _) rfl rfl rfl)

theorem addThreatToEntry (h : addThreatToEntry env s t amount = some s') : SamePlaces s s' := by
  simp only [Combat.addThreatToEntry, Option.bind_eq_bind, Option.bind_eq_some_iff] at h
  obtain ⟨ref, ht, s₁, h₁, ref₁, -, h⟩ := h
  have hs₁ : SamePlaces s s₁ := by
    split at h₁
    · exact setRefNotify ht h₁ rfl rfl
    · cases h₁; exact .refl s
  split at h
  · exact hs₁.trans (refAddThreat h)
  · cases h; exact hs₁

end SamePlaces

end AtlasWow.Combat
