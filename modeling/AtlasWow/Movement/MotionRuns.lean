/-
Runs of a unit's movement: whatever is asked of it, from outside or from inside
a generator's functions, the stack stays consistent and nothing fails, as long
as the default generator does not finish and no removal goes through a dead
pointer. The owner keeps the states of its map as long as no generator on its
way home is initialised.
-/
import AtlasWow.Movement.MotionStack

namespace AtlasWow.Movement

variable {s s' : Stack} {p top : GeneratorPtr} {held held' : List (GeneratorPtr × MovementSlot)} {m m' : MotionMaster}
  {b : Bool} {a : DelayedAction} {t : Tick}

/-! ## Before a generator is updated -/

/-- A generator may be updated. -/
def Stack.Ready (s : Stack) (p : GeneratorPtr) : Prop := (s.object p).initPending = false ∧ (s.object p).deactivated = false

/-- The states of the owner once a generator is initialised. -/
def Stack.initState (s : Stack) (p : GeneratorPtr) (b : Bool) : UnitState :=
  if (s.object p).cls = .home then (s.setHomeLocation b).unitState else s.unitState

theorem setHomeLocation_eq (s : Stack) (b : Bool) : ∃ u, s.setHomeLocation b = { s with unitState := u } := by
  unfold Stack.setHomeLocation
  split
  · exact ⟨s.unitState, rfl⟩
  · exact ⟨_, rfl⟩

theorem setHomeLocation_congr (h : s'.unitState = s.unitState) (b : Bool) :
    (s'.setHomeLocation b).unitState = (s.setHomeLocation b).unitState := by
  unfold Stack.setHomeLocation Stack.HasUnitState
  rw [h]
  split
  · exact h
  · exact congrArg (· &&& _) h

theorem initState_congr (hcls : (s'.object p).cls = (s.object p).cls) (h : s'.unitState = s.unitState) (b : Bool) :
    s'.initState p b = s.initState p b := by
  unfold Stack.initState
  rw [hcls, h, setHomeLocation_congr h]

theorem StackInv.congr_unitState (hi : StackInv s held) (u : UnitState) : StackInv { s with unitState := u } held :=
  ⟨hi.ledger.congr rfl rfl rfl rfl, hi.shape.congr rfl rfl rfl fun _ h => h, hi.held⟩

theorem modify_flags (hi : StackInv s held) (hc : (s.object p).cls ≠ .idle) (i d : Bool) :
    StackInv (s.modify p { s.object p with initPending := i, deactivated := d }) held ∧
      Flagged s (s.modify p { s.object p with initPending := i, deactivated := d }) :=
  have hf : Flagged s (s.modify p { s.object p with initPending := i, deactivated := d }) := flagged_modify rfl rfl rfl rfl
  ⟨⟨hi.ledger.congr rfl rfl rfl rfl, hf.shape hi.shape (object_modify_idle hc), hi.held⟩, hf⟩

theorem object_modify (s : Stack) (p : GeneratorPtr) (g : MovementGenerator) : (s.modify p g).object p = g :=
  Function.update_self _ _ _

theorem generatorInit_spec (hi : StackInv s held) (hp : s.live p = true) (b : Bool) :
    ∃ s', s.generatorInit p b = some s' ∧ StackInv s' held ∧ Flagged s s' ∧ s'.Ready p ∧ s'.unitState = s.initState p b := by
  unfold Stack.generatorInit Stack.initState
  rw [deref_of_live hp, Option.map_some]
  by_cases hc : (s.object p).cls = .idle
  · rw [if_pos hc, hc, if_neg nofun]
    exact ⟨s, rfl, hi, .refl s, hi.shape.ready p hp hc, rfl⟩
  rw [if_neg hc]
  obtain ⟨hi₁, hf⟩ := modify_flags hi hc false false
  have hready : (s.modify p { s.object p with initPending := false, deactivated := false }).Ready p := by
    unfold Stack.Ready
    rw [object_modify]
    exact ⟨rfl, rfl⟩
  dsimp only
  by_cases hh : (s.object p).cls = .home
  · rw [if_pos hh, if_pos hh]
    obtain ⟨u, hu⟩ := setHomeLocation_eq (s.modify p { s.object p with initPending := false, deactivated := false }) b
    refine ⟨_, rfl, ?_, ?_, ?_, ?_⟩
    · rw [hu]; exact hi₁.congr_unitState u
    · rw [hu]; exact ⟨hf.generators, hf.default, hf.live, hf.mode, hf.priority, hf.base, hf.cls, hf.map⟩
    · rw [hu]; exact hready
    · exact setHomeLocation_congr (by rfl) b
  · rw [if_neg hh, if_neg hh]
    exact ⟨_, rfl, hi₁, hf, hready, rfl⟩

theorem generatorReset_spec (hi : StackInv s held) (hp : s.live p = true) (hinit : (s.object p).initPending = false) (b : Bool) :
    ∃ s', s.generatorReset p b = some s' ∧ StackInv s' held ∧ Flagged s s' ∧ s'.Ready p ∧ s'.unitState = s.initState p b := by
  unfold Stack.generatorReset
  rw [deref_of_live hp, Option.bind_some]
  have hstay : (s.object p).cls ≠ .home → s.initState p b = s.unitState := fun h => if_neg h
  by_cases hc : (s.object p).cls = .idle
  · simp only [hc]
    exact ⟨s, rfl, hi, .refl s, hi.shape.ready p hp hc, (hstay (by rw [hc]; nofun)).symm⟩
  obtain ⟨hi₁, hf₁⟩ := modify_flags hi hc (s.object p).initPending false
  obtain ⟨s₂, h₂, hi₂, hf₂, hready, hstate⟩ := generatorInit_spec hi₁ (p := p) hp b
  have hready₁ : (s.modify p { s.object p with deactivated := false }).Ready p := by
    unfold Stack.Ready
    rw [object_modify]
    exact ⟨hinit, rfl⟩
  split
  next h => exact absurd h hc
  next h => exact ⟨_, rfl, hi₁, hf₁, hready₁, (hstay (by rw [h]; nofun)).symm⟩
  next h => exact ⟨_, rfl, hi₁, hf₁, hready₁, (hstay (by rw [h]; nofun)).symm⟩
  next =>
    exact ⟨s₂, h₂, hi₂, hf₁.trans hf₂, hready, hstate.trans (initState_congr (hf₁.cls p) (by rfl) b)⟩

/-- The top may be updated after this; the owner's states change only if it is initialised. -/
theorem prepare_spec (hi : StackInv s held) (hp : s.live top = true) (b : Bool) :
    ∃ s', s.prepare top b = some s' ∧ StackInv s' held ∧ Flagged s s' ∧ s'.Ready top ∧
      (s'.unitState = s.unitState ∨ (¬ s.Ready top ∧ s'.unitState = s.initState top b)) := by
  obtain ⟨s₁, h₁, hi₁, hf₁, hobject₁, hstate₁⟩ : ∃ s₁, (if s.staticInitPending && top = IDLE_GENERATOR then
      { s with staticInitPending := false }.generatorInit top b else some s) = some s₁ ∧ StackInv s₁ held ∧ Flagged s s₁ ∧
      s₁.object = s.object ∧ s₁.unitState = s.unitState := by
    split
    next h =>
      rw [Bool.and_eq_true, decide_eq_true_eq] at h
      have hidle : (s.object top).cls = .idle := h.2 ▸ hi.shape.idle
      refine ⟨{ s with staticInitPending := false }, ?_, ⟨hi.ledger.congr rfl rfl rfl rfl,
        hi.shape.congr rfl rfl rfl fun _ h => h, hi.held⟩, ?_, rfl, rfl⟩
      · rw [Stack.generatorInit, show ({ s with staticInitPending := false } : Stack).deref top = some (s.object top) from if_pos hp,
          Option.map_some, if_pos hidle]
      · exact ⟨rfl, rfl, rfl, fun _ => rfl, fun _ => rfl, fun _ => rfl, fun _ => rfl, rfl⟩
    next => exact ⟨s, rfl, hi, .refl s, rfl, rfl⟩
  have hp₁ : s₁.live top = true := by rw [hf₁.live]; exact hp
  have hstate : s₁.initState top b = s.initState top b := initState_congr (by rw [hobject₁]) hstate₁ b
  have hready₁ : s₁.Ready top ↔ s.Ready top := by
    unfold Stack.Ready
    rw [hobject₁]
  unfold Stack.prepare
  rw [h₁, Option.bind_some, deref_of_live hp₁, Option.bind_some]
  cases hinit : (s₁.object top).initPending with
  | true =>
    obtain ⟨s₂, h₂, hi₂, hf₂, hready, hstate₂⟩ := generatorInit_spec hi₁ hp₁ b
    have hp₂ : s₂.live top = true := by rw [hf₂.live]; exact hp₁
    refine ⟨s₂, ?_, hi₂, hf₁.trans hf₂, hready, .inr ⟨fun hr => ?_, hstate₂.trans hstate⟩⟩
    · rw [if_pos rfl, h₂, Option.bind_some, deref_of_live hp₂, Option.bind_some, hready.2]
      rfl
    · rw [(hready₁.2 hr).1] at hinit
      cases hinit
  | false =>
    rw [if_neg Bool.false_ne_true, Option.bind_some, deref_of_live hp₁, Option.bind_some]
    cases hdeactivated : (s₁.object top).deactivated with
    | true =>
      obtain ⟨s₂, h₂, hi₂, hf₂, hready, hstate₂⟩ := generatorReset_spec hi₁ hp₁ hinit b
      refine ⟨s₂, h₂, hi₂, hf₁.trans hf₂, hready, .inr ⟨fun hr => ?_, hstate₂.trans hstate⟩⟩
      rw [(hready₁.2 hr).2] at hdeactivated
      cases hdeactivated
    | false => exact ⟨s₁, rfl, hi₁, hf₁, ⟨hinit, hdeactivated⟩, .inl hstate₁⟩

/-! ## Requests -/

/-- The objects that delayed requests are going to add. -/
def pendingAdds (actions : List DelayedAction) : List (GeneratorPtr × MovementSlot) :=
  actions.filterMap fun
    | .add p slot => some (p, slot)
    | .change _ => none

theorem StackInv.perm (hi : StackInv s held) (h : held.Perm held') : StackInv s held' :=
  ⟨hi.ledger.perm (List.Perm.append_left _ (List.Perm.append_left _ (h.map _))), hi.shape,
    fun e he => hi.held e (h.mem_iff.2 he)⟩

structure MotionInv (m : MotionMaster) : Prop where
  stack : StackInv m.stack (pendingAdds m.delayedActions)
  default : m.stack.defaultGenerator.isSome = true

/-- From `s` to `s'` there are only more objects. -/
structure Grown (s s' : Stack) : Prop where
  generators : s'.generators = s.generators
  default : s'.defaultGenerator = s.defaultGenerator
  unitState : s'.unitState = s.unitState
  map : s'.baseUnitStatesMap = s.baseUnitStatesMap

theorem Grown.refl (s : Stack) : Grown s s := ⟨rfl, rfl, rfl, rfl⟩

theorem Grown.trans {s'' : Stack} (h : Grown s s') (h' : Grown s' s'') : Grown s s'' :=
  ⟨h'.generators.trans h.generators, h'.default.trans h.default, h'.unitState.trans h.unitState, h'.map.trans h.map⟩

theorem Grown.inState (h : Grown s s') (hs : s.InState) : s'.InState := by
  unfold Stack.InState at *
  rwa [h.unitState, h.map]

theorem StackInv.setDefault (hi : StackInv s held) (type : DefaultMovementType) :
    StackInv { s with defaultMovementType := type } held :=
  ⟨hi.ledger.congr rfl rfl rfl rfl, hi.shape.congr rfl rfl rfl fun _ h => h, hi.held⟩

theorem request_change (m : MotionMaster) (c : Change) : request m (.change c) = m.call (.change c) := by
  cases c <;> rfl

/-- While an update is in progress a request only joins the queue. -/
theorem request_delayed (hi : MotionInv m) (hu : m.updating = true) (r : Request) :
    ∃ m', request m r = some m' ∧ MotionInv m' ∧ m'.updating = true ∧ Grown m.stack m'.stack := by
  have hcall : ∀ (m : MotionMaster) (a : DelayedAction), m.updating = true →
      m.call a = some { m with delayedActions := m.delayedActions ++ [a] } := fun m a hu => if_pos hu
  have hpending : ∀ a, pendingAdds (m.delayedActions ++ [a]) = pendingAdds m.delayedActions ++ pendingAdds [a] :=
    fun a => List.filterMap_append
  have hjoin : ∀ {s : Stack} {p : GeneratorPtr} {slot : MovementSlot}, StackInv s ((p, slot) :: pendingAdds m.delayedActions) →
      StackInv s (pendingAdds (m.delayedActions ++ [.add p slot])) := by
    intro s p slot hs
    rw [hpending]
    exact hs.perm (List.perm_append_singleton _ _).symm
  cases r with
  | add g slot =>
    have hs := allocate_spec hi.stack (g := g.create) rfl g.states_create g.notIdle slot
    exact ⟨_, hcall _ _ hu, ⟨hjoin hs, hi.default⟩, hu, rfl, rfl, rfl, rfl⟩
  | moveIdle => exact ⟨_, hcall _ _ hu, ⟨hjoin (hold_idle hi.stack), hi.default⟩, hu, .refl _⟩
  | change c =>
    refine ⟨_, (request_change m c).trans (hcall _ _ hu), ⟨?_, hi.default⟩, hu, .refl _⟩
    rw [hpending]
    exact (List.append_nil _).symm ▸ hi.stack
  | setDefaultMovementType type => exact ⟨_, rfl, ⟨hi.stack.setDefault type, hi.default⟩, hu, rfl, rfl, rfl, rfl⟩

theorem requests_delayed (requests : List Request) (hi : MotionInv m) (hu : m.updating = true) :
    ∃ m', requests.foldlM request m = some m' ∧ MotionInv m' ∧ m'.updating = true ∧ Grown m.stack m'.stack := by
  induction requests generalizing m with
  | nil => exact ⟨m, rfl, hi, hu, .refl _⟩
  | cons r requests ih =>
    obtain ⟨m₁, h₁, hi₁, hu₁, hg₁⟩ := request_delayed hi hu r
    obtain ⟨m₂, h₂, hi₂, hu₂, hg₂⟩ := ih hi₁ hu₁
    refine ⟨m₂, ?_, hi₂, hu₂, hg₁.trans hg₂⟩
    rw [List.foldlM_cons, h₁]
    exact h₂

theorem act_spec (hi : StackInv s (pendingAdds [a] ++ held)) (hdefault : s.defaultGenerator.isSome = true)
    (ha : ∀ c, a = .change c → s.Safe c) : ∃ s', s.act a = some s' ∧ StackInv s' held ∧ Kept s s' := by
  cases a with
  | add p slot => exact directAdd_spec hi hdefault
  | change c => exact change_spec hi (ha c rfl)

/-- Outside of updates a request is carried out at once. -/
theorem request_direct (hi : MotionInv m) (hu : m.updating = false) {r : Request} (hr : ∀ c, r = .change c → m.stack.Safe c) :
    ∃ m', request m r = some m' ∧ MotionInv m' ∧ m'.updating = false ∧ Kept m.stack m'.stack := by
  have hcall : ∀ {m : MotionMaster} {a : DelayedAction} {s' : Stack}, m.updating = false → m.stack.act a = some s' →
      m.call a = some { m with stack := s' } := fun {m a s'} hu hs => by
    rw [MotionMaster.call, hu, if_neg Bool.false_ne_true, hs, Option.map_some]
  cases r with
  | add g slot =>
    have hs := allocate_spec hi.stack (g := g.create) rfl g.states_create g.notIdle slot
    obtain ⟨s', hs', hi', hk⟩ := directAdd_spec hs hi.default
    exact ⟨_, hcall (m := { m with stack := m.stack.allocate g.create }) hu hs', ⟨hi', hk.default hi.default⟩, hu,
      hk.default, hk.inState⟩
  | moveIdle =>
    obtain ⟨s', hs', hi', hk⟩ := directAdd_spec (hold_idle hi.stack) hi.default
    exact ⟨_, hcall hu hs', ⟨hi', hk.default hi.default⟩, hu, hk⟩
  | change c =>
    obtain ⟨s', hs', hi', hk⟩ := change_spec hi.stack (hr c rfl)
    exact ⟨_, (request_change m c).trans (hcall hu hs'), ⟨hi', hk.default hi.default⟩, hu, hk⟩
  | setDefaultMovementType type =>
    exact ⟨_, rfl, ⟨hi.stack.setDefault type, hi.default⟩, hu, fun h => h, fun h => h⟩

/-- The next delayed action is carried out, and leaves the queue. -/
theorem resolve_spec (hi : MotionInv m) (hu : m.updating = false) {rest : List DelayedAction}
    (hq : m.delayedActions = a :: rest) (ha : ∀ c, a = .change c → m.stack.Safe c) :
    ∃ m', resolve m = some m' ∧ MotionInv m' ∧ m'.updating = false ∧ Kept m.stack m'.stack := by
  have hs := hi.stack
  rw [hq, show pendingAdds (a :: rest) = pendingAdds [a] ++ pendingAdds rest from List.filterMap_append (l := [a])] at hs
  obtain ⟨s', hs', hi', hk⟩ := act_spec hs hi.default ha
  refine ⟨{ m with stack := s', delayedActions := rest }, ?_, ⟨hi', hk.default hi.default⟩, hu, hk⟩
  rw [resolve, hq]
  dsimp only
  rw [MotionMaster.call, hu, if_neg Bool.false_ne_true, hs', Option.map_some, Option.map_some, hq]
  rfl

/-! ## Updates -/

theorem current_live (hi : StackInv s held) (hdefault : s.defaultGenerator.isSome = true) :
    ∃ top, s.GetCurrentMovementGenerator = some top ∧ s.live top = true := by
  unfold Stack.GetCurrentMovementGenerator
  cases hl : s.generators with
  | nil =>
    obtain ⟨d, hd⟩ := Option.isSome_iff_exists.1 hdefault
    exact ⟨d, hd, hi.live_default hd⟩
  | cons p l => exact ⟨p, rfl, hi.live_generator (by rw [hl]; exact List.mem_cons_self)⟩

theorem current_congr (hgenerators : s'.generators = s.generators) (hdefault : s'.defaultGenerator = s.defaultGenerator) :
    s'.GetCurrentMovementGenerator = s.GetCurrentMovementGenerator := by
  unfold Stack.GetCurrentMovementGenerator
  rw [hgenerators, hdefault]

/-- An update that initialises a home generator among the active ones; `b`: the owner is rooted or stunned. -/
def Stack.Homecoming (s : Stack) (b : Bool) : Prop :=
  ∃ top l, s.generators = top :: l ∧ (s.object top).cls = .home ∧ ¬ s.Ready top ∧
    (b || s.HasUnitState UNIT_STATE_DISTRACTED) = false

/-- Without active generators there is nothing in the map, and nothing to clear. -/
theorem initState_hasBits (hi : StackInv s held) (hs : s.InState) (htop : s.GetCurrentMovementGenerator = some top)
    (hready : ¬ s.Ready top) (hhome : ¬ s.Homecoming b) : HasBits (s.initState top b) s.baseUnitStatesMap := by
  unfold Stack.initState
  split
  next hcls =>
    unfold Stack.setHomeLocation
    split
    next => exact hs
    next hgo =>
    cases hl : s.generators with
    | nil =>
      have hmap := hi.shape.entries
      rw [hl] at hmap
      have hmap : s.baseUnitStatesMap = [] := List.perm_nil.1 hmap
      unfold Stack.InState at hs
      rw [hmap] at hs ⊢
      refine HasBits.nil.2 ?_
      show s.unitState &&& _ = _
      rw [HasBits.nil.1 hs, BitVec.zero_and]
    | cons p l =>
      rw [Stack.GetCurrentMovementGenerator, hl] at htop
      cases htop
      exact absurd ⟨top, l, hl, hcls, hready, Bool.not_eq_true _ ▸ hgo⟩ hhome
  next => exact hs

/-- The default generator does not finish in an update that finds it current. -/
def Stack.Lasting (s : Stack) (t : Tick) : Prop :=
  s.generators = [] → t.finished = true → ∀ d, s.defaultGenerator = some d → (s.object d).cls.endless = true

theorem updateTop_spec (hi : MotionInv m) (ht : m.stack.Lasting t) :
    ∃ m', updateTop m t = some m' ∧ MotionInv m' ∧ m'.updating = false ∧
      (¬ m.stack.Homecoming t.held → m.stack.InState → m'.stack.InState) := by
  obtain ⟨top, htop, hlive⟩ := current_live hi.stack hi.default
  obtain ⟨s₁, h₁, hi₁, hf₁, hready, hstate⟩ := prepare_spec hi.stack hlive t.held
  have hdefault₁ : s₁.defaultGenerator.isSome = true := by rw [hf₁.default]; exact hi.default
  have hkept₁ : ¬ m.stack.Homecoming t.held → m.stack.InState → s₁.InState := by
    intro hhome hs
    unfold Stack.InState
    rw [hf₁.map]
    rcases hstate with h | ⟨hnot, h⟩
    · rw [h]; exact hs
    · rw [h]; exact initState_hasBits hi.stack hs htop hnot hhome
  obtain ⟨m₂, h₂, hi₂, hu₂, hg₂⟩ := requests_delayed t.requests
    (m := { m with stack := s₁, updating := true }) ⟨hi₁, hdefault₁⟩ rfl
  have hupdate : updateTop m t = (if !(s₁.object top).cls.endless && t.finished then
        if m₂.stack.GetCurrentMovementGenerator = some top then
          (m₂.stack.pop true true).bind fun s => t.informed.foldlM request { m₂ with stack := s }
        else none
      else some m₂).map fun m => { m with updating := false } := by
    have hempty : ¬ m.stack.Empty = true := by
      unfold Stack.Empty
      rw [Option.isNone_eq_false_iff.2 hi.default]
      exact Bool.false_ne_true
    have hlive₁ : s₁.live top = true := by rw [hf₁.live]; exact hlive
    rw [updateTop, if_neg hempty, htop, Option.bind_some, h₁, Option.bind_some, deref_of_live hlive₁, Option.bind_some,
      hready.1, hready.2, Bool.or_false, if_neg Bool.false_ne_true, h₂, Option.bind_some]
  rw [hupdate]
  split
  next hfinished =>
    rw [Bool.and_eq_true, Bool.not_eq_true'] at hfinished
    have hcurrent : m₂.stack.GetCurrentMovementGenerator = some top :=
      (current_congr hg₂.generators hg₂.default).trans ((current_congr hf₁.generators hf₁.default).trans htop)
    have hsame : m₂.stack.generators = m.stack.generators := hg₂.generators.trans hf₁.generators
    rw [if_pos hcurrent]
    cases hl : m.stack.generators with
    | nil =>
      rw [Stack.GetCurrentMovementGenerator, hl] at htop
      have hendless := ht hl hfinished.2 top htop
      rw [← hf₁.cls, hfinished.1] at hendless
      cases hendless
    | cons p l =>
      obtain ⟨s₃, h₃, hi₃, hr₃⟩ := pop_spec hi₂.stack (hsame.trans hl) true true
      obtain ⟨m₄, h₄, hi₄, hu₄, hg₄⟩ := requests_delayed t.informed (m := { m₂ with stack := s₃ })
        ⟨hi₃, hr₃.kept.default hi₂.default⟩ hu₂
      refine ⟨{ m₄ with updating := false }, ?_, ⟨hi₄.stack, hi₄.default⟩, rfl, fun hhome hs => ?_⟩
      · rw [h₃, Option.bind_some, h₄, Option.map_some]
      · exact hg₄.inState (hr₃.inState (hg₂.inState (hkept₁ hhome hs)))
  next =>
    exact ⟨{ m₂ with updating := false }, rfl, ⟨hi₂.stack, hi₂.default⟩, rfl, fun hhome hs => hg₂.inState (hkept₁ hhome hs)⟩

/-! ## Runs -/

/-- A step of a run: delayed actions are resolved before anything else, a removal may read its pointer, and the default
generator goes on. -/
def Allowed : Op → MotionMaster → Prop
  | .request r, m => m.delayedActions = [] ∧ ∀ c, r = .change c → m.stack.Safe c
  | .update t, m => m.delayedActions = [] ∧ m.stack.Lasting t
  | .resolve, m => ∃ a rest, m.delayedActions = a :: rest ∧ ∀ c, a = .change c → m.stack.Safe c

/-- A step that initialises an active home generator. -/
def Homecoming : Op → MotionMaster → Prop
  | .update t, m => m.stack.Homecoming t.held
  | _, _ => False

theorem step_spec (hi : MotionInv m) (hu : m.updating = false) {op : Op} (hop : Allowed op m) :
    ∃ m', step op m = some m' ∧ MotionInv m' ∧ m'.updating = false ∧
      (¬ Homecoming op m → m.stack.InState → m'.stack.InState) := by
  cases op with
  | request r =>
    obtain ⟨hq, hr⟩ := hop
    obtain ⟨m', hm', hi', hu', hk⟩ := request_direct hi hu hr
    exact ⟨m', (if_pos (by rw [hq]; rfl)).trans hm', hi', hu', fun _ => hk.inState⟩
  | update t =>
    obtain ⟨hq, ht⟩ := hop
    obtain ⟨m', hm', h⟩ := updateTop_spec hi ht
    exact ⟨m', (if_pos (by rw [hq]; rfl)).trans hm', h⟩
  | resolve =>
    obtain ⟨a, rest, hq, ha⟩ := hop
    obtain ⟨m', hm', hi', hu', hk⟩ := resolve_spec hi hu hq ha
    exact ⟨m', hm', hi', hu', fun _ => hk.inState⟩

theorem stackInv_new (type : DefaultMovementType) : StackInv (Stack.new type) [] := by
  have hlive : ∀ p, (Stack.new type).live p = true ↔ p = IDLE_GENERATOR := fun p => decide_eq_true_iff
  refine ⟨⟨List.nodup_nil, fun p => ?_, fun p hp => ?_, fun p _ _ => ⟨rfl, rfl⟩, fun p hp hlt => ?_⟩,
    ⟨rfl, fun _ _ _ => ⟨rfl, rfl⟩, .nil, List.not_mem_nil, .nil, fun _ _ => rfl, fun _ _ => .inl rfl⟩, fun e he => nomatch he⟩
  · rw [hlive]
    exact ⟨.inl, fun h => h.elim id nofun⟩
  · rw [(hlive p).1 hp]
    exact Nat.zero_lt_one
  · exact absurd (Nat.lt_one_iff.1 hlt) hp

theorem initialize_spec {type : DefaultMovementType} (h : (MotionMaster.new type).Initialize = some m) :
    MotionInv m ∧ m.updating = false ∧ m.stack.InState := by
  obtain ⟨s', hs', hi', hd, hbits⟩ := directInit_spec (stackInv_new type)
  have hcall : (MotionMaster.new type).Initialize = some ⟨s', false, []⟩ := congrArg (Option.map _) hs'
  rw [hcall] at h
  cases h
  exact ⟨⟨hi', hd⟩, rfl, hbits (HasBits.nil.2 rfl)⟩

theorem Moving.inv (h : Moving Allowed m) : MotionInv m ∧ m.updating = false := by
  obtain ⟨type, m₀, h₀, hrun⟩ := h
  refine hrun.invariant (fun m => MotionInv m ∧ m.updating = false) (fun op a b ha hop hstep => ?_)
    ⟨(initialize_spec h₀).1, (initialize_spec h₀).2.1⟩
  obtain ⟨b', hb, hi, hu, -⟩ := step_spec ha.1 ha.2 hop
  cases hb.symm.trans hstep
  exact ⟨hi, hu⟩

theorem Moving.imp {ok ok' : Op → MotionMaster → Prop} (h : Moving ok m) (himp : ∀ op m, ok op m → ok' op m) : Moving ok' m := by
  obtain ⟨type, m₀, h₀, hrun⟩ := h
  exact ⟨type, m₀, h₀, hrun.invariant (Reaches step ok' m₀) (fun op a b ha hop hs => .tail op ha (himp op a hop) hs) .refl⟩

/-- A run on which nobody comes home. -/
theorem Moving.inState (h : Moving (fun op m => Allowed op m ∧ ¬ Homecoming op m) m) : m.stack.InState := by
  obtain ⟨type, m₀, h₀, hrun⟩ := h
  refine (hrun.invariant (fun m => (MotionInv m ∧ m.updating = false) ∧ m.stack.InState) (fun op a b ha hop hstep => ?_)
    ⟨⟨(initialize_spec h₀).1, (initialize_spec h₀).2.1⟩, (initialize_spec h₀).2.2⟩).2
  obtain ⟨b', hb, hi, hu, hs⟩ := step_spec ha.1.1 ha.1.2 hop.1
  cases hb.symm.trans hstep
  exact ⟨⟨hi, hu⟩, hs hop.2 ha.2⟩

/-- What the stack is to be. `owned`: the default generator, the active ones, and those that requests wait to add. -/
structure Consistent (m : MotionMaster) : Prop where
  hasDefault : m.stack.defaultGenerator.isSome = true
  onePerPriority : m.stack.generators.Pairwise fun p q => (m.stack.object p).priority ≠ (m.stack.object q).priority
  current : ∃ p, m.stack.GetCurrentMovementGenerator = some p ∧
    if m.stack.generators = [] then m.stack.defaultGenerator = some p
    else p ∈ m.stack.generators ∧ ∀ q ∈ m.stack.generators, q ≠ p → (m.stack.object q).priority < (m.stack.object p).priority
  baseStates : m.stack.baseUnitStatesMap.Perm (baseEntries m.stack.object m.stack.generators)
  onePlace : ((m.stack.owned (pendingAdds m.delayedActions)).filter (· ≠ IDLE_GENERATOR)).Nodup
  inUse : ∀ p ∈ m.stack.owned (pendingAdds m.delayedActions), m.stack.live p = true ∧
    (p ≠ IDLE_GENERATOR → m.stack.finalizedTimes p = 0 ∧ m.stack.deleted p = 0)
  retired : ∀ p, p ≠ IDLE_GENERATOR → p < m.stack.next → p ∉ m.stack.owned (pendingAdds m.delayedActions) →
    m.stack.live p = false ∧ m.stack.finalizedTimes p = 1 ∧ m.stack.deleted p = 1

theorem MotionInv.consistent (hi : MotionInv m) : Consistent m where
  hasDefault := hi.default
  onePerPriority := hi.stack.shape.sorted.imp fun {_ _} hlt => hlt.ne'
  current := by
    have hsorted := hi.stack.shape.sorted
    unfold Stack.GetCurrentMovementGenerator
    cases hl : m.stack.generators with
    | nil =>
      obtain ⟨d, hd⟩ := Option.isSome_iff_exists.1 hi.default
      exact ⟨d, hd, by rw [if_pos rfl]; exact hd⟩
    | cons p l =>
      rw [hl] at hsorted
      refine ⟨p, rfl, ?_⟩
      rw [if_neg (List.cons_ne_nil p l)]
      refine ⟨List.mem_cons_self, fun q hq hne => ?_⟩
      exact (List.pairwise_cons.1 hsorted).1 q ((List.mem_cons.1 hq).resolve_left hne)
  baseStates := hi.stack.shape.entries
  onePlace := hi.stack.ledger.nodup
  inUse := fun p hp =>
    have hlive := (hi.stack.ledger.live p).2 (.inr hp)
    ⟨hlive, fun hne => hi.stack.ledger.unfinished p hne (.inl hlive)⟩
  retired := fun p hne hlt hp => by
    have hdead : m.stack.live p = false := by
      by_contra h
      exact ((hi.stack.ledger.live p).1 (Bool.not_eq_false _ ▸ h)).elim hne hp
    exact ⟨hdead, hi.stack.ledger.once p hne hlt hdead⟩

/-- `Update` is the step of the top, and the delayed actions in their order. -/
theorem MotionMaster.Update_steps (hq : m.delayedActions = []) (h : m.Update t = some m') :
    Reaches step (fun _ _ => True) m m' ∧ m'.delayedActions = [] := by
  obtain ⟨m₁, h₁, hloop⟩ := Option.bind_eq_some_iff.1 h
  have hstep : step (.update t) m = some m₁ := (if_pos (by rw [hq]; rfl)).trans h₁
  obtain ⟨hrun, hend⟩ := whileLoop_invariant (Reaches step (fun _ _ => True) m)
    (fun a b ha _ hb => .tail .resolve ha trivial hb) (.tail (.update t) .refl trivial hstep) hloop
  exact ⟨hrun, by simpa using hend⟩

/-- A run of the movement of a new unit, from its initialization on. -/
def movementRun (type : DefaultMovementType) (ops : List Op) : Option MotionMaster :=
  (MotionMaster.new type).Initialize.bind (runSteps step ops)

def followGenerator : NewGenerator := ⟨.follow, none, none, nofun, launched_none⟩
def homeGenerator : NewGenerator := ⟨.home, none, none, nofun, launched_none⟩

end AtlasWow.Movement
