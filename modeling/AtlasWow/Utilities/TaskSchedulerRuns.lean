/-
What runs of the scheduler come to. Handlers that act through their contexts
only do not see the time, so the loop of `Dispatch` is the same loop whatever
the time is, and one update does what several do (`updates_sum`). In every run,
tasks with equal ends run in the order they were pushed (`InOrder`), and a task
that is repeated runs at its own end and the new duration (`Steady`).
-/
import AtlasWow.Utilities.TaskScheduler
import Mathlib.Algebra.GroupWithZero.Nat

namespace AtlasWow

variable {ι β : Type}

/-- Repeat, schedule or cancel: what a context offers that has nothing to do with the time of the update. -/
def Action.ThroughContext : Action ι → Prop
  | .repeatFor _ _ | .repeatSame _ | .schedule _ _ _ _ | .cancelAll | .cancelGroup _ | .cancelGroupsOf _ => True
  | _ => False

/-- The handlers act only through their contexts. -/
def Handlers.ThroughContext (h : Handlers ι β) : Prop :=
  ∀ task context see world, ∀ a ∈ (h.handler task context see world).1, a.ThroughContext

namespace TaskScheduler

variable {h : Handlers ι β}

/-! ## The time does not matter -/

def setNow (now : Int) (s : TaskScheduler ι β) : TaskScheduler ι β := { s with now := now }

theorem foldl_cancelGroup (groups : List UInt32) : ∀ s : TaskScheduler ι β,
    (groups.foldl cancelGroup s).asyncHolder = s.asyncHolder ∧
      ∀ now, groups.foldl cancelGroup (setNow now s) = setNow now (groups.foldl cancelGroup s) := by
  induction groups with
  | nil => exact fun _ => ⟨rfl, fun _ => rfl⟩
  | cons group groups ih => exact fun s => ih (s.cancelGroup group)

variable {a : Action ι} {s s' : TaskScheduler ι β} {n difftime : Nat}

theorem act_setNow (ha : a.ThroughContext) (now : Int) (s : TaskScheduler ι β) :
    act (setNow now s) a = (act s a).map (setNow now) := by
  have hrepeat : ∀ context duration,
      (setNow now s).repeatTask context duration = (s.repeatTask context duration).map (setNow now) := by
    intro context duration
    unfold repeatTask
    rw [show (setNow now s).contexts = s.contexts from rfl, show (setNow now s).tasks = s.tasks from rfl]
    cases s.contexts[context]? with
    | none => rfl
    | some c =>
      simp only [Option.bind_some]
      split
      · rfl
      · cases s.tasks[c.task]? <;> rfl
  cases a with
  | repeatFor context duration => exact hrepeat context _
  | repeatSame context => exact hrepeat context _
  | schedule context time group task =>
    simp only [act]
    rw [show (setNow now s).contexts = s.contexts from rfl, show (setNow now s).tasks = s.tasks from rfl]
    cases s.contexts[context]? with
    | none => rfl
    | some c =>
      simp only [Option.bind_some]
      cases s.tasks[c.task]? <;> rfl
  | cancelAll => rfl
  | cancelGroup group => rfl
  | cancelGroupsOf groups => exact congrArg some ((foldl_cancelGroup groups s).2 now)
  | _ => cases ha

theorem foldlM_act_setNow {actions : List (Action ι)} (ha : ∀ a ∈ actions, a.ThroughContext) (now : Int) :
    ∀ s : TaskScheduler ι β, actions.foldlM act (setNow now s) = (actions.foldlM act s).map (setNow now) := by
  induction actions with
  | nil => exact fun _ => rfl
  | cons a actions ih =>
    intro s
    simp only [List.foldlM_cons, Option.bind_eq_bind]
    rw [act_setNow (ha a List.mem_cons_self)]
    cases act s a with
    | none => rfl
    | some s => exact ih (fun b hb => ha b (List.mem_cons_of_mem _ hb)) s

theorem invoke_setNow (hh : h.ThroughContext) (now : Int) (s : TaskScheduler ι β) :
    invoke h (setNow now s) = (invoke h s).map (setNow now) := by
  unfold invoke
  rw [show (setNow now s).taskHolder = s.taskHolder from rfl]
  cases s.taskHolder with
  | nil => rfl
  | cons first rest =>
    simp only
    rw [show (setNow now s).tasks = s.tasks from rfl]
    cases s.tasks[first.task]? with
    | none => rfl
    | some t =>
      simp only [Option.bind_some]
      exact foldlM_act_setNow (hh t.task s.contexts.length (s.popped first rest t).see s.world) now
        { s.popped first rest t with world := _ }

/-! ## Without asyncs -/

theorem act_idle (ha : a.ThroughContext) (hs : s.asyncHolder = [])
    (hact : act s a = some s') : s'.asyncHolder = [] := by
  have hrepeat : ∀ context duration, s.repeatTask context duration = some s' → s'.asyncHolder = [] := by
    intro context duration hr
    obtain ⟨c, -, hr⟩ := Option.bind_eq_some_iff.1 hr
    split at hr
    · cases hr
    · obtain ⟨t, -, rfl⟩ := Option.map_eq_some_iff.1 hr
      exact hs
  cases a with
  | repeatFor context duration => exact hrepeat _ _ hact
  | repeatSame context => exact hrepeat _ _ hact
  | schedule context time group task =>
    obtain ⟨c, -, hact⟩ := Option.bind_eq_some_iff.1 hact
    obtain ⟨t, -, rfl⟩ := Option.map_eq_some_iff.1 hact
    exact hs
  | cancelAll => cases hact; rfl
  | cancelGroup group => cases hact; exact hs
  | cancelGroupsOf groups => cases hact; exact (foldl_cancelGroup groups s).1.trans hs
  | _ => cases ha

/-- What one action keeps, the handler of a task keeps. -/
theorem invoke_keeps (hh : h.ThroughContext) (I : TaskScheduler ι β → Prop)
    (hact : ∀ (a : Action ι) s s', a.ThroughContext → I s → act s a = some s' → I s')
    (hpop : ∀ first rest t world, s.taskHolder = first :: rest → s.tasks[first.task]? = some t →
      I { s.popped first rest t with world := world })
    (h' : invoke h s = some s') : I s' := by
  unfold invoke at h'
  split at h'
  · cases h'
  next first rest hheld =>
  obtain ⟨t, ht, h'⟩ := Option.bind_eq_some_iff.1 h'
  have hth := hh t.task s.contexts.length (s.popped first rest t).see s.world
  exact foldlM_invariant_rest (fun rest s => (∀ a ∈ rest, a.ThroughContext) ∧ I s)
    (fun a rest s₁ s₂ hI hs => ⟨fun b hb => hI.1 b (List.mem_cons_of_mem _ hb),
      hact a s₁ s₂ (hI.1 a List.mem_cons_self) hI.2 hs⟩)
    ⟨hth, hpop first rest t _ hheld ht⟩ h' |>.2

theorem invoke_idle (hh : h.ThroughContext) (hs : s.asyncHolder = [])
    (h' : invoke h s = some s') : s'.asyncHolder = [] :=
  invoke_keeps hh (·.asyncHolder = []) (fun _ _ _ ha hs hact => act_idle ha hs hact) (fun _ _ _ _ _ _ => hs) h'

/-- The first task is due at a time. -/
def dueAt (h : Handlers ι β) (now : Int) (s : TaskScheduler ι β) : Bool :=
  h.predicate s.world && (setNow now s).isDue

theorem dispatch_idle {n : Nat} {s : TaskScheduler ι β} (hs : s.asyncHolder = []) :
    dispatch h n s = whileLoop (fun s => h.predicate s.world && s.isDue) (invoke h) n s := by
  have hasync : whileLoop (fun s => h.predicate s.world && !s.asyncHolder.isEmpty) (runAsync h) n s = some s := by
    cases n <;> simp [whileLoop, hs]
  unfold dispatch
  split
  next hp =>
    have hp : h.predicate s.world = false := by simpa using hp
    cases n <;> simp [whileLoop, hp]
  · rw [hasync, Option.bind_some]

/-- An update is the loop for its time. -/
theorem update_idle (hh : h.ThroughContext) (hs : s.asyncHolder = []) : update h n difftime s =
      (whileLoop (dueAt h (s.now + difftime)) (invoke h) n s).map (setNow (s.now + difftime)) := by
  have hdispatch := @dispatch_idle _ _ h n (setNow (s.now + difftime) s) hs
  exact hdispatch.trans (whileLoop_map (setNow (s.now + difftime)) (fun _ => rfl) (invoke_setNow hh _) n s)

theorem dispatch_mono {m : Nat} (hnm : n ≤ m) (h' : dispatch h n s = some s') : dispatch h m s = some s' := by
  unfold dispatch at h' ⊢
  split at h'
  next hp => rw [if_pos hp, h']
  next hp =>
  obtain ⟨a, ha, h'⟩ := Option.bind_eq_some_iff.1 h'
  rw [if_neg hp, whileLoop_mono hnm ha, Option.bind_some, whileLoop_mono hnm h']

theorem runSteps_mono {m : Nat} (hnm : n ≤ m) (difftimes : List Nat) : ∀ {s s' : TaskScheduler ι β},
    runSteps (update h n) difftimes s = some s' → runSteps (update h m) difftimes s = some s' := by
  induction difftimes with
  | nil => exact fun h' => h'
  | cons difftime difftimes ih =>
    intro s s' h'
    obtain ⟨a, ha, h'⟩ := Option.bind_eq_some_iff.1 h'
    exact Option.bind_eq_some_iff.2 ⟨a, dispatch_mono hnm ha, ih h'⟩

theorem updates_cons {difftimes : List Nat} :
    Updates h (difftime :: difftimes) s s' ↔ ∃ a, (∃ n, update h n difftime s = some a) ∧ Updates h difftimes a s' := by
  constructor
  · intro hu
    obtain ⟨n, hu⟩ := hu
    obtain ⟨a, ha, hu⟩ := Option.bind_eq_some_iff.1 hu
    exact ⟨a, ⟨n, ha⟩, n, hu⟩
  · intro hu
    obtain ⟨a, ⟨n, ha⟩, m, hu⟩ := hu
    exact ⟨max n m, Option.bind_eq_some_iff.2
      ⟨a, dispatch_mono (Nat.le_max_left n m) ha, runSteps_mono (Nat.le_max_right n m) _ hu⟩⟩

/-- Two updates are one. -/
theorem update_add (hh : h.ThroughContext) {d₁ d₂ : Nat} (hs : s.asyncHolder = []) :
    (∃ a, (∃ n, update h n d₁ s = some a) ∧ ∃ n, update h n d₂ a = some s') ↔ ∃ n, update h n (d₁ + d₂) s = some s' := by
  have hnow : s.now + ((d₁ + d₂ : Nat) : Int) = s.now + d₁ + d₂ := by omega
  have hlater : ∀ s', dueAt h (s.now + d₁) s' = true → dueAt h (s.now + d₁ + d₂) s' = true := by
    intro s' hdue
    obtain ⟨hp, hdue⟩ := Bool.and_eq_true_iff.1 hdue
    obtain ⟨first, hfirst, hend⟩ := (Option.any_eq_true _ _).1 hdue
    have hend : s'.endOf first.task ≤ s.now + d₁ := of_decide_eq_true hend
    have hend' : s'.endOf first.task ≤ s.now + d₁ + d₂ := by omega
    exact Bool.and_eq_true_iff.2 ⟨hp, (Option.any_eq_true _ _).2 ⟨first, hfirst, decide_eq_true hend'⟩⟩
  -- what the first update leaves is where its loop ended, at another time
  have hsecond : ∀ n a, whileLoop (dueAt h (s.now + d₁)) (invoke h) n s = some a →
      update h n d₂ (setNow (s.now + d₁) a) =
        (whileLoop (dueAt h (s.now + d₁ + d₂)) (invoke h) n a).map (setNow (s.now + d₁ + d₂)) := by
    intro n a ha
    have hidle : a.asyncHolder = [] :=
      (whileLoop_invariant (·.asyncHolder = []) (fun _ _ hs _ hb => invoke_idle hh hs hb) hs ha).1
    rw [update_idle hh (s := setNow (s.now + d₁) a) hidle]
    refine (congrArg _ (whileLoop_map (setNow (s.now + d₁)) (fun _ => rfl) (invoke_setNow hh _) n a)).trans ?_
    rw [Option.map_map]
    rfl
  have htake := @whileLoop_takeover _ _ (invoke h) _ hlater s
  constructor
  · intro hu
    obtain ⟨a, ⟨n, ha⟩, m, hu⟩ := hu
    -- both loops with the rounds of the longer one
    have ha := dispatch_mono (Nat.le_max_left n m) ha
    have hu := dispatch_mono (Nat.le_max_right n m) hu
    rw [← update, update_idle hh hs] at ha
    obtain ⟨b, hb, rfl⟩ := Option.map_eq_some_iff.1 ha
    rw [← update, hsecond _ b hb] at hu
    obtain ⟨c, hc, rfl⟩ := Option.map_eq_some_iff.1 hu
    obtain ⟨k, hk⟩ := (@htake c).1 ⟨max n m, Option.bind_eq_some_iff.2 ⟨b, hb, hc⟩⟩
    exact ⟨k, by rw [update_idle hh hs, hnow, hk, Option.map_some]⟩
  · intro hu
    obtain ⟨n, hu⟩ := hu
    rw [update_idle hh hs, hnow] at hu
    obtain ⟨b, hb, rfl⟩ := Option.map_eq_some_iff.1 hu
    obtain ⟨m, hm⟩ := (@htake b).2 ⟨n, hb⟩
    obtain ⟨a, ha, hab⟩ := Option.bind_eq_some_iff.1 hm
    refine ⟨setNow (s.now + d₁) a, ⟨m, ?_⟩, m, ?_⟩
    · rw [update_idle hh hs, ha]
      rfl
    · rw [hsecond m a ha, hab]
      rfl

/-- **Several updates are one update with the sum of their times.** -/
theorem updates_sum (hh : h.ThroughContext) (difftimes : List Nat) : ∀ (difftime : Nat) {s s' : TaskScheduler ι β},
    s.asyncHolder = [] → (Updates h (difftime :: difftimes) s s' ↔ Updates h [difftime + difftimes.sum] s s') := by
  induction difftimes with
  | nil => exact fun _ _ _ _ => Iff.rfl
  | cons d difftimes ih =>
    intro difftime s s' hs
    rw [List.sum_cons, ← Nat.add_assoc, ← ih (difftime + d) hs, updates_cons, updates_cons]
    simp only [updates_cons, ← update_add hh hs]
    constructor
    · intro hu
      obtain ⟨a, ha, b, hb, hu⟩ := hu
      exact ⟨b, ⟨a, ha, hb⟩, hu⟩
    · intro hu
      obtain ⟨b, ⟨a, ha, hb⟩, hu⟩ := hu
      exact ⟨a, ha, b, hb, hu⟩

/-! ## The order of tasks -/

def lastRun (ran : List Run) (task : Nat) : Option Run := ran.find? (·.task = task)

/-- Tasks with equal ends ran in the order they were pushed. -/
def InOrder (ran : List Run) : Prop :=
  ran.Pairwise fun later earlier => later.end_ = earlier.end_ → earlier.pushed < later.pushed

/-- A task that ran before ran again at its own end then and its new duration. -/
def Steady : List Run → Prop
  | [] => True
  | r :: ran => (∀ last, lastRun ran r.task = some last → r.end_ = last.end_ + r.duration) ∧ Steady ran

def durationOf (s : TaskScheduler ι β) (task : Nat) : Int := ((s.tasks[task]?).map (·.duration)).getD 0

/-- The tasks in the queue are in order, those pushed first among equals; a context that is not consumed has its task
for itself. -/
structure Good (s : TaskScheduler ι β) : Prop where
  idle : s.asyncHolder = []
  queued : ∀ q ∈ s.taskHolder, q.task < s.tasks.length ∧ q.pushed < s.pushes
  nodup : (s.taskHolder.map (·.task)).Nodup
  held : ∀ c ∈ s.contexts, c.consumed = false → ∀ q ∈ s.taskHolder, q.task ≠ c.task
  single : ∀ (i j : Nat) (a b : TaskContext), s.contexts[i]? = some a → s.contexts[j]? = some b →
    a.consumed = false → b.consumed = false → a.task = b.task → i = j
  sorted : s.taskHolder.Pairwise fun a b =>
    s.endOf a.task < s.endOf b.task ∨ s.endOf a.task = s.endOf b.task ∧ a.pushed < b.pushed
  ran : ∀ r ∈ s.ran, r.task < s.tasks.length ∧ r.pushed < s.pushes
  contexts : ∀ c ∈ s.contexts, c.task < s.tasks.length
  later : ∀ r ∈ s.ran, ∀ q ∈ s.taskHolder, s.endOf q.task = r.end_ → r.pushed < q.pushed
  next : ∀ q ∈ s.taskHolder, ∀ last, lastRun s.ran q.task = some last →
    s.endOf q.task = last.end_ + s.durationOf q.task
  same : ∀ c ∈ s.contexts, c.consumed = false → ∃ last, lastRun s.ran c.task = some last ∧ s.endOf c.task = last.end_
  inOrder : InOrder s.ran
  steady : Steady s.ran

theorem Good.new (now : Int) (world : β) : Good (new now world : TaskScheduler ι β) where
  idle := rfl
  queued := by intro q hq; cases hq
  nodup := List.nodup_nil
  held := by intro c hc; cases hc
  single := by intro i j a b ha; cases ha
  sorted := .nil
  ran := by intro r hr; cases hr
  contexts := by intro c hc; cases hc
  later := by intro r hr; cases hr
  next := by intro q hq; cases hq
  same := by intro c hc; cases hc
  inOrder := .nil
  steady := trivial

theorem Good.setNow (g : Good s) (now : Int) : Good (setNow now s) := { g with }

/-- A task nobody holds is pushed. -/
theorem Good.push (g : Good s) {task : Nat} (hlt : task < s.tasks.length)
    (hnot : ∀ q ∈ s.taskHolder, q.task ≠ task) (hfree : ∀ c ∈ s.contexts, c.consumed = false → task ≠ c.task)
    (hnext : ∀ last, lastRun s.ran task = some last → s.endOf task = last.end_ + s.durationOf task) :
    Good (s.push task) := by
  have hperm := List.perm_orderedInsert (fun a b : Queued => s.endOf a.task < s.endOf b.task) ⟨task, s.pushes⟩ s.taskHolder
  have hmem : ∀ q ∈ (s.push task).taskHolder, q = ⟨task, s.pushes⟩ ∨ q ∈ s.taskHolder := fun q hq =>
    List.mem_cons.1 (hperm.mem_iff.1 hq)
  have hpushes : (s.push task).pushes = s.pushes + 1 := rfl
  refine { g with queued := ?_, nodup := ?_, held := ?_, sorted := ?_, ran := ?_, later := ?_, next := ?_ }
  · intro q hq
    rcases hmem q hq with rfl | hq
    · exact ⟨hlt, Nat.lt_succ_self _⟩
    · exact ⟨(g.queued q hq).1, Nat.lt_succ_of_lt (g.queued q hq).2⟩
  · refine ((hperm.map (·.task)).nodup_iff).2 (List.nodup_cons.2 ⟨fun h => ?_, g.nodup⟩)
    obtain ⟨q, hq, he⟩ := List.mem_map.1 h
    exact hnot q hq he
  · intro c hc hcons q hq
    rcases hmem q hq with rfl | hq
    · exact hfree c hc hcons
    · exact g.held c hc hcons q hq
  · -- behind its equals, whose pushes were earlier
    have hinsert : ∀ l : List Queued, (∀ q ∈ l, q.pushed < s.pushes) →
        (l.Pairwise fun a b => s.endOf a.task < s.endOf b.task ∨ s.endOf a.task = s.endOf b.task ∧ a.pushed < b.pushed) →
        (l.orderedInsert (fun a b => s.endOf a.task < s.endOf b.task) ⟨task, s.pushes⟩).Pairwise fun a b =>
          s.endOf a.task < s.endOf b.task ∨ s.endOf a.task = s.endOf b.task ∧ a.pushed < b.pushed := by
      intro l hl hs
      induction l with
      | nil => exact List.pairwise_singleton _ _
      | cons q l ih =>
        obtain ⟨hq, hs⟩ := List.pairwise_cons.1 hs
        rw [List.orderedInsert_cons]
        split
        next hbefore =>
          refine List.pairwise_cons.2 ⟨fun q' hq' => ?_, List.pairwise_cons.2 ⟨hq, hs⟩⟩
          rcases List.mem_cons.1 hq' with rfl | hq'
          · exact .inl hbefore
          · have := hq q' hq'
            exact .inl (by omega)
        next hafter =>
        refine List.pairwise_cons.2 ⟨fun q' hq' => ?_, ih (fun a ha => hl a (List.mem_cons_of_mem _ ha)) hs⟩
        rcases (List.mem_orderedInsert _).1 hq' with rfl | hq'
        · have hpushed := hl q List.mem_cons_self
          have hafter : ¬ s.endOf task < s.endOf q.task := hafter
          show s.endOf q.task < s.endOf task ∨ s.endOf q.task = s.endOf task ∧ q.pushed < s.pushes
          omega
        · exact hq q' hq'
    exact hinsert _ (fun q hq => (g.queued q hq).2) g.sorted
  · exact fun r hr => ⟨(g.ran r hr).1, Nat.lt_succ_of_lt (g.ran r hr).2⟩
  · intro r hr q hq he
    rcases hmem q hq with rfl | hq
    · exact (g.ran r hr).2
    · exact g.later r hr q hq he
  · intro q hq last hlast
    rcases hmem q hq with rfl | hq
    · exact hnext last hlast
    · exact g.next q hq last hlast

theorem Good.removeIf (g : Good s) (filter : Task ι → Bool) : Good (s.removeIf filter) := by
  have hsub : (s.removeIf filter).taskHolder.Sublist s.taskHolder := List.filter_sublist
  exact { g with
    queued := fun q hq => g.queued q (hsub.subset hq)
    nodup := g.nodup.sublist (hsub.map _)
    held := fun c hc hcons q hq => g.held c hc hcons q (hsub.subset hq)
    sorted := g.sorted.sublist hsub
    later := fun r hr q hq => g.later r hr q (hsub.subset hq)
    next := fun q hq => g.next q (hsub.subset hq) }

theorem Good.cancelAll (g : Good s) : Good s.cancelAll :=
  { g with
    idle := rfl
    queued := by intro q hq; cases hq
    nodup := List.nodup_nil
    held := by intro c _ _ q hq; cases hq
    sorted := .nil
    later := by intro r _ q hq; cases hq
    next := by intro q hq; cases hq }

theorem Good.scheduleAt (g : Good s) (end_ time : Int) (group : Option UInt32) (task : ι) :
    Good (s.scheduleAt end_ time group task) := by
  -- the tasks there were are what they were
  have hold : ∀ i < s.tasks.length, (s.tasks ++ [⟨end_ + time, time, group, 0, task⟩])[i]? = s.tasks[i]? :=
    fun i hi => List.getElem?_append_left hi
  have hend : ∀ i < s.tasks.length,
      endOf { s with tasks := s.tasks ++ [⟨end_ + time, time, group, 0, task⟩] } i = s.endOf i :=
    fun i hi => by simp only [endOf, hold i hi]
  have hduration : ∀ i < s.tasks.length,
      durationOf { s with tasks := s.tasks ++ [⟨end_ + time, time, group, 0, task⟩] } i = s.durationOf i :=
    fun i hi => by simp only [durationOf, hold i hi]
  have hlen : (s.tasks ++ [(⟨end_ + time, time, group, 0, task⟩ : Task ι)]).length = s.tasks.length + 1 :=
    List.length_append
  have g' : Good { s with tasks := s.tasks ++ [⟨end_ + time, time, group, 0, task⟩] } :=
    { g with
      queued := fun q hq => ⟨hlen ▸ Nat.lt_succ_of_lt (g.queued q hq).1, (g.queued q hq).2⟩
      sorted := g.sorted.imp_of_mem fun {a b} ha hb hab => by
        rw [hend _ (g.queued a ha).1, hend _ (g.queued b hb).1]
        exact hab
      ran := fun r hr => ⟨hlen ▸ Nat.lt_succ_of_lt (g.ran r hr).1, (g.ran r hr).2⟩
      contexts := fun c hc => hlen ▸ Nat.lt_succ_of_lt (g.contexts c hc)
      later := fun r hr q hq he => g.later r hr q hq (hend _ (g.queued q hq).1 ▸ he)
      next := fun q hq last hlast => by
        rw [hend _ (g.queued q hq).1, hduration _ (g.queued q hq).1]
        exact g.next q hq last hlast
      same := fun c hc hcons => by
        rw [hend _ (g.contexts c hc)]
        exact g.same c hc hcons }
  refine g'.push (hlen ▸ Nat.lt_succ_self _) (fun q hq => Nat.ne_of_lt (g.queued q hq).1)
    (fun c hc _ => Nat.ne_of_gt (g.contexts c hc)) fun last hlast => ?_
  have hmem := List.mem_of_find?_eq_some hlast
  have htask : last.task = s.tasks.length := by simpa using List.find?_some hlast
  exact absurd (g.ran last hmem).1 (by omega)

/-- **A task that is repeated is due at its own end and the duration.** -/
theorem Good.repeatTask (g : Good s) {context : Nat} {duration : Task ι → Int}
    (hr : s.repeatTask context duration = some s') : Good s' := by
  obtain ⟨c, hc, hr⟩ := Option.bind_eq_some_iff.1 hr
  split at hr
  · cases hr
  next hcons =>
  have hcons : c.consumed = false := by simpa using hcons
  obtain ⟨t, ht, rfl⟩ := Option.map_eq_some_iff.1 hr
  have hmem := List.mem_of_getElem? hc
  have hlt : c.task < s.tasks.length := g.contexts c hmem
  obtain ⟨last, hlast, hsame⟩ := g.same c hmem hcons
  generalize htasks : s.tasks.set c.task
    { t with duration := duration t, end_ := t.end_ + duration t, repeated := t.repeated + 1 } = tasks
  have hother : ∀ i, i ≠ c.task → tasks[i]? = s.tasks[i]? := fun i hi => by
    rw [← htasks, List.getElem?_set_ne (Ne.symm hi)]
  have hself : tasks[c.task]? = some { t with duration := duration t, end_ := t.end_ + duration t, repeated := t.repeated + 1 } := by
    rw [← htasks, List.getElem?_set_self hlt]
  have hlen : tasks.length = s.tasks.length := by rw [← htasks, List.length_set]
  -- what is in the queue or held by others is as before
  have hqueued : ∀ q ∈ s.taskHolder, tasks[q.task]? = s.tasks[q.task]? := fun q hq =>
    hother _ (g.held c hmem hcons q hq)
  have hctx : ∀ i d, (s.contexts.set context { c with consumed := true })[i]? = some d → d.consumed = false →
      i ≠ context ∧ s.contexts[i]? = some d := by
    intro i d hd hdcons
    by_cases hi : i = context
    · subst hi
      rw [List.getElem?_set_self (List.getElem?_eq_some_iff.1 hc).1] at hd
      cases hd
      cases hdcons
    · rw [List.getElem?_set_ne (Ne.symm hi)] at hd
      exact ⟨hi, hd⟩
  have hmemctx : ∀ d ∈ s.contexts.set context { c with consumed := true }, d.task < s.tasks.length := by
    intro d hd
    rcases List.mem_or_eq_of_mem_set hd with hd | rfl
    · exact g.contexts d hd
    · exact hlt
  have hfree : ∀ d ∈ s.contexts.set context { c with consumed := true }, d.consumed = false →
      d ∈ s.contexts ∧ c.task ≠ d.task := by
    intro d hd hdcons
    obtain ⟨i, hi⟩ := List.mem_iff_getElem?.1 hd
    obtain ⟨hne, hi⟩ := hctx i d hi hdcons
    exact ⟨List.mem_of_getElem? hi, fun he => hne (g.single i context d c hi hc hdcons hcons he.symm)⟩
  have hend : ∀ i, tasks[i]? = s.tasks[i]? → ((tasks[i]?).map (·.end_)).getD 0 = s.endOf i := fun i hi => by
    rw [hi, endOf]
  have g' : Good { s with tasks := tasks, contexts := s.contexts.set context { c with consumed := true } } :=
    { g with
      queued := fun q hq => ⟨hlen ▸ (g.queued q hq).1, (g.queued q hq).2⟩
      held := fun d hd hdcons q hq => g.held d (hfree d hd hdcons).1 hdcons q hq
      single := fun i j a b ha hb hac hbc => g.single i j a b (hctx i a ha hac).2 (hctx j b hb hbc).2 hac hbc
      sorted := g.sorted.imp_of_mem fun {a b} ha hb hab => by
        simp only [endOf, hend _ (hqueued a ha), hend _ (hqueued b hb)]
        exact hab
      ran := fun r hr => ⟨hlen ▸ (g.ran r hr).1, (g.ran r hr).2⟩
      contexts := fun d hd => hlen ▸ hmemctx d hd
      later := fun r hr q hq he => g.later r hr q hq (hend _ (hqueued q hq) ▸ he)
      next := fun q hq last hlast => by
        simp only [endOf, durationOf, hqueued q hq]
        exact g.next q hq last hlast
      same := fun d hd hdcons => by
        obtain ⟨hd', hne⟩ := hfree d hd hdcons
        simp only [endOf, hother _ (Ne.symm hne)]
        exact g.same d hd' hdcons }
  refine g'.push (hlen ▸ hlt) (fun q hq => g.held c hmem hcons q hq) (fun d hd hdcons => (hfree d hd hdcons).2)
    fun last' hlast' => ?_
  rw [hlast] at hlast'
  cases hlast'
  have hend : t.end_ = last.end_ := by
    rw [endOf, ht] at hsame
    exact hsame
  simp only [endOf, durationOf, hself, Option.map_some, Option.getD_some, hend]

theorem Good.act (ha : a.ThroughContext) (g : Good s) (h' : act s a = some s') : Good s' := by
  cases a with
  | repeatFor context duration => exact g.repeatTask h'
  | repeatSame context => exact g.repeatTask h'
  | schedule context time group task =>
    obtain ⟨c, -, h'⟩ := Option.bind_eq_some_iff.1 h'
    obtain ⟨t, -, rfl⟩ := Option.map_eq_some_iff.1 h'
    exact g.scheduleAt _ _ _ _
  | cancelAll => cases h'; exact g.cancelAll
  | cancelGroup group => cases h'; exact g.removeIf _
  | cancelGroupsOf groups =>
    cases h'
    clear ha
    induction groups generalizing s with
    | nil => exact g
    | cons group groups ih => exact ih (g.removeIf _)
  | _ => cases ha

/-- The first task is popped: it runs behind all that ran before it. -/
theorem Good.popped (g : Good s) {first : Queued} {rest : List Queued} {t : Task ι} (world : β)
    (hheld : s.taskHolder = first :: rest) (ht : s.tasks[first.task]? = some t) :
    Good { s.popped first rest t with world := world } := by
  have hfirst : first ∈ s.taskHolder := hheld ▸ List.mem_cons_self
  have hrest : ∀ q ∈ rest, q ∈ s.taskHolder := fun q hq => hheld ▸ List.mem_cons_of_mem _ hq
  have hend : s.endOf first.task = t.end_ := by rw [endOf, ht]; rfl
  have hduration : s.durationOf first.task = t.duration := by rw [durationOf, ht]; rfl
  have hsorted := g.sorted
  have hnodup := g.nodup
  rw [hheld] at hsorted hnodup
  obtain ⟨hfirstLt, hsorted⟩ := List.pairwise_cons.1 hsorted
  rw [List.map_cons] at hnodup
  obtain ⟨hnot, hnodup⟩ := List.nodup_cons.1 hnodup
  have hne : ∀ q ∈ rest, q.task ≠ first.task := fun q hq he => hnot (he ▸ List.mem_map_of_mem hq)
  have hctx : ∀ c ∈ s.contexts ++ [⟨first.task, false⟩], c ∈ s.contexts ∨ c = ⟨first.task, false⟩ := fun c hc =>
    (List.mem_append.1 hc).imp_right List.mem_singleton.1
  have hlast : ∀ task, lastRun (s.popped first rest t).ran task =
      if first.task = task then some ⟨first.task, t.end_, t.duration, first.pushed⟩ else lastRun s.ran task := by
    intro task
    simp only [TaskScheduler.popped, lastRun, List.find?_cons]
    split
    next h => rw [if_pos (of_decide_eq_true h)]
    next h => rw [if_neg (of_decide_eq_false h)]
  refine ⟨g.idle, fun q hq => g.queued q (hrest q hq), hnodup, ?_, ?_, hsorted, ?_, ?_, ?_, ?_, ?_, ?_, ?_⟩
  · intro c hc hcons q hq
    rcases hctx c hc with hc | rfl
    · exact g.held c hc hcons q (hrest q hq)
    · exact hne q hq
  · intro i j a b ha hb hac hbc hab
    have hpos : ∀ (i : Nat) (c : TaskContext), (s.contexts ++ [⟨first.task, false⟩])[i]? = some c →
        s.contexts[i]? = some c ∨ i = s.contexts.length ∧ c = ⟨first.task, false⟩ := by
      intro i c hc
      rw [List.getElem?_append] at hc
      split at hc
      · exact .inl hc
      next hi =>
      rw [List.getElem?_singleton] at hc
      split at hc
      · cases hc; exact .inr ⟨by omega, rfl⟩
      · cases hc
    rcases hpos i a ha with ha | ⟨rfl, rfl⟩ <;> rcases hpos j b hb with hb | ⟨rfl, rfl⟩
    · exact g.single i j a b ha hb hac hbc hab
    · exact absurd hab.symm (g.held a (List.mem_of_getElem? ha) hac first hfirst)
    · exact absurd hab (g.held b (List.mem_of_getElem? hb) hbc first hfirst)
    · rfl
  · intro r hr
    rcases List.mem_cons.1 hr with rfl | hr
    · exact g.queued first hfirst
    · exact g.ran r hr
  · intro c hc
    rcases hctx c hc with hc | rfl
    · exact g.contexts c hc
    · exact (g.queued first hfirst).1
  · intro r hr q hq he
    rcases List.mem_cons.1 hr with rfl | hr
    · have hlt := hfirstLt q hq
      have he : s.endOf q.task = t.end_ := he
      simp only
      omega
    · exact g.later r hr q (hrest q hq) he
  · intro q hq last hl
    rw [hlast, if_neg (Ne.symm (hne q hq))] at hl
    exact g.next q (hrest q hq) last hl
  · intro c hc hcons
    rw [hlast]
    rcases hctx c hc with hc | rfl
    · rw [if_neg (g.held c hc hcons first hfirst)]
      exact g.same c hc hcons
    · rw [if_pos rfl]
      exact ⟨_, rfl, hend⟩
  · exact List.pairwise_cons.2 ⟨fun r hr he => g.later r hr first hfirst (hend.trans he), g.inOrder⟩
  · refine ⟨fun last hl => ?_, g.steady⟩
    have := g.next first hfirst last hl
    rw [hend, hduration] at this
    exact this

theorem Good.invoke (hh : h.ThroughContext) (g : Good s) (h' : invoke h s = some s') : Good s' :=
  invoke_keeps hh Good (fun _ _ _ ha g hact => g.act ha hact)
    (fun _ _ _ world hheld ht => g.popped world hheld ht) h'

theorem Good.update (hh : h.ThroughContext) (g : Good s) (h' : update h n difftime s = some s') : Good s' := by
  rw [update_idle hh g.idle] at h'
  obtain ⟨a, ha, rfl⟩ := Option.map_eq_some_iff.1 h'
  exact ((whileLoop_invariant Good (fun _ _ g _ hb => g.invoke hh hb) g ha).1).setNow _

theorem reaches_good (hh : h.ThroughContext) {now : Int} {world : β}
    (hs : Reaches (step h) (fun _ _ => True) (new now world) s) : Good s := by
  refine hs.invariant Good (fun event a b g _ hstep => ?_) (Good.new now world)
  cases event with
  | schedule time group task => cases hstep; exact g.scheduleAt _ _ _ _
  | update rounds difftime => exact g.update hh hstep

/-- **Dispatch does not depend on how the time is cut into updates.** From every state reached by scheduling and
updating, a list of updates ends in a state exactly if one update with the sum of their times does; what ran is in
that state, with the ends it was scheduled for. What ran up to any state ran in the order it was pushed where the ends
are equal, and what was repeated at its own end and the duration. -/
theorem reaches_update_granularity (hh : h.ThroughContext) {now : Int} {world : β} {s : TaskScheduler ι β}
    (hs : Reaches (step h) (fun _ _ => True) (new now world) s) (difftime : Nat) (difftimes : List Nat) :
    (∀ s', Updates h (difftime :: difftimes) s s' ↔ Updates h [difftime + difftimes.sum] s s') ∧
      InOrder s.ran ∧ Steady s.ran :=
  ⟨fun _ => updates_sum hh difftimes difftime (reaches_good hh hs).idle, (reaches_good hh hs).inOrder,
    (reaches_good hh hs).steady⟩

/-- Task 0 repeats after three and schedules task 1 for the time it repeats at; task 1 does nothing. -/
def pulse : Handlers Nat Unit where
  predicate _ := true
  handler task context _ world := (if task = 0 then [.repeatFor context 3, .schedule context 0 none 1] else [], world)
  callable _ world := ([], world)

theorem reaches_update_granularity_pulse : ∃ s : TaskScheduler Nat Unit,
    Reaches (step pulse) (fun _ _ => True) (new 0 ()) s ∧ s.ran.length = 6 ∧
      (∀ s', Updates pulse [1, 2, 4] s s' ↔ Updates pulse [7] s s') ∧ InOrder s.ran ∧ Steady s.ran := by
  have hrun : (runSteps (step pulse) [.schedule 2 none 0, .schedule 5 (some 1) 1, .update 9 9] (new 0 ())).any
      (fun s => s.ran.length = 6) = true := by
    decide
  obtain ⟨s, hs, hlen⟩ := (Option.any_eq_true _ _).1 hrun
  have hreach := Reaches.of_runSteps hs
  refine ⟨s, hreach, of_decide_eq_true hlen, reaches_update_granularity (fun task context see world a ha => ?_) hreach 1 [2, 4]⟩
  have ha : a ∈ (if task = 0 then [.repeatFor context 3, .schedule context 0 none 1] else []) := ha
  split at ha
  · rcases List.mem_cons.1 ha with rfl | ha
    · trivial
    · rw [List.mem_singleton.1 ha]
      trivial
  · cases ha

end TaskScheduler

end AtlasWow
