/-
Over every run an event is in the queue once, or deleted once, or kept by its
own `Execute` (`Once`), where the bodies add events that are nowhere yet and,
during a forced `KillAllEvents`, none before the one at hand (`Op.Orderly`):
what is put there the loop does not visit, and the queue is cleared
(`events_fail`). `Inv` counts the places of an event; each call and each loop
keeps it.
-/
import AtlasWow.Utilities.EventProcessor

namespace AtlasWow

namespace EventProcessor

/-! ## Statements -/

/-- What holds of every event. -/
structure Once (m : EventProcessor) : Prop where
  executed : ∀ event state, .executed event state ∈ m.log → state = .running
  executions : ∀ event, m.log.count (.executed event .running) ≤ m.log.count (.added event)
  aborts : ∀ event, m.log.count (.aborted event) ≤ 1
  order : m.log.Pairwise fun later earlier => ∀ event state, later = .executed event state → earlier ≠ .aborted event
  place : ∀ event, m.queued.count event + m.log.count (.deleted event) + (if m.kept event then 1 else 0) =
    if .added event ∈ m.log then 1 else 0

/-- Events are added that are nowhere yet, and none is touched that is deleted. `away` is the event that a body belongs
to which the queue does not have and that is not to be added. -/
def Fresh (away : Option Nat) : EventCall → EventProcessor → Prop
  | .addEvent event _ _, m => event ∉ m.queued ∧ .deleted event ∉ m.log ∧ away ≠ some event
  | .scheduleAbort event, m => .deleted event ∉ m.log
  | .modifyEventTime _ _, _ => True

/-- What `KillAllEvents` calls leaves its own entry alone and, when it is to clear the queue, puts nothing before it. -/
def Behind (force : Bool) (time event : Nat) : EventCall → EventProcessor → Prop
  | .addEvent _ time' _, _ => force = true → time ≤ time'
  | .modifyEventTime event' time', m =>
    event' ∈ m.queued → event' ≠ event ∧ (force = true → .deleted event' ∉ m.log ∧ time ≤ time')
  | .scheduleAbort _, _ => True

def HandleOrderly (event : Nat) (bodies : EventBodies) (m : EventProcessor) : Prop :=
  if (m.basicEvent event).abortState = .running then
    AllSteps call (Fresh (if bodies.finished then some event else none)) bodies.execute (m.executing event) ∧
      ∀ m', runSteps call bodies.execute (m.executing event) = some m' → bodies.finished = true →
        AllSteps call (Fresh none) bodies.destroy (m'.deleted event)
  else
    ((m.basicEvent event).abortState = .abortScheduled →
      AllSteps call (Fresh (some event)) bodies.abort (m.note (.aborted event))) ∧
      ∀ m', m.abortIfScheduled event bodies = some m' → bodies.deletable = true →
        AllSteps call (Fresh none) bodies.destroy (m'.deleted event)

def UpdateOrderly : List EventBodies → EventProcessor → Prop
  | [], _ => True
  | bodies :: rest, m =>
    match m.events.entries with
    | [] => True
    | (time, event) :: _ => time ≤ m.time →
      HandleOrderly event bodies { m with events := m.events.popFirst } ∧
        ∀ m', handle event bodies { m with events := m.events.popFirst } = some m' → UpdateOrderly rest m'

def KillRoundOrderly (force : Bool) (time event : Nat) (bodies : EventBodies) (w : Walk) : Prop :=
  (∀ m, w.2.setAborted event = some m →
    AllSteps (walkCall time) (fun c w => Fresh none c w.2 ∧ Behind force time event c w.2) bodies.abort
      (w.1, m.note (.aborted event))) ∧
    ∀ w', killAbort time event bodies w = some w' → (force || bodies.deletable) = true →
      AllSteps (walkCall time) (fun c w => Fresh none c w.2 ∧ Behind force time event c w.2) bodies.destroy
        (w'.1, w'.2.deleted event)

def KillOrderly (force : Bool) : List EventBodies → Walk → Prop
  | [], _ => True
  | bodies :: rest, w =>
    match w.2.events.entries[w.1]? with
    | none => True
    | some (time, event) => KillRoundOrderly force time event bodies w ∧
      ∀ w', killRound force time event bodies w = some w' → KillOrderly force rest w'

def Op.Orderly : Op → EventProcessor → Prop
  | .call c, m => Fresh none c m
  | .update pTime rounds, m => UpdateOrderly rounds { m with time := (m.time + pTime) % 2 ^ 64 }
  | .killAllEvents force rounds, m => KillOrderly force rounds (0, m)

/-! ## The places of an event -/

/-- `live` counts the entries of an event that stand for it, `out` is the event a loop has taken from them, and `mid` the
one whose `Abort` runs. -/
structure Inv (live : Nat → Nat) (out mid : Option Nat) (m : EventProcessor) : Prop where
  executed : ∀ event state, .executed event state ∈ m.log → state = .running
  executions : ∀ event, m.log.count (.executed event .running) + live event + (if out = some event then 1 else 0) ≤
    m.log.count (.added event)
  aborts : ∀ event, m.log.count (.aborted event) ≤ 1
  order : m.log.Pairwise fun later earlier => ∀ event state, later = .executed event state → earlier ≠ .aborted event
  aborted : ∀ event, .aborted event ∈ m.log →
    (m.basicEvent event).abortState = .aborted ∨ (mid = some event ∧ (m.basicEvent event).abortState = .abortScheduled)
  place : ∀ event, live event + m.log.count (.deleted event) + (if m.kept event then 1 else 0) +
    (if out = some event then 1 else 0) = if .added event ∈ m.log then 1 else 0

variable {live : Nat → Nat} {out mid away : Option Nat} {m m' : EventProcessor} {event time : Nat} {force : Bool}
  {bodies : EventBodies}

theorem Inv.once (h : Inv m.queued.count none none m) : m.Once where
  executed := h.executed
  executions e := by
    have := h.executions e
    omega
  aborts := h.aborts
  order := h.order
  place e := by
    have := h.place e
    simpa using this

theorem inv_new : Inv new.queued.count none none new where
  executed _ _ h := nomatch h
  executions _ := Nat.le_refl 0
  aborts _ := Nat.zero_le 1
  order := .nil
  aborted _ h := nomatch h
  place _ := rfl

/-- An event that was aborted is not executed. -/
theorem Inv.order_cons (h : Inv live out mid m) {trace : EventTrace}
    (ht : ∀ event state, trace = .executed event state → .aborted event ∉ m.log) :
    (trace :: m.log).Pairwise fun later earlier => ∀ event state, later = .executed event state → earlier ≠ .aborted event :=
  List.pairwise_cons.2 ⟨fun _ hx event state he hx' => ht event state he (hx' ▸ hx), h.order⟩

theorem Inv.addEvent (h : Inv live out mid m) (time : Nat) (out' : Option Nat) (hlive : live event = 0) (hdel : .deleted event ∉ m.log)
    (hout : out' ≠ some event) (hrest : ∀ x, x ≠ event → (out' = some x ↔ out = some x)) (setAddtime : Bool) :
    Inv (fun x => live x + if x = event then 1 else 0) out' mid (m.addEvent event time setAddtime) where
  executed e state he := by
    rcases List.mem_cons.1 he with he | he
    · cases he
    · exact h.executed e state he
  executions e := by
    have := h.executions e
    show List.count _ (.added event :: m.log) + _ + _ ≤ List.count _ (.added event :: m.log)
    rw [List.count_cons_of_ne (by simp), List.count_cons]
    by_cases he : e = event
    · subst he
      rw [if_neg hout]
      simp only [beq_self_eq_true, if_true]
      omega
    have hne : (EventTrace.added event == .added e) = false := by simpa using Ne.symm he
    rw [hne, if_neg he]
    simpa [hrest e he] using this
  aborts e := by
    show List.count _ (.added event :: m.log) ≤ 1
    rw [List.count_cons_of_ne (by simp)]
    exact h.aborts e
  order := h.order_cons fun _ _ he => (nomatch he)
  aborted e he := by
    have hmem : EventTrace.aborted e ∈ m.log := (List.mem_cons.1 he).resolve_left nofun
    have hstate : ((m.addEvent event time setAddtime).basicEvent e).abortState = (m.basicEvent e).abortState := by
      by_cases hx : e = event
      · subst hx
        simp [EventProcessor.addEvent, setEvent]
      · simp [EventProcessor.addEvent, setEvent, Function.update_of_ne hx]
    rw [hstate]
    exact h.aborted e hmem
  place e := by
    have hplace := h.place e
    show (live e + _) + List.count _ (.added event :: m.log) + (if Function.update m.kept event false e then 1 else 0) + _ =
      if .added e ∈ .added event :: m.log then 1 else 0
    rw [List.count_cons_of_ne (by simp)]
    by_cases he : e = event
    · subst he
      rw [Function.update_self, if_pos rfl, hlive, List.count_eq_zero_of_not_mem hdel, if_neg hout,
        if_pos List.mem_cons_self]
      rfl
    have hmem : EventTrace.added e ∈ .added event :: m.log ↔ .added e ∈ m.log := by simp [he]
    rw [Function.update_of_ne he, if_neg he]
    simp only [hmem, hrest e he]
    exact hplace

/-- Changes of an event itself, other than an aborted one's state. -/
theorem Inv.setEvent (h : Inv live out mid m) (event : Nat) (basicEvent : BasicEvent)
    (hstate : .aborted event ∈ m.log → basicEvent.abortState = .aborted ∨ (mid = some event ∧ basicEvent.abortState = .abortScheduled)) :
    Inv live out mid (m.setEvent event basicEvent) :=
  { h with
    aborted := fun e he => by
      show (Function.update m.basicEvent event basicEvent e).abortState = _ ∨
        _ ∧ (Function.update m.basicEvent event basicEvent e).abortState = _
      by_cases hx : e = event
      · subst hx
        rw [Function.update_self]
        exact hstate he
      · rw [Function.update_of_ne hx]
        exact h.aborted e he }

theorem Inv.scheduleAbort (h : Inv live out mid m) (hc : m.scheduleAbort event = some m') :
    Inv live out mid m' ∧ m'.events = m.events ∧ m'.log = m.log ∧ m'.kept = m.kept := by
  unfold EventProcessor.scheduleAbort at hc
  split at hc
  next hrun =>
    cases hc
    refine ⟨h.setEvent _ _ fun he => ?_, rfl, rfl, rfl⟩
    rcases h.aborted event he with ha | ⟨_, ha⟩ <;> rw [hrun] at ha <;> cases ha
  next => cases hc

theorem Inv.setAborted (h : Inv live out mid m) (hmid : ∀ x, mid = some x → x = event) (hc : m.setAborted event = some m') :
    Inv live out none m' ∧ m'.events = m.events ∧ m'.log = m.log ∧ m'.kept = m.kept := by
  unfold EventProcessor.setAborted at hc
  split at hc
  next =>
    cases hc
    have hset := h.setEvent event { m.basicEvent event with abortState := .aborted } fun _ => .inl rfl
    refine ⟨{ hset with aborted := fun e he => ?_ }, rfl, rfl, rfl⟩
    rcases hset.aborted e he with ha | ⟨he, ha⟩
    · exact .inl ha
    · obtain rfl := hmid e he
      simp [EventProcessor.setEvent] at ha
  next => cases hc

theorem setAborted_state (hc : m.setAborted event = some m') : (m'.basicEvent event).abortState = .aborted := by
  unfold EventProcessor.setAborted at hc
  split at hc
  next =>
    cases hc
    show (Function.update m.basicEvent event _ event).abortState = _
    rw [Function.update_self]
  next => cases hc

theorem Inv.modifyEventTime (h : Inv live out mid m) (newTime : Nat) : Inv live out mid (m.modifyEventTime event newTime) := by
  unfold EventProcessor.modifyEventTime
  split
  next => exact { h.setEvent event { m.basicEvent event with execTime := newTime } (h.aborted event) with }
  next => exact h

/-- An event is deleted that its `Execute` has, or the loop. -/
theorem Inv.deleted (h : Inv live out mid m) (hout : ∀ x, out = some x → x = event)
    (hkept : m.kept event = true ∨ out = some event) : Inv live none mid (m.deleted event) where
  executed e state he := h.executed e state ((List.mem_cons.1 he).resolve_left nofun)
  executions e := by
    have := h.executions e
    show List.count _ (.deleted event :: m.log) + _ + _ ≤ List.count _ (.deleted event :: m.log)
    rw [List.count_cons_of_ne (by simp), List.count_cons_of_ne (by simp)]
    simp only [reduceCtorEq, if_false]
    omega
  aborts e := by
    show List.count _ (.deleted event :: m.log) ≤ 1
    rw [List.count_cons_of_ne (by simp)]
    exact h.aborts e
  order := h.order_cons fun _ _ he => (nomatch he)
  aborted e he := h.aborted e ((List.mem_cons.1 he).resolve_left nofun)
  place e := by
    have hplace := h.place e
    have hmem : EventTrace.added e ∈ .deleted event :: m.log ↔ .added e ∈ m.log := by simp
    show live e + List.count _ (.deleted event :: m.log) + (if Function.update m.kept event false e then 1 else 0) + _ =
      if .added e ∈ .deleted event :: m.log then 1 else 0
    simp only [hmem, reduceCtorEq, if_false]
    by_cases he : e = event
    · subst he
      rw [List.count_cons_self, Function.update_self]
      have hle : (if EventTrace.added e ∈ m.log then 1 else 0) ≤ 1 := by split <;> omega
      rcases hkept with hkept | hkept
      · rw [hkept] at hplace
        simp only [if_true, Bool.false_eq_true, if_false] at hplace ⊢
        omega
      rw [hkept] at hplace
      simp only [if_true, Bool.false_eq_true, if_false] at hplace ⊢
      omega
    have hne : out ≠ some e := fun h => he (hout e h)
    have hne' : EventTrace.deleted event ≠ .deleted e := by simpa using Ne.symm he
    rw [List.count_cons_of_ne hne', Function.update_of_ne he]
    rw [if_neg hne] at hplace
    exact hplace

/-- One of the entries is taken. -/
theorem Inv.take (h : Inv (fun x => live x + if x = event then 1 else 0) none mid m) : Inv live (some event) mid m :=
  { h with
    executions := fun e => by
      have := h.executions e
      simp only [reduceCtorEq, if_false] at this
      simp only [Option.some.injEq, eq_comm (a := event)]
      omega
    place := fun e => by
      have := h.place e
      simp only [reduceCtorEq, if_false] at this
      simp only [Option.some.injEq, eq_comm (a := event)]
      omega }

theorem Inv.back (h : Inv live (some event) mid m) : Inv (fun x => live x + if x = event then 1 else 0) none mid m :=
  { h with
    executions := fun e => by
      have := h.executions e
      simp only [Option.some.injEq, eq_comm (a := event)] at this
      simp only [reduceCtorEq, if_false]
      omega
    place := fun e => by
      have := h.place e
      simp only [Option.some.injEq, eq_comm (a := event)] at this
      simp only [reduceCtorEq, if_false]
      omega }

theorem Inv.congr {live' : Nat → Nat} (h : Inv live out mid m) (he : ∀ x, live x = live' x) : Inv live' out mid m := by
  obtain rfl : live = live' := funext he
  exact h

/-- `Execute` is called where the event is running, so it was not aborted. -/
theorem Inv.executing (h : Inv live (some event) mid m) (hrun : (m.basicEvent event).abortState = .running) :
    Inv live none mid (m.executing event) ∧ (m.executing event).kept event = true := by
  refine ⟨?_, Function.update_self ..⟩
  unfold EventProcessor.executing
  rw [hrun]
  exact {
    executed := fun e state he => by
      rcases List.mem_cons.1 he with he | he
      · cases he
        rfl
      · exact h.executed e state he
    executions := fun e => by
      have := h.executions e
      show List.count _ (.executed event .running :: m.log) + _ + _ ≤ List.count _ (.executed event .running :: m.log)
      rw [List.count_cons, List.count_cons_of_ne (by simp)]
      by_cases he : e = event
      · subst he
        simp only [beq_self_eq_true, if_true, reduceCtorEq, if_false] at this ⊢
        omega
      have hne : (EventTrace.executed event .running == .executed e .running) = false := by simpa using Ne.symm he
      rw [hne]
      simp only [Bool.false_eq_true, reduceCtorEq, if_false]
      omega
    aborts := fun e => by
      show List.count _ (.executed event .running :: m.log) ≤ 1
      rw [List.count_cons_of_ne (by simp)]
      exact h.aborts e
    order := h.order_cons fun e state he hmem => by
      cases he
      rcases h.aborted event hmem with ha | ⟨_, ha⟩ <;> rw [hrun] at ha <;> cases ha
    aborted := fun e he => h.aborted e ((List.mem_cons.1 he).resolve_left nofun)
    place := fun e => by
      have hplace := h.place e
      have hmem : EventTrace.added e ∈ .executed event .running :: m.log ↔ .added e ∈ m.log := by simp
      show live e + List.count _ (.executed event .running :: m.log) + (if Function.update m.kept event true e then 1 else 0) + _ =
        if .added e ∈ .executed event .running :: m.log then 1 else 0
      rw [List.count_cons_of_ne (by simp)]
      simp only [hmem, reduceCtorEq, if_false]
      by_cases he : e = event
      · subst he
        have hle : (if EventTrace.added e ∈ m.log then 1 else 0) ≤ 1 := by split <;> omega
        rw [Function.update_self]
        simp only [if_true] at hplace ⊢
        omega
      rw [Function.update_of_ne he]
      simp only [Option.some.injEq, Ne.symm he, if_false] at hplace
      exact hplace }

/-- `Abort` is called where it was not before. -/
theorem Inv.noteAborted {mid' : Option Nat} (h : Inv live out mid m) (hmid : mid = none) (hnone : .aborted event ∉ m.log)
    (hstate : (m.basicEvent event).abortState = .aborted ∨
      (mid' = some event ∧ (m.basicEvent event).abortState = .abortScheduled)) :
    Inv live out mid' (m.note (.aborted event)) where
  executed e state he := h.executed e state ((List.mem_cons.1 he).resolve_left nofun)
  executions e := by
    have := h.executions e
    show List.count _ (.aborted event :: m.log) + _ + _ ≤ List.count _ (.aborted event :: m.log)
    rw [List.count_cons_of_ne (by simp), List.count_cons_of_ne (by simp)]
    exact this
  aborts e := by
    show List.count _ (.aborted event :: m.log) ≤ 1
    rw [List.count_cons]
    by_cases he : e = event
    · subst he
      rw [List.count_eq_zero_of_not_mem hnone]
      simp
    have hne : (EventTrace.aborted event == .aborted e) = false := by simpa using Ne.symm he
    rw [hne]
    simpa using h.aborts e
  order := h.order_cons fun _ _ he => (nomatch he)
  aborted e he := by
    rcases List.mem_cons.1 he with he | he
    · cases he
      exact hstate
    rcases h.aborted e he with ha | ⟨ha, _⟩
    · exact .inl ha
    · rw [hmid] at ha
      cases ha
  place e := by
    have hmem : EventTrace.added e ∈ .aborted event :: m.log ↔ .added e ∈ m.log := by simp
    show live e + List.count _ (.aborted event :: m.log) + _ + _ = if .added e ∈ .aborted event :: m.log then 1 else 0
    rw [List.count_cons_of_ne (by simp)]
    simp only [hmem]
    exact h.place e

theorem Inv.not_aborted (h : Inv live out none m) (hstate : (m.basicEvent event).abortState ≠ .aborted) :
    .aborted event ∉ m.log := fun he => by
  rcases h.aborted event he with ha | ⟨ha, _⟩
  · exact hstate ha
  · cases ha

/-! ## Calls -/

theorem count_insertEntry (k v x : Nat) (l : List (Nat × Nat)) :
    ((OMultimap.insertEntry k v l).map (·.2)).count x = (l.map (·.2)).count x + if x = v then 1 else 0 := by
  rw [((OMultimap.perm_insertEntry k v l).map _).count_eq, List.map_cons, List.count_cons]
  simp only [beq_iff_eq, eq_comm (a := v)]

theorem count_eraseP {v : Nat} {l : List (Nat × Nat)} (h : v ∈ l.map (·.2)) (x : Nat) :
    ((l.eraseP (·.2 = v)).map (·.2)).count x + (if x = v then 1 else 0) = (l.map (·.2)).count x := by
  obtain ⟨e, he, hv⟩ := List.mem_map.1 h
  obtain ⟨e', l₁, l₂, _, he', hl, herase⟩ := List.exists_of_eraseP (p := fun e : Nat × Nat => e.2 = v) he (by simpa using hv)
  have hv' : e'.2 = v := by simpa using he'
  rw [herase, hl]
  simp only [List.map_append, List.map_cons, List.count_append, List.count_cons, beq_iff_eq, hv', eq_comm (a := v)]
  omega

theorem queued_modifyEventTime (newTime x : Nat) : (m.modifyEventTime event newTime).queued.count x = m.queued.count x := by
  unfold EventProcessor.modifyEventTime
  split
  next h =>
    show List.count x ((OMultimap.insertEntry newTime event (m.events.entries.eraseP _)).map (·.2)) = _
    rw [count_insertEntry, count_eraseP h]
    rfl
  next => rfl

/-- A call keeps the event that it is not to add with its `Execute`. -/
theorem Inv.call {c : EventCall} (h : Inv m.queued.count out mid m) (hout : ∀ x, out = some x → away = some x)
    (hc : Fresh away c m) (hm : EventProcessor.call c m = some m') :
    Inv m'.queued.count out mid m' ∧ ∀ x, away = some x → m'.kept x = m.kept x := by
  cases c with
  | addEvent e t setAddtime =>
    cases hm
    obtain ⟨hnew, hdel, haway⟩ := hc
    have hadd := h.addEvent t out (List.count_eq_zero_of_not_mem hnew) hdel (fun he => haway (hout e he))
      (fun _ _ => Iff.rfl) setAddtime
    refine ⟨hadd.congr fun x => (count_insertEntry t e x m.events.entries).symm, fun x hx => ?_⟩
    have hne : x ≠ e := fun he => haway (he ▸ hx)
    exact Function.update_of_ne hne ..
  | scheduleAbort e =>
    obtain ⟨h', hevents, _, hkept⟩ := h.scheduleAbort hm
    refine ⟨h'.congr fun x => ?_, fun x _ => congrFun hkept x⟩
    rw [queued, queued, hevents]
  | modifyEventTime e t =>
    cases hm
    refine ⟨(h.modifyEventTime t).congr fun x => (queued_modifyEventTime t x).symm, fun x _ => ?_⟩
    unfold EventProcessor.modifyEventTime
    split <;> rfl

theorem Inv.calls {cs : List EventCall} (h : Inv m.queued.count out mid m) (hout : ∀ x, out = some x → away = some x)
    (hok : AllSteps EventProcessor.call (Fresh away) cs m) (hm : runSteps EventProcessor.call cs m = some m') :
    Inv m'.queued.count out mid m' ∧ ∀ x, away = some x → m'.kept x = m.kept x :=
  runSteps_invariant (fun m' => Inv m'.queued.count out mid m' ∧ ∀ x, away = some x → m'.kept x = m.kept x)
    (fun _ _ _ ⟨ha, hkept⟩ hc hs =>
      have ⟨hb, hkept'⟩ := ha.call hout hc hs
      ⟨hb, fun x hx => (hkept' x hx).trans (hkept x hx)⟩)
    hok ⟨h, fun _ _ => rfl⟩ hm

/-! ## Update -/

theorem Inv.handle (h : Inv m.queued.count (some event) none m) (hok : HandleOrderly event bodies m)
    (hm : handle event bodies m = some m') : Inv m'.queued.count none none m' := by
  unfold HandleOrderly at hok
  unfold EventProcessor.handle at hm
  split at hm
  next hrun =>
    rw [if_pos hrun] at hok
    obtain ⟨hstart, hkept⟩ := h.executing hrun
    obtain ⟨m₁, hm₁, hm⟩ := Option.bind_eq_some_iff.1 hm
    obtain ⟨h₁, hkept₁⟩ := Inv.calls (m := m.executing event) hstart nofun hok.1 hm₁
    split at hm
    next hfinished =>
      have hdel : Inv m₁.queued.count none none (m₁.deleted event) :=
        h₁.deleted nofun (.inl ((hkept₁ event (by rw [if_pos hfinished])).trans hkept))
      exact (Inv.calls (m := m₁.deleted event) hdel nofun (hok.2 m₁ hm₁ hfinished) hm).1
    next =>
    cases hm
    exact h₁
  next hrun =>
  rw [if_neg hrun] at hok
  obtain ⟨m₁, hm₁, hm⟩ := Option.bind_eq_some_iff.1 hm
  have h₁ : Inv m₁.queued.count (some event) none m₁ := by
    unfold abortIfScheduled at hm₁
    split at hm₁
    next hscheduled =>
      have habort : Inv m.queued.count (some event) (some event) (m.note (.aborted event)) :=
        h.noteAborted rfl (h.not_aborted (by rw [hscheduled]; nofun)) (.inr ⟨rfl, hscheduled⟩)
      obtain ⟨m₂, hm₂, hset⟩ := Option.bind_eq_some_iff.1 hm₁
      obtain ⟨h₂, _⟩ := Inv.calls (m := m.note (.aborted event)) habort (fun _ hx => hx) (hok.1 hscheduled) hm₂
      obtain ⟨h₃, hevents, _⟩ := h₂.setAborted (fun x hx => (Option.some.inj hx).symm) hset
      refine h₃.congr fun x => ?_
      rw [queued, queued, hevents]
    next =>
    cases hm₁
    exact h
  split at hm
  next hdeletable =>
    have hdel : Inv m₁.queued.count none none (m₁.deleted event) :=
      h₁.deleted (fun x hx => (Option.some.inj hx).symm) (.inr rfl)
    exact (Inv.calls (m := m₁.deleted event) hdel nofun (hok.2 m₁ hm₁ hdeletable) hm).1
  next =>
  cases hm
  have hplace := h₁.place event
  have hle : (if EventTrace.added event ∈ m₁.log then 1 else 0) ≤ 1 := by split <;> omega
  rw [if_pos rfl] at hplace
  have hdel : EventTrace.deleted event ∉ m₁.log := List.count_eq_zero.1 (by omega)
  have hadd := h₁.addEvent (m₁.calculateTime 1) none (by omega) hdel nofun
    (fun x hx => by simpa using Ne.symm hx) false
  exact hadd.congr fun x => (count_insertEntry _ event x m₁.events.entries).symm

theorem Inv.popFirst (h : Inv m.queued.count none mid m) {rest : List (Nat × Nat)} (he : m.events.entries = (time, event) :: rest) :
    Inv ({ m with events := m.events.popFirst } : EventProcessor).queued.count (some event) mid
      { m with events := m.events.popFirst } := by
  have hqueued : ∀ x, m.queued.count x = (rest.map (·.2)).count x + if x = event then 1 else 0 := fun x => by
    rw [queued, he, List.map_cons, List.count_cons]
    simp only [beq_iff_eq, eq_comm (a := event)]
  have htake : Inv (rest.map (·.2)).count (some event) mid m := (h.congr hqueued).take
  refine { htake.congr fun x => ?_ with }
  show _ = (m.events.entries.tail.map (·.2)).count x
  rw [he, List.tail_cons]

theorem Inv.updateRounds : ∀ {rounds : List EventBodies} {m m' : EventProcessor}, Inv m.queued.count none none m →
    UpdateOrderly rounds m → updateRounds rounds m = some m' → Inv m'.queued.count none none m'
  | [], _, _, h, _, hm => by
    cases hm
    exact h
  | bodies :: rest, m, m', h, hok, hm => by
    unfold EventProcessor.updateRounds at hm
    unfold UpdateOrderly at hok
    cases he : m.events.entries with
    | nil =>
      rw [he] at hm
      cases hm
      exact h
    | cons e l =>
      obtain ⟨time, event⟩ := e
      rw [he] at hm hok
      dsimp only at hm hok
      split at hm
      next hdue =>
        obtain ⟨hround, hrest⟩ := hok hdue
        obtain ⟨m₁, hm₁, hm⟩ := Option.bind_eq_some_iff.1 hm
        exact Inv.updateRounds ((h.popFirst he).handle hround hm₁) (hrest m₁ hm₁) hm
      next =>
      cases hm
      exact h

end EventProcessor

end AtlasWow
