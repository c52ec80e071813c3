/-
When the game events are checked: `CheckOneGameEvent` and `NextCheck` of
`GameEventMgr.cpp`, and `Update`, which starts and stops the events and returns
the delay to its next run. Times are in seconds, the delay in milliseconds. A
division by zero is `none`; the numbers of the conditions, floats in the source,
are whole here. What an event changes in the world is in `GameEventMgr`.
-/
import AtlasWow.Lib.MachineInt

namespace AtlasWow.Events

def MINUTE : Nat := 60
def max_ge_check_delay : Nat := 86400
def IN_MILLISECONDS : Nat := 1000

inductive GameEventState where
  | normal
  | worldInactive
  | worldConditions
  | worldNextphase
  | worldFinished
  | internal
  deriving DecidableEq, Repr

structure GameEventFinishCondition where
  reqNum : Nat
  done : Nat
  deriving DecidableEq, Repr

structure GameEventData where
  start : Int
  /-- `end`. -/
  endTime : Int
  nextstart : Int
  /-- In minutes, as is `length`. -/
  occurence : Nat
  length : Nat
  state : GameEventState
  conditions : List GameEventFinishCondition
  prerequisiteEvents : List Nat
  deriving DecidableEq, Repr

namespace GameEventData

/-- `occurence * MINUTE` and `length * MINUTE`. -/
def interval (data : GameEventData) : Nat := uint32 (data.occurence * MINUTE)
def duration (data : GameEventData) : Nat := uint32 (data.length * MINUTE)

/-- The seconds since the last start of the event. -/
def sinceStart (data : GameEventData) (currenttime : Int) : Option Int :=
  if data.interval = 0 then none else some ((currenttime - data.start) % data.interval)

end GameEventData

def checkOneGameEvent (mGameEvent : List GameEventData) (currenttime : Int) (data : GameEventData) : Option Bool :=
  match data.state with
  | .normal =>
    if data.start < currenttime && currenttime < data.endTime then
      (data.sinceStart currenttime).map fun (since : Int) => decide (since < data.duration)
    else some false
  -- if the state is conditions or nextphase, then the event should be active
  | .worldConditions | .worldNextphase => some true
  | .worldFinished | .internal => some false
  | .worldInactive =>
    let met (prereq : GameEventData) : Bool :=
      (prereq.state = .worldNextphase || prereq.state = .worldFinished) && prereq.nextstart ≤ currenttime
    some (data.prerequisiteEvents.all (fun itr => mGameEvent[itr]?.any met) && !data.prerequisiteEvents.isEmpty)

def nextCheck (currenttime : Int) (data : GameEventData) : Option Nat :=
  if (data.state = .worldNextphase || data.state = .worldFinished) && currenttime ≤ data.nextstart then
    some (uint32 (data.nextstart - currenttime))
  else if data.state = .worldConditions then
    some (if data.length ≠ 0 then uint32 (data.length * 60) else max_ge_check_delay)
  -- outdated event
  else if data.endTime < currenttime then some max_ge_check_delay
  -- never started event, we return delay before start
  else if currenttime < data.start then some (uint32 (data.start - currenttime))
  else
    (data.sinceStart currenttime).map fun (since : Int) =>
      -- in event, we return the end of it; not in window, we return the delay before next start
      let delay := uint32 (if since < data.duration then data.duration - since else data.interval - since)
      if data.endTime < currenttime + delay then uint32 (data.endTime - currenttime) else delay

/-- The event after `CheckOneGameEventConditions`, and its answer. -/
def checkOneGameEventConditions (currenttime : Int) (data : GameEventData) : GameEventData × Bool :=
  if data.conditions.all fun condition => condition.reqNum ≤ condition.done then
    ({ data with
        state := .worldNextphase
        nextstart := if data.nextstart = 0 then currenttime + uint32 (data.length * 60) else data.nextstart }, true)
  else (data, false)

/-- `StartEvent`, without `overwrite`. -/
def startEvent (currenttime : Int) (data : GameEventData) : GameEventData × Bool :=
  if data.state = .normal || data.state = .internal then (data, false)
  else
    let data := if data.state = .worldInactive then { data with state := .worldConditions } else data
    checkOneGameEventConditions currenttime data

/-- `StopEvent`, without `overwrite`. -/
def stopEvent (data : GameEventData) : GameEventData :=
  if data.state = .normal || data.state = .internal || data.state = .worldFinished then data
  else
    { data with
      nextstart := 0
      state := .worldInactive
      conditions := data.conditions.map fun condition => { condition with done := 0 } }

/-- The loop of `Update`: what is to be activated and deactivated, and the delay so far. -/
structure Pass where
  mGameEvent : List GameEventData
  activate : List Nat
  deactivate : List Nat
  nextEventDelay : Nat

def updateOne (activeEvents : List Nat) (currenttime : Int) (pass : Pass) (itr : Nat) : Option Pass :=
  match pass.mGameEvent[itr]? with
  | none => none
  | some data =>
    (checkOneGameEvent pass.mGameEvent currenttime data).bind fun active =>
      if active && data.state = .worldNextphase && data.nextstart ≤ currenttime then
        -- this no longer needs an event update timer
        some { pass with
          mGameEvent := pass.mGameEvent.set itr { data with state := .worldFinished, nextstart := 0 }
          deactivate := if itr ∈ activeEvents then pass.deactivate ++ [itr] else pass.deactivate }
      else
        let data := if active && data.state = .worldConditions then (checkOneGameEventConditions currenttime data).1 else data
        (nextCheck currenttime data).map fun calcDelay =>
          { mGameEvent := pass.mGameEvent.set itr data
            activate := if active && itr ∉ activeEvents then pass.activate ++ [itr] else pass.activate
            deactivate := if !active && itr ∈ activeEvents then pass.deactivate ++ [itr] else pass.deactivate
            nextEventDelay := min pass.nextEventDelay calcDelay }

/-- An event that is activated: if it is completed at once, the next update is in one second. -/
def activateOne (currenttime : Int) (pass : Pass) (itr : Nat) : Pass :=
  match pass.mGameEvent[itr]? with
  | none => pass
  | some data =>
    let started := startEvent currenttime data
    { pass with
      mGameEvent := pass.mGameEvent.set itr started.1
      nextEventDelay := if started.2 then 0 else pass.nextEventDelay }

def deactivateOne (pass : Pass) (itr : Nat) : Pass :=
  { pass with mGameEvent := pass.mGameEvent.modify itr stopEvent }

/-- `Update`: the events and the delay after it. The entry 0 of the vector is no event. -/
def update (activeEvents : List Nat) (currenttime : Int) (mGameEvent : List GameEventData) :
    Option (List GameEventData × Nat) :=
  ((List.range' 1 (mGameEvent.length - 1)).foldlM (updateOne activeEvents currenttime)
      { mGameEvent := mGameEvent, activate := [], deactivate := [], nextEventDelay := max_ge_check_delay }).map fun pass =>
    let started := pass.activate.foldl (activateOne currenttime) pass
    let stopped := pass.deactivate.foldl deactivateOne started
    (stopped.mGameEvent, uint32 ((stopped.nextEventDelay + 1) * IN_MILLISECONDS))

/-! ## One event -/

variable {mGameEvent : List GameEventData} {data : GameEventData} {now t : Int} {d : Nat}

theorem emod_add_of_lt {a k o : Int} (hk : 0 ≤ k) (ho : 0 < o) (h : a % o + k < o) : (a + k) % o = a % o + k := by
  have ha := Int.emod_nonneg a (Int.ne_of_gt ho)
  rw [← Int.emod_add_emod]
  exact Int.emod_eq_of_lt (by omega) h

namespace GameEventData

/-- The event runs: the test of `CheckOneGameEvent`, where the interval is not zero. -/
def Runs (data : GameEventData) (t : Int) : Prop :=
  data.start < t ∧ t < data.endTime ∧ (t - data.start) % data.interval < data.duration

instance (data : GameEventData) (t : Int) : Decidable (data.Runs t) := inferInstanceAs (Decidable (_ ∧ _ ∧ _))

/-- A second at which `NextCheck` takes the event for started and `CheckOneGameEvent` does not. -/
def StartsAt (data : GameEventData) (now : Int) : Prop :=
  data.start = now ∧ now + 1 < data.endTime ∧ data.duration ≠ 0

end GameEventData

open GameEventData

theorem checkOneGameEvent_outside (hnormal : data.state = .normal) (h : ¬ (data.start < t ∧ t < data.endTime)) :
    checkOneGameEvent mGameEvent t data = some false := by
  unfold checkOneGameEvent
  rw [hnormal]
  dsimp only
  rw [if_neg (by simpa using h)]

theorem checkOneGameEvent_normal (hnormal : data.state = .normal) (hinterval : data.interval ≠ 0) :
    checkOneGameEvent mGameEvent t data = some (decide (data.Runs t)) := by
  by_cases hrange : data.start < t ∧ t < data.endTime
  · unfold checkOneGameEvent sinceStart
    rw [hnormal]
    dsimp only
    rw [if_pos (by simpa using hrange), if_neg hinterval, Option.map_some]
    exact congrArg some (decide_eq_decide.2 ⟨fun h => ⟨hrange.1, hrange.2, h⟩, fun h => h.2.2⟩)
  · rw [checkOneGameEvent_outside hnormal hrange, decide_eq_false fun h : data.Runs t => hrange ⟨h.1, h.2.1⟩]

/-- What `NextCheck` answers of a normal event. -/
theorem nextCheck_normal (hnormal : data.state = .normal) (h : nextCheck now data = some d) :
    data.endTime < now ∧ d = max_ge_check_delay ∨
    now ≤ data.endTime ∧ now < data.start ∧ d ≤ data.start - now ∧ d = uint32 (data.start - now) ∨
    data.start ≤ now ∧ now ≤ data.endTime ∧ data.interval ≠ 0 ∧ ((d : Int) = min (data.endTime - now)
      (if (now - data.start) % data.interval < data.duration then data.duration - (now - data.start) % data.interval
        else data.interval - (now - data.start) % data.interval)) := by
  unfold nextCheck at h
  rw [hnormal] at h
  simp only [reduceCtorEq, decide_false, Bool.or_self, Bool.false_and, Bool.false_eq_true, if_false] at h
  split at h
  next hend =>
    cases h
    exact .inl ⟨hend, rfl⟩
  next hend =>
  split at h
  next hstart =>
    cases h
    refine .inr (.inl ⟨by omega, hstart, ?_, rfl⟩)
    rw [uint32_eq]
    omega
  next hstart =>
  obtain ⟨since, hsince, hd⟩ := Option.map_eq_some_iff.1 h
  unfold sinceStart at hsince
  split at hsince
  next => cases hsince
  next hinterval =>
  cases hsince
  refine .inr (.inr ⟨by omega, by omega, hinterval, ?_⟩)
  have hnonneg := Int.emod_nonneg (now - data.start) (show (data.interval : Int) ≠ 0 by omega)
  have hlt := Int.emod_lt_of_pos (now - data.start) (show (0 : Int) < data.interval by omega)
  have hinterval' : data.interval < 2 ^ 32 := uint32_lt _
  have hduration' : data.duration < 2 ^ 32 := uint32_lt _
  rw [← hd]
  generalize (now - data.start) % data.interval = r at *
  simp only [uint32_eq]
  split_ifs <;> omega

/-- Before the next check of its own, an event goes on running or not running, unless it starts at this very second. -/
theorem check_stable (hnormal : data.state = .normal) (h : nextCheck now data = some d) (hnot : ¬ data.StartsAt now)
    (hle : now ≤ t) (hlt : t < now + d) :
    checkOneGameEvent mGameEvent t data = checkOneGameEvent mGameEvent now data := by
  rcases nextCheck_normal hnormal h with ⟨hend, -⟩ | ⟨-, hstart, hd, -⟩ | ⟨hstart, hend, hinterval, hd⟩
  · rw [checkOneGameEvent_outside hnormal (by omega), checkOneGameEvent_outside hnormal (by omega)]
  · rw [checkOneGameEvent_outside hnormal (by omega), checkOneGameEvent_outside hnormal (by omega)]
  · rw [checkOneGameEvent_normal hnormal hinterval, checkOneGameEvent_normal hnormal hinterval, Option.some_inj, decide_eq_decide]
    have hpos : (0 : Int) < data.interval := by omega
    have hlt' := Int.emod_lt_of_pos (t - data.start) hpos
    have hmod (hfits : (now - data.start) % data.interval + (t - now) < data.interval) :
        (t - data.start) % data.interval = (now - data.start) % data.interval + (t - now) := by
      have hsum : t - data.start = now - data.start + (t - now) := by omega
      rw [hsum]
      exact emod_add_of_lt (by omega) hpos hfits
    have hnot' : data.start = now → data.endTime ≤ now + 1 ∨ (data.duration : Int) = 0 := by
      intro heq
      by_contra hboth
      push Not at hboth
      exact hnot ⟨heq, by omega, by omega⟩
    have hnonneg := Int.emod_nonneg (now - data.start) (Int.ne_of_gt hpos)
    have hzero : data.start = now → (now - data.start) % data.interval = 0 := by
      intro heq
      rw [heq, Int.sub_self]
      exact Int.zero_emod _
    unfold Runs
    generalize (now - data.start) % data.interval = r at *
    split at hd
    next hruns =>
      by_cases hfits : r + (t - now) < data.interval
      · rw [hmod hfits]
        omega
      · omega
    next hruns =>
    rw [hmod (by omega)]
    omega

/-- The first time after `now` at which an event is to be started or stopped. -/
structure FirstChange (mGameEvent : List GameEventData) (data : GameEventData) (now t : Int) : Prop where
  later : now < t
  changes : checkOneGameEvent mGameEvent t data ≠ checkOneGameEvent mGameEvent now data
  first : ∀ t', now < t' → t' < t → checkOneGameEvent mGameEvent t' data = checkOneGameEvent mGameEvent now data

theorem startsAt_change (hnormal : data.state = .normal) (hinterval : data.interval ≠ 0) (h : data.StartsAt now) :
    FirstChange mGameEvent data now (now + 1) := by
  obtain ⟨hstart, hend, hduration⟩ := h
  refine ⟨by omega, ?_, fun t' h₁ h₂ => by omega⟩
  rw [checkOneGameEvent_normal hnormal hinterval, checkOneGameEvent_normal hnormal hinterval,
    decide_eq_true (p := data.Runs (now + 1)) ?_, decide_eq_false (p := data.Runs now) ?_]
  · simp
  · exact fun hruns => by have := hruns.1; omega
  · -- both products are multiples of four
    have hmod : (now + 1 - data.start) % data.interval = 1 := by
      have hone : now + 1 - data.start = 1 := by omega
      rw [hone]
      refine Int.emod_eq_of_lt (by omega) ?_
      unfold interval at hinterval ⊢
      rw [uint32_eq] at hinterval ⊢
      unfold MINUTE at hinterval ⊢
      omega
    refine ⟨by omega, hend, ?_⟩
    rw [hmod]
    unfold duration at hduration ⊢
    rw [uint32_eq] at hduration ⊢
    unfold MINUTE at hduration ⊢
    omega

/-- A boundary of the event is not more than two seconds ahead. -/
def DueSoon (data : GameEventData) (now : Int) : Prop :=
  now ≤ data.endTime ∧ (now < data.start ∧ uint32 (data.start - now) ≤ 2 ∨
    data.start ≤ now ∧ (data.endTime ≤ now + 2 ∨
      if (now - data.start) % data.interval < data.duration then data.duration ≤ (now - data.start) % data.interval + 2
      else data.interval ≤ (now - data.start) % data.interval + 2))

theorem nextCheck_dueSoon (hnormal : data.state = .normal) (h : nextCheck now data = some d) : d ≤ 2 ↔ DueSoon data now := by
  unfold DueSoon
  rcases nextCheck_normal hnormal h with ⟨hend, hd⟩ | ⟨hend, hstart, hle, hd⟩ | ⟨hstart, hend, hinterval, hd⟩
  · unfold max_ge_check_delay at hd
    omega
  · omega
  · generalize (now - data.start) % data.interval = r at *
    split_ifs at hd ⊢ <;> omega

theorem nextCheck_isSome (hnormal : data.state = .normal) :
    (∃ d, nextCheck now data = some d) ↔ (data.start ≤ now → now ≤ data.endTime → data.interval ≠ 0) := by
  unfold nextCheck
  rw [hnormal]
  simp only [reduceCtorEq, decide_false, Bool.or_self, Bool.false_and, Bool.false_eq_true, if_false]
  split
  next hend => exact ⟨fun _ _ hle => by omega, fun _ => ⟨_, rfl⟩⟩
  next hend =>
  split
  next hstart => exact ⟨fun _ hle _ => by omega, fun _ => ⟨_, rfl⟩⟩
  next hstart =>
  unfold sinceStart
  split
  next hzero => exact ⟨fun h => (nomatch h), fun h => absurd hzero (h (by omega) (by omega))⟩
  next hinterval => exact ⟨fun _ _ _ => hinterval, fun _ => ⟨_, rfl⟩⟩

/-! ## All events -/

variable {activeEvents : List Nat} {pass pass' : Pass} {itr : Nat}

theorem updateOne_normal (hitr : pass.mGameEvent[itr]? = some data) (hnormal : data.state = .normal)
    (h : nextCheck now data = some d) : ∃ activate deactivate, updateOne activeEvents now pass itr =
      some { pass with activate := activate, deactivate := deactivate, nextEventDelay := min pass.nextEventDelay d } := by
  obtain ⟨active, hactive⟩ : ∃ active, checkOneGameEvent pass.mGameEvent now data = some active := by
    by_cases hrange : data.start < now ∧ now < data.endTime
    · have hinterval := (nextCheck_isSome hnormal).1 ⟨d, h⟩ (by omega) (by omega)
      exact ⟨_, checkOneGameEvent_normal hnormal hinterval⟩
    · exact ⟨_, checkOneGameEvent_outside hnormal hrange⟩
  have hset : pass.mGameEvent.set itr data = pass.mGameEvent := by
    obtain ⟨hlt, rfl⟩ := List.getElem?_eq_some_iff.1 hitr
    exact List.set_getElem_self hlt
  unfold updateOne
  rw [hitr]
  dsimp only
  rw [hactive, Option.bind_some, if_neg (by simp [hnormal]), if_neg (by simp [hnormal]), h, Option.map_some, hset]
  exact ⟨_, _, rfl⟩

theorem updateOne_none (hitr : pass.mGameEvent[itr]? = some data) (hnormal : data.state = .normal)
    (h : nextCheck now data = none) : updateOne activeEvents now pass itr = none := by
  unfold updateOne
  rw [hitr]
  dsimp only
  cases checkOneGameEvent pass.mGameEvent now data with
  | none => rfl
  | some active =>
    rw [Option.bind_some, if_neg (by simp [hnormal]), if_neg (by simp [hnormal]), h]
    rfl

/-- The loop over normal events: the least of their delays. -/
theorem foldlM_updateOne : ∀ {l : List Nat} {pass : Pass},
    (∀ itr ∈ l, ∃ data, pass.mGameEvent[itr]? = some data ∧ data.state = .normal ∧ ∃ d, nextCheck now data = some d) →
    ∃ pass', l.foldlM (updateOne activeEvents now) pass = some pass' ∧ pass'.mGameEvent = pass.mGameEvent ∧
      ∀ k, pass'.nextEventDelay ≤ k ↔ pass.nextEventDelay ≤ k ∨
        ∃ itr ∈ l, ∃ data d, pass.mGameEvent[itr]? = some data ∧ nextCheck now data = some d ∧ d ≤ k
  | [], pass, _ => ⟨pass, rfl, rfl, fun k => by simp⟩
  | itr :: l, pass, h => by
    obtain ⟨data, hitr, hnormal, d, hd⟩ := h itr List.mem_cons_self
    obtain ⟨activate, deactivate, hone⟩ := @updateOne_normal data now d activeEvents pass itr hitr hnormal hd
    obtain ⟨pass', hrest, hsame, hdelay⟩ := @foldlM_updateOne l
      { pass with activate := activate, deactivate := deactivate, nextEventDelay := min pass.nextEventDelay d }
      fun itr hmem => h itr (List.mem_cons_of_mem _ hmem)
    refine ⟨pass', ?_, hsame, fun k => ?_⟩
    · rw [List.foldlM_cons, hone]
      exact hrest
    · have hmin : min pass.nextEventDelay d ≤ k ↔ pass.nextEventDelay ≤ k ∨ d ≤ k := by omega
      rw [hdelay]
      dsimp only
      rw [hmin, or_assoc]
      refine or_congr_right ⟨fun hor => ?_, fun hex => ?_⟩
      · rcases hor with hle | ⟨itr', hmem, hex⟩
        · exact ⟨itr, List.mem_cons_self, data, d, hitr, hd, hle⟩
        · exact ⟨itr', List.mem_cons_of_mem _ hmem, hex⟩
      · obtain ⟨itr', hmem, data', d', hitr', hd', hle⟩ := hex
        rcases List.mem_cons.1 hmem with rfl | hmem
        · rw [hitr] at hitr'
          cases hitr'
          rw [hd] at hd'
          cases hd'
          exact .inl hle
        · exact .inr ⟨itr', hmem, data', d', hitr', hd', hle⟩

theorem foldlM_updateOne_none : ∀ {l : List Nat} {pass : Pass},
    (∀ itr ∈ l, ∃ data, pass.mGameEvent[itr]? = some data ∧ data.state = .normal) →
    (∃ itr ∈ l, ∃ data, pass.mGameEvent[itr]? = some data ∧ nextCheck now data = none) →
    l.foldlM (updateOne activeEvents now) pass = none
  | [], pass, _, h => by simp at h
  | itr :: l, pass, hall, h => by
    obtain ⟨data, hitr, hnormal⟩ := hall itr List.mem_cons_self
    rw [List.foldlM_cons]
    cases hd : nextCheck now data with
    | none =>
      rw [updateOne_none hitr hnormal hd]
      rfl
    | some d =>
      obtain ⟨activate, deactivate, hone⟩ := @updateOne_normal data now d activeEvents pass itr hitr hnormal hd
      rw [hone]
      refine foldlM_updateOne_none (fun itr hmem => hall itr (List.mem_cons_of_mem _ hmem)) ?_
      obtain ⟨itr', hmem, data', hitr', hnone⟩ := h
      rcases List.mem_cons.1 hmem with rfl | hmem
      · rw [hitr] at hitr'
        cases hitr'
        rw [hd] at hnone
        cases hnone
      · exact ⟨itr', hmem, data', hitr', hnone⟩

/-- To start a normal event asks for no other check. -/
theorem activate_normal (l : List Nat) (h : ∀ data ∈ pass.mGameEvent, data.state = .normal) :
    l.foldl (activateOne now) pass = pass := by
  induction l with
  | nil => rfl
  | cons itr l ih =>
    have hone : activateOne now pass itr = pass := by
      unfold activateOne
      split
      next => rfl
      next data hitr =>
      obtain ⟨hlt, rfl⟩ := List.getElem?_eq_some_iff.1 hitr
      have hstart : startEvent now pass.mGameEvent[itr] = (pass.mGameEvent[itr], false) := by
        unfold startEvent
        rw [if_pos (by simp [h _ (List.getElem_mem hlt)])]
      dsimp only
      rw [hstart, List.set_getElem_self hlt]
      rfl
    rw [List.foldl_cons, hone, ih]

theorem deactivate_delay (l : List Nat) : ∀ pass : Pass, (l.foldl deactivateOne pass).nextEventDelay = pass.nextEventDelay := by
  induction l with
  | nil => exact fun _ => rfl
  | cons itr l ih => exact fun pass => ih (deactivateOne pass itr)

theorem mem_tail_iff : data ∈ mGameEvent.tail ↔
    ∃ itr ∈ List.range' 1 (mGameEvent.length - 1), mGameEvent[itr]? = some data := by
  rw [List.mem_iff_getElem?]
  constructor
  · intro h
    obtain ⟨i, hi⟩ := h
    rw [List.getElem?_tail] at hi
    have hlt : i + 1 < mGameEvent.length := (List.getElem?_eq_some_iff.1 hi).1
    exact ⟨i + 1, List.mem_range'_1.2 ⟨by omega, by omega⟩, hi⟩
  · intro h
    obtain ⟨itr, hitr, hdata⟩ := h
    obtain ⟨hle, -⟩ := List.mem_range'_1.1 hitr
    exact ⟨itr - 1, by rw [List.getElem?_tail, Nat.sub_add_cancel hle, hdata]⟩

theorem update_none (hnormal : ∀ data ∈ mGameEvent, data.state = .normal)
    (h : ∃ data ∈ mGameEvent.tail, nextCheck now data = none) : update activeEvents now mGameEvent = none := by
  obtain ⟨data, hdata, hnone⟩ := h
  obtain ⟨itr, hitr, hget⟩ := mem_tail_iff.1 hdata
  unfold update
  rw [@foldlM_updateOne_none now activeEvents (List.range' 1 (mGameEvent.length - 1))
    { mGameEvent := mGameEvent, activate := [], deactivate := [], nextEventDelay := max_ge_check_delay }
    (fun itr hitr => ?_) ⟨itr, hitr, data, hget, hnone⟩]
  · rfl
  · obtain ⟨hle, hlt⟩ := List.mem_range'_1.1 hitr
    have hget : mGameEvent[itr]? = some mGameEvent[itr] := List.getElem?_eq_getElem (by omega)
    exact ⟨_, hget, hnormal _ (List.getElem_mem _)⟩

/-- What `Update` answers when all events are normal: a second more than the least delay. -/
theorem update_delay (hnormal : ∀ data ∈ mGameEvent, data.state = .normal)
    (hchecks : ∀ data ∈ mGameEvent.tail, ∃ d, nextCheck now data = some d) :
    ∃ after least, update activeEvents now mGameEvent = some (after, (least + 1) * IN_MILLISECONDS) ∧
      ∀ k, least ≤ k ↔ max_ge_check_delay ≤ k ∨ ∃ data ∈ mGameEvent.tail, ∃ d, nextCheck now data = some d ∧ d ≤ k := by
  obtain ⟨pass', hpass, hsame, hdelay⟩ := @foldlM_updateOne now activeEvents (List.range' 1 (mGameEvent.length - 1))
    { mGameEvent := mGameEvent, activate := [], deactivate := [], nextEventDelay := max_ge_check_delay } fun itr hitr => by
      obtain ⟨hle, hlt⟩ := List.mem_range'_1.1 hitr
      have hget : mGameEvent[itr]? = some mGameEvent[itr] := List.getElem?_eq_getElem (by omega)
      exact ⟨_, hget, hnormal _ (List.getElem_mem _), hchecks _ (mem_tail_iff.2 ⟨itr, hitr, hget⟩)⟩
  have hleast (k : Nat) : pass'.nextEventDelay ≤ k ↔ max_ge_check_delay ≤ k ∨
      ∃ data ∈ mGameEvent.tail, ∃ d, nextCheck now data = some d ∧ d ≤ k := by
    rw [hdelay]
    refine or_congr_right ⟨fun hex => ?_, fun hex => ?_⟩
    · obtain ⟨itr, hitr, data, d, hdata, hd, hle⟩ := hex
      exact ⟨data, mem_tail_iff.2 ⟨itr, hitr, hdata⟩, d, hd, hle⟩
    · obtain ⟨data, hdata, d, hd, hle⟩ := hex
      obtain ⟨itr, hitr, hget⟩ := mem_tail_iff.1 hdata
      exact ⟨itr, hitr, data, d, hget, hd, hle⟩
  have hmax : pass'.nextEventDelay ≤ max_ge_check_delay := (hleast _).2 (.inl (Nat.le_refl _))
  refine ⟨(pass'.deactivate.foldl deactivateOne pass').mGameEvent, pass'.nextEventDelay, ?_, hleast⟩
  have hsmall : uint32 ((pass'.nextEventDelay + 1) * IN_MILLISECONDS) = (pass'.nextEventDelay + 1) * IN_MILLISECONDS := by
    unfold max_ge_check_delay at hmax
    unfold IN_MILLISECONDS
    rw [uint32_eq]
    omega
  unfold update
  rw [hpass, Option.map_some]
  dsimp only
  rw [activate_normal _ (hsame ▸ hnormal), deactivate_delay, hsmall]

/-- `Update` returns, its delay is no longer than the maximal one and the second that it adds, and the next check is at most
two seconds after an event is first to be started or stopped. -/
def TimerRight (activeEvents : List Nat) (now : Int) (mGameEvent : List GameEventData) : Prop :=
  ∃ after delay, update activeEvents now mGameEvent = some (after, delay) ∧
    delay ≤ (max_ge_check_delay + 1) * IN_MILLISECONDS ∧
    ∀ data ∈ mGameEvent.tail, ∀ t, FirstChange mGameEvent data now t →
      now * IN_MILLISECONDS + delay ≤ (t + 2) * IN_MILLISECONDS

/-- The timer is right exactly when no event starts at this very second, or some boundary is near anyway; an event under way
needs an interval. -/
theorem timer_right_iff (hnormal : ∀ data ∈ mGameEvent, data.state = .normal) :
    TimerRight activeEvents now mGameEvent ↔
      (∀ data ∈ mGameEvent.tail, data.start ≤ now → now ≤ data.endTime → data.interval ≠ 0) ∧
        ((∀ data ∈ mGameEvent.tail, ¬ data.StartsAt now) ∨ ∃ data ∈ mGameEvent.tail, DueSoon data now) := by
  have hmem : ∀ data ∈ mGameEvent.tail, data.state = .normal := fun data hdata => hnormal data (List.mem_of_mem_tail hdata)
  by_cases hchecks : ∀ data ∈ mGameEvent.tail, ∃ d, nextCheck now data = some d
  · have hintervals : ∀ data ∈ mGameEvent.tail, data.start ≤ now → now ≤ data.endTime → data.interval ≠ 0 :=
      fun data hdata => (nextCheck_isSome (hmem data hdata)).1 (hchecks data hdata)
    obtain ⟨after, least, hupdate, hleast⟩ := @update_delay mGameEvent now activeEvents hnormal hchecks
    have hsoon : least ≤ 2 ↔ ∃ data ∈ mGameEvent.tail, DueSoon data now := by
      rw [hleast]
      constructor
      · intro h
        obtain ⟨data, hdata, d, hd, hle⟩ := h.resolve_left (by decide)
        exact ⟨data, hdata, (nextCheck_dueSoon (hmem data hdata) hd).1 hle⟩
      · intro h
        obtain ⟨data, hdata, hdue⟩ := h
        obtain ⟨d, hd⟩ := hchecks data hdata
        exact .inr ⟨data, hdata, d, hd, (nextCheck_dueSoon (hmem data hdata) hd).2 hdue⟩
    have hmax : least ≤ max_ge_check_delay := (hleast _).2 (.inl (Nat.le_refl _))
    have hdelay (t : Int) : now * IN_MILLISECONDS + ((least + 1) * IN_MILLISECONDS : Nat) ≤ (t + 2) * IN_MILLISECONDS ↔
        now + least ≤ t + 1 := by
      unfold IN_MILLISECONDS
      omega
    constructor
    · intro h
      obtain ⟨after', delay, hupdate', -, htimer⟩ := h
      rw [hupdate] at hupdate'
      cases hupdate'
      refine ⟨hintervals, or_iff_not_imp_left.2 fun hstarts => hsoon.1 ?_⟩
      push Not at hstarts
      obtain ⟨data, hdata, hstart⟩ := hstarts
      have hchange := @startsAt_change mGameEvent data now (hmem data hdata)
        (hintervals data hdata (Int.le_of_eq hstart.1) (by have := hstart.2.1; omega)) hstart
      have hle := (hdelay _).1 (htimer data hdata _ hchange)
      omega
    · intro h
      refine ⟨after, _, hupdate, Nat.mul_le_mul_right _ (by omega), fun data hdata t hchange => (hdelay t).2 ?_⟩
      obtain ⟨d, hd⟩ := hchecks data hdata
      have hle : least ≤ d := (hleast d).2 (.inr ⟨data, hdata, d, hd, Nat.le_refl d⟩)
      have hlater := hchange.later
      by_cases hstart : data.StartsAt now
      · have hdue : least ≤ 2 := hsoon.2 (h.2.resolve_left fun hnone => hnone data hdata hstart)
        omega
      · by_contra hlate
        exact hchange.changes (check_stable (hmem data hdata) hd hstart (by omega) (by omega))
  · push Not at hchecks
    obtain ⟨data, hdata, hnone⟩ := hchecks
    have hnone : nextCheck now data = none := Option.eq_none_iff_forall_ne_some.2 hnone
    constructor
    · intro h
      obtain ⟨after, delay, hupdate, -⟩ := h
      rw [update_none hnormal ⟨data, hdata, hnone⟩] at hupdate
      cases hupdate
    · intro h
      obtain ⟨d, hd⟩ := (nextCheck_isSome (hmem data hdata)).2 (h.1 data hdata)
      rw [hnone] at hd
      cases hd

/-- An event for an hour every day, from a second on, and the entry that no event has. -/
def daily (start : Int) : GameEventData :=
  { start := start, endTime := 2000000000, nextstart := 0, occurence := 1440, length := 60, state := .normal
    conditions := [], prerequisiteEvents := [] }

def noEvent : GameEventData :=
  { start := 1, endTime := 0, nextstart := 0, occurence := 0, length := 0, state := .normal
    conditions := [], prerequisiteEvents := [] }

/-- The check that another event asks for, half an hour after the start. -/
theorem timer_right_daily : TimerRight [1] 1001800 [noEvent, daily 1000000, daily 1001801] ↔
    (∀ data ∈ [noEvent, daily 1000000, daily 1001801].tail, data.start ≤ 1001800 → 1001800 ≤ data.endTime →
      data.interval ≠ 0) ∧
    ((∀ data ∈ [noEvent, daily 1000000, daily 1001801].tail, ¬ data.StartsAt 1001800) ∨
      ∃ data ∈ [noEvent, daily 1000000, daily 1001801].tail, DueSoon data 1001800) :=
  timer_right_iff (by decide)

/-- A check at the second of the first start: the event is not started, and the next check is after it has ended. -/
theorem timer_at_start : ¬ ∀ (activeEvents : List Nat) (now : Int) (mGameEvent : List GameEventData),
    (∀ data ∈ mGameEvent, data.state = .normal) →
    (∀ data ∈ mGameEvent.tail, 0 < data.length ∧ data.length ≤ data.occurence) → TimerRight activeEvents now mGameEvent := by
  intro h
  have hright := h [] 1000000 [noEvent, daily 1000000] (by decide) (by decide)
  have hstarts : (daily 1000000).StartsAt 1000000 := by unfold StartsAt; decide
  rcases ((timer_right_iff (by decide)).1 hright).2 with hnone | hdue
  · exact hnone _ List.mem_cons_self hstarts
  · revert hdue
    unfold DueSoon
    decide

end AtlasWow.Events
