/-
`TaskScheduler` (`TaskScheduler.h`, `TaskScheduler.cpp`): tasks with the time
they are to run at, kept in that order, and the contexts through which their
handlers repeat them, schedule others or cancel some.

Tasks and contexts are shared objects, so they are named by numbers and looked
up. A handler is given its context, what it can ask about contexts and the
world, and answers what it does, in order. Nothing in the source says how often
a task was pushed or which have run; `pushes` and `ran` are kept to say so.
-/
import AtlasWow.Lib.Machine
import Mathlib.Data.List.Sort

namespace AtlasWow

structure Task (ι : Type) where
  end_ : Int
  duration : Int
  group : Option UInt32
  repeated : UInt32
  /-- The handler. -/
  task : ι

def Task.isInGroup {ι : Type} (t : Task ι) (group : UInt32) : Bool := t.group = some group

structure TaskContext where
  task : Nat
  consumed : Bool

/-- A task in the queue, and how many had been pushed before it. -/
structure Queued where
  task : Nat
  pushed : Nat

/-- A task that was invoked, as it was then. -/
structure Run where
  task : Nat
  end_ : Int
  duration : Int
  pushed : Nat
deriving DecidableEq

/-- What a handler can do, through a context it holds or to the scheduler itself. -/
inductive Action (ι : Type) where
  | repeatFor (context : Nat) (duration : Int)
  /-- `Repeat()`: with the same duration. -/
  | repeatSame (context : Nat)
  | schedule (context : Nat) (time : Int) (group : Option UInt32) (task : ι)
  | cancelAll
  | cancelGroup (group : UInt32)
  | cancelGroupsOf (groups : List UInt32)
  | setGroup (context : Nat) (group : UInt32)
  | clearGroup (context : Nat)
  | delayAll (duration : Int)
  | delayGroup (group : UInt32) (duration : Int)
  | rescheduleAll (duration : Int)
  | rescheduleGroup (group : UInt32) (duration : Int)
  | async (callable : ι)
  /-- `TaskScheduler::Schedule`, from the current time. -/
  | scheduleFromNow (time : Int) (group : Option UInt32) (task : ι)

structure TaskScheduler (ι β : Type) where
  now : Int
  tasks : List (Task ι)
  contexts : List TaskContext
  taskHolder : List Queued
  pushes : Nat
  asyncHolder : List ι
  /-- Whatever else handlers read and write. -/
  world : β
  /-- What has been invoked, the last first. -/
  ran : List Run

/-- The code that is called back. A handler sees of a context the repeat counter and the group of its task. -/
structure Handlers (ι β : Type) where
  predicate : β → Bool
  handler : ι → (context : Nat) → (see : Nat → Option (UInt32 × Option UInt32)) → β → List (Action ι) × β
  callable : ι → β → List (Action ι) × β

namespace TaskScheduler

variable {ι β : Type}

def new (now : Int) (world : β) : TaskScheduler ι β := ⟨now, [], [], [], 0, [], world, []⟩

/-- Order tasks by their end. -/
def endOf (s : TaskScheduler ι β) (task : Nat) : Int := ((s.tasks[task]?).map (·.end_)).getD 0

def isTask (s : TaskScheduler ι β) (filter : Task ι → Bool) (task : Nat) : Bool := (s.tasks[task]?).any filter

/-! ## `TaskQueue` -/

/-- A multiset puts what it inserts behind its equals. -/
def push (s : TaskScheduler ι β) (task : Nat) : TaskScheduler ι β :=
  { s with
    taskHolder := s.taskHolder.orderedInsert (fun a b => s.endOf a.task < s.endOf b.task) ⟨task, s.pushes⟩
    pushes := s.pushes + 1 }

def removeIf (s : TaskScheduler ι β) (filter : Task ι → Bool) : TaskScheduler ι β :=
  { s with taskHolder := s.taskHolder.filter fun q => !s.isTask filter q.task }

/-- What the filter picks is changed by it, and inserted again when all have been looked at. -/
def modifyIf (s : TaskScheduler ι β) (filter : Task ι → Bool) (change : Task ι → Task ι) : TaskScheduler ι β :=
  let cache := s.taskHolder.filter fun q => s.isTask filter q.task
  let tasks := cache.foldl (fun tasks q => tasks.modify q.task change) s.tasks
  cache.foldl (fun s q => s.push q.task)
    { s with tasks := tasks, taskHolder := s.taskHolder.filter fun q => !s.isTask filter q.task }

/-! ## What is done to the scheduler -/

def scheduleAt (s : TaskScheduler ι β) (end_ time : Int) (group : Option UInt32) (task : ι) : TaskScheduler ι β :=
  push { s with tasks := s.tasks ++ [⟨end_ + time, time, group, 0, task⟩] } s.tasks.length

/-- Schedule from the current time. -/
def schedule (s : TaskScheduler ι β) (time : Int) (group : Option UInt32) (task : ι) : TaskScheduler ι β :=
  s.scheduleAt s.now time group task

def cancelAll (s : TaskScheduler ι β) : TaskScheduler ι β := { s with taskHolder := [], asyncHolder := [] }

def cancelGroup (s : TaskScheduler ι β) (group : UInt32) : TaskScheduler ι β := s.removeIf (·.isInGroup group)

/-- `TaskContext::Repeat`; `none` if the context was consumed already. -/
def repeatTask (s : TaskScheduler ι β) (context : Nat) (duration : Task ι → Int) : Option (TaskScheduler ι β) :=
  (s.contexts[context]?).bind fun c =>
    if c.consumed then none
    else (s.tasks[c.task]?).map fun t =>
      push
        { s with
          tasks := s.tasks.set c.task
            { t with duration := duration t, end_ := t.end_ + duration t, repeated := t.repeated + 1 }
          contexts := s.contexts.set context { c with consumed := true } }
        c.task

/-- Change the group of a context's task. -/
def changeGroup (s : TaskScheduler ι β) (context : Nat) (group : Option UInt32) : Option (TaskScheduler ι β) :=
  (s.contexts[context]?).map fun c => { s with tasks := s.tasks.modify c.task fun t => { t with group := group } }

/-- Something that is done; `none` where the program stops. -/
def act (s : TaskScheduler ι β) : Action ι → Option (TaskScheduler ι β)
  | .repeatFor context duration => s.repeatTask context fun _ => duration
  | .repeatSame context => s.repeatTask context (·.duration)
  | .schedule context time group task =>
    (s.contexts[context]?).bind fun c => (s.tasks[c.task]?).map fun t => s.scheduleAt t.end_ time group task
  | .cancelAll => some s.cancelAll
  | .cancelGroup group => some (s.cancelGroup group)
  | .cancelGroupsOf groups => some (groups.foldl cancelGroup s)
  | .setGroup context group => s.changeGroup context (some group)
  | .clearGroup context => s.changeGroup context none
  | .delayAll duration => some (s.modifyIf (fun _ => true) fun t => { t with end_ := t.end_ + duration })
  | .delayGroup group duration =>
    some (s.modifyIf (·.isInGroup group) fun t => { t with end_ := t.end_ + duration })
  | .rescheduleAll duration => some (s.modifyIf (fun _ => true) fun t => { t with end_ := s.now + duration })
  | .rescheduleGroup group duration =>
    some (s.modifyIf (·.isInGroup group) fun t => { t with end_ := s.now + duration })
  | .async callable => some { s with asyncHolder := s.asyncHolder ++ [callable] }
  | .scheduleFromNow time group task => some (s.schedule time group task)

/-! ## `Dispatch` -/

variable (h : Handlers ι β)

def see (s : TaskScheduler ι β) (context : Nat) : Option (UInt32 × Option UInt32) :=
  (s.contexts[context]?).bind fun c => (s.tasks[c.task]?).map fun t => (t.repeated, t.group)

/-- The first task is popped and has a context. -/
def popped (s : TaskScheduler ι β) (first : Queued) (rest : List Queued) (t : Task ι) : TaskScheduler ι β :=
  { s with
    taskHolder := rest
    contexts := s.contexts ++ [⟨first.task, false⟩]
    ran := ⟨first.task, t.end_, t.duration, first.pushed⟩ :: s.ran }

/-- Invoke the handler of the first task. -/
def invoke (s : TaskScheduler ι β) : Option (TaskScheduler ι β) :=
  match s.taskHolder with
  | [] => none
  | first :: rest =>
    (s.tasks[first.task]?).bind fun t =>
      let (actions, world) := h.handler t.task s.contexts.length (s.popped first rest t).see s.world
      actions.foldlM act { s.popped first rest t with world := world }

/-- There is a first task and its time has come. -/
def isDue (s : TaskScheduler ι β) : Bool := s.taskHolder.head?.any fun first => s.endOf first.task ≤ s.now

/-- Call the first of the asyncs and pop it. -/
def runAsync (s : TaskScheduler ι β) : Option (TaskScheduler ι β) :=
  match s.asyncHolder with
  | [] => none
  | front :: _ =>
    let (actions, world) := h.callable front s.world
    (actions.foldlM act { s with world := world }).bind fun s =>
      match s.asyncHolder with
      | [] => none
      | _ :: rest => some { s with asyncHolder := rest }

/-- Both loops end as soon as the validation fails; each is cut off after `n` rounds. -/
def dispatch (n : Nat) (s : TaskScheduler ι β) : Option (TaskScheduler ι β) :=
  if !h.predicate s.world then some s
  else
    (whileLoop (fun s => h.predicate s.world && !s.asyncHolder.isEmpty) (runAsync h) n s).bind
      (whileLoop (fun s => h.predicate s.world && s.isDue) (invoke h) n)

def update (n : Nat) (difftime : Nat) (s : TaskScheduler ι β) : Option (TaskScheduler ι β) :=
  dispatch h n { s with now := s.now + difftime }

/-- Several updates, one after the other, lead from one state to another. -/
def Updates (difftimes : List Nat) (s s' : TaskScheduler ι β) : Prop := ∃ n, runSteps (update h n) difftimes s = some s'

/-- What is done from outside: a task is scheduled, or time passes. -/
inductive Event (ι : Type) where
  | schedule (time : Int) (group : Option UInt32) (task : ι)
  | update (rounds difftime : Nat)

def step : Event ι → TaskScheduler ι β → Option (TaskScheduler ι β)
  | .schedule time group task, s => some (s.schedule time group task)
  | .update rounds difftime, s => update h rounds difftime s

end TaskScheduler

end AtlasWow
