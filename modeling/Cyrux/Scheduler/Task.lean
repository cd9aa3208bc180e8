import Mathlib
import Cyrux.Lib.Machine
import Cyrux.Lib.Proc
import Cyrux.Lib.RBTree

/-!
# The task scheduler

`crates/cyrux-scheduler/src/task_scheduler.rs`
-/

namespace Cyrux.TaskScheduler

open Proc Unsigned

inductive TaskState where
  | idle
  | ready
  | toRun
  | running
  deriving DecidableEq

structure Task where
  state : TaskState
  virtualRuntime : ℕ
  deriving DecidableEq

structure ReadyTask (TaskId Waker : Type) where
  id : TaskId
  waker : Waker
  deriving DecidableEq

structure RunningGuard (TaskId : Type) where
  taskId : TaskId
  weight : ℕ
  deriving DecidableEq

structure SchedulerInner (TaskId Waker : Type) where
  tasks : TaskId → Option Task
  readyTasks : RBTree ℕ (ReadyTask TaskId Waker)
  virtualClock : ℕ
  virtualCores : ℕ
  runningTasks : ℕ

def SchedulerInner.new (TaskId Waker : Type) (virtualCores : ℕ) : SchedulerInner TaskId Waker :=
  ⟨fun _ => none, .empty, 0, virtualCores, 0⟩

structure World (TaskId Waker : Type) extends SchedulerInner TaskId Waker where
  /-- The guards that are alive. -/
  guards : List (RunningGuard TaskId) := []
  /-- The wakers that were called. -/
  woken : List Waker := []

def World.new (TaskId Waker : Type) (virtualCores : ℕ) : World TaskId Waker :=
  { SchedulerInner.new TaskId Waker virtualCores with }

inductive Fault where
  | panic (message : String)
  deriving DecidableEq

abbrev Program (TaskId Waker : Type) := Proc (World TaskId Waker) Fault

variable {TaskId Waker : Type} [DecidableEq TaskId]

def assign (s : World TaskId Waker) (vruntime : ℕ) (readyTask : ReadyTask TaskId Waker) :
    World TaskId Waker :=
  match s.tasks readyTask.id with
  | none => s
  | some task =>
    { s with
      runningTasks := s.runningTasks + 1
      virtualClock := vruntime
      tasks := Function.update s.tasks readyTask.id (some { task with state := .toRun })
      woken := s.woken ++ [readyTask.waker] }

def scheduleLoop : ℕ → World TaskId Waker → World TaskId Waker
  | 0, s => s
  | n + 1, s =>
    if s.runningTasks < s.virtualCores then
      match s.readyTasks.popFirst with
      | none => s
      | some ((vruntime, readyTask), readyTasks) =>
        scheduleLoop n (assign { s with readyTasks := readyTasks } vruntime readyTask)
    else s

def schedule (s : World TaskId Waker) : World TaskId Waker := scheduleLoop s.readyTasks.len s

def exit (id : TaskId) : Program TaskId Waker Unit := do
  let s ← get
  match s.tasks id with
  | none => pure ()
  | some task =>
    alter fun s => { s with tasks := Function.update s.tasks id none }
    when (task.state = .toRun ∨ task.state = .running)
      (alter fun s => schedule { s with runningTasks := s.runningTasks - 1 })

def reset (id : TaskId) : Program TaskId Waker Unit := exit id

def maybeResetClock (s : World TaskId Waker) : World TaskId Waker :=
  if (2 ^ 128 - 1) / 2 < s.virtualClock then
    { s with
      tasks := fun id => (s.tasks id).map fun task =>
        { task with virtualRuntime := task.virtualRuntime - s.virtualClock }
      virtualClock := 0 }
  else s

def pollResume (waker : Waker) (id : TaskId) (weight : ℕ) :
    Program TaskId Waker (Option (RunningGuard TaskId)) := do
  alter maybeResetClock
  let s ← get
  let task := (s.tasks id).getD ⟨.idle, s.virtualClock⟩
  match task.state with
  | .idle =>
    let virtualRuntime := max task.virtualRuntime s.virtualClock
    alter fun s => schedule { s with
      tasks := Function.update s.tasks id (some ⟨.ready, virtualRuntime⟩)
      readyTasks := s.readyTasks.insert virtualRuntime ⟨id, waker⟩ }
    pure none
  | .ready =>
    alter fun s => { s with
      readyTasks := s.readyTasks.updateFirst (fun ready => ready.id = id)
        fun ready => { ready with waker := waker } }
    pure none
  | .toRun =>
    alter fun s => { s with
      tasks := Function.update s.tasks id (some { task with state := .running }) }
    pure (some ⟨id, weight⟩)
  | .running => throw (.panic "BUG: resuming a running task")

def park (taskId : TaskId) (vruntime : ℕ) : Program TaskId Waker Unit := do
  let s ← get
  match s.tasks taskId with
  | none => pure ()
  | some task =>
    ensure (task.state = .running) (.panic "BUG: parking a non-running task")
    let virtualRuntime := wrappingAdd 128 task.virtualRuntime (max vruntime 1)
    alter fun s => schedule { s with
      tasks := Function.update s.tasks taskId (some ⟨.idle, virtualRuntime⟩)
      runningTasks := s.runningTasks - 1 }

def dropGuard (taskId : TaskId) (actualCost : ℕ) : Program TaskId Waker Unit := do
  let s ← get
  match s.guards.find? (·.taskId = taskId) with
  | none => pure ()
  | some guard =>
    alter fun s => { s with guards := s.guards.erase guard }
    park guard.taskId (max (actualCost / max guard.weight 1) 1)

inductive Op (TaskId Waker : Type) where
  | poll (waker : Waker) (id : TaskId) (weight : ℕ)
  | drop (id : TaskId) (actualCost : ℕ)
  | reset (id : TaskId)
  | exit (id : TaskId)

def Op.call : Op TaskId Waker → Program TaskId Waker Unit
  | .poll waker id weight => do
    let guard ← pollResume waker id weight
    alter fun s => { s with guards := s.guards ++ guard.toList }
  | .drop id actualCost => dropGuard id actualCost
  | .reset id => TaskScheduler.reset id
  | .exit id => TaskScheduler.exit id

end Cyrux.TaskScheduler
