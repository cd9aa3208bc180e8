import Mathlib
import Cyrux.Lib.Machine
import Cyrux.Lib.Proc
import Cyrux.Lib.RBTree

/-!
# The request scheduler

`crates/cyrux-scheduler/src/request_scheduler.rs`
-/

namespace Cyrux.Scheduler

open Proc Unsigned

structure Flow where
  previousFinishTag : ℕ
  averageCost : ℕ
  deriving DecidableEq

structure Request (FlowId : Type) where
  flowId : FlowId
  startTag : ℕ
  cost : ℕ
  startSignal : ℕ
  deriving DecidableEq

structure SchedulerInner (FlowId : Type) where
  flows : FlowId → Option Flow
  backlog : RBTree ℕ (Request FlowId)
  backlogCap : ℕ
  depth : ℕ
  serving : ℕ
  virtualTime : ℕ

def SchedulerInner.new (FlowId : Type) (backlogCap depth : ℕ) : SchedulerInner FlowId :=
  ⟨fun _ => none, .empty, backlogCap, depth, 0, 0⟩

structure ServingGuard (FlowId : Type) where
  flowId : FlowId
  channel : ℕ
  deriving DecidableEq

inductive Event (FlowId : Type) where
  | dispatched (request : Request FlowId)
  | evicted (request : Request FlowId)
  /-- A machine subtraction of the second number from the first. -/
  | subtracted (minuend subtrahend : ℕ)
  deriving DecidableEq

structure World (FlowId : Type) extends SchedulerInner FlowId where
  /-- The number of channels that were created. -/
  channels : ℕ := 0
  /-- The channels whose receiver was dropped. -/
  cancelled : List ℕ := []
  /-- The guards that clients hold. -/
  guards : List (ServingGuard FlowId) := []
  log : List (Event FlowId) := []

inductive Fault where
  | overloaded
  | panic (message : String)
  /-- The call tries to take the lock that it holds. -/
  | deadlock
  deriving DecidableEq

abbrev Program (FlowId : Type) := Proc (World FlowId) Fault

variable {FlowId : Type} [DecidableEq FlowId]

def record (event : Event FlowId) : Program FlowId Unit :=
  alter fun s => { s with log := s.log ++ [event] }

def subtract (w a b : ℕ) : Program FlowId ℕ := do
  record (.subtracted a b)
  pure (wrappingSub w a b)

omit [DecidableEq FlowId] in
theorem runs_subtract_bind {α : Type} {w a b : ℕ} {f : ℕ → Program FlowId α} {s : World FlowId}
    {Q : α → World FlowId → Prop} {E : Fault → World FlowId → Prop}
    (h : Runs (f (wrappingSub w a b)) { s with log := s.log ++ [.subtracted a b] } Q E) :
    Runs (subtract w a b >>= f) s Q E := Runs.bind h

def setFlow (flowId : FlowId) (flow : Flow) : Program FlowId Unit :=
  alter fun s => { s with flows := Function.update s.flows flowId (some flow) }

def dispatch (request : Request FlowId) : Program FlowId Unit := do
  alter fun s => { s with
    serving := s.serving + 1
    virtualTime := request.startTag }
  record (.dispatched request)
  let s ← get
  -- if the receiver is gone, the guard comes back and is dropped here, which takes the lock again
  ensure (request.startSignal ∉ s.cancelled) .deadlock
  alter fun s => { s with guards := s.guards ++ [⟨request.flowId, request.startSignal⟩] }

def evictLast : Program FlowId Unit := do
  let s ← get
  match s.backlog.popLast with
  | none => pure ()
  | some ((_, request), backlog) =>
    alter fun s => { s with backlog := backlog }
    record (.evicted request)
    match s.flows request.flowId with
    | none => pure ()
    | some flow =>
      let tag ← subtract 128 flow.previousFinishTag request.cost
      setFlow request.flowId { flow with previousFinishTag := tag }

def makeRoom (flowId : FlowId) (flow : Flow) (startTag cost : ℕ) : Program FlowId Unit := do
  let s ← get
  let last ← demand s.backlog.getLast
    (.panic "Get the latest request from non-empty backlog should not fail")
  if last.1 ≤ startTag then
    let tag ← subtract 128 flow.previousFinishTag cost
    setFlow flowId { flow with previousFinishTag := tag }
    throw .overloaded
  else
    evictLast

def enter (request : Request FlowId) : Program FlowId Unit := do
  let s ← get
  if s.serving < s.depth then
    dispatch request
  else
    alter fun s => { s with backlog := s.backlog.insert request.startTag request }

def acquire (flowId : FlowId) (weight : ℕ) : Program FlowId ℕ := do
  let s ← get
  let flow := (s.flows flowId).getD ⟨0, 0⟩
  let startTag := max s.virtualTime flow.previousFinishTag
  let cost := max (flow.averageCost / max weight 1) 1
  let flow := { flow with previousFinishTag := wrappingAdd 128 startTag cost }
  setFlow flowId flow
  when (s.backlogCap ≤ s.backlog.len) (makeRoom flowId flow startTag cost)
  let request : Request FlowId := ⟨flowId, startTag, cost, s.channels⟩
  alter fun s => { s with channels := s.channels + 1 }
  enter request
  pure s.channels

def tryPickupNext : Program FlowId Unit := do
  let s ← get
  match s.backlog.popFirst with
  | none => pure ()
  | some ((_, request), backlog) =>
    alter fun s => { s with backlog := backlog }
    dispatch request

def updateAverageCost (flowId : FlowId) (actualCost : ℕ) : Program FlowId Unit := do
  let s ← get
  match s.flows flowId with
  | none => pure ()
  | some flow =>
    setFlow flowId { flow with
      averageCost := wrappingAdd 128 (flow.averageCost * 4) actualCost / 5 }

def release (flowId : FlowId) (actualCost : ℕ) : Program FlowId Unit := do
  updateAverageCost flowId actualCost
  let s ← get
  let serving ← subtract 32 s.serving 1
  alter fun s => { s with serving := serving }
  tryPickupNext

def dropGuard (channel actualCost : ℕ) : Program FlowId Unit := do
  let s ← get
  match s.guards.find? (·.channel = channel) with
  | none => pure ()
  | some guard =>
    alter fun s => { s with guards := s.guards.erase guard }
    release guard.flowId actualCost

inductive Op (FlowId : Type) where
  | acquire (flowId : FlowId) (weight : ℕ)
  | drop (channel actualCost : ℕ)
  /-- The future that waits for the guard is dropped. -/
  | cancel (channel : ℕ)

def Op.call : Op FlowId → Program FlowId Unit
  | .acquire flowId weight => do
    let _ ← Scheduler.acquire flowId weight
  | .drop channel actualCost => dropGuard channel actualCost
  | .cancel channel => do
    let s ← get
    when (channel < s.channels) (alter fun s => { s with cancelled := channel :: s.cancelled })

def World.step (s : World FlowId) (op : Op FlowId) : World FlowId := op.call.after s

def World.run (s : World FlowId) (ops : List (Op FlowId)) : World FlowId := ops.foldl World.step s

def World.new (FlowId : Type) (backlogCap depth : ℕ) : World FlowId :=
  { SchedulerInner.new FlowId backlogCap depth with }

end Cyrux.Scheduler
