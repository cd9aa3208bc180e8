import Mathlib
import Cyrux.Lib.Machine
import Cyrux.Mq.SendQueue

/-!
# The state machine of a worker

`crates/phactory/src/system/mod.rs`
-/

namespace Cyrux.Economics

open Mq (Bytes)

abbrev WorkerPublicKey := Bytes

abbrev U256 := BitVec 256

structure BlockInfo where
  blockNumber : ℕ
  nowMs : ℕ
  nowMs_lt : nowMs < 2 ^ 64

inductive WorkerEvent
  | registered (confidenceLevel : ℕ)
  | benchStart (duration : ℕ)
  | benchScore (score : ℕ)
  | started (sessionId initV initP : ℕ)
  | stopped
  | enterUnresponsive
  | exitUnresponsive
  deriving DecidableEq

structure HeartbeatChallenge where
  seed : U256
  onlineTarget : U256
  deriving DecidableEq

inductive SystemEvent
  | workerEvent (pubkey : WorkerPublicKey) (event : WorkerEvent)
  | heartbeatChallenge (challenge : HeartbeatChallenge)
  deriving DecidableEq

structure BenchState where
  startBlock : ℕ
  startTime : ℕ
  startIter : ℕ
  duration : ℕ
  deriving DecidableEq

inductive WorkingState
  | computing
  | paused
  deriving DecidableEq

structure WorkingInfo where
  sessionId : ℕ
  state : WorkingState
  startTime : ℕ
  startIter : ℕ
  deriving DecidableEq

structure WorkerState where
  pubkey : WorkerPublicKey
  hashedId : U256
  registered : Bool
  benchState : Option BenchState
  workingState : Option WorkingInfo
  deriving DecidableEq

inductive Callback
  | benchResume
  | benchPause
  | benchReport (startTime iterations : ℕ)
  | heartbeat (sessionId blockNum blockTime iterations : ℕ)
  deriving DecidableEq

namespace WorkerState

def new (hash : WorkerPublicKey → U256) (pubkey : WorkerPublicKey) : WorkerState where
  pubkey := pubkey
  hashedId := hash pubkey
  registered := false
  benchState := none
  workingState := none

def needPause (self : WorkerState) : Bool := self.benchState.isNone && self.workingState.isNone

def pauseIfNeeded (self : WorkerState) : List Callback :=
  if self.needPause then [.benchPause] else []

def handleHeartbeatChallenge (self : WorkerState) (benchIterations : ℕ) (block : BlockInfo)
    (challenge : HeartbeatChallenge) : List Callback :=
  if self.registered = false then []
  else
    match self.workingState with
    | none => []
    | some working =>
      if working.state = .paused then []
      else if self.hashedId ^^^ challenge.seed ≤ challenge.onlineTarget then
        [.heartbeat working.sessionId block.blockNumber block.nowMs
          (Unsigned.wrappingSub 64 benchIterations working.startIter)]
      else []

def handleWorkerEvent (self : WorkerState) (benchIterations : ℕ) (block : BlockInfo) :
    WorkerEvent → WorkerState × List Callback
  | .registered _ => ({ self with registered := true }, [])
  | .benchStart duration =>
    ({ self with
      benchState := some ⟨block.blockNumber, block.nowMs, benchIterations, duration⟩ },
      [.benchResume])
  | .benchScore _ => (self, [])
  | .started sessionId _ _ =>
    ({ self with workingState := some ⟨sessionId, .computing, block.nowMs, benchIterations⟩ },
      [.benchResume])
  | .stopped =>
    let stopped := { self with workingState := none }
    (stopped, stopped.pauseIfNeeded)
  | .enterUnresponsive =>
    -- An event that does not fit the state is logged and changes nothing: a paused worker stays
    -- paused, and so does one that does not work.
    ({ self with workingState := self.workingState.map ({ · with state := .paused }) }, [])
  | .exitUnresponsive =>
    ({ self with workingState := self.workingState.map ({ · with state := .computing }) }, [])

def processEvent (self : WorkerState) (benchIterations : ℕ) (block : BlockInfo) :
    SystemEvent → WorkerState × List Callback
  | .workerEvent pubkey event =>
    if pubkey ≠ self.pubkey then (self, [])
    else self.handleWorkerEvent benchIterations block event
  | .heartbeatChallenge challenge =>
    (self, self.handleHeartbeatChallenge benchIterations block challenge)

def onBlockProcessed (self : WorkerState) (benchIterations : ℕ) (block : BlockInfo) :
    WorkerState × List Callback :=
  match self.benchState with
  | none => (self, [])
  | some bench =>
    if bench.duration ≤ Unsigned.wrappingSub 32 block.blockNumber bench.startBlock then
      let ended := { self with benchState := none }
      (ended, .benchReport bench.startTime
        (Unsigned.wrappingSub 64 benchIterations bench.startIter) :: ended.pauseIfNeeded)
    else (self, [])

end WorkerState

/-! ## The callbacks -/

inductive WorkingReportEvent
  | heartbeat (sessionId challengeBlock challengeTime iterations : ℕ)
  | heartbeatV2 (sessionId challengeBlock challengeTime iterations nClusters nContracts : ℕ)
  deriving DecidableEq

namespace WorkingReportEvent

def sessionId : WorkingReportEvent → ℕ
  | heartbeat session _ _ _ => session
  | heartbeatV2 session _ _ _ _ _ => session

def challengeBlock : WorkingReportEvent → ℕ
  | heartbeat _ block _ _ => block
  | heartbeatV2 _ block _ _ _ _ => block

def challengeTime : WorkingReportEvent → ℕ
  | heartbeat _ _ time _ => time
  | heartbeatV2 _ _ time _ _ _ => time

def iterations : WorkingReportEvent → ℕ
  | heartbeat _ _ _ iterations => iterations
  | heartbeatV2 _ _ _ iterations _ _ => iterations

def contractRunning : WorkingReportEvent → Bool
  | heartbeat _ _ _ _ => false
  | heartbeatV2 _ _ _ _ nClusters _ => 0 < nClusters

end WorkingReportEvent

def WorkerSMDelegate.report (nClusters nContracts : ℕ) : Callback → Option WorkingReportEvent
  | .heartbeat sessionId challengeBlock challengeTime iterations =>
    some (.heartbeatV2 sessionId challengeBlock challengeTime iterations nClusters nContracts)
  | _ => none

def WorkerSMTracker.due : Callback → Option ℕ
  | .heartbeat _ challengeBlock _ _ => some challengeBlock
  | _ => none

theorem map_challengeBlock_report (nClusters nContracts : ℕ) (calls : List Callback) :
    (calls.filterMap (WorkerSMDelegate.report nClusters nContracts)).map
      WorkingReportEvent.challengeBlock = calls.filterMap WorkerSMTracker.due := by
  rw [List.map_filterMap]
  apply List.filterMap_congr
  intro call _
  cases call <;> rfl

/-! ## Two machines -/

namespace WorkerState

def session (self : WorkerState) : Option (ℕ × WorkingState) :=
  self.workingState.map fun working => (working.sessionId, working.state)

structure Alike (a b : WorkerState) : Prop where
  pubkey : a.pubkey = b.pubkey
  hashedId : a.hashedId = b.hashedId
  registered : a.registered = b.registered
  session : a.session = b.session

namespace Alike

variable {a b c : WorkerState} {i j : ℕ} {block : BlockInfo}

theorem refl (a : WorkerState) : Alike a a := ⟨rfl, rfl, rfl, rfl⟩

theorem trans (h : Alike a b) (h' : Alike b c) : Alike a c :=
  ⟨h.pubkey.trans h'.pubkey, h.hashedId.trans h'.hashedId, h.registered.trans h'.registered,
    h.session.trans h'.session⟩

theorem symm (h : Alike a b) : Alike b a :=
  ⟨h.pubkey.symm, h.hashedId.symm, h.registered.symm, h.session.symm⟩

theorem map_workingState (h : Alike a b) (f : WorkingInfo → WorkingInfo)
    (g : ℕ × WorkingState → ℕ × WorkingState)
    (hf : ∀ w, ((f w).sessionId, (f w).state) = g (w.sessionId, w.state)) :
    Alike { a with workingState := a.workingState.map f }
      { b with workingState := b.workingState.map f } where
  pubkey := h.pubkey
  hashedId := h.hashedId
  registered := h.registered
  session := by
    have hmap : ∀ w : Option WorkingInfo,
        (w.map f).map (fun w => (w.sessionId, w.state)) =
          (w.map fun w => (w.sessionId, w.state)).map g := by
      intro w
      cases w with
      | none => rfl
      | some w => exact congrArg some (hf w)
    change (a.workingState.map f).map _ = (b.workingState.map f).map _
    rw [hmap, hmap]
    exact congrArg (Option.map g) h.session

theorem handleHeartbeatChallenge (h : Alike a b) (challenge : HeartbeatChallenge) :
    (a.handleHeartbeatChallenge i block challenge).filterMap WorkerSMTracker.due =
      (b.handleHeartbeatChallenge j block challenge).filterMap WorkerSMTracker.due := by
  have hsession := h.session
  unfold WorkerState.session at hsession
  unfold WorkerState.handleHeartbeatChallenge
  rw [h.registered, h.hashedId]
  split
  · rfl
  · cases ha : a.workingState with
    | none =>
      cases hb : b.workingState with
      | none => rfl
      | some v =>
        rw [ha, hb] at hsession
        cases hsession
    | some w =>
      cases hb : b.workingState with
      | none =>
        rw [ha, hb] at hsession
        cases hsession
      | some v =>
        rw [ha, hb] at hsession
        have hstate : w.state = v.state := congrArg Prod.snd (Option.some.inj hsession)
        dsimp only
        rw [hstate]
        split_ifs <;> rfl

theorem handleWorkerEvent (h : Alike a b) (event : WorkerEvent) :
    Alike (a.handleWorkerEvent i block event).1 (b.handleWorkerEvent j block event).1 := by
  cases event with
  | registered _ => exact ⟨h.pubkey, h.hashedId, rfl, h.session⟩
  | benchStart _ => exact ⟨h.pubkey, h.hashedId, h.registered, h.session⟩
  | benchScore _ => exact h
  | started _ _ _ => exact ⟨h.pubkey, h.hashedId, h.registered, rfl⟩
  | stopped => exact ⟨h.pubkey, h.hashedId, h.registered, rfl⟩
  | enterUnresponsive =>
    exact h.map_workingState _ (fun s => (s.1, .paused)) fun _ => rfl
  | exitUnresponsive =>
    exact h.map_workingState _ (fun s => (s.1, .computing)) fun _ => rfl

end Alike

theorem due_pauseIfNeeded (a : WorkerState) :
    a.pauseIfNeeded.filterMap WorkerSMTracker.due = [] := by
  unfold pauseIfNeeded
  split_ifs <;> rfl

theorem due_handleWorkerEvent (a : WorkerState) (i : ℕ) (block : BlockInfo) (event : WorkerEvent) :
    (a.handleWorkerEvent i block event).2.filterMap WorkerSMTracker.due = [] := by
  cases event with
  | stopped => exact due_pauseIfNeeded _
  | _ => rfl

theorem Alike.processEvent {a b : WorkerState} (h : Alike a b) (i j : ℕ) (block : BlockInfo)
    (event : SystemEvent) :
    Alike (a.processEvent i block event).1 (b.processEvent j block event).1 ∧
      (a.processEvent i block event).2.filterMap WorkerSMTracker.due =
        (b.processEvent j block event).2.filterMap WorkerSMTracker.due := by
  cases event with
  | workerEvent pubkey event =>
    unfold WorkerState.processEvent
    dsimp only
    rw [h.pubkey]
    split
    · exact ⟨h, rfl⟩
    · exact ⟨h.handleWorkerEvent event, by rw [due_handleWorkerEvent, due_handleWorkerEvent]⟩
  | heartbeatChallenge challenge => exact ⟨h, h.handleHeartbeatChallenge challenge⟩

theorem processEvent_identity (a : WorkerState) (i : ℕ) (block : BlockInfo) (event : SystemEvent) :
    (a.processEvent i block event).1.pubkey = a.pubkey ∧
      (a.processEvent i block event).1.hashedId = a.hashedId := by
  cases event with
  | heartbeatChallenge _ => exact ⟨rfl, rfl⟩
  | workerEvent _ event =>
    unfold WorkerState.processEvent
    dsimp only
    split
    · exact ⟨rfl, rfl⟩
    · cases event <;> exact ⟨rfl, rfl⟩

theorem onBlockProcessed_alike (a : WorkerState) (i : ℕ) (block : BlockInfo) :
    Alike (a.onBlockProcessed i block).1 a := by
  unfold onBlockProcessed
  split
  · exact Alike.refl a
  · split
    · exact ⟨rfl, rfl, rfl, rfl⟩
    · exact Alike.refl a

theorem due_onBlockProcessed (a : WorkerState) (i : ℕ) (block : BlockInfo) :
    (a.onBlockProcessed i block).2.filterMap WorkerSMTracker.due = [] := by
  unfold onBlockProcessed
  split
  · rfl
  · split
    · exact due_pauseIfNeeded _
    · rfl

end WorkerState

end Cyrux.Economics
