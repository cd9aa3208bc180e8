import Cyrux.Lib.Proc
import Mathlib.Data.Nat.Notation

/-!
# The processor of the runtime bridge

`standalone/prb/src/processor.rs`
-/

namespace Cyrux.Prb.Processor

open Proc

abbrev Text := List Char

/-! ## Data -/

structure Counters where
  headernum : ℕ := 0
  paraHeadernum : ℕ := 0
  blocknum : ℕ := 0
  deriving DecidableEq

structure ChaintipInfo where
  relaychain : ℕ
  parachain : ℕ

inductive AttestationMethod
  | epid
  | dcap
  | other
  deriving DecidableEq

structure PhactoryInfo where
  counters : Counters
  initialized : Bool
  registered : Bool
  canLoadChainState : Bool
  supportedAttestationMethods : List AttestationMethod

structure SyncRequestManifest where
  headers : Option (ℕ × ℕ) := none
  paraHeaders : Option (ℕ × ℕ) := none
  blocks : Option (ℕ × ℕ) := none
  deriving DecidableEq

structure SyncRequest where
  headers : Bool := false
  paraHeaders : Bool := false
  combinedHeaders : Bool := false
  blocks : Bool := false
  manifest : SyncRequestManifest := {}
  deriving DecidableEq

def SyncRequest.isEmpty (r : SyncRequest) : Bool :=
  !r.headers && !r.paraHeaders && !r.combinedHeaders && !r.blocks

structure SyncInfo where
  headernum : Option ℕ := none
  paraHeadernum : Option ℕ := none
  blocknum : Option ℕ := none

inductive PRuntimeRequest
  | prepareLifecycle
  | initRuntime (attestation : AttestationMethod)
  | loadChainState
  | sync (request : SyncRequest)
  | regularGetInfo
  | prepareRegister (forceRefreshRa : Bool) (operator : Option ℕ) (force : Bool)
  | getEgressMessages
  | signEndpoints
  | takeCheckpoint
  deriving DecidableEq

inductive PRuntimeResponse
  | prepareLifecycle (info : PhactoryInfo)
  | initRuntime
  | loadChainState
  | sync (info : SyncInfo)
  | regularGetInfo (info : PhactoryInfo)
  | prepareRegister
  | getEgressMessages
  | signEndpoints
  | takeCheckpoint (syncedTo : ℕ)

inductive RpcError
  | decodeError (text : Text)
  | serverError (text : Text)
  | rpcError (text : Text)

def RpcError.text : RpcError → Text
  | .decodeError text | .serverError text | .rpcError text => text

inductive WorkerLifecycleState
  | starting
  | synchronizing
  | preparing
  | working
  | hasError (msg : Text)
  | restarting
  | disabled

inductive ComputeManagementStage
  | notStarted
  | register
  | initialScore
  | addToPool
  | startComputing
  | completed
  deriving DecidableEq

inductive WorkerLifecycleCommand
  | shouldForceRegister
  | shouldUpdateEndpoint
  | shouldTakeCheckpoint

inductive Event
  | updateWorker (gatekeeper : Bool)
  | pruntimeRequest (request : PRuntimeRequest)
  | pruntimeResponse (result : Except RpcError PRuntimeResponse)
  | repositoryLoadStateRequest
  | workerLifecycleCommand (command : WorkerLifecycleCommand)
  | updateMessage (message : Text)
  | markError (message : Text)
  | heartbeat (elapsed : Bool)
  | broadcastSync (request : SyncRequest) (info : ChaintipInfo)
  | updatePool (syncOnly : Bool)
  | updatePoolOperator (operator : Option ℕ)
  | requestUpdateSessionInfo (workerInfo : Option (Option ℕ)) (sessionId : Option ℕ)
      (sessionInfo : Option Bool)

structure WorkerContext where
  enabled : Bool
  gatekeeper : Bool
  workerSyncOnly : Bool
  poolSyncOnly : Bool
  operator : Option ℕ
  counters : Counters := {}
  pendingBroadcast : Bool := false
  state : WorkerLifecycleState
  lastMessage : Text := []
  phactoryInfo : Option PhactoryInfo := none
  /-- The initial score, of a worker that is known. -/
  workerInfo : Option (Option ℕ) := none
  sessionId : Option ℕ := none
  /-- Whether the session is beyond `Ready`. -/
  sessionInfo : Option Bool := none
  pruntimeLock : Bool := false
  pendingRequests : List PRuntimeRequest := []
  pruntimeRecentErrorCount : ℕ := 0
  lastWorkerLifecycle : Option WorkerLifecycleState := none
  phactoryInfoRequested : Bool := false
  stopped : Bool := false
  computeManagement : Option ComputeManagementStage := none
  sessionUpdated : Bool := false

namespace WorkerContext

def create (enabled gatekeeper syncOnly : Bool) (poolSyncOnly : Option Bool)
    (operator : Option ℕ) : WorkerContext where
  enabled := enabled
  gatekeeper := gatekeeper
  workerSyncOnly := syncOnly
  poolSyncOnly := poolSyncOnly.getD true
  operator := operator
  state := if enabled then .starting else .disabled

def isRegistered (w : WorkerContext) : Bool :=
  match w.phactoryInfo with
  | some info => info.registered
  | none => false

def isComputing (w : WorkerContext) : Bool := w.sessionInfo.getD false

def isSyncOnly (w : WorkerContext) : Bool := w.workerSyncOnly || w.poolSyncOnly

def isMatch (w : WorkerContext) (manifest : SyncRequestManifest) : Bool :=
  (manifest.headers.all fun range => w.counters.headernum = range.1) &&
    (manifest.paraHeaders.all fun range => w.counters.paraHeadernum = range.1) &&
    (manifest.blocks.all fun range => w.counters.blocknum = range.1)

def isReachedChaintip (w : WorkerContext) (chaintip : ChaintipInfo) : Bool :=
  w.counters.blocknum = w.counters.paraHeadernum ∧ chaintip.relaychain < w.counters.headernum ∧
    chaintip.parachain < w.counters.paraHeadernum

def isComputeManagementNeeded (w : WorkerContext) : Bool :=
  w.computeManagement ≠ some .completed && !w.isSyncOnly

def determinateNextStage (w : WorkerContext) : ComputeManagementStage :=
  if !w.isRegistered then .register
  else if w.gatekeeper then .completed
  else if w.workerInfo.join = none then .initialScore
  else if w.sessionId = none then .addToPool
  else if !w.isComputing then .startComputing
  else .completed

end WorkerContext

def SyncInfo.apply (info : SyncInfo) (c : Counters) : Counters where
  headernum := (info.headernum.map (· + 1)).getD c.headernum
  paraHeadernum := (info.paraHeadernum.map (· + 1)).getD c.paraHeadernum
  blocknum := (info.blocknum.map (· + 1)).getD c.blocknum

structure World where
  worker : WorkerContext
  allowFastSync : Bool
  chaintip : ChaintipInfo
  bus : List Event := []
  /-- The requests that are out. -/
  inFlight : List PRuntimeRequest := []
  /-- The counters that running next-sync tasks were started with. -/
  nextSyncs : List Counters := []
  /-- The number of tasks that look for a chain state. -/
  loadStates : ℕ := 0
  /-- The number of tasks that register the worker. -/
  registers : ℕ := 0
  pruntime : Counters
  /-- Whether synchronization was started, by the response to `PrepareLifecycle`. -/
  started : Bool := false

namespace World

/-! ## Requests -/

def send (w : World) (event : Event) : World := { w with bus := w.bus ++ [event] }

def updateWorkerState (w : World) (state : WorkerLifecycleState) : World :=
  { w with worker.state := state }

def updateWorkerMessage (w : World) (message : Text) : World :=
  { w with worker.lastMessage := message }

def updateWorkerStateAndMessage (w : World) (state : WorkerLifecycleState) (message : Text) :
    World := (w.updateWorkerState state).updateWorkerMessage message

def addPruntimeRequest (w : World) (request : PRuntimeRequest) : World :=
  w.send (.pruntimeRequest request)

def requestNextSync (w : World) : World :=
  { w with nextSyncs := w.nextSyncs ++ [w.worker.counters] }

def executePruntimeRequest (w : World) (request : PRuntimeRequest) : World :=
  { w with
    worker.phactoryInfoRequested := match request with
      | .regularGetInfo => false
      | _ => w.worker.phactoryInfoRequested
    worker.pruntimeLock := true
    inFlight := w.inFlight ++ [request] }

def enqueue (w : World) (request : PRuntimeRequest) : World :=
  if !w.worker.pruntimeLock ∧ w.worker.pendingRequests.isEmpty then w.executePruntimeRequest request
  else { w with worker.pendingRequests := w.worker.pendingRequests ++ [request] }

def setPendingBroadcast (w : World) (pending : Bool) : World :=
  { w with worker.pendingBroadcast := pending }

def handlePruntimeRequest (w : World) (request : PRuntimeRequest) : World :=
  if w.worker.stopped then
    match request with
    | .takeCheckpoint => w.executePruntimeRequest request
    | _ => w
  else match request with
    | .sync syncRequest =>
      if syncRequest.isEmpty then
        if !w.worker.isReachedChaintip w.chaintip then w.requestNextSync
        else w.setPendingBroadcast true
      else if !w.worker.isMatch syncRequest.manifest then w.requestNextSync
      else w.enqueue request
    | _ => w.enqueue request

/-! ## Compute management -/

def setStage (w : World) (stage : ComputeManagementStage) : World :=
  { w with worker.computeManagement := some stage }

def requestStage (w : World) (stage next : ComputeManagementStage) : World :=
  match next with
  | .register =>
    if stage = .register then w
    else w.addPruntimeRequest (.prepareRegister true w.worker.operator false)
  | .completed => w.updateWorkerStateAndMessage .working "Computing Now!".toList
  | _ => w

def requestComputeManagement (w : World) : World :=
  let stage := w.worker.computeManagement.getD .notStarted
  if stage = .completed then w.setStage stage
  else if w.worker.isSyncOnly then w.setStage stage
  else (w.requestStage stage w.worker.determinateNextStage).setStage w.worker.determinateNextStage

/-! ## Responses -/

def requestInit (w : World) (info : PhactoryInfo) : World :=
  let supported := info.supportedAttestationMethods
  if supported.isEmpty ∨ .epid ∈ supported then
    (w.updateWorkerMessage "InitRuntime Starting...".toList).addPruntimeRequest (.initRuntime .epid)
  else if .dcap ∈ supported then
    (w.updateWorkerMessage "InitRuntime Starting...".toList).addPruntimeRequest (.initRuntime .dcap)
  else
    let message := "Supported attestation methods does not include epid or dcap.".toList
    w.updateWorkerStateAndMessage (.hasError message) message

def start (w : World) : World := { w with started := true }

def requestPrepareLifecycle (w : World) (info : PhactoryInfo) : World :=
  if !info.initialized then w.requestInit info
  else if w.allowFastSync ∧ info.canLoadChainState ∧ 1 < w.chaintip.parachain then
    w.send .repositoryLoadStateRequest
  else if w.worker.isReachedChaintip w.chaintip then
    ((w.setPendingBroadcast true).requestComputeManagement.updateWorkerStateAndMessage .preparing
      "Start Preparing...".toList).start
  else
    (w.requestNextSync.updateWorkerStateAndMessage .synchronizing
      "Start Synchronizing...".toList).start

def setCounters (w : World) (counters : Counters) : World := { w with worker.counters := counters }

def setPhactoryInfo (w : World) (info : PhactoryInfo) : World :=
  { w with worker.phactoryInfo := some info }

def requestEgressMessages (w : World) (info : SyncInfo) : World :=
  if w.worker.isRegistered ∧ info.blocknum.isSome ∧
      w.worker.counters.paraHeadernum = w.worker.counters.blocknum then
    w.addPruntimeRequest .getEgressMessages
  else w

def continueSync (w : World) : World :=
  if !w.worker.isReachedChaintip w.chaintip then w.requestNextSync
  else if w.worker.isComputeManagementNeeded then
    (w.setPendingBroadcast true).requestComputeManagement
  else w.setPendingBroadcast true

def handlePruntimeSyncResponse (w : World) (info : SyncInfo) : World :=
  ((w.setCounters (info.apply w.worker.counters)).requestEgressMessages info).continueSync

def checkCounters (w : World) (info : PhactoryInfo) : World :=
  if w.worker.counters ≠ info.counters then
    { w.updateWorkerState (.hasError
        "Need Restart Manually! Worker Info is not matching prb internal status.".toList) with
      worker.stopped := true }
  else w

def handlePruntimeResponse (w : World) (response : PRuntimeResponse) : World :=
  match response with
  | .prepareLifecycle info =>
    ((w.setPhactoryInfo info).setCounters info.counters).requestPrepareLifecycle info
  | .initRuntime =>
    (w.updateWorkerMessage "InitRuntime Completed.".toList).addPruntimeRequest .prepareLifecycle
  | .loadChainState =>
    (w.updateWorkerMessage "LoadChainState Completed.".toList).addPruntimeRequest .prepareLifecycle
  | .sync info => w.handlePruntimeSyncResponse info
  | .regularGetInfo info => (w.checkCounters info).setPhactoryInfo info
  | .prepareRegister =>
    { w.updateWorkerMessage "Register Starting...".toList with registers := w.registers + 1 }
  | .getEgressMessages => w
  | .signEndpoints => w
  | .takeCheckpoint syncedTo =>
    w.updateWorkerMessage ("Checkpoint saved to #".toList ++ (Nat.repr syncedTo).toList ++ ['.'])

def isContinuously : WorkerLifecycleState → Bool
  | .hasError msg => "Continously received".toList.isPrefixOf msg
  | _ => false

def recover (w : World) : World :=
  let count := w.worker.pruntimeRecentErrorCount
  match w.worker.lastWorkerLifecycle with
  | some last =>
    if 3 ≤ count ∧ isContinuously w.worker.state then
      w.updateWorkerStateAndMessage last ("Recovered from RpcError. Previously had error ".toList ++
        (Nat.repr count).toList ++ " times.".toList)
    else w
  | none => w

def clearErrors (w : World) : World :=
  { w with worker.pruntimeRecentErrorCount := 0, worker.lastWorkerLifecycle := none }

def countError (w : World) (err : Text) : World :=
  let count := w.worker.pruntimeRecentErrorCount + 1
  if 3 ≤ count then
    { w with
      worker.pruntimeRecentErrorCount := count
      worker.lastWorkerLifecycle :=
        if isContinuously w.worker.state then w.worker.lastWorkerLifecycle
        else some w.worker.state
      worker.state := .hasError ("Continously received ".toList ++ (Nat.repr count).toList ++
        " RpcError from pRuntime. Last one: ".toList ++ err) }
  else { w with worker.pruntimeRecentErrorCount := count }

def handleError (w : World) (err : RpcError) : World :=
  match err with
  | .decodeError text | .serverError text =>
    w.updateWorkerState (.hasError ("pRuntime returned an error: ".toList ++ text))
  | .rpcError text => w.countError text

def unlock (w : World) : World := { w with worker.pruntimeLock := false }

def executeNext (w : World) : World :=
  match w.worker.pendingRequests with
  | [] => w
  | request :: rest =>
    { w with worker.pendingRequests := rest }.executePruntimeRequest request

def handleResult (w : World) (result : Except RpcError PRuntimeResponse) : World :=
  match result with
  | .ok response => w.unlock.recover.clearErrors.handlePruntimeResponse response
  | .error err => w.unlock.handleError err

/-! ## Events -/

def handleWorkerLifecycleCommand (w : World) : WorkerLifecycleCommand → World
  | .shouldForceRegister =>
    (w.updateWorkerMessage "Requesting ForceRegister...".toList).addPruntimeRequest
      (.prepareRegister true w.worker.operator true)
  | .shouldUpdateEndpoint =>
    (w.updateWorkerMessage "Requesting UpdateEndpoint...".toList).addPruntimeRequest .signEndpoints
  | .shouldTakeCheckpoint =>
    (w.updateWorkerMessage "Requesting TakeCheckpoint...".toList).addPruntimeRequest
      .takeCheckpoint

def handleWorkerEvent (w : World) (event : Event) : World :=
  match event with
  | .updateWorker gatekeeper => { w with worker.gatekeeper := gatekeeper }
  | .pruntimeRequest request => w.handlePruntimeRequest request
  | .pruntimeResponse result => (w.handleResult result).executeNext
  | .repositoryLoadStateRequest =>
    { w.updateWorkerMessage "LoadChainState Starting...".toList with
      loadStates := w.loadStates + 1 }
  | .workerLifecycleCommand command => w.handleWorkerLifecycleCommand command
  | .updateMessage message => w.updateWorkerMessage message
  | .markError message => w.updateWorkerStateAndMessage (.hasError message) message
  | _ => w

def broadcastSync (w : World) (request : SyncRequest) : World :=
  if !w.worker.pendingBroadcast then w
  else if w.worker.isReachedChaintip w.chaintip then
    if w.worker.isMatch request.manifest then
      (w.setPendingBroadcast false).addPruntimeRequest (.sync request)
    else w
  else (w.setPendingBroadcast false).requestNextSync

def updateSessionInfo (w : World) (workerInfo : Option (Option ℕ)) (sessionId : Option ℕ)
    (sessionInfo : Option Bool) : World :=
  if w.worker.isRegistered ∧ workerInfo.isSome then
    { w with
      worker.workerInfo := workerInfo
      worker.sessionId := sessionId
      worker.sessionInfo := sessionId.bind fun _ => sessionInfo
      worker.sessionUpdated := true }
  else w

def handleEvent (w : World) (event : Event) : World :=
  match event with
  | .updatePool syncOnly => { w with worker.poolSyncOnly := syncOnly }
  | .updatePoolOperator operator =>
    if w.worker.operator ≠ operator then
      { w with worker.operator := operator }.addPruntimeRequest
        (.prepareRegister true operator false)
    else w
  | .heartbeat elapsed =>
    if !w.worker.phactoryInfoRequested ∧ elapsed then
      { w with worker.phactoryInfoRequested := true }.addPruntimeRequest .regularGetInfo
    else w
  | .broadcastSync request info => { w.broadcastSync request with chaintip := info }
  | .requestUpdateSessionInfo workerInfo sessionId sessionInfo =>
    w.updateSessionInfo workerInfo sessionId sessionInfo
  | .updateWorker gatekeeper => w.handleWorkerEvent (.updateWorker gatekeeper)
  -- A disabled worker does not take part.
  | event => if w.worker.enabled then w.handleWorkerEvent event else w

/-! ## Steps -/

inductive Answer
  | info (info : PhactoryInfo)
  | counters (counters : Counters)
  | synced (headernum paraHeadernum blocknum : ℕ)
  | done
  | failed (err : RpcError)

def syncInfo (request : SyncRequest) (headernum paraHeadernum blocknum : ℕ) : SyncInfo where
  headernum := if request.headers ∨ request.combinedHeaders then some headernum else none
  paraHeadernum :=
    if request.paraHeaders ∨ request.combinedHeaders then some paraHeadernum else none
  blocknum := if request.blocks then some blocknum else none

def respond (pruntime : Counters) : PRuntimeRequest → Answer → Option (PRuntimeResponse × Counters)
  | .prepareLifecycle, .info info =>
    some (.prepareLifecycle { info with counters := pruntime }, pruntime)
  | .regularGetInfo, .info info =>
    some (.regularGetInfo { info with counters := pruntime }, pruntime)
  | .initRuntime _, .counters counters => some (.initRuntime, counters)
  | .loadChainState, .counters counters => some (.loadChainState, counters)
  | .sync request, .synced headernum paraHeadernum blocknum =>
    let info := syncInfo request headernum paraHeadernum blocknum
    some (.sync info, info.apply pruntime)
  | .prepareRegister .., .done => some (.prepareRegister, pruntime)
  | .getEgressMessages, .done => some (.getEgressMessages, pruntime)
  | .signEndpoints, .done => some (.signEndpoints, pruntime)
  | .takeCheckpoint, .done => some (.takeCheckpoint pruntime.blocknum, pruntime)
  | _, _ => none

def isCritical : PRuntimeRequest → Bool
  | .prepareLifecycle | .initRuntime _ | .loadChainState | .prepareRegister .. => true
  | _ => false

def errorEvents (request : PRuntimeRequest) (err : RpcError) : List Event :=
  let message := "pRuntime returned an error: ".toList ++ err.text
  [if isCritical request then .markError message else .updateMessage message,
    .pruntimeResponse (.error err)]

def answer (w : World) (i : ℕ) (a : Answer) : World :=
  match w.inFlight[i]? with
  | none => w
  | some request =>
    match a with
    | .failed err =>
      { w with
        inFlight := w.inFlight.eraseIdx i
        bus := w.bus ++ errorEvents request err }
    | a =>
      match respond w.pruntime request a with
      | none => w
      | some (response, counters) =>
        { w with
          inFlight := w.inFlight.eraseIdx i
          pruntime := counters
          bus := w.bus ++ [.pruntimeResponse (.ok response)] }

end World

inductive External
  | updateWorker (gatekeeper : Bool)
  | command (command : WorkerLifecycleCommand)
  | updateMessage (message : Text)
  | markError (message : Text)
  | heartbeat (elapsed : Bool)
  | broadcastSync (request : SyncRequest) (info : ChaintipInfo)
  | updatePool (syncOnly : Bool)
  | updatePoolOperator (operator : Option ℕ)
  | requestUpdateSessionInfo (workerInfo : Option (Option ℕ)) (sessionId : Option ℕ)
      (sessionInfo : Option Bool)

def External.event : External → Event
  | .updateWorker gatekeeper => .updateWorker gatekeeper
  | .command c => .workerLifecycleCommand c
  | .updateMessage message => .updateMessage message
  | .markError message => .markError message
  | .heartbeat elapsed => .heartbeat elapsed
  | .broadcastSync request info => .broadcastSync request info
  | .updatePool syncOnly => .updatePool syncOnly
  | .updatePoolOperator operator => .updatePoolOperator operator
  | .requestUpdateSessionInfo workerInfo sessionId sessionInfo =>
    .requestUpdateSessionInfo workerInfo sessionId sessionInfo

inductive Step
  | external (event : External)
  /-- The loop handles the first event of the bus. -/
  | process
  | answer (i : ℕ) (a : World.Answer)
  /-- A next-sync task sends the request it has made. -/
  | nextSync (i : ℕ) (request : SyncRequest)
  | loadState (result : Except Text Unit)
  | register (result : Except Text Unit)

namespace World

def step (w : World) : Step → World
  | .external event => w.send event.event
  | .process =>
    match w.bus with
    | [] => w
    | event :: rest => { w with bus := rest }.handleEvent event
  | .answer i a => w.answer i a
  | .nextSync i request =>
    if i < w.nextSyncs.length then
      { w with nextSyncs := w.nextSyncs.eraseIdx i }.addPruntimeRequest (.sync request)
    else w
  | .loadState result =>
    match w.loadStates, result with
    | 0, _ => w
    | n + 1, .ok _ => { w with loadStates := n }.addPruntimeRequest .loadChainState
    | n + 1, .error message => { w with loadStates := n }.send (.markError message)
  | .register result =>
    match w.registers, result with
    | 0, _ => w
    | n + 1, .ok _ =>
      ({ w with registers := n }.send (.updateMessage "Worker Register Completed.".toList))
        |>.addPruntimeRequest .regularGetInfo
    | n + 1, .error message => { w with registers := n }.send (.markError message)

def new (worker : WorkerContext) (allowFastSync : Bool) (chaintip : ChaintipInfo)
    (pruntime : Counters) (queued : List External) : World :=
  { worker, allowFastSync, chaintip, pruntime, bus := queued.map External.event : World }
    |>.addPruntimeRequest .prepareLifecycle

end World

def Step.run (step : Step) : Proc World Empty Unit := alter fun w => w.step step

end Cyrux.Prb.Processor
