import Mathlib
import Cyrux.Prb.Processor

/-!
# Synchronization is not lost
-/

namespace Cyrux.Prb.Processor

open Proc

/-! ## Tokens -/

def Event.request? : Event → Option PRuntimeRequest
  | .pruntimeRequest request => some request
  | _ => none

def Event.response? : Event → Option (Except RpcError PRuntimeResponse)
  | .pruntimeResponse result => some result
  | _ => none

structure Weight where
  request : PRuntimeRequest → ℕ
  response : PRuntimeResponse → ℕ
  loadState : ℕ

def Weight.event (f : Weight) : Event → ℕ
  | .pruntimeRequest request => f.request request
  | .pruntimeResponse (.ok response) => f.response response
  | .repositoryLoadStateRequest => f.loadState
  | _ => 0

def World.carried (f : Weight) (w : World) : ℕ :=
  (w.bus.map f.event).sum + (w.worker.pendingRequests.map f.request).sum +
    (w.inFlight.map f.request).sum

def lifecycle : Weight where
  request
    | .prepareLifecycle | .initRuntime _ | .loadChainState => 1
    | _ => 0
  response
    | .prepareLifecycle _ | .initRuntime | .loadChainState => 1
    | _ => 0
  loadState := 1

def syncing : Weight where
  request
    | .sync _ => 1
    | _ => 0
  response
    | .sync _ => 1
    | _ => 0
  loadState := 0

namespace World

variable {f : Weight} {w : World}

def lifecycleTokens (w : World) : ℕ := w.carried lifecycle + w.loadStates

def syncTokens (w : World) : ℕ :=
  w.worker.pendingBroadcast.toNat + w.nextSyncs.length + w.carried syncing

@[simp] theorem carried_send (event : Event) :
    (w.send event).carried f = w.carried f + f.event event := by
  unfold carried send
  dsimp only
  rw [List.map_append, List.sum_append, List.map_singleton, List.sum_singleton]
  omega

@[simp] theorem carried_executePruntimeRequest (request : PRuntimeRequest) :
    (w.executePruntimeRequest request).carried f = w.carried f + f.request request := by
  unfold carried executePruntimeRequest
  dsimp only
  rw [List.map_append, List.sum_append, List.map_singleton, List.sum_singleton]
  omega

@[simp] theorem carried_enqueue (request : PRuntimeRequest) :
    (w.enqueue request).carried f = w.carried f + f.request request := by
  unfold enqueue
  split
  · exact carried_executePruntimeRequest request
  · unfold carried
    dsimp only
    rw [List.map_append, List.sum_append, List.map_singleton, List.sum_singleton]
    omega

theorem carried_executeNext : w.executeNext.carried f = w.carried f := by
  unfold executeNext
  split
  · rfl
  · rename_i request rest hpending
    rw [carried_executePruntimeRequest]
    unfold carried
    rw [hpending, List.map_cons, List.sum_cons]
    dsimp only
    omega

theorem carried_cons {event : Event} {rest : List Event} (h : w.bus = event :: rest) :
    w.carried f = { w with bus := rest }.carried f + f.event event := by
  unfold carried
  rw [h, List.map_cons, List.sum_cons]
  dsimp only
  omega

theorem sum_eraseIdx {α : Type} {g : α → ℕ} {l : List α} {i : ℕ} {a : α} (h : l[i]? = some a) :
    (l.map g).sum = ((l.eraseIdx i).map g).sum + g a := by
  induction l generalizing i with
  | nil => cases h
  | cons b l ih =>
    cases i with
    | zero =>
      cases h
      rw [List.eraseIdx_cons_zero, List.map_cons, List.sum_cons]
      omega
    | succ i =>
      rw [List.eraseIdx_cons_succ, List.map_cons, List.map_cons, List.sum_cons, List.sum_cons,
        ih h]
      omega

/-! ## What the handlers do to the tokens -/

structure Brings (l s : ℕ) (w w' : World) : Prop where
  lifecycle_eq : w'.lifecycleTokens = w.lifecycleTokens + l
  syncing_eq : w'.syncTokens = w.syncTokens + s
  started_eq : w'.started = w.started
  stopped_eq : w'.worker.stopped = w.worker.stopped
  enabled_eq : w'.worker.enabled = w.worker.enabled

structure Adds (w w' : World) : Prop where
  bus : ∃ events, w'.bus = w.bus ++ events ∧ ∀ event ∈ events, event.response? = none
  inFlight_eq : w'.inFlight = w.inFlight
  pending_eq : w'.worker.pendingRequests = w.worker.pendingRequests
  lock_eq : w'.worker.pruntimeLock = w.worker.pruntimeLock
  counters_eq : w'.worker.counters = w.worker.counters
  pruntime_eq : w'.pruntime = w.pruntime
  stopped_eq : w'.worker.stopped = w.worker.stopped
  enabled_eq : w'.worker.enabled = w.worker.enabled

structure Passes (l s : ℕ) (w w' : World) : Prop where
  adds : Adds w w'
  brings : Brings l s w w'

variable {w' w'' : World} {l s l' s' : ℕ}

theorem Brings.trans (h : Brings l s w w') (h' : Brings l' s' w' w'') :
    Brings (l + l') (s + s') w w'' := by
  refine ⟨?_, ?_, h'.started_eq.trans h.started_eq, h'.stopped_eq.trans h.stopped_eq,
    h'.enabled_eq.trans h.enabled_eq⟩
  · rw [h'.lifecycle_eq, h.lifecycle_eq, Nat.add_assoc]
  · rw [h'.syncing_eq, h.syncing_eq, Nat.add_assoc]

theorem Brings.after (h : Brings 0 0 w w') (h' : Brings l s w' w'') : Brings l s w w'' := by
  have hboth := h.trans h'
  rwa [Nat.zero_add, Nat.zero_add] at hboth

theorem Adds.of_eq (hbus : w'.bus = w.bus) (hinFlight : w'.inFlight = w.inFlight)
    (hpruntime : w'.pruntime = w.pruntime)
    (hpending : w'.worker.pendingRequests = w.worker.pendingRequests)
    (hlock : w'.worker.pruntimeLock = w.worker.pruntimeLock)
    (hcounters : w'.worker.counters = w.worker.counters)
    (hstopped : w'.worker.stopped = w.worker.stopped)
    (henabled : w'.worker.enabled = w.worker.enabled) : Adds w w' :=
  ⟨⟨[], hbus.trans (List.append_nil _).symm, nofun⟩, hinFlight, hpending, hlock, hcounters,
    hpruntime, hstopped, henabled⟩

theorem Adds.trans (h : Adds w w') (h' : Adds w' w'') : Adds w w'' := by
  obtain ⟨events, hbus, hnone⟩ := h.bus
  obtain ⟨events', hbus', hnone'⟩ := h'.bus
  refine ⟨⟨events ++ events', ?_, ?_⟩, h'.inFlight_eq.trans h.inFlight_eq,
    h'.pending_eq.trans h.pending_eq, h'.lock_eq.trans h.lock_eq,
    h'.counters_eq.trans h.counters_eq, h'.pruntime_eq.trans h.pruntime_eq,
    h'.stopped_eq.trans h.stopped_eq, h'.enabled_eq.trans h.enabled_eq⟩
  · rw [hbus', hbus, List.append_assoc]
  · intro event hevent
    obtain hevent | hevent := List.mem_append.1 hevent
    · exact hnone event hevent
    · exact hnone' event hevent

theorem Passes.trans (h : Passes l s w w') (h' : Passes l' s' w' w'') :
    Passes (l + l') (s + s') w w'' := ⟨h.adds.trans h'.adds, h.brings.trans h'.brings⟩

theorem Passes.after (h : Passes 0 0 w w') (h' : Passes l s w' w'') : Passes l s w w'' :=
  ⟨h.adds.trans h'.adds, h.brings.after h'.brings⟩

def core (w : World) :=
  (w.bus, w.inFlight, w.nextSyncs, w.loadStates, w.pruntime, w.started, w.worker.pendingRequests,
    w.worker.pruntimeLock, w.worker.counters, w.worker.stopped, w.worker.enabled,
    w.worker.pendingBroadcast)

theorem Passes.of_core (h : w'.core = w.core) : Passes 0 0 w w' := by
  simp only [core, Prod.mk.injEq] at h
  obtain ⟨hbus, hout, hnext, hload, hpruntime, hstarted, hpending, hlock, hcounters, hstopped,
    henabled, hbroadcast⟩ := h
  refine ⟨.of_eq hbus hout hpruntime hpending hlock hcounters hstopped henabled, ?_, ?_, hstarted,
    hstopped, henabled⟩
  · unfold lifecycleTokens carried
    rw [hbus, hpending, hout, hload]
    rfl
  · unfold syncTokens carried
    rw [hbus, hpending, hout, hnext, hbroadcast]
    rfl

theorem Passes.refl (w : World) : Passes 0 0 w w := .of_core rfl

theorem Passes.quietly (h : Passes l s w w') (hcore : w''.core = w'.core) : Passes l s w w'' :=
  h.trans (.of_core hcore)

theorem Brings.quietly (h : Brings l s w w') (hcore : w''.core = w'.core) : Brings l s w w'' :=
  h.trans (Passes.of_core hcore).brings

theorem Passes.since (h : Passes l s w' w'') (hcore : w'.core = w.core) : Passes l s w w'' :=
  Passes.after (.of_core hcore) h

theorem passes_send (w : World) (event : Event) (h : event.response? = none) :
    Passes (lifecycle.event event) (syncing.event event) w (w.send event) := by
  refine ⟨⟨⟨[event], rfl, ?_⟩, rfl, rfl, rfl, rfl, rfl, rfl, rfl⟩, ?_, ?_, rfl, rfl, rfl⟩
  · intro _ hmem
    rwa [List.mem_singleton.1 hmem]
  · unfold lifecycleTokens
    rw [carried_send]
    exact Nat.add_right_comm _ _ _
  · unfold syncTokens
    rw [carried_send]
    exact (Nat.add_assoc _ _ _).symm

theorem passes_addPruntimeRequest (w : World) (request : PRuntimeRequest) :
    Passes (lifecycle.request request) (syncing.request request) w (w.addPruntimeRequest request) :=
  passes_send w (.pruntimeRequest request) rfl

theorem passes_updateWorkerMessage (w : World) (message : Text) (request : PRuntimeRequest) :
    Passes (lifecycle.request request) (syncing.request request) w
      ((w.updateWorkerMessage message).addPruntimeRequest request) :=
  (passes_addPruntimeRequest _ request).since rfl

theorem brings_enqueue (w : World) (request : PRuntimeRequest) :
    Brings (lifecycle.request request) (syncing.request request) w (w.enqueue request) := by
  have hrest : (w.enqueue request).worker.pendingBroadcast = w.worker.pendingBroadcast ∧
      (w.enqueue request).nextSyncs = w.nextSyncs ∧ (w.enqueue request).loadStates = w.loadStates ∧
      (w.enqueue request).started = w.started ∧
      (w.enqueue request).worker.stopped = w.worker.stopped ∧
      (w.enqueue request).worker.enabled = w.worker.enabled := by
    unfold enqueue
    split <;> exact ⟨rfl, rfl, rfl, rfl, rfl, rfl⟩
  obtain ⟨hbroadcast, hnext, hload, hstarted, hstopped, henabled⟩ := hrest
  refine ⟨?_, ?_, hstarted, hstopped, henabled⟩
  · unfold lifecycleTokens
    rw [carried_enqueue, hload]
    exact Nat.add_right_comm _ _ _
  · unfold syncTokens
    rw [carried_enqueue, hbroadcast, hnext]
    exact (Nat.add_assoc _ _ _).symm

theorem passes_requestNextSync (w : World) : Passes 0 1 w w.requestNextSync := by
  refine ⟨.of_eq rfl rfl rfl rfl rfl rfl rfl rfl, rfl, ?_, rfl, rfl, rfl⟩
  unfold syncTokens requestNextSync
  dsimp only
  rw [List.length_append, List.length_singleton]
  change _ + (_ + 1) + w.carried syncing = _ + _ + w.carried syncing + 1
  omega

theorem adds_setPendingBroadcast (w : World) (pending : Bool) :
    Adds w (w.setPendingBroadcast pending) := .of_eq rfl rfl rfl rfl rfl rfl rfl rfl

theorem brings_setPendingBroadcast (h : w.worker.pendingBroadcast = false) :
    Brings 0 1 w (w.setPendingBroadcast true) := by
  refine ⟨rfl, ?_, rfl, rfl, rfl⟩
  unfold syncTokens
  rw [h]
  change 1 + w.nextSyncs.length + w.carried syncing = 0 + w.nextSyncs.length + w.carried syncing + 1
  omega

theorem passes_requestComputeManagement (w : World) : Passes 0 0 w w.requestComputeManagement := by
  have hstage : ∀ stage next, Passes 0 0 w (w.requestStage stage next) := by
    intro stage next
    unfold requestStage
    split
    · split
      · exact .refl w
      · exact passes_addPruntimeRequest w (.prepareRegister true w.worker.operator false)
    · exact .of_core rfl
    · exact .refl w
  unfold requestComputeManagement
  dsimp only
  split
  · exact .of_core rfl
  · split
    · exact .of_core rfl
    · exact (hstage _ _).quietly rfl

theorem passes_recover (w : World) : Passes 0 0 w w.recover := by
  unfold recover
  dsimp only
  split
  · split <;> exact .of_core rfl
  · exact .refl w

theorem brings_handleError (w : World) (err : RpcError) : Brings 0 0 w (w.handleError err) := by
  have hcount : ∀ text, Passes 0 0 w (w.countError text) := by
    intro text
    unfold countError
    dsimp only
    split <;> exact .of_core rfl
  cases err with
  | rpcError text => exact (hcount text).brings
  | _ => exact ⟨rfl, rfl, rfl, rfl, rfl⟩

theorem brings_executeNext (w : World) : Brings 0 0 w w.executeNext := by
  have hrest : w.executeNext.worker.pendingBroadcast = w.worker.pendingBroadcast ∧
      w.executeNext.nextSyncs = w.nextSyncs ∧ w.executeNext.loadStates = w.loadStates ∧
      w.executeNext.started = w.started ∧
      w.executeNext.worker.stopped = w.worker.stopped ∧
      w.executeNext.worker.enabled = w.worker.enabled := by
    unfold executeNext
    split <;> exact ⟨rfl, rfl, rfl, rfl, rfl, rfl⟩
  obtain ⟨hbroadcast, hnext, hload, hstarted, hstopped, henabled⟩ := hrest
  refine ⟨?_, ?_, hstarted, hstopped, henabled⟩
  · unfold lifecycleTokens
    rw [carried_executeNext, hload]
    rfl
  · unfold syncTokens
    rw [carried_executeNext, hbroadcast, hnext]
    rfl

theorem pendingBroadcast_of_syncTokens (h : w.syncTokens = 0) :
    w.worker.pendingBroadcast = false := by
  unfold syncTokens at h
  cases hbroadcast : w.worker.pendingBroadcast with
  | false => rfl
  | true =>
    rw [hbroadcast] at h
    change 1 + _ + _ = 0 at h
    omega

theorem passes_broadcastSync (w : World) (request : SyncRequest) :
    Passes 0 0 w (w.broadcastSync request) := by
  -- The token of the broadcast is with the request or the task now.
  have hpassed : ∀ w', w.worker.pendingBroadcast = true →
      Passes 0 1 (w.setPendingBroadcast false) w' → Passes 0 0 w w' := by
    intro w' hbroadcast ⟨hadds, hbrings⟩
    refine ⟨(adds_setPendingBroadcast w false).trans hadds, hbrings.lifecycle_eq, ?_,
      hbrings.started_eq, hbrings.stopped_eq, hbrings.enabled_eq⟩
    rw [hbrings.syncing_eq]
    unfold syncTokens
    rw [hbroadcast]
    change 0 + w.nextSyncs.length + w.carried syncing + 1 =
      1 + w.nextSyncs.length + w.carried syncing
    omega
  unfold broadcastSync
  split
  · exact .refl w
  · rename_i hbroadcast
    have hbroadcast : w.worker.pendingBroadcast = true := by simpa using hbroadcast
    split
    · split
      · exact hpassed _ hbroadcast (passes_addPruntimeRequest _ (.sync request))
      · exact .refl w
    · exact hpassed _ hbroadcast (passes_requestNextSync _)

theorem passes_requestInit (w : World) (info : PhactoryInfo) :
    ∃ l ≤ 1, Passes l 0 w (w.requestInit info) := by
  unfold requestInit
  dsimp only
  split
  · exact ⟨1, Nat.le_refl 1, passes_updateWorkerMessage w _ (.initRuntime .epid)⟩
  · split
    · exact ⟨1, Nat.le_refl 1, passes_updateWorkerMessage w _ (.initRuntime .dcap)⟩
    · exact ⟨0, Nat.zero_le _, .of_core rfl⟩

theorem passes_requestEgressMessages (w : World) (info : SyncInfo) :
    Passes 0 0 w (w.requestEgressMessages info) := by
  unfold requestEgressMessages
  split
  · exact passes_addPruntimeRequest w .getEgressMessages
  · exact .refl w

theorem adds_continueSync (w : World) : Adds w w.continueSync := by
  unfold continueSync
  split
  · exact (passes_requestNextSync w).adds
  · split
    · exact (adds_setPendingBroadcast w true).trans (passes_requestComputeManagement _).adds
    · exact adds_setPendingBroadcast w true

theorem brings_continueSync (h : w.worker.pendingBroadcast = false) :
    Brings 0 1 w w.continueSync := by
  unfold continueSync
  split
  · exact (passes_requestNextSync w).brings
  · split
    · exact (brings_setPendingBroadcast h).trans (passes_requestComputeManagement _).brings
    · exact brings_setPendingBroadcast h

theorem brings_handlePruntimeSyncResponse (h : w.syncTokens = 0) (info : SyncInfo) :
    Brings 0 1 w (w.handlePruntimeSyncResponse info) := by
  have hcounters : Brings 0 0 w (w.setCounters (info.apply w.worker.counters)) :=
    ⟨rfl, rfl, rfl, rfl, rfl⟩
  have hegress := hcounters.after (passes_requestEgressMessages _ info).brings
  refine hegress.after (brings_continueSync (pendingBroadcast_of_syncTokens ?_))
  rw [hegress.syncing_eq, h]

theorem adds_requestPrepareLifecycle (w : World) (info : PhactoryInfo) :
    Adds w (w.requestPrepareLifecycle info) := by
  have hstart : ∀ (w' : World) state message,
      Adds w' (w'.updateWorkerStateAndMessage state message).start :=
    fun _ _ _ => .of_eq rfl rfl rfl rfl rfl rfl rfl rfl
  unfold requestPrepareLifecycle
  split
  · obtain ⟨_, -, h⟩ := passes_requestInit w info
    exact h.adds
  · split
    · exact (passes_send w .repositoryLoadStateRequest rfl).adds
    · split
      · exact ((adds_setPendingBroadcast w true).trans
          (passes_requestComputeManagement _).adds).trans (hstart _ _ _)
      · exact (passes_requestNextSync w).adds.trans (hstart _ _ _)

theorem brings_handlePruntimeRequest (hstopped : w.worker.stopped = false)
    (request : PRuntimeRequest)
    (hbroadcast : syncing.request request = 1 → w.worker.pendingBroadcast = false) :
    Brings (lifecycle.request request) (syncing.request request) w
      (w.handlePruntimeRequest request) := by
  unfold handlePruntimeRequest
  rw [if_neg (Bool.eq_false_iff.1 hstopped)]
  cases request with
  | sync syncRequest =>
    have hwaiting := hbroadcast rfl
    dsimp only
    split
    · split
      · exact (passes_requestNextSync w).brings
      · exact brings_setPendingBroadcast hwaiting
    · split
      · exact (passes_requestNextSync w).brings
      · exact brings_enqueue w _
  | _ => exact brings_enqueue w _

theorem brings_handlePruntimeResponse {response : PRuntimeResponse}
    (hprepared : ∀ info, response ≠ .prepareLifecycle info)
    (hsync : syncing.response response = 1 → w.syncTokens = 0)
    (hrunning : (w.handlePruntimeResponse response).worker.stopped = false) :
    Brings (lifecycle.response response) (syncing.response response) w
      (w.handlePruntimeResponse response) := by
  cases response with
  | prepareLifecycle info => exact absurd rfl (hprepared info)
  | initRuntime => exact (passes_updateWorkerMessage w _ .prepareLifecycle).brings
  | loadChainState => exact (passes_updateWorkerMessage w _ .prepareLifecycle).brings
  | sync info => exact brings_handlePruntimeSyncResponse (hsync rfl) info
  | regularGetInfo info =>
    change ((w.checkCounters info).setPhactoryInfo info).worker.stopped = false at hrunning
    change Brings 0 0 w ((w.checkCounters info).setPhactoryInfo info)
    unfold checkCounters at hrunning ⊢
    split at hrunning
    · cases hrunning
    · rename_i hsame
      rw [if_neg hsame]
      exact ⟨rfl, rfl, rfl, rfl, rfl⟩
  | prepareRegister => exact ⟨rfl, rfl, rfl, rfl, rfl⟩
  | getEgressMessages => exact ⟨rfl, rfl, rfl, rfl, rfl⟩
  | signEndpoints => exact ⟨rfl, rfl, rfl, rfl, rfl⟩
  | takeCheckpoint syncedTo => exact ⟨rfl, rfl, rfl, rfl, rfl⟩

theorem passes_handleEvent (w : World) {event : Event} (hrequest : event.request? = none)
    (hresponse : event.response? = none) :
    ∃ l ≤ lifecycle.event event, Passes l (syncing.event event) w (w.handleEvent event) := by
  have hworker : ∀ {l}, l ≤ lifecycle.event event → syncing.event event = 0 →
      Passes l 0 w (w.handleWorkerEvent event) → ∃ l ≤ lifecycle.event event,
        Passes l 0 w (if w.worker.enabled then w.handleWorkerEvent event else w) := by
    intro l hle _ h
    split
    · exact ⟨l, hle, h⟩
    · exact ⟨0, Nat.zero_le _, .refl w⟩
  cases event with
  | pruntimeRequest request => cases hrequest
  | pruntimeResponse result => cases hresponse
  | updatePool syncOnly => exact ⟨0, Nat.le_refl 0, .of_core rfl⟩
  | updateWorker gatekeeper => exact ⟨0, Nat.le_refl 0, .of_core rfl⟩
  | updatePoolOperator operator =>
    refine ⟨0, Nat.le_refl 0, ?_⟩
    unfold handleEvent
    dsimp only
    split
    · exact (passes_addPruntimeRequest _ (.prepareRegister true operator false)).since rfl
    · exact .refl w
  | heartbeat elapsed =>
    refine ⟨0, Nat.le_refl 0, ?_⟩
    unfold handleEvent
    dsimp only
    split
    · exact (passes_addPruntimeRequest _ .regularGetInfo).since rfl
    · exact .refl w
  | broadcastSync request info =>
    exact ⟨0, Nat.le_refl 0, (passes_broadcastSync w request).quietly rfl⟩
  | requestUpdateSessionInfo workerInfo sessionId sessionInfo =>
    refine ⟨0, Nat.le_refl 0, ?_⟩
    unfold handleEvent updateSessionInfo
    dsimp only
    split <;> exact .of_core rfl
  | repositoryLoadStateRequest =>
    exact hworker (Nat.le_refl 1) rfl ⟨.of_eq rfl rfl rfl rfl rfl rfl rfl rfl,
      (Nat.add_assoc _ _ _).symm, rfl, rfl, rfl, rfl⟩
  | workerLifecycleCommand command =>
    apply hworker (Nat.le_refl 0) rfl
    cases command with
    | shouldForceRegister =>
      exact passes_updateWorkerMessage w _ (.prepareRegister true w.worker.operator true)
    | shouldUpdateEndpoint => exact passes_updateWorkerMessage w _ .signEndpoints
    | shouldTakeCheckpoint => exact passes_updateWorkerMessage w _ .takeCheckpoint
  | updateMessage message => exact hworker (Nat.le_refl 0) rfl (.of_core rfl)
  | markError message => exact hworker (Nat.le_refl 0) rfl (.of_core rfl)

theorem response?_event (event : External) : event.event.response? = none := by
  cases event <;> rfl

theorem passes_register (w : World) (result : Except Text Unit) :
    Passes 0 0 w (w.step (.register result)) := by
  unfold World.step
  dsimp only
  split
  · exact .refl w
  · rename_i n _ _
    exact ((passes_send { w with registers := n } (.updateMessage _) rfl).trans
      (passes_addPruntimeRequest _ .regularGetInfo)).since rfl
  · rename_i n message _
    exact (passes_send { w with registers := n } (.markError message) rfl).since rfl

theorem adds_step (w : World) {step : Step} (hprocess : step ≠ .process)
    (hanswer : ∀ i a, step ≠ .answer i a) : Adds w (w.step step) := by
  cases step with
  | external event =>
    exact (passes_send w _ (response?_event event)).adds
  | process => exact (hprocess rfl).elim
  | answer i a => exact (hanswer i a rfl).elim
  | nextSync i request =>
    have htask : Adds w { w with nextSyncs := w.nextSyncs.eraseIdx i } :=
      .of_eq rfl rfl rfl rfl rfl rfl rfl rfl
    unfold World.step
    dsimp only
    split
    · exact htask.trans (passes_addPruntimeRequest _ _).adds
    · exact (Passes.refl w).adds
  | loadState result =>
    have htask : ∀ n, Adds w { w with loadStates := n } := fun _ =>
      .of_eq rfl rfl rfl rfl rfl rfl rfl rfl
    unfold World.step
    dsimp only
    split
    · exact (Passes.refl w).adds
    · exact (htask _).trans (passes_addPruntimeRequest _ _).adds
    · exact (htask _).trans (passes_send _ (.markError _) rfl).adds
  | register result => exact (passes_register w result).adds

/-! ## Stopped workers stay stopped -/

theorem Adds.stopped (hadds : Adds w w') (h : w.worker.stopped = true) :
    w'.worker.stopped = true := hadds.stopped_eq.trans h

theorem stopped_handlePruntimeResponse (h : w.worker.stopped = true)
    (response : PRuntimeResponse) : (w.handlePruntimeResponse response).worker.stopped = true := by
  cases response with
  | prepareLifecycle info => exact (adds_requestPrepareLifecycle _ info).stopped h
  | sync info =>
    exact ((passes_requestEgressMessages _ info).adds.trans (adds_continueSync _)).stopped h
  | regularGetInfo info =>
    change ((w.checkCounters info).setPhactoryInfo info).worker.stopped = true
    unfold checkCounters
    split
    · rfl
    · exact h
  | _ => exact h

theorem stopped_handleResult (h : w.worker.stopped = true)
    (result : Except RpcError PRuntimeResponse) :
    (w.handleResult result).worker.stopped = true := by
  cases result with
  | ok response =>
    apply stopped_handlePruntimeResponse
    exact (passes_recover w.unlock).adds.stopped h
  | error err => exact (brings_handleError w.unlock err).stopped_eq.trans h

theorem stopped_handleEvent (h : w.worker.stopped = true) (event : Event) :
    (w.handleEvent event).worker.stopped = true := by
  cases hrequest : event.request? with
  | some request =>
    cases event <;> cases hrequest
    unfold handleEvent handleWorkerEvent handlePruntimeRequest
    dsimp only
    split
    · split <;> exact h
    · exact h
  | none =>
    cases hresponse : event.response? with
    | some result =>
      cases event <;> cases hresponse
      unfold handleEvent
      dsimp only
      split
      · exact (brings_executeNext _).stopped_eq.trans (stopped_handleResult h result)
      · exact h
    | none =>
      obtain ⟨_, -, hpasses⟩ := passes_handleEvent w hrequest hresponse
      exact hpasses.adds.stopped h

theorem stopped_step (h : w.worker.stopped = true) (step : Step) :
    (w.step step).worker.stopped = true := by
  cases step with
  | process =>
    unfold World.step
    dsimp only
    split
    · exact h
    · rename_i event rest _
      exact stopped_handleEvent (w := { w with bus := rest }) h event
  | answer i a =>
    unfold World.step answer
    dsimp only
    split
    · exact h
    · split
      · exact h
      · split <;> exact h
  | _ => exact Adds.stopped (adds_step w nofun nofun) h

/-! ## The balance -/

structure Balanced (w : World) : Prop where
  before : w.started = false → w.syncTokens = 0 ∧ w.lifecycleTokens ≤ 1
  after : w.started = true →
    w.lifecycleTokens = 0 ∧ w.syncTokens = 1 ∧ w.worker.enabled = true

theorem Balanced.of_brings {v : World} (h : w.Balanced) (hstarted : v.started = w.started)
    (hl : w.lifecycleTokens = v.lifecycleTokens + l) (hs : w.syncTokens = v.syncTokens + s)
    (henabled : v.worker.enabled = w.worker.enabled) (hw' : Brings l' s v w') (hle : l' ≤ l) :
    w'.Balanced := by
  constructor
  · intro hbefore
    rw [hw'.started_eq, hstarted] at hbefore
    have hold := h.before hbefore
    rw [hw'.lifecycle_eq, hw'.syncing_eq]
    omega
  · intro hafter
    rw [hw'.started_eq, hstarted] at hafter
    obtain ⟨hold, hold', henabled'⟩ := h.after hafter
    rw [hw'.lifecycle_eq, hw'.syncing_eq, hw'.enabled_eq, henabled]
    exact ⟨by omega, by omega, henabled'⟩

theorem Balanced.brings (h : w.Balanced) (hw' : Brings 0 0 w w') : w'.Balanced :=
  h.of_brings rfl rfl rfl rfl hw' (Nat.le_refl 0)

theorem Balanced.syncTokens_le (h : w.Balanced) : w.syncTokens ≤ 1 := by
  cases hstarted : w.started with
  | false => rw [(h.before hstarted).1]; exact Nat.zero_le 1
  | true => exact Nat.le_of_eq (h.after hstarted).2.1

theorem balanced_start (hl : w.lifecycleTokens = 0) (hs : w.syncTokens = 0)
    (henabled : w.worker.enabled = true) (h : Brings 0 1 w w') : w'.start.Balanced := by
  constructor
  · nofun
  · intro _
    change w'.lifecycleTokens = 0 ∧ w'.syncTokens = 1 ∧ w'.worker.enabled = true
    rw [h.lifecycle_eq, h.syncing_eq, h.enabled_eq, hl, hs]
    exact ⟨rfl, rfl, henabled⟩

theorem balanced_requestPrepareLifecycle (hl : w.lifecycleTokens = 0) (hs : w.syncTokens = 0)
    (hstarted : w.started = false) (henabled : w.worker.enabled = true) (info : PhactoryInfo) :
    (w.requestPrepareLifecycle info).Balanced := by
  have hbefore : ∀ l w', l ≤ 1 → Brings l 0 w w' → w'.Balanced := by
    intro l w' hle h
    constructor
    · rw [h.syncing_eq, h.lifecycle_eq, hs, hl]
      omega
    · intro hafter
      rw [h.started_eq, hstarted] at hafter
      cases hafter
  unfold requestPrepareLifecycle
  split
  · obtain ⟨l, hle, h⟩ := passes_requestInit w info
    exact hbefore l _ hle h.brings
  · split
    · exact hbefore 1 _ (Nat.le_refl 1) (passes_send w .repositoryLoadStateRequest rfl).brings
    · split
      · apply balanced_start hl hs henabled
        exact ((brings_setPendingBroadcast (pendingBroadcast_of_syncTokens hs)).trans
          (passes_requestComputeManagement _).brings).quietly rfl
      · apply balanced_start hl hs henabled
        exact (passes_requestNextSync w).brings.quietly rfl

/-! ## Every step keeps the balance -/

theorem tokens_cons {event : Event} {rest : List Event} (h : w.bus = event :: rest) :
    w.lifecycleTokens = { w with bus := rest }.lifecycleTokens + lifecycle.event event ∧
      w.syncTokens = { w with bus := rest }.syncTokens + syncing.event event := by
  have hl := carried_cons (f := lifecycle) h
  have hs := carried_cons (f := syncing) h
  unfold lifecycleTokens syncTokens
  dsimp only at hl hs ⊢
  omega

theorem Balanced.handleResult {w₀ : World} (h : w.Balanced) (hstarted : w₀.started = w.started)
    (henabled : w₀.worker.enabled = w.worker.enabled) (hon : w.worker.enabled = true)
    {result : Except RpcError PRuntimeResponse}
    (hl : w.lifecycleTokens = w₀.lifecycleTokens + lifecycle.event (.pruntimeResponse result))
    (hs : w.syncTokens = w₀.syncTokens + syncing.event (.pruntimeResponse result))
    (hrunning : (w₀.handleResult result).worker.stopped = false) :
    (w₀.handleResult result).Balanced := by
  have hunlock : Brings 0 0 w₀ w₀.unlock := ⟨rfl, rfl, rfl, rfl, rfl⟩
  cases result with
  | error err =>
    exact h.of_brings hstarted hl hs henabled (hunlock.after (brings_handleError _ err))
      (Nat.le_refl 0)
  | ok response =>
    have hquiet : Brings 0 0 w₀ w₀.unlock.recover.clearErrors :=
      (hunlock.after (passes_recover _).brings).quietly rfl
    by_cases hprepared : ∃ info, response = .prepareLifecycle info
    · -- The token of the preparation becomes that of the synchronization.
      obtain ⟨info, rfl⟩ := hprepared
      change w.lifecycleTokens = w₀.lifecycleTokens + 1 at hl
      have hnot : w.started = false := by
        cases hst : w.started with
        | false => rfl
        | true =>
          have hafter := h.after hst
          omega
      have hbefore := h.before hnot
      change (((w₀.unlock.recover.clearErrors).setPhactoryInfo info).setCounters
        info.counters).requestPrepareLifecycle info |>.Balanced
      apply balanced_requestPrepareLifecycle
      · change w₀.unlock.recover.clearErrors.lifecycleTokens = 0
        rw [hquiet.lifecycle_eq]
        omega
      · change w₀.unlock.recover.clearErrors.syncTokens = 0
        rw [hquiet.syncing_eq]
        omega
      · exact hquiet.started_eq.trans (hstarted.trans hnot)
      · exact hquiet.enabled_eq.trans (henabled.trans hon)
    · refine h.of_brings hstarted hl hs henabled (hquiet.after
        (brings_handlePruntimeResponse (fun info heq => hprepared ⟨info, heq⟩) ?_ hrunning))
        (Nat.le_refl _)
      change w.syncTokens = w₀.syncTokens + syncing.response response at hs
      have hle := h.syncTokens_le
      rw [hquiet.syncing_eq]
      omega

theorem Balanced.handleWorkerEvent {w₀ : World} (h : w.Balanced) (hstarted : w₀.started = w.started)
    (henabled : w₀.worker.enabled = w.worker.enabled) (hon : w.worker.enabled = true)
    {event : Event} (hl : w.lifecycleTokens = w₀.lifecycleTokens + lifecycle.event event)
    (hs : w.syncTokens = w₀.syncTokens + syncing.event event)
    (hcarries : event.request? ≠ none ∨ event.response? ≠ none)
    (hrunning : w₀.worker.stopped = false)
    (hrunning' : (w₀.handleWorkerEvent event).worker.stopped = false) :
    (w₀.handleWorkerEvent event).Balanced := by
  cases event with
  | pruntimeRequest request =>
    apply h.of_brings hstarted hl hs henabled (brings_handlePruntimeRequest hrunning request _)
      (Nat.le_refl _)
    intro hsync
    change w.syncTokens = w₀.syncTokens + syncing.request request at hs
    have hle := h.syncTokens_le
    apply pendingBroadcast_of_syncTokens
    omega
  | pruntimeResponse result =>
    have hstopped : (w₀.handleResult result).worker.stopped = false :=
      (brings_executeNext _).stopped_eq.symm.trans hrunning'
    exact (h.handleResult hstarted henabled hon hl hs hstopped).brings (brings_executeNext _)
  | _ => exact (hcarries.elim (· rfl) (· rfl)).elim

theorem Balanced.handleEvent {event : Event} {rest : List Event} (h : w.Balanced)
    (hbus : w.bus = event :: rest) (hrunning : w.worker.stopped = false)
    (hrunning' : ({ w with bus := rest }.handleEvent event).worker.stopped = false) :
    ({ w with bus := rest }.handleEvent event).Balanced := by
  obtain ⟨hl, hs⟩ := tokens_cons hbus
  generalize hw₀ : ({ w with bus := rest } : World) = w₀ at *
  have hstarted : w₀.started = w.started := by rw [← hw₀]
  have henabled : w₀.worker.enabled = w.worker.enabled := by rw [← hw₀]
  have hstopped : w₀.worker.stopped = false := by rw [← hw₀]; exact hrunning
  by_cases hother : event.request? = none ∧ event.response? = none
  · obtain ⟨l, hle, hpasses⟩ := passes_handleEvent w₀ hother.1 hother.2
    exact h.of_brings hstarted hl hs henabled hpasses.brings hle
  · have hcarries := not_and_or.1 hother
    have hhandled : w₀.handleEvent event =
        if w₀.worker.enabled then w₀.handleWorkerEvent event else w₀ := by
      cases event <;> first | rfl | exact (hcarries.elim (· rfl) (· rfl)).elim
    rw [hhandled] at hrunning' ⊢
    split at hrunning'
    · rename_i hon
      rw [if_pos hon]
      exact h.handleWorkerEvent hstarted henabled (henabled.symm.trans hon) hl hs hcarries hstopped
        hrunning'
    · -- A worker that is not enabled has not been started, so the event has no token to lose.
      rename_i hoff
      rw [if_neg hoff]
      have hnot : w.started = false := by
        cases hst : w.started with
        | false => rfl
        | true =>
          obtain ⟨-, -, hon⟩ := h.after hst
          exact absurd (henabled.trans hon) hoff
      have hbefore := h.before hnot
      constructor
      · omega
      · intro hafter
        rw [hstarted, hnot] at hafter
        cases hafter

theorem respond_tokens {request : PRuntimeRequest} {a : Answer} {pruntime pruntime' : Counters}
    {response : PRuntimeResponse}
    (h : respond pruntime request a = some (response, pruntime')) :
    lifecycle.response response = lifecycle.request request ∧
      syncing.response response = syncing.request request := by
  unfold respond at h
  split at h <;> cases h <;> exact ⟨rfl, rfl⟩

end World

def Step.SyncAnswered (w : World) : Step → Prop
  | .answer i (.failed _) => ∀ request ∈ w.inFlight[i]?, syncing.request request = 0
  | _ => True

namespace World

variable {f : Weight} {w : World}

theorem carried_answer {i : ℕ} {request : PRuntimeRequest} (events : List Event)
    (pruntime : Counters) (hi : w.inFlight[i]? = some request) :
    World.carried f
        { w with
          inFlight := w.inFlight.eraseIdx i
          pruntime := pruntime
          bus := w.bus ++ events } + f.request request =
      w.carried f + (events.map f.event).sum := by
  unfold carried
  dsimp only
  rw [List.map_append, List.sum_append, sum_eraseIdx hi]
  omega

theorem Balanced.answer (h : w.Balanced) {i : ℕ} {a : Answer}
    (hanswered : (Step.answer i a).SyncAnswered w) : (w.answer i a).Balanced := by
  unfold World.answer
  cases hi : w.inFlight[i]? with
  | none => exact h
  | some request =>
    dsimp only
    have hbalanced : ∀ events pruntime,
        (events.map lifecycle.event).sum ≤ lifecycle.request request →
        (events.map syncing.event).sum = syncing.request request →
        Balanced
          { w with
            inFlight := w.inFlight.eraseIdx i
            pruntime := pruntime
            bus := w.bus ++ events } := by
      intro events pruntime hl hs
      have hlifecycle := carried_answer (f := lifecycle) events pruntime hi
      have hsyncing := carried_answer (f := syncing) events pruntime hi
      constructor
      · intro hnot
        have hbefore := h.before hnot
        unfold syncTokens lifecycleTokens at hbefore ⊢
        dsimp only
        omega
      · intro hst
        obtain ⟨hl', hs', hon⟩ := h.after hst
        refine ⟨?_, ?_, hon⟩
        · unfold lifecycleTokens at hl' ⊢
          dsimp only
          omega
        · unfold syncTokens at hs' ⊢
          dsimp only
          omega
    split
    · have hsync := hanswered request (Option.mem_def.2 hi)
      apply hbalanced
      · unfold errorEvents
        split
        · exact Nat.zero_le _
        · exact Nat.zero_le _
      · rw [hsync]
        unfold errorEvents
        split
        · rfl
        · rfl
    · split
      · exact h
      · rename_i response pruntime hrespond
        obtain ⟨hl, hs⟩ := respond_tokens hrespond
        apply hbalanced
        · exact Nat.le_of_eq hl
        · exact hs

theorem event_tokens (f : Weight) (event : External) : f.event event.event = 0 := by
  cases event <;> rfl

theorem Balanced.step (h : w.Balanced) {step : Step} (hanswered : step.SyncAnswered w)
    (hrunning : w.worker.stopped = false) (hrunning' : (w.step step).worker.stopped = false) :
    (w.step step).Balanced := by
  cases step with
  | external event =>
    have hsend := passes_send w _ (response?_event event)
    rw [event_tokens, event_tokens] at hsend
    exact h.brings hsend.brings
  | process =>
    unfold World.step at hrunning' ⊢
    dsimp only at hrunning' ⊢
    split
    · exact h
    · rename_i event rest hbus
      rw [hbus] at hrunning'
      exact h.handleEvent hbus hrunning hrunning'
  | answer i a => exact h.answer hanswered
  | nextSync i request =>
    unfold World.step
    dsimp only
    split
    · rename_i hi
      -- The token of the task is with its request now.
      have htoken : w.syncTokens =
          { w with nextSyncs := w.nextSyncs.eraseIdx i }.syncTokens + 1 := by
        unfold syncTokens carried
        dsimp only
        rw [List.length_eraseIdx_of_lt hi]
        omega
      exact h.of_brings (v := { w with nextSyncs := w.nextSyncs.eraseIdx i }) rfl rfl htoken rfl
        (passes_addPruntimeRequest _ (.sync request)).brings (Nat.le_refl 0)
    · exact h
  | loadState result =>
    have htoken : ∀ n, w.loadStates = n + 1 →
        w.lifecycleTokens = { w with loadStates := n }.lifecycleTokens + 1 := by
      intro n hn
      unfold lifecycleTokens carried
      dsimp only
      omega
    unfold World.step
    dsimp only
    split
    · exact h
    · rename_i n _ hn
      exact h.of_brings (v := { w with loadStates := n }) rfl (htoken n hn) rfl rfl
        (passes_addPruntimeRequest _ .loadChainState).brings (Nat.le_refl 1)
    · rename_i n message hn
      exact h.of_brings (v := { w with loadStates := n }) rfl (htoken n hn) rfl rfl
        (passes_send _ (.markError message) rfl).brings (Nat.zero_le 1)
  | register result => exact h.brings (passes_register w result).brings

theorem balanced_new (enabled gatekeeper syncOnly : Bool) (poolSyncOnly : Option Bool)
    (operator : Option ℕ) (allowFastSync : Bool) (chaintip : ChaintipInfo) (pruntime : Counters)
    (queued : List External) :
    (World.new (.create enabled gatekeeper syncOnly poolSyncOnly operator) allowFastSync chaintip
      pruntime queued).Balanced := by
  have hnone : ∀ f : Weight, ((queued.map External.event).map f.event).sum = 0 := by
    intro f
    apply List.sum_eq_zero
    intro n hn
    rw [List.map_map] at hn
    obtain ⟨event, -, rfl⟩ := List.mem_map.1 hn
    exact event_tokens f event
  constructor
  · intro _
    unfold World.new addPruntimeRequest syncTokens lifecycleTokens
    rw [carried_send, carried_send]
    unfold carried
    rw [hnone, hnone]
    exact ⟨rfl, Nat.le_refl 1⟩
  · exact nofun

end World

instance (w : World) (step : Step) : Decidable (step.SyncAnswered w) :=
  match step with
  | .answer i (.failed _) =>
    inferInstanceAs (Decidable (∀ request ∈ w.inFlight[i]?, syncing.request request = 0))
  | .answer _ (.info _) | .answer _ (.counters _) | .answer _ (.synced ..) | .answer _ .done
  | .external _ | .process | .nextSync .. | .loadState _ | .register _ =>
    inferInstanceAs (Decidable True)

/-- A worker that is not stopped goes on with synchronization. -/
theorem sync_not_lost (enabled gatekeeper syncOnly : Bool) (poolSyncOnly : Option Bool)
    (operator : Option ℕ) (allowFastSync : Bool) (chaintip : ChaintipInfo) (pruntime : Counters)
    (queued : List External) (steps : List Step) :
    let w := World.new (.create enabled gatekeeper syncOnly poolSyncOnly operator) allowFastSync
      chaintip pruntime queued
    Throughout Step.run Step.SyncAnswered w steps →
      (afterCalls Step.run w steps).started = true →
      (afterCalls Step.run w steps).worker.stopped = false →
      (afterCalls Step.run w steps).syncTokens = 1 := by
  intro w hanswered hstarted hrunning
  have hkept : ∀ w : World, ∀ step : Step, (w.worker.stopped = false → w.Balanced) →
      step.SyncAnswered w → (w.step step).worker.stopped = false → (w.step step).Balanced := by
    intro w step hw hstep hrunning'
    have hrunning : w.worker.stopped = false := by
      cases hstopped : w.worker.stopped with
      | false => rfl
      | true =>
        rw [World.stopped_step hstopped step] at hrunning'
        cases hrunning'
    exact (hw hrunning).step hstep hrunning hrunning'
  have hbalanced : (afterCalls Step.run w steps).worker.stopped = false →
      (afterCalls Step.run w steps).Balanced :=
    Runs.afterCalls (I := fun w => w.worker.stopped = false → w.Balanced) hkept
      (fun _ => World.balanced_new _ _ _ _ _ _ _ _ _) hanswered
  exact ((hbalanced hrunning).after hstarted).2.1

theorem sync_not_lost_once :
    let info : PhactoryInfo := {
      counters := {}, initialized := true, registered := false, canLoadChainState := false,
      supportedAttestationMethods := [] }
    let request : SyncRequest := { headers := true, manifest := { headers := some (1, 5) } }
    let steps : List Step := [.process, .answer 0 (.info info), .process, .nextSync 0 request,
      .external (.command .shouldUpdateEndpoint), .process, .process, .answer 0 (.synced 5 0 0),
      .process, .process, .answer 0 (.failed (.serverError [])), .process, .process]
    let w := World.new (.create true false true none none) false ⟨10, 10⟩ ⟨1, 0, 0⟩ []
    (afterCalls Step.run w steps).worker.counters.headernum = 6 ∧
      (afterCalls Step.run w steps).syncTokens = 1 := by
  intro info request steps w
  refine ⟨by decide +kernel, ?_⟩
  apply sync_not_lost
  · decide +kernel
  · decide +kernel
  · decide +kernel

theorem sync_lost_on_error :
    let info : PhactoryInfo := {
      counters := {}, initialized := true, registered := false, canLoadChainState := false,
      supportedAttestationMethods := [] }
    let request : SyncRequest := { headers := true, manifest := { headers := some (1, 5) } }
    let steps : List Step := [.process, .answer 0 (.info info), .process, .nextSync 0 request,
      .process, .answer 0 (.failed (.serverError [])), .process, .process]
    let w := afterCalls Step.run
      (World.new (.create true false true none none) false ⟨10, 10⟩ ⟨1, 0, 0⟩ []) steps
    w.started = true ∧ w.worker.enabled = true ∧ w.worker.stopped = false ∧ w.syncTokens = 0 ∧
      w.bus.length = 0 := by
  decide +kernel

end Cyrux.Prb.Processor
