import Cyrux.Prb.SyncToken
import Mathlib.Algebra.Order.BigOperators.Group.List
import Mathlib.Algebra.Order.Group.Nat

/-!
# A healthy worker is not stopped
-/

namespace Cyrux.Prb.Processor

open Proc

/-! ## Requests in the order of their execution -/

def Refreshing : List PRuntimeRequest → Prop
  | [] => False
  | .prepareLifecycle :: _ => True
  | .regularGetInfo :: _ => False
  | _ :: rest => Refreshing rest

section Refreshing

variable {a b : List PRuntimeRequest}

theorem Refreshing.append (h : Refreshing a) (b : List PRuntimeRequest) : Refreshing (a ++ b) := by
  induction a with
  | nil => exact h.elim
  | cons request a ih => cases request <;> first | exact ih h | exact h

theorem Refreshing.mem (h : Refreshing a) : .prepareLifecycle ∈ a := by
  induction a with
  | nil => exact h.elim
  | cons request a ih =>
    cases request <;> first
      | exact List.mem_cons_of_mem _ (ih h)
      | exact List.mem_cons_self
      | exact h.elim

theorem Refreshing.of_cons {request : PRuntimeRequest} (h : Refreshing (request :: a))
    (hne : request ≠ .prepareLifecycle) : Refreshing a := by
  cases request <;> first | exact h | exact h.elim | exact (hne rfl).elim

theorem Refreshing.of_append_cons {request : SyncRequest}
    (h : Refreshing (a ++ .sync request :: b)) : Refreshing (a ++ b) := by
  induction a with
  | nil => exact h
  | cons other a ih => cases other <;> first | exact ih h | exact h

theorem refreshing_of_forall (h : ∀ request ∈ a, request ≠ .regularGetInfo) :
    Refreshing (a ++ [.prepareLifecycle]) := by
  induction a with
  | nil => trivial
  | cons request a ih =>
    have hrest := ih fun other hother => h other (List.mem_cons_of_mem _ hother)
    have hne := h request List.mem_cons_self
    cases request <;> first | exact hrest | trivial

end Refreshing

namespace World

variable {w w' w'' : World}

def responses (w : World) : List (Except RpcError PRuntimeResponse) :=
  w.bus.filterMap Event.response?

def requests (w : World) : List PRuntimeRequest :=
  w.inFlight ++ w.worker.pendingRequests ++ w.bus.filterMap Event.request?

theorem request_le_carried (f : Weight) {request : PRuntimeRequest} (h : request ∈ w.requests) :
    f.request request ≤ w.carried f := by
  have hle : ∀ l : List PRuntimeRequest, request ∈ l →
      f.request request ≤ (l.map f.request).sum := fun l hl =>
    List.single_le_sum (fun _ _ => Nat.zero_le _) _ (List.mem_map_of_mem hl)
  unfold carried
  obtain hwaiting | hbus := List.mem_append.1 h
  · obtain hout | hpending := List.mem_append.1 hwaiting
    · have := hle _ hout
      omega
    · have := hle _ hpending
      omega
  · obtain ⟨event, hevent, hrequest⟩ := List.mem_filterMap.1 hbus
    have hsum : f.event event ≤ (w.bus.map f.event).sum :=
      List.single_le_sum (fun _ _ => Nat.zero_le _) _ (List.mem_map_of_mem hevent)
    have heq : f.event event = f.request request := by
      cases event <;> cases hrequest
      rfl
    omega

theorem Balanced.not_both (h : w.Balanced) {request : SyncRequest}
    (hsync : .sync request ∈ w.requests) : .prepareLifecycle ∉ w.requests := by
  intro hprepare
  have hs := request_le_carried syncing hsync
  have hl := request_le_carried lifecycle hprepare
  have hs' : 1 ≤ w.syncTokens := hs.trans (Nat.le_add_left _ _)
  have hl' : 1 ≤ w.lifecycleTokens := hl.trans (Nat.le_add_right _ _)
  cases hstarted : w.started with
  | false =>
    have hbefore := h.before hstarted
    omega
  | true =>
    have hafter := h.after hstarted
    omega

/-! ## Handlers that only add events -/

theorem Adds.responses_eq (h : Adds w w') : w'.responses = w.responses := by
  obtain ⟨events, hbus, hnone⟩ := h.bus
  unfold responses
  rw [hbus, List.filterMap_append, List.filterMap_eq_nil_iff.2 hnone, List.append_nil]

theorem Adds.requests_eq (h : Adds w w') : ∃ more, w'.requests = w.requests ++ more := by
  obtain ⟨events, hbus, -⟩ := h.bus
  refine ⟨events.filterMap Event.request?, ?_⟩
  unfold requests
  rw [h.inFlight_eq, h.pending_eq, hbus, List.filterMap_append, List.append_assoc _ _ (_ ++ _),
    List.append_assoc, List.append_assoc]

theorem requests_addPruntimeRequest (w : World) (request : PRuntimeRequest) :
    (w.addPruntimeRequest request).requests = w.requests ++ [request] := by
  unfold requests addPruntimeRequest send
  rw [List.filterMap_append, ← List.append_assoc]
  rfl

theorem requests_recover (w : World) : w.recover.requests = w.requests := by
  unfold recover
  dsimp only
  split
  · split
    · rfl
    · rfl
  · rfl

/-! ## Healthy workers -/

def UpToDate (w : World) : Prop :=
  w.worker.counters = w.pruntime ∨ Refreshing w.requests

theorem UpToDate.adds (h : w.UpToDate) (hadds : Adds w w') : w'.UpToDate := by
  obtain hsame | hrefreshing := h
  · exact Or.inl (hadds.counters_eq.trans (hsame.trans hadds.pruntime_eq.symm))
  · obtain ⟨more, hmore⟩ := hadds.requests_eq
    refine Or.inr ?_
    rw [hmore]
    exact hrefreshing.append more

def Answers (w : World) : Except RpcError PRuntimeResponse → Prop
  | .error _ => False
  | .ok (.prepareLifecycle info) => info.counters = w.pruntime
  | .ok .initRuntime | .ok .loadChainState => True
  | .ok (.sync info) => info.apply w.worker.counters = w.pruntime
  | .ok (.regularGetInfo info) => info.counters = w.pruntime ∧ w.worker.counters = w.pruntime
  | .ok _ => w.UpToDate

theorem Answers.mono {result : Except RpcError PRuntimeResponse} (h : w.Answers result)
    (hcounters : w'.worker.counters = w.worker.counters) (hpruntime : w'.pruntime = w.pruntime)
    (hupToDate : w.UpToDate → w'.UpToDate) : w'.Answers result := by
  cases result with
  | error err => exact h
  | ok response =>
    cases response with
    | prepareLifecycle info => exact Eq.trans h hpruntime.symm
    | initRuntime => trivial
    | loadChainState => trivial
    | sync info =>
      change info.apply w'.worker.counters = w'.pruntime
      rw [hcounters, hpruntime]
      exact h
    | regularGetInfo info =>
      change info.counters = w'.pruntime ∧ w'.worker.counters = w'.pruntime
      rw [hcounters, hpruntime]
      exact h
    | prepareRegister => exact hupToDate h
    | getEgressMessages => exact hupToDate h
    | signEndpoints => exact hupToDate h
    | takeCheckpoint syncedTo => exact hupToDate h

structure Healthy (w : World) : Prop where
  enabled : w.worker.enabled = true
  exclusive : w.inFlight.length + w.responses.length = w.worker.pruntimeLock.toNat
  pending : w.worker.pruntimeLock = false → w.worker.pendingRequests = []
  running : w.worker.stopped = false
  upToDate : w.responses = [] → w.UpToDate
  answers : ∀ result ∈ w.responses, w.Answers result

theorem Healthy.keep (h : w.Healthy) (hresponses : w'.responses = w.responses)
    (hcounters : w'.worker.counters = w.worker.counters) (hpruntime : w'.pruntime = w.pruntime)
    (hstopped : w'.worker.stopped = w.worker.stopped)
    (henabled : w'.worker.enabled = w.worker.enabled) (hupToDate : w.UpToDate → w'.UpToDate)
    (hexclusive : w'.inFlight.length + w.responses.length = w'.worker.pruntimeLock.toNat)
    (hpending : w'.worker.pruntimeLock = false → w'.worker.pendingRequests = []) :
    w'.Healthy where
  enabled := henabled.trans h.enabled
  exclusive := by
    rw [hresponses]
    exact hexclusive
  pending := hpending
  running := hstopped.trans h.running
  upToDate hnone := hupToDate (h.upToDate (hresponses.symm.trans hnone))
  answers result hresult := by
    rw [hresponses] at hresult
    exact (h.answers result hresult).mono hcounters hpruntime hupToDate

theorem Healthy.adds (h : w.Healthy) (hadds : Adds w w') : w'.Healthy := by
  apply h.keep hadds.responses_eq hadds.counters_eq hadds.pruntime_eq hadds.stopped_eq
    hadds.enabled_eq
  · exact fun hupToDate => hupToDate.adds hadds
  · rw [hadds.inFlight_eq, hadds.lock_eq]
    exact h.exclusive
  · rw [hadds.lock_eq, hadds.pending_eq]
    exact h.pending

structure Idle (w : World) : Prop where
  enabled : w.worker.enabled = true
  inFlight : w.inFlight = []
  responses : w.responses = []
  lock : w.worker.pruntimeLock = false
  running : w.worker.stopped = false
  upToDate : w.UpToDate

theorem Idle.adds (h : w.Idle) (hadds : Adds w w') : w'.Idle where
  enabled := hadds.enabled_eq.trans h.enabled
  inFlight := hadds.inFlight_eq.trans h.inFlight
  responses := hadds.responses_eq.trans h.responses
  lock := hadds.lock_eq.trans h.lock
  running := hadds.stopped_eq.trans h.running
  upToDate := h.upToDate.adds hadds

theorem Idle.executeNext (h : w.Idle) : w.executeNext.Healthy := by
  unfold World.executeNext
  split
  · rename_i hpending
    refine ⟨h.enabled, ?_, fun _ => hpending, h.running, fun _ => h.upToDate, ?_⟩
    · rw [h.inFlight, h.responses, h.lock]
      rfl
    · rw [h.responses]
      nofun
  · rename_i request rest hpending
    have hnone : ({ w with worker.pendingRequests := rest }.executePruntimeRequest
        request).responses = [] := h.responses
    have hrequests : ({ w with worker.pendingRequests := rest }.executePruntimeRequest
        request).requests = w.requests := by
      unfold requests executePruntimeRequest
      rw [hpending, h.inFlight]
      rfl
    refine ⟨h.enabled, ?_, nofun, h.running, fun _ => ?_, ?_⟩
    · rw [hnone]
      rw [h.inFlight]
      rfl
    · unfold UpToDate
      rw [hrequests]
      exact h.upToDate
    · rw [hnone]
      nofun

/-! ## Every step keeps a worker healthy -/

section Process

variable {event : Event} {rest : List Event}

theorem responses_cons (hbus : w.bus = event :: rest) :
    w.responses = event.response?.toList ++ ({ w with bus := rest } : World).responses := by
  unfold responses
  rw [hbus]
  cases hresponse : event.response? with
  | none => rw [List.filterMap_cons_none hresponse]; rfl
  | some result => rw [List.filterMap_cons_some hresponse]; rfl

theorem requests_cons (hbus : w.bus = event :: rest) :
    w.requests = w.inFlight ++ w.worker.pendingRequests ++
      (event.request?.toList ++ rest.filterMap Event.request?) := by
  unfold requests
  rw [hbus]
  cases hrequest : event.request? with
  | none => rw [List.filterMap_cons_none hrequest]; rfl
  | some request => rw [List.filterMap_cons_some hrequest]; rfl

theorem Healthy.free (h : w.Healthy) (hlock : w.worker.pruntimeLock = false) :
    w.inFlight = [] ∧ w.responses = [] ∧ w.worker.pendingRequests = [] := by
  have hexclusive : w.inFlight.length + w.responses.length = 0 := by
    rw [h.exclusive, hlock]
    rfl
  exact ⟨List.eq_nil_of_length_eq_zero (by omega), List.eq_nil_of_length_eq_zero (by omega),
    h.pending hlock⟩

theorem Healthy.responding (h : w.Healthy) {result : Except RpcError PRuntimeResponse}
    {others : List (Except RpcError PRuntimeResponse)}
    (hresponses : w.responses = result :: others) : w.inFlight = [] ∧ others = [] := by
  have hexclusive := h.exclusive
  have hle := Bool.toNat_le w.worker.pruntimeLock
  rw [hresponses, List.length_cons] at hexclusive
  exact ⟨List.eq_nil_of_length_eq_zero (by omega), List.eq_nil_of_length_eq_zero (by omega)⟩

theorem Healthy.enqueue (h : w.Healthy) {request : PRuntimeRequest}
    (hbus : w.bus = .pruntimeRequest request :: rest) :
    ({ w with bus := rest }.enqueue request).Healthy := by
  have hresponses := responses_cons hbus
  have hrequests := requests_cons hbus
  unfold World.enqueue
  split
  · rename_i hfree
    have hlock : w.worker.pruntimeLock = false := (Bool.not_eq_true' _).mp hfree.1
    obtain ⟨hout, hnone, hpending⟩ := h.free hlock
    refine h.keep hresponses.symm rfl rfl rfl rfl ?_ ?_ nofun
    · unfold UpToDate
      rw [hrequests]
      unfold requests executePruntimeRequest
      rw [hout, hpending]
      exact id
    · rw [hout, hnone]
      rfl
  · rename_i hbusy
    refine h.keep hresponses.symm rfl rfl rfl rfl ?_ h.exclusive fun hlock => ?_
    · unfold UpToDate
      rw [hrequests]
      unfold requests
      rw [← List.append_assoc w.inFlight, List.append_assoc _ [request]]
      exact id
    · refine absurd ⟨(Bool.not_eq_true' _).mpr hlock, ?_⟩ hbusy
      rw [h.pending hlock]
      rfl

theorem Healthy.drop (h : w.Healthy) {request : SyncRequest}
    (hbus : w.bus = .pruntimeRequest (.sync request) :: rest) :
    ({ w with bus := rest } : World).Healthy := by
  refine h.keep (responses_cons hbus).symm rfl rfl rfl rfl ?_ h.exclusive h.pending
  intro hupToDate
  obtain hsame | hrefreshing := hupToDate
  · exact Or.inl hsame
  · rw [requests_cons hbus] at hrefreshing
    exact Or.inr hrefreshing.of_append_cons

theorem Healthy.handlePruntimeRequest (h : w.Healthy) {request : PRuntimeRequest}
    (hbus : w.bus = .pruntimeRequest request :: rest) :
    ({ w with bus := rest }.handlePruntimeRequest request).Healthy := by
  unfold World.handlePruntimeRequest
  split
  · rename_i hstopped
    exact absurd (h.running.symm.trans hstopped) nofun
  · split
    · split
      · split
        · exact (h.drop hbus).adds (passes_requestNextSync _).adds
        · exact (h.drop hbus).adds (adds_setPendingBroadcast _ true)
      · split
        · exact (h.drop hbus).adds (passes_requestNextSync _).adds
        · exact h.enqueue hbus
    · exact h.enqueue hbus

end Process

end World

def Step.Undisturbed (w : World) : Step → Prop
  | .process => match w.bus with
    | .pruntimeResponse (.ok .initRuntime) :: _ | .pruntimeResponse (.ok .loadChainState) :: _ =>
      .regularGetInfo ∉ w.requests
    | _ => True
  | _ => True

def Step.Succeeds (_ : World) : Step → Prop
  | .answer _ (.failed _) => False
  | _ => True

namespace World

variable {w w' : World} {rest : List Event}

theorem Healthy.handleResult (h : w.Healthy) {result : Except RpcError PRuntimeResponse}
    (hbus : w.bus = .pruntimeResponse result :: rest) (hstep : Step.process.Undisturbed w) :
    ({ w with bus := rest }.handleResult result).Idle := by
  obtain ⟨hout, hnone⟩ := h.responding (responses_cons hbus)
  have hanswers : w.Answers result := by
    apply h.answers
    rw [responses_cons hbus]
    exact List.mem_append_left _ (List.mem_singleton_self result)
  unfold Step.Undisturbed at hstep
  rw [hbus] at hstep
  cases result with
  | error err => exact hanswers.elim
  | ok response =>
    change (World.handlePruntimeResponse _ response).Idle
    have hadds : Adds ({ w with bus := rest } : World).unlock
        ({ w with bus := rest } : World).unlock.recover.clearErrors :=
      (passes_recover _).adds.trans (.of_eq rfl rfl rfl rfl rfl rfl rfl rfl)
    have hrequests : ({ w with bus := rest } : World).unlock.recover.clearErrors.requests =
        w.requests := (requests_recover _).trans (requests_cons hbus).symm
    generalize ({ w with bus := rest } : World).unlock.recover.clearErrors = w₀ at hadds hrequests ⊢
    have hcounters : w₀.worker.counters = w.worker.counters := hadds.counters_eq
    have hpruntime : w₀.pruntime = w.pruntime := hadds.pruntime_eq
    have hidle : ∀ w' : World, w'.inFlight = w₀.inFlight → w'.responses = w₀.responses →
        w'.worker.pruntimeLock = w₀.worker.pruntimeLock →
        w'.worker.stopped = w₀.worker.stopped → w'.worker.enabled = w₀.worker.enabled →
        w'.UpToDate → w'.Idle :=
      fun w' hinFlight hresponses hlock hstopped henabled hupToDate =>
        ⟨henabled.trans (hadds.enabled_eq.trans h.enabled),
          hinFlight.trans (hadds.inFlight_eq.trans hout),
          hresponses.trans (hadds.responses_eq.trans hnone), hlock.trans hadds.lock_eq,
          hstopped.trans (hadds.stopped_eq.trans h.running), hupToDate⟩
    -- The counters that change unseen are renewed by the request at the end of the bus.
    have hrenewed : ∀ message, .regularGetInfo ∉ w.requests →
        ((w₀.updateWorkerMessage message).addPruntimeRequest .prepareLifecycle).Idle := by
      intro message hundisturbed
      have hadds' := (passes_updateWorkerMessage w₀ message .prepareLifecycle).adds
      refine hidle _ hadds'.inFlight_eq hadds'.responses_eq hadds'.lock_eq hadds'.stopped_eq
        hadds'.enabled_eq (Or.inr ?_)
      rw [requests_addPruntimeRequest]
      apply refreshing_of_forall
      intro request hrequest heq
      rw [heq] at hrequest
      exact hundisturbed (hrequests ▸ hrequest)
    have hkept : w.UpToDate → w₀.Idle := by
      intro hupToDate
      refine hidle w₀ rfl rfl rfl rfl rfl ?_
      unfold UpToDate
      rw [hcounters, hpruntime, hrequests]
      exact hupToDate
    cases response with
    | prepareLifecycle info =>
      have hright : Idle ((w₀.setPhactoryInfo info).setCounters info.counters) :=
        hidle _ rfl rfl rfl rfl rfl (Or.inl (Eq.trans hanswers hpruntime.symm))
      exact hright.adds (adds_requestPrepareLifecycle _ info)
    | initRuntime => exact hrenewed _ hstep
    | loadChainState => exact hrenewed _ hstep
    | sync info =>
      have hright : Idle (w₀.setCounters (info.apply w₀.worker.counters)) := by
        refine hidle _ rfl rfl rfl rfl rfl (Or.inl ?_)
        rw [hcounters]
        exact Eq.trans hanswers hpruntime.symm
      exact hright.adds ((passes_requestEgressMessages _ info).adds.trans (adds_continueSync _))
    | regularGetInfo info =>
      have hsame : w₀.checkCounters info = w₀ := by
        unfold checkCounters
        rw [hcounters, hanswers.2, hanswers.1, if_neg (not_not.2 rfl)]
      change ((w₀.checkCounters info).setPhactoryInfo info).Idle
      rw [hsame]
      exact (hkept (Or.inl hanswers.2)).adds (.of_eq rfl rfl rfl rfl rfl rfl rfl rfl)
    | prepareRegister => exact (hkept hanswers).adds (.of_eq rfl rfl rfl rfl rfl rfl rfl rfl)
    | getEgressMessages => exact hkept hanswers
    | signEndpoints => exact hkept hanswers
    | takeCheckpoint syncedTo =>
      exact (hkept hanswers).adds (.of_eq rfl rfl rfl rfl rfl rfl rfl rfl)

theorem Healthy.process (h : w.Healthy) (hstep : Step.process.Undisturbed w) :
    (w.step .process).Healthy := by
  unfold World.step
  dsimp only
  split
  · exact h
  · rename_i event rest hbus
    cases hrequest : event.request? with
    | some request =>
      cases event <;> cases hrequest
      unfold World.handleEvent
      dsimp only
      rw [if_pos h.enabled]
      exact h.handlePruntimeRequest hbus
    | none =>
      cases hresponse : event.response? with
      | some result =>
        cases event <;> cases hresponse
        unfold World.handleEvent
        dsimp only
        rw [if_pos h.enabled]
        exact (h.handleResult hbus hstep).executeNext
      | none =>
        have hrequests := requests_cons hbus
        have hresponses := responses_cons hbus
        rw [hrequest] at hrequests
        rw [hresponse] at hresponses
        have htaken : ({ w with bus := rest } : World).Healthy := by
          refine h.keep hresponses.symm rfl rfl rfl rfl ?_ h.exclusive h.pending
          unfold UpToDate
          rw [hrequests]
          exact id
        obtain ⟨_, -, hpasses⟩ := passes_handleEvent { w with bus := rest } hrequest hresponse
        exact htaken.adds hpasses.adds

theorem answers_respond {request : PRuntimeRequest} {a : Answer} {response : PRuntimeResponse}
    {pruntime : Counters} (hrespond : respond w.pruntime request a = some (response, pruntime))
    (hpruntime : w'.pruntime = pruntime) (hcounters : w'.worker.counters = w.worker.counters)
    (hrequests : w.requests = request :: w'.requests) (hupToDate : w.UpToDate)
    (hbalanced : w.Balanced) : w'.Answers (.ok response) := by
  have hkept : request ≠ .prepareLifecycle → w'.pruntime = w.pruntime → w'.UpToDate := by
    intro hne hsame
    unfold UpToDate
    rw [hcounters, hsame]
    refine hupToDate.imp_right fun hrefreshing => ?_
    rw [hrequests] at hrefreshing
    exact hrefreshing.of_cons hne
  unfold respond at hrespond
  split at hrespond <;> cases hrespond
  case h_1 => exact hpruntime.symm
  case h_2 =>
    refine ⟨hpruntime.symm, ?_⟩
    rw [hcounters, hpruntime]
    apply hupToDate.resolve_right
    rw [hrequests]
    exact id
  case h_3 => trivial
  case h_4 => trivial
  case h_5 request _ _ _ =>
    -- The preparation has come to its end before, so what is recorded is right.
    have hsync : .sync request ∈ w.requests := by
      rw [hrequests]
      exact List.mem_cons_self
    have hsame : w.worker.counters = w.pruntime :=
      hupToDate.resolve_right fun hrefreshing => hbalanced.not_both hsync hrefreshing.mem
    change SyncInfo.apply _ w'.worker.counters = w'.pruntime
    rw [hcounters, hsame, hpruntime]
  case h_6 => exact hkept nofun hpruntime
  case h_7 => exact hkept nofun hpruntime
  case h_8 => exact hkept nofun hpruntime
  case h_9 => exact hkept nofun hpruntime

theorem Healthy.out (h : w.Healthy) {i : ℕ} {request : PRuntimeRequest}
    (hi : w.inFlight[i]? = some request) :
    w.inFlight = [request] ∧ i = 0 ∧ w.responses = [] ∧ w.worker.pruntimeLock = true := by
  have hexclusive := h.exclusive
  have hle := Bool.toNat_le w.worker.pruntimeLock
  obtain ⟨hlt, hget⟩ := List.getElem?_eq_some_iff.1 hi
  have hone : w.inFlight.length = 1 := by omega
  obtain ⟨other, hother⟩ := List.length_eq_one_iff.1 hone
  have hzero : i = 0 := by omega
  subst hzero
  rw [hother] at hi
  cases hi
  refine ⟨hother, rfl, List.eq_nil_of_length_eq_zero (by omega), ?_⟩
  apply Bool.toNat_eq_one.1
  omega

theorem Healthy.answer (h : w.Healthy) (hbalanced : w.Balanced) {i : ℕ} {a : Answer}
    (hstep : (Step.answer i a).Succeeds w) : (w.answer i a).Healthy := by
  unfold World.answer
  cases hi : w.inFlight[i]? with
  | none => exact h
  | some request =>
    dsimp only
    split
    · exact hstep.elim
    · split
      · exact h
      · rename_i response pruntime hrespond
        obtain ⟨hout, hzero, hnone, hlock⟩ := h.out hi
        have herase : w.inFlight.eraseIdx i = [] := by
          rw [hout, hzero]
          rfl
        rw [herase]
        generalize hw' : ({ w with
          inFlight := []
          pruntime := pruntime
          bus := w.bus ++ [.pruntimeResponse (.ok response)] } : World) = w'
        have hresponses : w'.responses = [.ok response] := by
          rw [← hw']
          unfold responses
          rw [List.filterMap_append]
          exact congrArg (· ++ [_]) hnone
        have hrequests : w.requests = request :: w'.requests := by
          rw [← hw']
          unfold requests
          rw [hout, List.filterMap_append]
          exact congrArg (request :: w.worker.pendingRequests ++ ·) (List.append_nil _).symm
        constructor
        · rw [← hw']
          exact h.enabled
        · rw [hresponses, ← hw']
          rw [hlock]
          rfl
        · rw [← hw']
          rw [hlock]
          nofun
        · rw [← hw']
          exact h.running
        · rw [hresponses]
          nofun
        · intro result hresult
          rw [hresponses] at hresult
          cases List.mem_singleton.1 hresult
          refine answers_respond hrespond ?_ ?_ hrequests (h.upToDate hnone) hbalanced
          · rw [← hw']
          · rw [← hw']

theorem Healthy.step (h : w.Healthy) (hbalanced : w.Balanced) {step : Step}
    (hsucceeds : step.Succeeds w) (hundisturbed : step.Undisturbed w) :
    (w.step step).Healthy := by
  cases step with
  | process => exact h.process hundisturbed
  | answer i a => exact h.answer hbalanced hsucceeds
  | _ => exact h.adds (adds_step w nofun nofun)

structure Disabled (w : World) : Prop where
  disabled : w.worker.enabled = false
  inFlight : w.inFlight = []
  responses : w.responses = []
  running : w.worker.stopped = false

theorem Disabled.adds (h : w.Disabled) (hadds : Adds w w') : w'.Disabled where
  disabled := hadds.enabled_eq.trans h.disabled
  inFlight := hadds.inFlight_eq.trans h.inFlight
  responses := hadds.responses_eq.trans h.responses
  running := hadds.stopped_eq.trans h.running

theorem Disabled.process (h : w.Disabled) : (w.step .process).Disabled := by
  unfold World.step
  dsimp only
  split
  · exact h
  · rename_i event rest hbus
    have hresponses := h.responses
    rw [responses_cons hbus] at hresponses
    obtain ⟨hresponse, hrest⟩ := List.append_eq_nil_iff.1 hresponses
    have htaken : ({ w with bus := rest } : World).Disabled :=
      ⟨h.disabled, h.inFlight, hrest, h.running⟩
    cases hrequest : event.request? with
    | none =>
      obtain ⟨_, -, hpasses⟩ := passes_handleEvent { w with bus := rest } hrequest
        (Option.toList_eq_nil_iff.1 hresponse)
      exact htaken.adds hpasses.adds
    | some request =>
      cases event <;> cases hrequest
      unfold World.handleEvent
      dsimp only
      rw [if_neg (Bool.eq_false_iff.1 h.disabled)]
      exact htaken

theorem Disabled.step (h : w.Disabled) (step : Step) : (w.step step).Disabled := by
  cases step with
  | process => exact h.process
  | answer i a =>
    change (w.answer i a).Disabled
    unfold World.answer
    rw [h.inFlight]
    exact h
  | _ => exact h.adds (adds_step w nofun nofun)

def Sound (w : World) : Prop := (w.Healthy ∧ w.Balanced) ∨ w.Disabled

theorem Sound.step (h : w.Sound) {step : Step} (hsucceeds : step.Succeeds w)
    (hundisturbed : step.Undisturbed w) : (w.step step).Sound := by
  obtain ⟨hhealthy, hbalanced⟩ | hdisabled := h
  · have hhealthy' := hhealthy.step hbalanced hsucceeds hundisturbed
    have hanswered : step.SyncAnswered w := by
      unfold Step.SyncAnswered
      split
      · exact hsucceeds.elim
      · trivial
    exact Or.inl ⟨hhealthy', hbalanced.step hanswered hhealthy.running hhealthy'.running⟩
  · exact Or.inr (hdisabled.step step)

theorem sound_new (enabled gatekeeper syncOnly : Bool) (poolSyncOnly : Option Bool)
    (operator : Option ℕ) (allowFastSync : Bool) (chaintip : ChaintipInfo) (pruntime : Counters)
    (queued : List External) :
    (World.new (.create enabled gatekeeper syncOnly poolSyncOnly operator) allowFastSync chaintip
      pruntime queued).Sound := by
  have hevents : ∀ event ∈ queued.map External.event,
      event.response? = none ∧ event.request? = none := by
    intro event hevent
    obtain ⟨external, -, rfl⟩ := List.mem_map.1 hevent
    cases external <;> exact ⟨rfl, rfl⟩
  unfold World.new
  generalize hw : ({
    worker := .create enabled gatekeeper syncOnly poolSyncOnly operator
    allowFastSync := allowFastSync
    chaintip := chaintip
    pruntime := pruntime
    bus := queued.map External.event } : World) = w
  have hresponses : w.responses = [] := by
    rw [← hw]
    exact List.filterMap_eq_nil_iff.2 fun event hevent => (hevents event hevent).1
  have hrequests : w.requests = [] := by
    rw [← hw]
    exact List.filterMap_eq_nil_iff.2 fun event hevent => (hevents event hevent).2
  have hadds := (passes_addPruntimeRequest w .prepareLifecycle).adds
  have hresponses' := hadds.responses_eq.trans hresponses
  cases enabled with
  | false =>
    refine Or.inr (Disabled.adds ⟨?_, ?_, hresponses, ?_⟩ hadds) <;> rw [← hw] <;> rfl
  | true =>
    refine Or.inl ⟨⟨?_, ?_, ?_, ?_, fun _ => Or.inr ?_, ?_⟩, ?_⟩
    · rw [← hw]
      rfl
    · rw [hresponses', ← hw]
      rfl
    · rw [← hw]
      exact fun _ => rfl
    · rw [← hw]
      rfl
    · rw [requests_addPruntimeRequest, hrequests]
      trivial
    · rw [hresponses']
      nofun
    · rw [← hw]
      exact balanced_new true gatekeeper syncOnly poolSyncOnly operator allowFastSync chaintip
        pruntime queued

end World

instance (w : World) (step : Step) : Decidable (step.Undisturbed w) := by
  unfold Step.Undisturbed
  split
  · split <;> infer_instance
  · infer_instance

instance (w : World) (step : Step) : Decidable (step.Succeeds w) := by
  unfold Step.Succeeds
  split <;> infer_instance

theorem healthy_not_stopped (enabled gatekeeper syncOnly : Bool) (poolSyncOnly : Option Bool)
    (operator : Option ℕ) (allowFastSync : Bool) (chaintip : ChaintipInfo) (pruntime : Counters)
    (queued : List External) (steps : List Step) :
    let w := World.new (.create enabled gatekeeper syncOnly poolSyncOnly operator) allowFastSync
      chaintip pruntime queued
    Throughout Step.run Step.Succeeds w steps → Throughout Step.run Step.Undisturbed w steps →
      (afterCalls Step.run w steps).inFlight.length ≤ 1 ∧
      (afterCalls Step.run w steps).worker.stopped = false ∧
      ∀ info rest, (afterCalls Step.run w steps).bus =
          .pruntimeResponse (.ok (.regularGetInfo info)) :: rest →
        info.counters = (afterCalls Step.run w steps).worker.counters := by
  intro w hsucceeds hundisturbed
  have hsound : (afterCalls Step.run w steps).Sound := by
    apply Runs.afterCalls _ (World.sound_new _ _ _ _ _ _ _ _ _) (hsucceeds.and hundisturbed)
    exact fun w step h hallowed => h.step hallowed.1 hallowed.2
  obtain ⟨hhealthy, -⟩ | hdisabled := hsound
  · refine ⟨?_, hhealthy.running, fun info rest hbus => ?_⟩
    · have hexclusive := hhealthy.exclusive
      have hle := Bool.toNat_le (afterCalls Step.run w steps).worker.pruntimeLock
      omega
    · have hanswers := hhealthy.answers (.ok (.regularGetInfo info)) (by
        rw [World.responses_cons hbus]
        exact List.mem_append_left _ (List.mem_singleton_self _))
      exact hanswers.1.trans hanswers.2.symm
  · refine ⟨?_, hdisabled.running, fun info rest hbus => ?_⟩
    · rw [hdisabled.inFlight]
      exact Nat.zero_le 1
    · have hresponses := hdisabled.responses
      rw [World.responses_cons hbus] at hresponses
      cases hresponses

theorem healthy_not_stopped_initialized :
    let info : PhactoryInfo := {
      counters := {}, initialized := false, registered := false, canLoadChainState := false,
      supportedAttestationMethods := [] }
    let steps : List Step := [.process, .answer 0 (.info info), .process, .process,
      .answer 0 (.counters ⟨1, 1, 0⟩), .process, .external (.heartbeat true), .process, .process,
      .answer 0 (.info { info with initialized := true }), .process, .process,
      .answer 0 (.info { info with initialized := true }), .process]
    let w := World.new (.create true false true none none) false ⟨10, 10⟩ ⟨0, 0, 0⟩ []
    (afterCalls Step.run w steps).worker.counters = ⟨1, 1, 0⟩ ∧
      (afterCalls Step.run w steps).worker.stopped = false := by
  intro info steps w
  have hsucceeds : Throughout Step.run Step.Succeeds w steps := by decide +kernel
  have hundisturbed : Throughout Step.run Step.Undisturbed w steps := by decide +kernel
  constructor
  · decide +kernel
  · apply And.left
    apply And.right
    apply healthy_not_stopped
    · exact hsucceeds
    · exact hundisturbed

theorem heartbeat_stops_worker :
    let info : PhactoryInfo := {
      counters := {}, initialized := false, registered := false, canLoadChainState := false,
      supportedAttestationMethods := [] }
    let steps : List Step := [.process, .answer 0 (.info info), .process, .process,
      .external (.heartbeat true), .process, .process, .answer 0 (.counters ⟨1, 1, 0⟩), .process,
      .answer 0 (.info { info with initialized := true }), .process, .process]
    let w := World.new (.create true false true none none) false ⟨10, 10⟩ ⟨0, 0, 0⟩ []
    Throughout Step.run Step.Succeeds w steps ∧
      (afterCalls Step.run w steps).worker.stopped = true := by
  decide +kernel

end Cyrux.Prb.Processor
