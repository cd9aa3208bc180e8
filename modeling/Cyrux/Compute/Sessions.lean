import Cyrux.Compute.Mock
import Cyrux.Compute.WorkerSpec
import Mathlib.Data.Set.Card

/-!
# Computing sessions
-/

namespace Cyrux

open Exec

variable {A W : Type}

def WorkerState.isStaked : WorkerState → Bool
  | workerIdle | workerUnresponsive | workerCoolingDown => true
  | _ => false

def State.computing (s : State A W) : Set A :=
  {session | ∃ info, s.sessions session = some info ∧ info.state.isComputing = true}

structure SessionsOk (s : State A W) : Prop where
  mirror : ∀ session w, s.sessionBindings session = some w ↔ s.workerBindings w = some session
  recorded : ∀ session w, s.sessionBindings session = some w → (s.sessions session).isSome
  used : ∀ session info, s.sessions session = some info → info.state ≠ .unused
  staked : ∀ session, (s.stakes session).isSome ↔
    ∃ info, s.sessions session = some info ∧ info.state.isStaked = true
  finite : s.computing.Finite
  counted : s.onlineWorkers = s.computing.ncard

structure SessionStore (A W : Type) where
  sessions : A → Option SessionInfo
  sessionBindings : A → Option W
  workerBindings : W → Option A
  stakes : A → Option ℕ
  onlineWorkers : ℕ

def State.sessionStore (s : State A W) : SessionStore A W where
  sessions := s.sessions
  sessionBindings := s.sessionBindings
  workerBindings := s.workerBindings
  stakes := s.stakes
  onlineWorkers := s.onlineWorkers

theorem SessionsOk.frame {s s' : State A W} (h : SessionsOk s)
    (same : s'.sessionStore = s.sessionStore) : SessionsOk s' := by
  have sessions : s'.sessions = s.sessions := congrArg SessionStore.sessions same
  have bindings : s'.sessionBindings = s.sessionBindings :=
    congrArg SessionStore.sessionBindings same
  have workers : s'.workerBindings = s.workerBindings := congrArg SessionStore.workerBindings same
  have stakes : s'.stakes = s.stakes := congrArg SessionStore.stakes same
  have online : s'.onlineWorkers = s.onlineWorkers := congrArg SessionStore.onlineWorkers same
  have computing : s'.computing = s.computing := by
    unfold State.computing
    rw [sessions]
  refine ⟨?_, ?_, ?_, ?_, ?_, ?_⟩
  · rw [bindings, workers]
    exact h.mirror
  · rw [bindings, sessions]
    exact h.recorded
  · rw [sessions]
    exact h.used
  · rw [stakes, sessions]
    exact h.staked
  · rw [computing]
    exact h.finite
  · rw [computing, online]
    exact h.counted

/-! ## One session changes its state -/

section Put

variable [DecidableEq A] {s : State A W} {session : A} {info info' : SessionInfo}

theorem State.computing_putSession (info' : SessionInfo) :
    (s.putSession session info').computing =
      if info'.state.isComputing then insert session s.computing else s.computing \ {session} := by
  ext session'
  by_cases h : session' = session
  · subst h
    cases hc : info'.state.isComputing <;> simp [State.computing, State.putSession, hc]
  · cases hc : info'.state.isComputing <;> simp [State.computing, State.putSession, h]

theorem SessionsOk.put {s' : State A W} (h : SessionsOk s)
    (found : s.sessions session = some info) (used : info'.state ≠ .unused)
    (sessions : s'.sessions = (s.putSession session info').sessions)
    (bindings : s'.sessionBindings = s.sessionBindings ∧ s'.workerBindings = s.workerBindings)
    (stakes : ∀ session', session' ≠ session → s'.stakes session' = s.stakes session')
    (stake : (s'.stakes session).isSome ↔ info'.state.isStaked = true)
    (online : s'.onlineWorkers + info.state.isComputing.toNat =
      s.onlineWorkers + info'.state.isComputing.toNat) : SessionsOk s' := by
  have at_self : s'.sessions session = some info' := by simp [sessions, State.putSession]
  have at_other : ∀ session', session' ≠ session → s'.sessions session' = s.sessions session' := by
    intro session' ne
    simp [sessions, State.putSession, ne]
  have computing : s'.computing = (s.putSession session info').computing := by
    unfold State.computing
    rw [sessions]
  have member : session ∈ s.computing ↔ info.state.isComputing = true := by
    simp [State.computing, found]
  refine ⟨?_, ?_, ?_, ?_, ?_, ?_⟩
  · rw [bindings.1, bindings.2]
    exact h.mirror
  · intro session' w bound
    rw [bindings.1] at bound
    by_cases e : session' = session
    · rw [e, at_self]
      rfl
    · rw [at_other _ e]
      exact h.recorded _ w bound
  · intro session' info'' found'
    by_cases e : session' = session
    · rw [e, at_self] at found'
      cases found'
      exact used
    · rw [at_other _ e] at found'
      exact h.used _ _ found'
  · intro session'
    by_cases e : session' = session
    · rw [e, stake, at_self]
      simp
    · rw [stakes _ e, at_other _ e]
      exact h.staked session'
  · rw [computing, State.computing_putSession]
    split_ifs
    · exact h.finite.insert _
    · exact h.finite.sdiff
  · rw [computing, State.computing_putSession]
    have counted := h.counted
    by_cases old : info.state.isComputing = true
    · have inside := member.2 old
      have removed := Set.ncard_sdiff_singleton_add_one inside h.finite
      split_ifs with new
      · rw [Set.insert_eq_of_mem inside]
        simp only [old, new, Bool.toNat_true] at online
        omega
      · simp only [old, Bool.not_eq_true] at new online
        simp only [new, Bool.toNat_true, Bool.toNat_false] at online
        omega
    · have outside := mt member.1 old
      split_ifs with new
      · rw [Set.ncard_insert_of_notMem outside h.finite]
        simp only [old, new, Bool.toNat_true, Bool.toNat_false] at online
        omega
      · rw [Set.sdiff_singleton_eq_self outside]
        simp only [old, new, Bool.toNat_false] at online
        omega

theorem SessionsOk.start {stake : ℕ} (h : SessionsOk s) (found : s.sessions session = some info)
    (ready : info.state = .ready) (idle : info'.state = .workerIdle) :
    SessionsOk (s.startSession session stake info') := by
  refine h.put found (by simp [idle]) rfl ⟨rfl, rfl⟩ ?_ ?_ ?_
  · intro session' ne
    simp [State.startSession, ne]
  · simp [State.startSession, idle, WorkerState.isStaked]
  · simp [State.startSession, ready, idle, WorkerState.isComputing]

omit [DecidableEq A] in
theorem SessionsOk.running (h : SessionsOk s) (found : s.sessions session = some info)
    (ready : info.state ≠ .ready) (cooling : info.state ≠ .workerCoolingDown) :
    info.state.isComputing = true := by
  have used := h.used session info found
  cases hs : info.state <;> first | rfl | exact absurd hs ‹_›

omit [DecidableEq A] in
theorem SessionsOk.online_pos (h : SessionsOk s) (found : s.sessions session = some info)
    (computing : info.state.isComputing = true) : 0 < s.onlineWorkers := by
  rw [h.counted, Set.ncard_pos h.finite]
  exact ⟨session, info, found, computing⟩

theorem SessionsOk.stop (h : SessionsOk s) (found : s.sessions session = some info)
    (running : info.state ≠ .ready ∧ info.state ≠ .workerCoolingDown)
    (cooling : info'.state = .workerCoolingDown) : SessionsOk (s.stopSession session info') := by
  have computing := h.running found running.1 running.2
  have online := h.online_pos found computing
  refine h.put found (by simp [cooling]) rfl ⟨rfl, rfl⟩ (fun _ _ => rfl) ?_ ?_
  · have staked : (s.stakes session).isSome := by
      refine (h.staked session).2 ⟨info, found, ?_⟩
      cases hs : info.state <;> simp_all [WorkerState.isComputing, WorkerState.isStaked]
    simpa [cooling, WorkerState.isStaked, State.stopSession, State.putSession] using staked
  · rw [computing, cooling]
    change s.onlineWorkers - 1 + 1 = s.onlineWorkers + 0
    omega

theorem SessionsOk.reclaim (h : SessionsOk s) (found : s.sessions session = some info)
    (cooling : info.state = .workerCoolingDown) (ready : info'.state = .ready) :
    SessionsOk (s.reclaimSession session info') := by
  refine h.put found (by simp [ready]) rfl ⟨rfl, rfl⟩ ?_ ?_ ?_
  · intro session' ne
    simp [State.reclaimSession, ne]
  · simp [State.reclaimSession, ready, WorkerState.isStaked]
  · simp [State.reclaimSession, State.putSession, cooling, ready, WorkerState.isComputing]

theorem SessionsOk.report (h : SessionsOk s) (found : s.sessions session = some info)
    (state : info'.state = info.state ∨
      info.state.isComputing = true ∧ info'.state.isComputing = true) :
    SessionsOk (s.putSession session info') := by
  have used := h.used session info found
  have staked := h.staked session
  simp only [found, Option.some.injEq, exists_eq_left'] at staked
  rcases state with same | ⟨old, new⟩
  · refine h.put found (same ▸ used) rfl ⟨rfl, rfl⟩ (fun _ _ => rfl) ?_ ?_
    · rw [same]
      exact staked
    · rw [same]
      rfl
  · refine h.put found ?_ rfl ⟨rfl, rfl⟩ (fun _ _ => rfl) ?_ ?_
    · intro e
      rw [e] at new
      cases new
    · have both : info'.state.isStaked = info.state.isStaked := by
        cases hs : info.state <;> cases hs' : info'.state <;>
          simp_all [WorkerState.isComputing, WorkerState.isStaked]
      rw [both]
      exact staked
    · rw [old, new]
      rfl

end Put

/-! ## Bindings -/

section Bindings

variable [DecidableEq A] [DecidableEq W] {s : State A W} {session : A} {w : W}

theorem SessionsOk.bind (h : SessionsOk s) (unbound : s.sessionBindings session = none)
    (unused : s.workerBindings w = none)
    (ready : ((s.sessions session).all fun info => info.state = .ready) = true) :
    SessionsOk (s.bindSession session w) := by
  have idle : ∀ info, s.sessions session = some info → info.state = .ready := by
    intro info found
    rw [found, Option.all_some] at ready
    exact of_decide_eq_true ready
  have outside : session ∉ s.computing := by
    rintro ⟨info, found, computing⟩
    rw [idle info found] at computing
    cases computing
  have computing : (s.bindSession session w).computing = s.computing := by
    change (s.putSession session (SessionInfo.new s.now)).computing = _
    rw [State.computing_putSession]
    exact Set.sdiff_singleton_eq_self outside
  refine ⟨?_, ?_, ?_, ?_, computing ▸ h.finite, computing ▸ h.counted⟩
  · intro session' w'
    simp only [State.bindSession, Function.update_apply]
    by_cases e : session' = session <;> by_cases e' : w' = w
    · simp [e, e']
    · have none : s.workerBindings w' ≠ some session := fun bound => by
        rw [(h.mirror session w').2 bound] at unbound
        cases unbound
      simp [e, e', none, Ne.symm e']
    · have none : s.sessionBindings session' ≠ some w := fun bound => by
        rw [(h.mirror session' w).1 bound] at unused
        cases unused
      simp [e, e', none, Ne.symm e]
    · simpa [e, e'] using h.mirror session' w'
  · intro session' w' bound
    simp only [State.bindSession, Function.update_apply] at bound ⊢
    split_ifs at bound ⊢
    · rfl
    · exact h.recorded session' w' bound
  · intro session' info found
    simp only [State.bindSession, Function.update_apply] at found
    split_ifs at found
    · cases found
      exact WorkerState.noConfusion
    · exact h.used session' info found
  · intro session'
    by_cases e : session' = session
    · subst e
      have unstaked : ¬ (s.stakes session').isSome := by
        rw [h.staked]
        rintro ⟨info, found, staked⟩
        rw [idle info found] at staked
        cases staked
      simpa [State.bindSession, SessionInfo.new, WorkerState.isStaked] using unstaked
    · simpa [State.bindSession, e] using h.staked session'

theorem SessionsOk.unbind (h : SessionsOk s) (bound : s.sessionBindings session = some w) :
    SessionsOk (s.unbindSession session w) := by
  refine ⟨?_, ?_, h.used, h.staked, h.finite, h.counted⟩
  · intro session' w'
    simp only [State.unbindSession, Function.update_apply]
    by_cases e : session' = session <;> by_cases e' : w' = w
    · simp [e, e']
    · have other : s.workerBindings w' ≠ some session := fun bound' => by
        rw [(h.mirror session w').2 bound'] at bound
        exact e' (Option.some.inj bound)
      simp [e, e', other]
    · have other : s.sessionBindings session' ≠ some w := fun bound' => by
        have own := (h.mirror session w).1 bound
        rw [(h.mirror session' w).1 bound'] at own
        exact e (Option.some.inj own)
      simp [e, e', other]
    · simpa [e, e'] using h.mirror session' w'
  · intro session' w' bound'
    simp only [State.unbindSession, Function.update_apply] at bound'
    split_ifs at bound'
    exact h.recorded session' w' bound'

end Bindings

/-! ## The hooks of the stake pools -/

abbrev SparesSessions {α : Type} (m : Pallet A W α) : Prop :=
  Leaves State.sessionStore (fun f : Fault => f.ofSession = false) m

abbrev SparesWorkers {α : Type} (m : Pallet A W α) : Prop :=
  Leaves (fun s => (s.sessionStore, s.workerAssignments)) (fun f : Fault => f.ofSession = false) m

namespace SparesWorkers

variable {α : Type} [DecidableEq A]

omit [DecidableEq A] in
theorem expect {m : Pallet A W α} {site : PanicSite} (h : SparesWorkers m)
    (other : site ≠ .onlineWorkers) : SparesWorkers (Cyrux.expect site m) := by
  refine Leaves.mapFault h fun f calm => ?_
  cases f with
  | error e => cases site <;> first | rfl | exact absurd rfl other
  | panic => exact calm
  | outOfFuel => rfl

omit [DecidableEq A] in
theorem convert (o : Option α) : SparesWorkers (Cyrux.convert o : Pallet A W α) := .demand rfl

omit [DecidableEq A] in
theorem ensureVault (pid : ℕ) : SparesWorkers (Cyrux.ensureVault pid : Pallet A W _) := by
  refine .bind .get fun s => ?_
  split
  exacts [.pure _, .throw rfl, .throw rfl]

omit [DecidableEq A] in
theorem ensureStakePool (pid : ℕ) : SparesWorkers (Cyrux.ensureStakePool pid : Pallet A W _) := by
  refine .bind .get fun s => ?_
  split
  exacts [.pure _, .throw rfl, .throw rfl]

omit [DecidableEq A] in
theorem putPool (pid : ℕ) (q : PoolProxy A W) : SparesWorkers (Cyrux.putPool pid q) :=
  .alter fun _ => rfl

omit [DecidableEq A] in
theorem readNftAttr (cid n : ℕ) : SparesWorkers (Cyrux.readNftAttr cid n : Pallet A W _) := by
  refine .bind (.bind (.bind .get fun _ => .demand rfl) fun _ => ?_) fun _ => ?_
  · refine .bind .get fun _ => .bind (.ensure rfl) fun _ => ?_
    exact .bind (.alter fun _ => rfl) fun _ => .pure _
  · exact .bind (.alter fun _ => rfl) fun _ => .pure _

omit [DecidableEq A] in
theorem mintNft (cid : ℕ) (a : A) (shares : ℕ) :
    SparesWorkers (Cyrux.mintNft cid a shares : Pallet A W _) := by
  refine .bind .get fun _ => .bind (.ensure rfl) fun _ => .bind ?_ fun _ => ?_
  · exact .bind .get fun _ => .bind (.ensure rfl) fun _ => .pure _
  · exact .bind (.ensure rfl) fun _ => .bind (.alter fun _ => rfl) fun _ => .pure _

variable (cfg : Config A W)

theorem mergeNftForStaker (cid : ℕ) (a : A) :
    SparesWorkers (Cyrux.mergeNftForStaker cfg cid a) := by
  refine .bind .get fun s => ?_
  split
  · exact .pure _
  · exact .pure _
  · refine .bind (.foldlM fun total n => ?_) fun _ => .bind (mintNft _ _ _) fun _ => .pure _
    refine .bind (expect (readNftAttr _ _) (by decide)) fun _ => .bind ?_ fun _ => .pure _
    exact expect (.bind .get fun _ => .bind (.ensure rfl) fun _ => .alter fun _ => rfl) (by decide)

theorem transfer (source dest : A) (amount : ℕ) (keepAlive : Bool) :
    SparesWorkers (Currency.transfer cfg source dest amount keepAlive) := by
  refine .ite (.pure _) (.bind .get fun _ => .bind (.ensure rfl) fun _ => .bind (.ensure rfl) ?_)
  exact fun _ => .bind (.ensure rfl) fun _ => .bind (.ensure rfl) fun _ => .alter fun _ => rfl

theorem mintInto (target : A) (amount : ℕ) :
    SparesWorkers (WrappedBalances.mintInto cfg target amount) := by
  refine .bind (.attempt (.ite (.pure _) ?_)) fun minted => ?_
  · exact .bind .get fun _ => .bind (.ensure rfl) fun _ => .alter fun _ => rfl
  · cases minted with
    | none => exact .bind (.alter fun _ => rfl) fun _ => .pure _
    | some => exact .pure _

theorem distributeReward (depth : ℕ) (pool : BasePool A) (rewards : ℕ) :
    SparesWorkers (BasePool.distributeReward cfg depth pool rewards) := by
  induction depth generalizing pool rewards with
  | zero => exact .throw rfl
  | succ depth ih =>
    refine .bind (.each fun vaultPid => ?_) fun _ => .pure _
    refine .bind (expect (ensureVault _) (by decide)) fun u => ?_
    refine .bind (expect (mergeNftForStaker cfg _ _) (by decide)) fun merged => ?_
    cases merged with
    | none => exact .pure _
    | some n =>
      refine .bind (expect (readNftAttr _ _) (by decide)) fun nft => ?_
      refine .bind (convert _) fun own => .bind (.foldlM fun total w => ?_) fun shares => ?_
      · exact .bind (expect (readNftAttr _ _) (by decide)) fun _ =>
          .bind (convert _) fun _ => .pure _
      refine .bind (convert _) fun total => ?_
      split
      · exact .pure _
      · refine .bind (convert _) fun _ => .bind (convert _) fun _ => .bind (convert _) fun _ => ?_
        exact .bind (ih _ _) fun _ => putPool _ _

theorem rewardWorker (info : Computation.SettleInfo W) :
    SparesWorkers (StakePoolV2.rewardWorker cfg info) := by
  refine .bind (convert _) fun reward => .bind .get fun s => ?_
  split
  · exact .pure _
  refine .bind (expect (ensureStakePool _) (by decide)) fun p => .bind ?_ fun _ => putPool _ _
  refine .ite (.pure _) (.ite (.pure _) ?_)
  refine .bind (expect (transfer cfg _ _ _ _) (by decide)) fun _ => ?_
  refine .bind (expect (mintInto cfg _ _) (by decide)) fun _ => ?_
  refine .bind (expect (mintInto cfg _ _) (by decide)) fun _ => ?_
  exact .ite (.bind (distributeReward cfg _ _ _) fun _ => .pure _) (.pure _)

end SparesWorkers

namespace SparesSessions

theorem onReward [DecidableEq A] (cfg : Config A W) (settle : List (Computation.SettleInfo W)) :
    SparesSessions (StakePoolV2.onReward cfg settle) :=
  .each fun info => (SparesWorkers.rewardWorker cfg info).map Prod.fst

theorem onUnbound [DecidableEq W] (w : W) (force : Bool) :
    SparesSessions (StakePoolV2.onUnbound w force : Pallet A W Unit) := by
  refine .bind .get fun s => .bind (.demand rfl) fun pid => .bind (.alter fun _ => rfl) fun _ => ?_
  split
  · exact (SparesWorkers.putPool _ _).map Prod.fst
  · exact .pure _

end SparesSessions

/-! ## The operations of the pallet -/

inductive SessionOp (A W : Type)
  | bind (session : A) (worker : W)
  | unbind (session : A) (notify : Bool)
  | start (session : A) (stake : ℕ)
  | stop (session : A)
  | reclaim (session : A) (checkCooldown : Bool)
  | gkMessage (event : Computation.WorkingInfoUpdate W)

variable [DecidableEq A] [DecidableEq W] {cfg : Config A W} {s : State A W}

def SessionOp.exec (cfg : Config A W) : SessionOp A W → Pallet A W Unit
  | bind session worker => Computation.bind cfg session worker
  | unbind session notify => Computation.unbindSession StakePoolV2.onUnbound session notify
  | start session stake => Computation.startComputing cfg session stake
  | stop session => Computation.stopComputing session
  | reclaim session checkCooldown => do
    let _ ← Computation.reclaim session checkCooldown
    pure ()
  | gkMessage event => Computation.onGkMessageReceived cfg (StakePoolV2.onReward cfg) event

abbrev KeepsSessions {α : Type} (m : Pallet A W α) (s : State A W) : Prop :=
  Sat m s (fun _ s' => SessionsOk s') (fun f => f.ofSession = false)

namespace Computation

omit [DecidableEq A] [DecidableEq W] in
theorem keeps_of_spares {α : Type} {m : Pallet A W α} (h : SparesSessions m) (ok : SessionsOk s) :
    KeepsSessions m s :=
  (h s).mono (fun _ _ same => ok.frame same) fun _ calm => calm

theorem bind_keeps (session : A) (w : W) (h : SessionsOk s) :
    KeepsSessions (Computation.bind cfg session w) s := by
  have calm : Leaves (fun _ => ()) (fun f : Fault => f.ofSession = false)
      (Computation.bind cfg session w) := by
    refine .bind .get fun _ => .bind (.demand rfl) fun _ => .bind (.ensure rfl) fun _ => ?_
    refine .bind (.ensure rfl) fun _ => .bind (.ensure rfl) fun _ => .bind (.ensure rfl) fun _ => ?_
    exact .bind (.ensure rfl) fun _ => .alter fun _ => rfl
  refine ((bind_spec session w s).and (calm s)).mono ?_ fun _ h => h.2
  rintro _ _ ⟨⟨unbound, unused, ready, rfl⟩, -⟩
  exact h.bind unbound unused ready

omit [DecidableEq W] in
theorem stopComputing_keeps (session : A) (h : SessionsOk s) :
    KeepsSessions (stopComputing session) s := by
  refine (stopComputing_spec session s).mono ?_ ?_
  · rintro _ _ ⟨w, info, -, found, running, -, info', cooling, rfl⟩
    exact h.stop found running cooling
  · rintro f ⟨-, impossible⟩
    refine Bool.eq_false_iff.2 fun session => ?_
    obtain ⟨offline, w, info, -, found, ready, cooling⟩ := impossible session
    have online := h.online_pos found (h.running found ready cooling)
    omega

omit [DecidableEq W] in
theorem startComputing_keeps (session : A) (stake : ℕ) (h : SessionsOk s) :
    KeepsSessions (startComputing cfg session stake) s := by
  refine (startComputing_spec session stake s).mono ?_ ?_
  · rintro _ _ ⟨w, info, info', -, found, ready, -, idle, rfl⟩
    exact h.start found ready idle
  · rintro f ⟨-, impossible⟩
    refine Bool.eq_false_iff.2 fun session' => ?_
    obtain ⟨info, found, ready, staked⟩ := impossible session'
    obtain ⟨info', found', staked⟩ := (h.staked session).1 staked
    obtain rfl : info' = info := Option.some.inj (found'.symm.trans found)
    rw [ready] at staked
    cases staked

omit [DecidableEq W] in
theorem reclaim_keeps (session : A) (check : Bool) (h : SessionsOk s) :
    KeepsSessions (reclaim session check) s := by
  have calm : Leaves (fun _ => ()) (fun f : Fault => f.ofSession = false)
      (reclaim session check : Pallet A W _) := by
    refine .bind .get fun _ => .bind (.demand rfl) fun _ => .bind ?_ fun _ => ?_
    · refine .ite (.pure _) (.ite ?_ (.pure _))
      exact .bind .get fun _ => .bind (.ensure rfl) fun _ => .pure _
    · exact .bind (.ensure rfl) fun _ => .bind (.alter fun _ => rfl) fun _ => .pure _
  refine ((reclaim_spec session check s).and (calm s)).mono ?_ fun _ h => h.2
  rintro _ _ ⟨⟨info, info', found, cooling, ready, -, rfl⟩, -⟩
  exact h.reclaim found cooling ready

theorem unbindSession_keeps (session : A) (notify : Bool) (h : SessionsOk s) :
    KeepsSessions (unbindSession StakePoolV2.onUnbound session notify) s := by
  refine Sat.bind (R := fun w s' => s.sessionBindings session = some w ∧ s' = s)
    (F := fun f => f.ofSession = false) ?_ (fun _ h => h) ?_
  · exact Sat.get_bind (sat_demand.2 ⟨fun _ h => ⟨h, rfl⟩, fun _ => rfl⟩)
  rintro w s ⟨bound, rfl⟩
  refine Sat.get_bind (Sat.demand_bind (fun info found => ?_) fun _ => rfl)
  -- Stopping a session leaves the bindings alone.
  refine Sat.bind (R := fun _ s' => SessionsOk s' ∧ s'.sessionBindings session = some w)
    (F := fun f => f.ofSession = false) ?_ (fun _ h => h) ?_
  · refine sat_when.2 ⟨fun _ => ?_, fun _ => ⟨h, bound⟩⟩
    refine ((stopComputing_keeps session h).and (stopComputing_spec session s)).mono ?_
      fun _ h => h.1
    rintro _ _ ⟨ok, _, _, -, -, -, -, info', -, rfl⟩
    exact ⟨ok, bound⟩
  · rintro _ s₁ ⟨ok, bound₁⟩
    refine Sat.alter_bind (sat_when.2 ⟨fun _ => ?_, fun _ => ok.unbind bound₁⟩)
    exact keeps_of_spares (SparesSessions.onUnbound w _) (ok.unbind bound₁)

omit [DecidableEq W] in
theorem onGkMessageReceived_keeps (event : WorkingInfoUpdate W) (h : SessionsOk s) :
    KeepsSessions (onGkMessageReceived cfg (StakePoolV2.onReward cfg) event) s := by
  have report : ∀ {state : WorkerState}, state.isComputing = true → ∀ (l : List W) {s : State A W},
      SessionsOk s → KeepsSessions (each (reportState state) l) s := by
    intro state computing l s h
    refine sat_each (fun w _ s h => ?_) h
    refine Sat.get_bind ?_
    split
    · exact h
    split
    · exact h
    · rename_i info found
      exact Sat.ite (fun running => h.report found (.inr ⟨running, computing⟩)) fun _ => h
  refine (report rfl _ h).bind (fun _ h => h) fun _ s₁ h₁ => ?_
  refine (report rfl _ h₁).bind (fun _ h => h) fun _ s₂ h₂ => ?_
  refine Sat.bind (R := fun _ s' => SessionsOk s') (F := fun f => f.ofSession = false)
    (sat_each (fun info _ s h => ?_) h₂) (fun _ h => h)
    fun _ s₃ h₃ => keeps_of_spares (SparesSessions.onReward cfg _) h₃
  refine Sat.get_bind ?_
  split
  · exact h
  split
  · exact h
  · rename_i account _ session found
    refine Sat.ite (fun _ => h) fun _ => Sat.demand_bind (fun payout _ => ?_) fun _ => rfl
    refine Sat.alter_bind (Sat.demand_bind (fun treasury _ => ?_) fun _ => rfl)
    refine keeps_of_spares (.bind (.attempt (.ite (.pure _) ?_)) fun _ => .pure _)
      (h.report found (.inl rfl))
    refine .bind .get fun _ => .bind (.ensure rfl) fun _ => .bind (.ensure rfl) fun _ => ?_
    exact .alter fun _ => rfl

end Computation

theorem SessionOp.exec_keeps (op : SessionOp A W) (h : SessionsOk s) :
    KeepsSessions (op.exec cfg) s := by
  cases op with
  | bind session worker => exact Computation.bind_keeps session worker h
  | unbind session notify => exact Computation.unbindSession_keeps session notify h
  | start session stake => exact Computation.startComputing_keeps session stake h
  | stop session => exact Computation.stopComputing_keeps session h
  | reclaim session check =>
    exact (Computation.reclaim_keeps session check h).bind (fun _ h => h) fun _ _ h => h
  | gkMessage event => exact Computation.onGkMessageReceived_keeps event h

/-! ## Runs -/

structure State.NoSessions (s : State A W) : Prop where
  sessions : ∀ session, s.sessions session = none
  sessionBindings : ∀ session, s.sessionBindings session = none
  workerBindings : ∀ w, s.workerBindings w = none
  stakes : ∀ session, s.stakes session = none
  onlineWorkers : s.onlineWorkers = 0

def SessionStep (cfg : Config A W) (s s' : State A W) : Prop :=
  (∃ op : SessionOp A W, op.exec cfg s = .ok ((), s')) ∨ s'.sessionStore = s.sessionStore

omit [DecidableEq A] [DecidableEq W] in
theorem State.NoSessions.ok (h : s.NoSessions) : SessionsOk s := by
  have empty : s.computing = ∅ := by
    ext session
    simp [State.computing, h.sessions session]
  refine ⟨?_, ?_, ?_, ?_, ?_, ?_⟩
  · intro session w
    simp [h.sessionBindings session, h.workerBindings w]
  · intro session w bound
    simp [h.sessionBindings session] at bound
  · intro session info found
    simp [h.sessions session] at found
  · intro session
    simp [h.stakes session, h.sessions session]
  · rw [empty]
    exact Set.finite_empty
  · rw [empty, Set.ncard_empty, h.onlineWorkers]

/-- The session storage is consistent after any run of its operations. -/
theorem session_storage_consistent (reached : Reach State.NoSessions (SessionStep cfg) s) :
    SessionsOk s ∧ ∀ (op : SessionOp A W) (f : Fault), op.exec cfg s = .error f →
      f ≠ .error (.computation .internalErrorCannotStartWithExistingStake) ∧
        f ≠ .panic .onlineWorkers none := by
  have ok : SessionsOk s := by
    refine reached.invariant (fun s h => h.ok) ?_
    rintro s s' h (⟨op, run⟩ | same)
    · exact (op.exec_keeps h).of_ok run
    · exact h.frame same
  refine ⟨ok, fun op f failed => ?_⟩
  have calm := (op.exec_keeps ok).of_error failed
  constructor
  · rintro rfl
    cases calm
  · rintro rfl
    cases calm

def Mock.registered : State Mock.Account ℕ := { Mock.genesis with
  workers := fun _ => some ⟨none, some 100, 1, true⟩
  tokenomicParameters := some Mock.tokenomic }

theorem session_storage_consistent_started : ∃ s : State Mock.Account ℕ,
    Reach State.NoSessions (SessionStep Mock.runtime) s ∧ s.onlineWorkers = 1 ∧
      s.computing.ncard = 1 := by
  have init : Mock.registered.NoSessions := by constructor <;> intros <;> rfl
  have bound : SessionOp.exec Mock.runtime (.bind (.worker 0 7) 7) Mock.registered =
      .ok ((), Mock.registered.bindSession (.worker 0 7) 7) := rfl
  obtain ⟨s, started, online⟩ := Mock.exists_of_endsIn
    (m := SessionOp.exec Mock.runtime (.start (.worker 0 7) (10 ^ 12)))
    (s := Mock.registered.bindSession (.worker 0 7) 7) (Q := fun s => s.onlineWorkers = 1)
    (by decide +kernel)
  have reached : Reach State.NoSessions (SessionStep Mock.runtime) s :=
    .step (.step (.init init) (.inl ⟨_, bound⟩)) (.inl ⟨_, started⟩)
  have online : s.onlineWorkers = 1 := of_decide_eq_true online
  exact ⟨s, reached, online, (session_storage_consistent reached).1.counted ▸ online⟩

end Cyrux
