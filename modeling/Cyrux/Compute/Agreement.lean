import Cyrux.Compute.Invariant
import Cyrux.Compute.Sessions

/-!
# Stake pools and sessions agree
-/

namespace Cyrux

variable {A W : Type}

/-! ## The crews of the pools -/

namespace PoolProxy

def workers : PoolProxy A W → List W
  | stakePool p => p.workers
  | vault _ => []

def cdWorkers : PoolProxy A W → List W
  | stakePool p => p.cdWorkers
  | vault _ => []

@[simp] theorem workers_withBase {q : PoolProxy A W} {b : BasePool A} :
    (q.withBase b).workers = q.workers := by cases q <;> rfl

@[simp] theorem cdWorkers_withBase {q : PoolProxy A W} {b : BasePool A} :
    (q.withBase b).cdWorkers = q.cdWorkers := by cases q <;> rfl

end PoolProxy

namespace State

def workersAt (v : State A W) (pid : ℕ) : List W := (v.pools pid).elim [] PoolProxy.workers

def cdWorkersAt (v : State A W) (pid : ℕ) : List W := (v.pools pid).elim [] PoolProxy.cdWorkers

end State

structure Crew (A W : Type) where
  workersAt : ℕ → List W
  cdWorkersAt : ℕ → List W
  assignments : W → Option ℕ
  sessions : SessionStore A W

def State.crew (v : State A W) : Crew A W where
  workersAt := v.workersAt
  cdWorkersAt := v.cdWorkersAt
  assignments := v.workerAssignments
  sessions := v.sessionStore

section Crew

variable {v x : State A W} {pid : ℕ} {q q' : PoolProxy A W}

theorem State.workersAt_of_stored (stored : v.pools pid = some q) :
    v.workersAt pid = q.workers := by
  simp [State.workersAt, stored]

theorem State.cdWorkersAt_of_stored (stored : v.pools pid = some q) :
    v.cdWorkersAt pid = q.cdWorkers := by
  simp [State.cdWorkersAt, stored]

theorem State.workersAt_putPool :
    (v.putPool pid q).workersAt = Function.update v.workersAt pid q.workers := by
  funext pid'
  by_cases h : pid' = pid
  · subst h
    simp [State.workersAt]
  · simp [State.workersAt, State.putPool_of_ne h, h]

theorem State.cdWorkersAt_putPool :
    (v.putPool pid q).cdWorkersAt = Function.update v.cdWorkersAt pid q.cdWorkers := by
  funext pid'
  by_cases h : pid' = pid
  · subst h
    simp [State.cdWorkersAt]
  · simp [State.cdWorkersAt, State.putPool_of_ne h, h]

theorem State.crew_putPool (same : x.crew = v.crew) (workers : v.workersAt pid = q'.workers)
    (cdWorkers : v.cdWorkersAt pid = q'.cdWorkers) : (x.putPool pid q').crew = v.crew := by
  have workers' : x.workersAt = v.workersAt := congrArg Crew.workersAt same
  have cdWorkers' : x.cdWorkersAt = v.cdWorkersAt := congrArg Crew.cdWorkersAt same
  have put : (x.putPool pid q').workersAt = v.workersAt := by
    rw [State.workersAt_putPool, workers', ← workers, Function.update_eq_self]
  have cdPut : (x.putPool pid q').cdWorkersAt = v.cdWorkersAt := by
    rw [State.cdWorkersAt_putPool, cdWorkers', ← cdWorkers, Function.update_eq_self]
  rw [← same]
  unfold State.crew
  rw [put, cdPut, workers', cdWorkers']
  rfl

theorem State.crew_stored (stored : v.pools pid = some q) (same : x.crew = v.crew)
    (workers : q'.workers = q.workers) (cdWorkers : q'.cdWorkers = q.cdWorkers) :
    (x.putPool pid q').crew = v.crew :=
  State.crew_putPool same ((State.workersAt_of_stored stored).trans workers.symm)
    ((State.cdWorkersAt_of_stored stored).trans cdWorkers.symm)

theorem State.crew_withBase {b b' : BasePool A} (stored : v.pools pid = some (q.withBase b))
    (same : x.crew = v.crew) : (x.putPool pid (q.withBase b')).crew = v.crew :=
  State.crew_stored stored same (by simp) (by simp)

end Crew

theorem ShareEffect.crew [DecidableEq A] {cfg : Config A W} {v v' : State A W} {l : Label A}
    (effect : ShareEffect cfg l v v') (tidy : Tidy cfg v) : v'.crew = v.crew := by
  have fresh := tidy.fresh v.poolCount le_rfl
  cases effect with
  | merge =>
    unfold State.mergeNfts
    rw [State.burnNfts_eq]
    rfl
  | contribute stored => exact State.crew_withBase stored rfl
  | request stored =>
    refine State.crew_withBase stored ?_
    rw [State.burnNfts_eq]
    rfl
  | reduce => rfl
  | dust stored => exact State.crew_withBase stored rfl
  | part stored => exact State.crew_withBase stored rfl
  | full stored => exact State.crew_withBase stored rfl
  | gain stored => exact State.crew_stored stored rfl rfl rfl
  | claim stored => exact State.crew_stored stored rfl rfl rfl
  | createStakePool =>
    exact State.crew_putPool rfl (by simp [State.workersAt, fresh, PoolProxy.workers])
      (by simp [State.cdWorkersAt, fresh, PoolProxy.cdWorkers])
  | createVault =>
    exact State.crew_putPool rfl (by simp [State.workersAt, fresh, PoolProxy.workers])
      (by simp [State.cdWorkersAt, fresh, PoolProxy.cdWorkers])

/-! ## The agreement -/

structure Agree (cfg : Config A W) (v : State A W) : Prop where
  sessions : SessionsOk v
  listed : ∀ w pid, v.workerAssignments w = some pid ↔ w ∈ v.workersAt pid
  nodup : ∀ pid, (v.workersAt pid).Nodup
  bound : ∀ w pid, v.workerAssignments w = some pid ↔
    v.workerBindings w = some (cfg.poolSubAccount pid w)
  own : ∀ w session, v.workerBindings w = some session →
    ∃ pid, session = cfg.poolSubAccount pid w
  cooling : ∀ pid, ∀ w ∈ v.cdWorkersAt pid, ∃ info,
    v.sessions (cfg.poolSubAccount pid w) = some info ∧ info.state = .workerCoolingDown

theorem Config.poolSubAccount_inj {cfg : Config A W} {pid pid' : ℕ} {w w' : W}
    (h : cfg.poolSubAccount pid w = cfg.poolSubAccount pid' w') : pid = pid' ∧ w = w' := by
  have roles := congrArg cfg.role h
  rw [cfg.role_worker, cfg.role_worker] at roles
  cases roles
  exact ⟨rfl, rfl⟩

theorem Agree.session {cfg : Config A W} {v v' : State A W} (h : Agree cfg v)
    (sessions : SessionsOk v') (workers : v'.workersAt = v.workersAt)
    (assignments : v'.workerAssignments = v.workerAssignments)
    (bindings : v'.workerBindings = v.workerBindings)
    (cooling : ∀ pid, ∀ w ∈ v'.cdWorkersAt pid, ∃ info,
      v'.sessions (cfg.poolSubAccount pid w) = some info ∧ info.state = .workerCoolingDown) :
    Agree cfg v' := by
  refine ⟨sessions, ?_, ?_, ?_, ?_, cooling⟩
  · rw [assignments, workers]
    exact h.listed
  · rw [workers]
    exact h.nodup
  · rw [assignments, bindings]
    exact h.bound
  · rw [bindings]
    exact h.own

theorem Agree.frame {cfg : Config A W} {v v' : State A W} (h : Agree cfg v)
    (same : v'.crew = v.crew) : Agree cfg v' := by
  have workers : v'.workersAt = v.workersAt := congrArg Crew.workersAt same
  have cdWorkers : v'.cdWorkersAt = v.cdWorkersAt := congrArg Crew.cdWorkersAt same
  have assignments : v'.workerAssignments = v.workerAssignments := congrArg Crew.assignments same
  have store : v'.sessionStore = v.sessionStore := congrArg Crew.sessions same
  have sessions : v'.sessions = v.sessions := congrArg SessionStore.sessions store
  have bindings : v'.workerBindings = v.workerBindings :=
    congrArg SessionStore.workerBindings store
  refine h.session (h.sessions.frame store) workers assignments bindings ?_
  rw [cdWorkers, sessions]
  exact h.cooling

/-! ## Effects -/

section Effects

variable [DecidableEq A] [DecidableEq W] {cfg : Config A W} {v v' : State A W} {pid : ℕ} {w : W}

omit [DecidableEq A] [DecidableEq W] in
theorem Agree.sessionBinding (h : Agree cfg v) (assigned : v.workerAssignments w = some pid) :
    v.sessionBindings (cfg.poolSubAccount pid w) = some w :=
  (h.sessions.mirror _ _).2 ((h.bound w pid).1 assigned)

omit [DecidableEq A] [DecidableEq W] in
theorem Agree.unassigned (h : Agree cfg v) (unbound : v.workerBindings w = none) :
    v.workerAssignments w = none := by
  by_contra assigned
  obtain ⟨pid, assigned⟩ := Option.ne_none_iff_exists'.1 assigned
  rw [(h.bound w pid).1 assigned] at unbound
  cases unbound

theorem Agree.bind {p : StakePool A W} (h : Agree cfg v)
    (stored : v.pools pid = some (.stakePool p))
    (new : w ∉ p.workers) (unbound : v.sessionBindings (cfg.poolSubAccount pid w) = none)
    (unused : v.workerBindings w = none)
    (ready : ((v.sessions (cfg.poolSubAccount pid w)).all fun info => info.state = .ready) = true) :
    Agree cfg { (v.bindSession (cfg.poolSubAccount pid w) w).putPool pid
        (.stakePool { p with workers := p.workers ++ [w] }) with
      workerAssignments := Function.update v.workerAssignments w (some pid) } := by
  set v' : State A W := { (v.bindSession (cfg.poolSubAccount pid w) w).putPool pid
      (.stakePool { p with workers := p.workers ++ [w] }) with
    workerAssignments := Function.update v.workerAssignments w (some pid) } with hv
  have crew : v.workersAt pid = p.workers := State.workersAt_of_stored stored
  have workers : v'.workersAt = Function.update v.workersAt pid (p.workers ++ [w]) :=
    State.workersAt_putPool
  have cdWorkers : v'.cdWorkersAt = v.cdWorkersAt := by
    refine State.cdWorkersAt_putPool.trans ?_
    exact Function.update_eq_iff.2 ⟨(State.cdWorkersAt_of_stored stored).symm, fun _ _ => rfl⟩
  have free := h.unassigned unused
  have sessions : SessionsOk v' := (h.sessions.bind unbound unused ready).frame rfl
  have assignments : v'.workerAssignments = Function.update v.workerAssignments w (some pid) := rfl
  have bindings : v'.workerBindings =
      Function.update v.workerBindings w (some (cfg.poolSubAccount pid w)) := rfl
  refine ⟨sessions, ?_, ?_, ?_, ?_, ?_⟩
  · intro w' pid'
    have old := h.listed w' pid'
    rw [assignments, workers]
    by_cases ew : w' = w <;> by_cases ep : pid' = pid
    · simp [ew, ep]
    · subst ew
      rw [free] at old
      simpa [ep, Ne.symm ep] using old
    · subst ep
      rw [crew] at old
      simpa [ew] using old
    · simpa [ew, ep] using old
  · intro pid'
    rw [workers]
    by_cases ep : pid' = pid
    · subst ep
      rw [Function.update_self, ← crew]
      refine (h.nodup pid').append (List.nodup_singleton w) ?_
      rw [crew]
      simpa using new
    · rw [Function.update_of_ne ep]
      exact h.nodup pid'
  · intro w' pid'
    rw [assignments, bindings]
    by_cases ew : w' = w
    · subst ew
      simp only [Function.update_self, Option.some.injEq]
      exact ⟨fun e => by rw [e], fun e => (Config.poolSubAccount_inj e).1⟩
    · simpa [ew] using h.bound w' pid'
  · intro w' session
    rw [bindings]
    by_cases ew : w' = w
    · subst ew
      simp only [Function.update_self, Option.some.injEq]
      exact fun e => ⟨pid, e.symm⟩
    · simpa [ew] using h.own w' session
  · intro pid' w' mem
    rw [cdWorkers] at mem
    obtain ⟨info, found, cooling⟩ := h.cooling pid' w' mem
    refine ⟨info, ?_, cooling⟩
    have other : cfg.poolSubAccount pid' w' ≠ cfg.poolSubAccount pid w := by
      intro e
      rw [← e, found, Option.all_some, decide_eq_true_eq, cooling] at ready
      cases ready
    exact (Function.update_of_ne other _ _).trans found

omit [DecidableEq W] in
theorem Agree.put {session : A} {info info' : SessionInfo} (h : Agree cfg v)
    (sessions : SessionsOk v') (found : v.sessions session = some info)
    (cooling : info.state = .workerCoolingDown → info'.state = .workerCoolingDown)
    (store : v'.sessions = (v.putSession session info').sessions)
    (bindings : v'.workerBindings = v.workerBindings)
    (assignments : v'.workerAssignments = v.workerAssignments) (pools : v'.pools = v.pools) :
    Agree cfg v' := by
  have workers : v'.workersAt = v.workersAt := by
    unfold State.workersAt
    rw [pools]
  have cdWorkers : v'.cdWorkersAt = v.cdWorkersAt := by
    unfold State.cdWorkersAt
    rw [pools]
  refine h.session sessions workers assignments bindings fun pid' w' mem => ?_
  rw [cdWorkers] at mem
  obtain ⟨info'', found', cooling'⟩ := h.cooling pid' w' mem
  rw [store]
  by_cases e : cfg.poolSubAccount pid' w' = session
  · rw [e, found] at found'
    cases found'
    exact ⟨info', by simp [State.putSession, e], cooling cooling'⟩
  · exact ⟨info'', (Function.update_of_ne e _ _).trans found', cooling'⟩

omit [DecidableEq A] in
theorem State.workersAt_unassign (pid : ℕ) (w : W) : (v.unassign pid w).workersAt =
    Function.update v.workersAt pid ((v.workersAt pid).filter fun w' => w' ≠ w) := by
  funext pid'
  by_cases ep : pid' = pid
  · subst ep
    rcases h : v.pools pid' with _ | p | u <;>
      simp [State.workersAt, State.unassign, h, PoolProxy.workers, StakePool.removeWorker]
  · rcases h : v.pools pid with _ | p | u <;> simp [State.workersAt, State.unassign, h, ep]

omit [DecidableEq A] in
theorem State.cdWorkersAt_unassign (pid : ℕ) (w : W) :
    (v.unassign pid w).cdWorkersAt = v.cdWorkersAt := by
  funext pid'
  rcases h : v.pools pid with _ | p | u
  · simp [State.cdWorkersAt, State.unassign, h]
  · by_cases ep : pid' = pid
    · subst ep
      simp [State.cdWorkersAt, State.unassign, h, PoolProxy.cdWorkers, StakePool.removeWorker]
    · simp [State.cdWorkersAt, State.unassign, h, ep]
  · simp [State.cdWorkersAt, State.unassign, h]

theorem Agree.unbind (h : Agree cfg v) (assigned : v.workerAssignments w = some pid) :
    Agree cfg ((v.unbindSession (cfg.poolSubAccount pid w) w).unassign pid w) := by
  set v' := (v.unbindSession (cfg.poolSubAccount pid w) w).unassign pid w with hv
  have workers : v'.workersAt =
      Function.update v.workersAt pid ((v.workersAt pid).filter fun w' => w' ≠ w) :=
    State.workersAt_unassign pid w
  have cdWorkers : v'.cdWorkersAt = v.cdWorkersAt := State.cdWorkersAt_unassign pid w
  have assignments : v'.workerAssignments = Function.update v.workerAssignments w none := rfl
  have bindings : v'.workerBindings = Function.update v.workerBindings w none := rfl
  refine ⟨(h.sessions.unbind (h.sessionBinding assigned)).frame rfl, ?_, ?_, ?_, ?_, ?_⟩
  · intro w' pid'
    have old := h.listed w' pid'
    rw [assignments, workers]
    by_cases ew : w' = w <;> by_cases ep : pid' = pid
    · simp [ew, ep]
    · subst ew
      rw [assigned] at old
      simpa [ep, Ne.symm ep] using old
    · subst ep
      simpa [ew] using old
    · simpa [ew, ep] using old
  · intro pid'
    rw [workers]
    by_cases ep : pid' = pid
    · subst ep
      rw [Function.update_self]
      exact (h.nodup pid').filter _
    · rw [Function.update_of_ne ep]
      exact h.nodup pid'
  · intro w' pid'
    rw [assignments, bindings]
    by_cases ew : w' = w
    · simp [ew]
    · simpa [ew] using h.bound w' pid'
  · intro w' session
    rw [bindings]
    by_cases ew : w' = w
    · simp [ew]
    · simpa [ew] using h.own w' session
  · rw [cdWorkers]
    exact h.cooling

theorem SideEffect.agree {l : Label A} (effect : SideEffect cfg l v v') (h : Agree cfg v) :
    Agree cfg v' := by
  cases effect with
  | other same | voted same =>
    refine h.frame ?_
    unfold State.crew State.workersAt State.cdWorkersAt State.sessionStore
    rw [same.pools, same.workerAssignments, same.sessions, same.sessionBindings,
      same.workerBindings, same.stakes, same.onlineWorkers]
  | mark stored => exact h.frame (State.crew_stored stored rfl rfl rfl)
  | setStakePool stored => exact h.frame (State.crew_stored stored rfl rfl rfl)
  | setVault stored => exact h.frame (State.crew_stored stored rfl rfl rfl)
  | forget stored => exact h.frame (State.crew_stored stored rfl rfl rfl)
  | vaultReward stored => exact h.frame (State.crew_stored stored rfl rfl rfl)
  | poolReward stored funded owner covered =>
    refine h.frame (State.crew_stored stored ?_ rfl rfl)
    rw [owner, State.mintOrDust_eq cfg (State.mintOrDust _ _ _ _), State.mintOrDust_eq]
    rfl
  | payOwner => exact h.frame rfl
  | bind stored new session worker ready => exact h.bind stored new session worker ready
  | start stored worker found ready unstaked idle =>
    refine h.put ((h.sessions.start found ready idle).frame rfl) found (fun cooling => ?_) rfl rfl
      rfl rfl
    rw [ready] at cooling
    cases cooling
  | @stop _ pid p w info info' stored worker fresh found running cooling online =>
    refine h.session ((h.sessions.stop found running cooling).frame rfl) ?_ rfl rfl ?_
    · refine State.workersAt_putPool.trans ?_
      exact Function.update_eq_iff.2 ⟨(State.workersAt_of_stored stored).symm, fun _ _ => rfl⟩
    · -- The stopped session cools down, and so do those that did before.
      intro pid' w' mem
      by_cases e : cfg.poolSubAccount pid' w' = cfg.poolSubAccount pid w
      · rw [e]
        exact ⟨info', Function.update_self _ _ _, cooling⟩
      · have old : w' ∈ v.cdWorkersAt pid' := by
          rw [State.cdWorkersAt_putPool] at mem
          by_cases ep : pid' = pid
          · subst ep
            rw [Function.update_self] at mem
            rw [State.cdWorkersAt_of_stored stored]
            rcases List.mem_append.1 mem with mem | mem
            · exact mem
            · rw [List.mem_singleton.1 mem] at e
              exact absurd rfl e
          · rwa [Function.update_of_ne ep] at mem
        obtain ⟨info'', found', cooling'⟩ := h.cooling pid' w' old
        exact ⟨info'', (Function.update_of_ne e _ _).trans found', cooling'⟩
  | @reclaim _ pid p w stake info info' stored found cooling ready =>
    refine h.session ((h.sessions.reclaim found cooling ready).frame rfl) ?_ rfl rfl ?_
    · refine State.workersAt_putPool.trans ?_
      exact Function.update_eq_iff.2 ⟨(State.workersAt_of_stored stored).symm, fun _ _ => rfl⟩
    · -- The session that no longer cools down has left the list.
      intro pid' w' mem
      rw [State.cdWorkersAt_putPool] at mem
      have old : w' ∈ v.cdWorkersAt pid' ∧
          cfg.poolSubAccount pid' w' ≠ cfg.poolSubAccount pid w := by
        by_cases ep : pid' = pid
        · subst ep
          rw [Function.update_self] at mem
          obtain ⟨mem, ne⟩ := List.mem_filter.1 mem
          rw [State.cdWorkersAt_of_stored stored]
          exact ⟨mem, fun e => of_decide_eq_true ne (Config.poolSubAccount_inj e).2⟩
        · rw [Function.update_of_ne ep] at mem
          exact ⟨mem, fun e => ep (Config.poolSubAccount_inj e).1⟩
      obtain ⟨info'', found', cooling'⟩ := h.cooling pid' w' old.1
      exact ⟨info'', (Function.update_of_ne old.2 _ _).trans found', cooling'⟩
  | @unbind _ halted pid session w bound info info' assigned binding same found stopped =>
    -- The session is that of the worker in its pool, whoever asked for the unbinding.
    have own := h.sessionBinding assigned
    obtain ⟨rfl, rfl⟩ : w = bound ∧ session = cfg.poolSubAccount pid w := by
      rcases same with rfl | rfl
      · have first := (h.sessions.mirror _ _).1 binding
        rw [(h.sessions.mirror _ _).1 own] at first
        exact ⟨rfl, (Option.some.inj first).symm⟩
      · exact ⟨Option.some.inj (own.symm.trans binding), rfl⟩
    obtain ⟨-, rfl⟩ | ⟨-, ready, cooling, cooling', online, rfl⟩ := stopped
    · exact h.unbind assigned
    · refine Agree.unbind ?_ assigned
      exact h.put ((h.sessions.stop found ⟨ready, cooling⟩ cooling').frame rfl) found
        (fun _ => cooling') rfl rfl rfl rfl
  | report found state =>
    refine h.put ((h.sessions.report found state).frame rfl) found (fun cooling => ?_) rfl rfl rfl
      rfl
    rcases state with same | ⟨computing, -⟩
    · rw [same, cooling]
    · rw [cooling] at computing
      cases computing
  | wrap =>
    refine h.frame ?_
    rw [State.mintOrDust_eq]
    rfl
  | unwrap => exact h.frame rfl

theorem Effect.agree {l : Label A} (effect : Effect cfg l v v') (tidy : Tidy cfg v)
    (h : Agree cfg v) : Agree cfg v' := by
  cases effect with
  | share effect => exact h.frame (effect.crew tidy)
  | side effect => exact effect.agree h

/-! ## Runs -/

omit [DecidableEq A] [DecidableEq W] in
theorem Genesis.agree {s : State A W} (h : s.Genesis) : Agree cfg s := by
  have sessions : s.NoSessions :=
    ⟨h.sessions, h.sessionBindings, h.workerBindings, h.stakes, h.onlineWorkers⟩
  refine ⟨sessions.ok, ?_, ?_, ?_, ?_, ?_⟩
  · intro w pid
    simp [h.workerAssignments w, State.workersAt, h.pools pid]
  · intro pid
    simp [State.workersAt, h.pools pid]
  · intro w pid
    simp [h.workerAssignments w, h.workerBindings w]
  · intro w session bound
    simp [h.workerBindings w] at bound
  · intro pid w mem
    simp [State.cdWorkersAt, h.pools pid] at mem

theorem agree_invariant {Ok : State A W → Event A W → Prop} :
    Invariant cfg Ok (Agree cfg) fun _ _ => True :=
  .unrestricted (fun _ h => Genesis.agree h) fun _ _ _ tidy h effect => effect.agree tidy h

omit [DecidableEq W] in
theorem Blame.not_worker {f : Fault} (blame : Blame cfg P v f) (h : Agree cfg v) :
    f ≠ .panic .releasingStake none ∧ f ≠ .panic .removeWorker none := by
  cases blame with
  | locked cause =>
    constructor
    · rintro rfl
      cases cause
    · rintro rfl
      cases cause
  | bankrupt => exact ⟨by rintro ⟨⟩, by rintro ⟨⟩⟩
  | stuck panic =>
    constructor
    · rintro rfl
      cases panic
    · rintro rfl
      cases panic
  | @releasing pid p w stored cooling unstaked =>
    obtain ⟨info, found, state⟩ := h.cooling pid w (by rwa [State.cdWorkersAt_of_stored stored])
    have staked := (h.sessions.staked (cfg.poolSubAccount pid w)).2
      ⟨info, found, by rw [state]; rfl⟩
    rw [unstaked] at staked
    cases staked
  | @unassigned session w bound unassigned =>
    obtain ⟨pid, rfl⟩ := h.own w session ((h.sessions.mirror _ _).1 bound)
    rw [(h.bound w pid).2 ((h.sessions.mirror _ _).1 bound)] at unassigned
    cases unassigned

omit [DecidableEq A] [DecidableEq W] in
theorem State.mem_workersAt {s : State A W} :
    w ∈ s.workersAt pid ↔ ∃ p, s.pools pid = some (.stakePool p) ∧ w ∈ p.workers := by
  rcases h : s.pools pid with _ | p | u <;> simp [State.workersAt, h, PoolProxy.workers]

/-- Stake pools and `computation` agree on workers, bindings and cool downs. -/
theorem stake_pools_and_sessions_agree {s : State A W}
    (reached : Reachable cfg (fun _ _ => True) s) :
    (∀ w pid, s.workerAssignments w = some pid ↔
      ∃ p, s.pools pid = some (.stakePool p) ∧ w ∈ p.workers) ∧
    (∀ pid p, s.pools pid = some (.stakePool p) → p.workers.Nodup) ∧
    (∀ w pid, s.workerAssignments w = some pid ↔
      s.workerBindings w = some (cfg.poolSubAccount pid w)) ∧
    (∀ pid p, s.pools pid = some (.stakePool p) → ∀ w ∈ p.cdWorkers,
      (s.stakes (cfg.poolSubAccount pid w)).isSome ∧ ∃ info,
        s.sessions (cfg.poolSubAccount pid w) = some info ∧ info.state = .workerCoolingDown) ∧
    ∀ (e : Event A W) (f : Fault), e.Authentic cfg → e.exec cfg s = .error f →
      f ≠ .panic .releasingStake none ∧ f ≠ .panic .removeWorker none := by
  have h : Agree cfg s := agree_invariant.reachable reached
  refine ⟨?_, ?_, h.bound, ?_, ?_⟩
  · intro w pid
    rw [h.listed, State.mem_workersAt]
  · intro pid p stored
    have nodup := h.nodup pid
    rwa [State.workersAt_of_stored stored] at nodup
  · intro pid p stored w mem
    obtain ⟨info, found, state⟩ := h.cooling pid w (by rwa [State.cdWorkersAt_of_stored stored])
    exact ⟨(h.sessions.staked _).2 ⟨info, found, by rw [state]; rfl⟩, info, found, state⟩
  · intro e f authentic failed
    rcases agree_invariant.blame reached authentic trivial failed with plain | ⟨v, -, h, blame⟩
    · constructor
      · rintro rfl
        cases plain
      · rintro rfl
        cases plain
    · exact blame.not_worker h

end Effects

theorem stake_pools_and_sessions_agree_stopped : ∃ s,
    Reachable Mock.runtime (fun _ _ => True) s ∧ ∃ p, s.pools 0 = some (.stakePool p) ∧
      7 ∈ p.cdWorkers ∧ ∃ info, s.sessions (.worker 0 7) = some info ∧
        info.state = .workerCoolingDown := by
  obtain ⟨s, reached, stopped⟩ := Mock.exists_reachable Mock.runtime (fun _ _ => True)
    (Mock.opening (10 ^ 15) (10 ^ 15) ++ [
      .signed Mock.alice (.contributeStakePool 0 (10 ^ 12) none),
      .signed Mock.alice (.startComputing 0 7 (10 ^ 12)),
      .signed Mock.alice (.stopComputing 0 7)])
    (fun s => 7 ∈ s.cdWorkersAt 0) (by decide +kernel)
  have mem : 7 ∈ s.cdWorkersAt 0 := of_decide_eq_true stopped
  rcases stored : s.pools 0 with _ | p | u
  · simp [State.cdWorkersAt, stored] at mem
  · rw [State.cdWorkersAt_of_stored stored] at mem
    have agree := (stake_pools_and_sessions_agree reached).2.2.2.1 0 p stored 7 mem
    exact ⟨s, reached, p, stored, mem, agree.2⟩
  · simp [State.cdWorkersAt, stored, PoolProxy.cdWorkers] at mem

end Cyrux
