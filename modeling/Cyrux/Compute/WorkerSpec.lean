import Cyrux.Compute.VaultSpec

/-!
# Sessions and workers as effects
-/

namespace Cyrux

open Exec

variable {A W : Type} [DecidableEq A] [DecidableEq W] {cfg : Config A W}
  {P : State A W → Label A → Prop} {s : State A W}

/-! ## Sessions -/

namespace Computation

structure Halts (session : A) (info : SessionInfo) (s halted : State A W) : Prop where
  running : info.state ≠ .ready ∧ info.state ≠ .workerCoolingDown
  online : 0 < s.onlineWorkers
  stopped : ∃ info', info'.state = .workerCoolingDown ∧ halted = s.stopSession session info'

omit [DecidableEq W] in
theorem reclaim_spec (session : A) (check : Bool) (s : State A W) :
    Sat (reclaim session check) s
      (fun r s' => ∃ info info', s.sessions session = some info ∧
        info.state = .workerCoolingDown ∧ info'.state = .ready ∧
        r = ((s.stakes session).getD 0, 0) ∧ s' = s.reclaimSession session info')
      (fun f => f.plain = true) := by
  have cooling : ∀ info : SessionInfo, Sat (canReclaim info check) s
      (fun ready s' => (ready = true → info.state = .workerCoolingDown) ∧ s' = s)
      (fun f => f.plain = true) := by
    intro info
    refine Sat.ite (fun _ => ⟨by simp, rfl⟩) fun state => ?_
    have state : info.state = .workerCoolingDown := not_not.1 state
    refine Sat.ite (fun _ => ?_) fun _ => ⟨fun _ => state, rfl⟩
    exact Sat.get_bind (Sat.ensure_bind (fun _ => ⟨fun _ => state, rfl⟩) fun _ => rfl)
  refine Sat.get_bind (Sat.demand_bind (fun info found => ?_) fun _ => rfl)
  refine (cooling info).bind (fun _ h => h) ?_
  rintro ready s ⟨state, rfl⟩
  refine Sat.ensure_bind (fun ok => ?_) fun _ => rfl
  exact ⟨info, { info with state := .ready, coolDownStart := 0 }, found, state ok, rfl, rfl, rfl⟩

theorem bind_spec (session : A) (w : W) (s : State A W) :
    Sat (Computation.bind cfg session w) s
      (fun _ s' => s.sessionBindings session = none ∧ s.workerBindings w = none ∧
        ((s.sessions session).all fun info => info.state = .ready) = true ∧
        s' = s.bindSession session w)
      (fun f => f.plain = true) := by
  refine Sat.get_bind (Sat.demand_bind (fun info _ => ?_) fun _ => rfl)
  refine Sat.ensure_bind (fun _ => ?_) fun _ => rfl
  refine Sat.ensure_bind (fun _ => ?_) fun _ => rfl
  refine Sat.ensure_bind (fun unbound => ?_) fun _ => rfl
  refine Sat.ensure_bind (fun unused => ?_) fun _ => rfl
  refine Sat.ensure_bind (fun ready => ?_) fun _ => rfl
  exact ⟨Option.isNone_iff_eq_none.1 unbound, Option.isNone_iff_eq_none.1 unused, ready, rfl⟩

omit [DecidableEq W] in
theorem stopComputing_spec (session : A) (s : State A W) :
    Sat (stopComputing session) s
      (fun _ s' => ∃ w info, s.sessionBindings session = some w ∧
        s.sessions session = some info ∧ Halts session info s s')
      (fun f => f.plain = true ∧ (f.ofSession = true → s.onlineWorkers = 0 ∧
        ∃ w info, s.sessionBindings session = some w ∧ s.sessions session = some info ∧
          info.state ≠ .ready ∧ info.state ≠ .workerCoolingDown)) := by
  refine Sat.get_bind (Sat.demand_bind (fun w bound => ?_) fun _ => ⟨rfl, by rintro ⟨⟩⟩)
  refine Sat.demand_bind (fun info found => ?_) fun _ => ⟨rfl, by rintro ⟨⟩⟩
  refine Sat.ensure_bind (fun running => ?_) fun _ => ⟨rfl, by rintro ⟨⟩⟩
  refine Sat.ensure_bind (fun online => ?_) fun offline => ⟨rfl, fun _ => ?_⟩
  · exact ⟨w, info, bound, found, running, online,
      { info with state := .workerCoolingDown, coolDownStart := s.now }, rfl, rfl⟩
  · exact ⟨Nat.eq_zero_of_not_pos offline, w, info, bound, found, running.1, running.2⟩

omit [DecidableEq W] in
theorem startComputing_spec (session : A) (stake : ℕ) (s : State A W) :
    Sat (startComputing cfg session stake) s
      (fun _ s' => ∃ w info info', s.sessionBindings session = some w ∧
        s.sessions session = some info ∧ info.state = .ready ∧ s.stakes session = none ∧
        info'.state = .workerIdle ∧ s' = s.startSession session stake info')
      (fun f => f.plain = true ∧ (f.ofSession = true →
        ∃ info, s.sessions session = some info ∧ info.state = .ready ∧
          (s.stakes session).isSome)) := by
  refine Sat.get_bind (Sat.demand_bind (fun w bound => ?_) fun _ => ⟨rfl, by rintro ⟨⟩⟩)
  refine Sat.demand_bind (fun info found => ?_) fun _ => ⟨rfl, by rintro ⟨⟩⟩
  refine Sat.ensure_bind (fun ready => ?_) fun _ => ⟨rfl, by rintro ⟨⟩⟩
  refine Sat.ensure_bind (fun unstaked => ?_) fun staked => ⟨rfl, fun _ => ?_⟩
  swap
  · exact ⟨info, found, ready, by simpa [Option.isSome_iff_ne_none] using staked⟩
  refine Sat.demand_bind (fun workerInfo _ => ?_) fun _ => ⟨rfl, by rintro ⟨⟩⟩
  refine Sat.demand_bind (fun score _ => ?_) fun _ => ⟨rfl, by rintro ⟨⟩⟩
  refine Sat.ensure_bind (fun _ => ?_) fun _ => ⟨rfl, by rintro ⟨⟩⟩
  refine Sat.demand_bind (fun tokenomic _ => ?_) fun _ => ⟨rfl, by rintro ⟨⟩⟩
  refine Sat.demand_bind (fun least _ => ?_) fun _ => ⟨rfl, by rintro ⟨⟩⟩
  refine Sat.ensure_bind (fun _ => ?_) fun _ => ⟨rfl, by rintro ⟨⟩⟩
  refine Sat.demand_bind (fun ve _ => ?_) fun _ => ⟨rfl, by rintro ⟨⟩⟩
  refine Sat.ensure_bind (fun _ => ?_) fun _ => ⟨rfl, by rintro ⟨⟩⟩
  exact ⟨w, info, _, bound, found, ready, Option.isNone_iff_eq_none.1 unstaked, rfl, rfl⟩

def Released (session : A) (info : SessionInfo) (s halted : State A W) : Prop :=
  info.state.canUnbind = true ∧ halted = s ∨
    info.state.canUnbind = false ∧ Halts session info s halted

theorem unbindSession_sat {hook : W → Bool → Pallet A W Unit} {session : A} {notify : Bool}
    {Q : Unit → State A W → Prop} {E : Fault → Prop} (plain : ∀ f, f.plain = true → E f)
    (rest : ∀ w info halted, s.sessionBindings session = some w → s.sessions session = some info →
      Released session info s halted →
      Sat (when notify (hook w (!info.state.canUnbind))) (halted.unbindSession session w) Q E) :
    Sat (unbindSession hook session notify) s Q E := by
  refine Sat.bind (R := fun w s' => s.sessionBindings session = some w ∧ s' = s)
    (F := fun f => f.plain = true) ?_ plain ?_
  · exact Sat.get_bind (sat_demand.2 ⟨fun _ h => ⟨h, rfl⟩, fun _ => rfl⟩)
  rintro w s ⟨bound, rfl⟩
  refine Sat.get_bind (Sat.demand_bind (fun info found => ?_) fun _ => plain _ rfl)
  refine Sat.bind (R := fun _ halted => Released session info s halted)
    (F := fun f => f.plain = true) ?_ plain ?_
  · refine sat_when.2 ⟨fun force => ?_, fun calm => .inl ⟨by simpa using calm, rfl⟩⟩
    refine (stopComputing_spec session s).mono ?_ fun _ h => h.1
    rintro _ halted ⟨-, info', -, found', halts⟩
    obtain rfl : info' = info := Option.some.inj (found'.symm.trans found)
    exact .inr ⟨by simpa using force, halts⟩
  · intro _ halted released
    exact Sat.alter_bind (rest w info halted bound found released)

end Computation

namespace StakePoolV2

/-! ## Pools -/

theorem create_spec (owner : A) (lenient : Lenient cfg P) :
    Sat (create cfg owner) s (fun _ s' => Run cfg P s s') (fun _ => False) := by
  exact Run.share (lenient.free s) .createStakePool

theorem setCap_spec {owner : A} {pid cap : ℕ} (lenient : Lenient cfg P) :
    Sat (setCap owner pid cap) s (fun _ s' => Run cfg P s s') (fun f => f.plain = true) := by
  refine (ensureStakePool_spec pid s).bind (fun _ h => h) ?_
  rintro p s ⟨stored, rfl⟩
  refine Sat.ensure_bind (fun _ => ?_) fun _ => rfl
  refine Sat.ensure_bind (fun _ => ?_) fun _ => rfl
  exact sat_alter.2 (Run.side lenient (.setStakePool stored (List.Subset.refl _)))

theorem setPayoutPref_spec {owner : A} {pid : ℕ} {commission : Option Permill}
    (lenient : Lenient cfg P) :
    Sat (setPayoutPref owner pid commission) s (fun _ s' => Run cfg P s s')
      (fun f => f.plain = true) := by
  refine (ensureStakePool_spec pid s).bind (fun _ h => h) ?_
  rintro p s ⟨stored, rfl⟩
  refine Sat.ensure_bind (fun _ => ?_) fun _ => rfl
  exact sat_alter.2 (Run.side lenient (.setStakePool stored (List.Subset.refl _)))

theorem claimOwnerRewards_spec {who target : A} {pid : ℕ} (lenient : Lenient cfg P) :
    Sat (claimOwnerRewards cfg who pid target) s (fun _ s' => Run cfg P s s')
      (fun f => f.plain = true) := by
  refine (ensureStakePool_spec pid s).bind (fun _ h => h) ?_
  rintro p s ⟨stored, rfl⟩
  refine Sat.ensure_bind (fun _ => ?_) fun _ => rfl
  refine Sat.get_bind (Sat.ensure_bind (fun _ => ?_) fun _ => rfl)
  refine (Assets.transfer_spec _ _ _ s).mono ?_ ?_
  · rintro _ _ ⟨funded, opened, rfl⟩
    exact Run.side lenient (.payOwner stored funded opened)
  · rintro _ (⟨rfl, -⟩ | ⟨rfl, -⟩) <;> rfl

/-! ## Workers -/

theorem addWorker_spec {owner : A} {pid : ℕ} {w : W} (lenient : Lenient cfg P) :
    Sat (addWorker cfg owner pid w) s (fun _ s' => Run cfg P s s') (fun f => f.plain = true) := by
  refine Sat.get_bind (Sat.demand_bind (fun info _ => ?_) fun _ => rfl)
  refine Sat.ensure_bind (fun _ => ?_) fun _ => rfl
  refine Sat.ensure_bind (fun _ => ?_) fun _ => rfl
  refine (ensureStakePool_spec pid s).bind (fun _ h => h) ?_
  rintro p s ⟨stored, rfl⟩
  refine Sat.ensure_bind (fun _ => ?_) fun _ => rfl
  refine Sat.ensure_bind (fun new => ?_) fun _ => rfl
  refine Sat.ensure_bind (fun _ => ?_) fun _ => rfl
  refine (Sat.mapFault (Computation.bind_spec _ w s) (E := fun f => f.plain = true) ?_).bind
    (fun _ h => h) ?_
  · intro f plain
    cases f with
    | error e => rfl
    | panic => exact plain
    | outOfFuel => rfl
  rintro _ _ ⟨unbound, unused, ready, rfl⟩
  exact Run.side lenient (.bind stored new unbound unused ready)

omit [DecidableEq A] in
theorem removeWorkerFromPool_spec (w : W) (s : State A W) :
    Sat (removeWorkerFromPool w) s
      (fun _ s' => ∃ pid, s.workerAssignments w = some pid ∧ s' = s.unassign pid w)
      (fun f => f = .panic .removeWorker none ∧ s.workerAssignments w = none) := by
  refine Sat.get_bind (Sat.demand_bind (fun pid assigned => ?_) fun h => ⟨rfl, h⟩)
  rcases stored : s.pools pid with _ | p | u
  · exact ⟨pid, assigned, by simp [State.unassign, stored]⟩
  · refine sat_alter.2 ⟨pid, assigned, ?_⟩
    simp [State.unassign, State.putPool, stored]
  · exact ⟨pid, assigned, by simp [State.unassign, stored]⟩

theorem unbind_run {session : A} {w bound : W} {pid : ℕ} {info : SessionInfo} {halted : State A W}
    (lenient : Lenient cfg P) (assigned : s.workerAssignments w = some pid)
    (binding : s.sessionBindings session = some bound)
    (same : w = bound ∨ session = cfg.poolSubAccount pid w)
    (found : s.sessions session = some info)
    (released : Computation.Released session info s halted) :
    Run cfg P s ((halted.unbindSession session bound).unassign pid w) := by
  rcases released with ⟨calm, rfl⟩ | ⟨force, running, online, info', cooling, rfl⟩
  · exact Run.side lenient (@SideEffect.unbind _ _ _ _ _ _ _ _ _ _ _ info info assigned binding same
      found (.inl ⟨calm, rfl⟩))
  · exact Run.side lenient (.unbind assigned binding same found
      (.inr ⟨force, running.1, running.2, cooling, online, rfl⟩))

omit [DecidableEq W] in
theorem released_assignments {session : A} {info : SessionInfo} {halted : State A W}
    (released : Computation.Released session info s halted) :
    halted.workerAssignments = s.workerAssignments := by
  rcases released with ⟨-, rfl⟩ | ⟨-, -, -, info', -, rfl⟩ <;> rfl

theorem removeWorker_spec {who : A} {pid : ℕ} {w : W} (lenient : Lenient cfg P) :
    Sat (removeWorker cfg who pid w) s (fun _ s' => Run cfg P s s') (fun f => f.plain = true) := by
  refine (ensureStakePool_spec pid s).bind (fun _ h => h) ?_
  rintro p s ⟨stored, rfl⟩
  refine Sat.ensure_bind (fun _ => ?_) fun _ => rfl
  refine Sat.get_bind (Sat.demand_bind (fun pid' assigned => ?_) fun _ => rfl)
  refine Sat.ensure_bind (fun same => ?_) fun _ => rfl
  refine Sat.demand_bind (fun info _ => ?_) fun _ => rfl
  refine Sat.ensure_bind (fun _ => ?_) fun _ => rfl
  subst same
  refine sat_bind.2 (Computation.unbindSession_sat (fun _ h => h) ?_)
  intro bound info halted binding found released
  have assigned' : (halted.unbindSession (cfg.poolSubAccount pid w) bound).workerAssignments w =
      some pid := (congrFun (released_assignments released) w).trans assigned
  refine sat_when.2 ⟨by rintro ⟨⟩, fun _ => (removeWorkerFromPool_spec w _).mono ?_ ?_⟩
  · rintro _ _ ⟨pid', h, rfl⟩
    obtain rfl : pid' = pid := Option.some.inj (h.symm.trans assigned')
    exact unbind_run lenient assigned binding (.inr rfl) found released
  · rintro _ ⟨-, h⟩
    rw [assigned'] at h
    cases h

theorem unbind_spec {who session : A} (lenient : Lenient cfg P) :
    Sat (Computation.unbind onUnbound who session) s (fun _ s' => Run cfg P s s')
      (Excused cfg P s) := by
  refine Sat.bind (R := fun _ s' => s' = s) (F := fun f => f.plain = true) ?_
    (fun _ h => .plain h) ?_
  · exact Sat.get_bind (sat_demand.2 ⟨fun _ _ => rfl, fun _ => rfl⟩)
  rintro w s rfl
  refine Sat.get_bind (Sat.demand_bind (fun info _ => ?_) fun _ => .plain rfl)
  refine Sat.ensure_bind (fun _ => ?_) fun _ => .plain rfl
  refine Computation.unbindSession_sat (fun _ h => .plain h) ?_
  intro bound info halted binding found released
  have same : halted.workerAssignments = s.workerAssignments := released_assignments released
  refine sat_when.2 ⟨fun _ => (removeWorkerFromPool_spec bound _).mono ?_ ?_, by rintro ⟨⟩⟩
  · rintro _ _ ⟨pid, assigned, rfl⟩
    replace assigned := (congrFun same bound).symm.trans assigned
    exact unbind_run lenient assigned binding (.inl rfl) found released
  · rintro _ ⟨rfl, unassigned⟩
    exact .blame (.unassigned binding ((congrFun same bound).symm.trans unassigned))

theorem doStartComputing_spec {owner : A} {pid : ℕ} {w : W} {stake : ℕ} (lenient : Lenient cfg P) :
    Sat (doStartComputing cfg owner pid w stake) s (fun _ s' => Run cfg P s s')
      (fun f => f.plain = true) := by
  refine (ensureStakePool_spec pid s).bind (fun _ h => h) ?_
  rintro p s ⟨stored, rfl⟩
  refine Sat.ensure_bind (fun _ => ?_) fun _ => rfl
  refine (BasePool.getFreeStakes_spec _ s).bind (fun _ h => h.elim) ?_
  rintro free s ⟨rfl, rfl⟩
  refine Sat.ensure_bind (fun _ => ?_) fun _ => rfl
  refine Sat.ensure_bind (fun worker => ?_) fun _ => rfl
  refine (Computation.startComputing_spec _ stake s).bind (fun _ h => h.1) ?_
  rintro _ _ ⟨bound, info, info', -, found, ready, unstaked, idle, rfl⟩
  refine (Assets.transfer_spec _ _ _ _).bind ?_ ?_
  · rintro _ (⟨rfl, -⟩ | ⟨rfl, -⟩) <;> rfl
  rintro _ _ ⟨funded, opened, rfl⟩
  refine sat_alter.2 ?_
  have unchanged : ((s.startSession (cfg.poolSubAccount pid w) stake info').move cfg
      p.basepool.poolAccountId p.lockAccount stake).pools pid = some (.stakePool p) := stored
  rw [State.putPool_stored unchanged]
  exact Run.side lenient (.start stored worker found ready unstaked idle funded opened)

theorem doStopComputing_stopped (owner : A) (pid : ℕ) (w : W) (s : State A W) :
    Sat (doStopComputing cfg owner pid w) s
      (fun _ s' => ∃ p info', s.pools pid = some (.stakePool p) ∧
        SideEffect cfg .free s s' ∧
          s' = (s.stopSession (cfg.poolSubAccount pid w) info').putPool pid
          (.stakePool { p with cdWorkers := p.cdWorkers ++ [w] }))
      (fun f => f.plain = true) := by
  refine (ensureStakePool_spec pid s).bind (fun _ h => h) ?_
  rintro p s ⟨stored, rfl⟩
  refine Sat.ensure_bind (fun _ => ?_) fun _ => rfl
  refine Sat.ensure_bind (fun worker => ?_) fun _ => rfl
  refine Sat.ensure_bind (fun fresh => ?_) fun _ => rfl
  refine (Computation.stopComputing_spec _ s).bind (fun _ h => h.1) ?_
  rintro _ _ ⟨bound, info, -, found, running, online, info', cooling, rfl⟩
  exact sat_alter.2
    ⟨p, info', stored, .stop stored worker fresh found running cooling online, rfl⟩

theorem doStopComputing_spec {owner : A} {pid : ℕ} {w : W} (lenient : Lenient cfg P) :
    Sat (doStopComputing cfg owner pid w) s (fun _ s' => Run cfg P s s')
      (fun f => f.plain = true) :=
  (doStopComputing_stopped owner pid w s).mono
    (fun _ _ ⟨_, _, _, effect, _⟩ => Run.side lenient effect) fun _ h => h

theorem handleReclaim_spec {pid stake : ℕ} {w : W} {info info' : SessionInfo}
    (lenient : Lenient cfg P) (ready : Ready cfg s) (fills : ∀ v, P v (.fill pid))
    (found : s.sessions (cfg.poolSubAccount pid w) = some info)
    (cooling : info.state = .workerCoolingDown) (idle : info'.state = .ready)
    (staked : stake = (s.stakes (cfg.poolSubAccount pid w)).getD 0) :
    Sat (handleReclaim cfg pid stake 0) (s.reclaimSession (cfg.poolSubAccount pid w) info')
      (fun _ s' => ∃ p : StakePool A W, s'.pools pid = some (.stakePool p) ∧
        Run cfg P s (s'.putPool pid (.stakePool (p.removeCdWorker w))))
      (Excused cfg P s) := by
  refine (Sat.mapFault (ensureStakePool_spec pid _) (E := Excused cfg P s)
    fun f h => .plain (Fault.plain_expect h rfl)).bind (fun _ h => h) ?_
  rintro p _ ⟨stored, rfl⟩
  refine Sat.ensure_bind (fun _ => ?_) fun h => absurd (Nat.zero_le _) h
  refine (Sat.mapFault (Assets.transfer_spec _ _ _ _) (E := Excused cfg P s) ?_).bind
    (fun _ h => h) ?_
  · rintro _ (⟨rfl, -⟩ | ⟨rfl, -⟩) <;> exact .plain rfl
  rintro _ s₂ ⟨funded, opened, moved⟩
  have run : Run cfg P s
      (Frame.view ⟨pid, .stakePool (p.removeCdWorker w), none⟩ p.basepool s₂) := by
    rw [moved]
    exact Run.side lenient (.reclaim stored found cooling idle staked funded opened)
  have unlocked : s₂.nftLocks = ∅ := (run.ready ready).unlocked
  refine (BasePool.tryProcessWithdrawQueue_spec (Frame.fits_none unlocked) fun _ _ => fills).bind
    (fun _ h => h.after run) ?_
  intro b s₃ queue
  refine sat_alter.2 ⟨_, State.putPool_self _ _ _, ?_⟩
  rw [State.putPool_putPool]
  exact run.trans queue.run

theorem doReclaim_spec {pid : ℕ} {w : W} {check : Bool} (lenient : Lenient cfg P)
    (ready : Ready cfg s) (fills : ∀ v, P v (.fill pid)) :
    Sat (doReclaim cfg pid (cfg.poolSubAccount pid w) w check) s (fun _ s' => Run cfg P s s')
      (Excused cfg P s) := by
  refine (Computation.reclaim_spec _ check s).bind (fun _ h => .plain h) ?_
  rintro _ _ ⟨info, info', found, cooling, idle, rfl, rfl⟩
  refine (handleReclaim_spec lenient ready fills found cooling idle rfl).bind (fun _ h => h) ?_
  rintro _ s₁ ⟨p, stored, run⟩
  refine (ensureStakePool_spec pid s₁).bind (fun _ h => .plain h) ?_
  rintro p' s₁ ⟨stored', rfl⟩
  rw [stored] at stored'
  cases stored'
  exact Sat.alter_bind run

theorem reclaimPoolWorker_spec {pid : ℕ} {w : W} (lenient : Lenient cfg P) (ready : Ready cfg s)
    (fills : ∀ v, P v (.fill pid)) :
    Sat (reclaimPoolWorker cfg pid w) s (fun _ s' => Run cfg P s s') (Excused cfg P s) := by
  refine (ensureStakePool_spec pid s).bind (fun _ h => .plain h) ?_
  rintro _ s ⟨-, rfl⟩
  exact (doReclaim_spec lenient ready fills).bind (fun _ h => h) fun _ _ h => h

theorem restartComputing_spec {owner : A} {pid : ℕ} {w : W} {stake : ℕ} (lenient : Lenient cfg P)
    (ready : Ready cfg s) (fills : ∀ v, P v (.fill pid)) :
    Sat (restartComputing cfg owner pid w stake) s (fun _ s' => Run cfg P s s')
      (Excused cfg P s) := by
  refine (ensureStakePool_spec pid s).bind (fun _ h => .plain h) ?_
  rintro p s ⟨-, rfl⟩
  refine Sat.ensure_bind (fun _ => ?_) fun _ => .plain rfl
  refine (doStopComputing_spec lenient).bind (fun _ h => .plain h) ?_
  intro _ s₁ run₁
  refine (doReclaim_spec lenient (run₁.ready ready) fills).bind (fun _ h => h.after run₁) ?_
  intro ⟨stake', slashed⟩ s₂ run₂
  refine Sat.ensure_bind (fun _ => ?_) fun _ => .plain rfl
  refine Sat.ensure_bind (fun _ => ?_) fun _ => .plain rfl
  exact (doStartComputing_spec lenient).mono (fun _ _ run₃ => (run₁.trans run₂).trans run₃)
    fun _ h => .plain h

omit [DecidableEq A] [DecidableEq W] in
theorem releasingStake_spec {pid : ℕ} (workers : List W) (s : State A W) :
    Sat (releasingStake cfg pid workers) s (fun _ s' => s' = s)
      (fun f => f = .panic .releasingStake none ∧
        ∃ w ∈ workers, s.stakes (cfg.poolSubAccount pid w) = none) := by
  refine sat_foldlM (I := fun _ s' => s' = s) ?_ rfl
  rintro total w mem s rfl
  exact Sat.get_bind (Sat.demand_bind (fun _ _ => rfl) fun h => ⟨rfl, w, mem, h⟩)

theorem forceStop_spec {pid : ℕ} {p : StakePool A W} {w : W} (lenient : Lenient cfg P) :
    Sat (forceStop cfg pid p w) s (fun _ s' => Run cfg P s s') (fun f => f.plain = true) := by
  refine Sat.get_bind ?_
  split
  · exact Relation.ReflTransGen.refl
  · exact Sat.ite (fun _ => doStopComputing_spec lenient) fun _ => Relation.ReflTransGen.refl

theorem checkAndMaybeForceWithdraw_spec {pid : ℕ} (lenient : Lenient cfg P) (ready : Ready cfg s)
    (fills : ∀ v, P v (.fill pid)) :
    Sat (checkAndMaybeForceWithdraw cfg pid) s (fun _ s' => Run cfg P s s') (Excused cfg P s) := by
  refine Sat.get_bind ((ensureStakePool_spec pid s).bind (fun _ h => .plain h) ?_)
  rintro p s ⟨stored, rfl⟩
  have view : Frame.view ⟨pid, .stakePool p, none⟩ p.basepool s = s := Frame.view_stored stored
  refine (BasePool.tryProcessWithdrawQueue_spec (F := ⟨pid, .stakePool p, none⟩)
    (Frame.fits_none ready.unlocked) fun _ _ => fills).bind (fun _ h => view ▸ h) ?_
  intro b s₁ queue
  have run₁ : Run cfg P s (s₁.putPool pid (.stakePool { p with basepool := b })) := by
    have := queue.run
    rwa [view] at this
  refine (releasingStake_spec _ s₁).bind ?_ ?_
  · rintro _ ⟨rfl, w, cooling, unstaked⟩
    exact .after run₁ (.blame (.releasing (State.putPool_self _ _ _) cooling unstaked))
  rintro releasing s₁ rfl
  refine Sat.alter_bind ((BasePool.hasExpiredWithdrawal_spec b _ _ _ _
    (run₁.ready ready).unlocked).bind (fun _ h => .plain h) ?_)
  rintro expired _ rfl
  refine sat_when.2 ⟨fun _ => ?_, fun _ => run₁⟩
  refine sat_each (I := fun s' => Run cfg P s s') ?_ run₁
  intro w _ s₂ run₂
  exact (forceStop_spec lenient).mono (fun _ _ run₃ => run₂.trans run₃) fun _ h => .plain h

end StakePoolV2

end Cyrux
