import Cyrux.Compute.Mock
import Cyrux.Compute.Sessions

/-!
# Settlements and payouts
-/

namespace Cyrux

open Exec

variable {A W : Type}

namespace Computation

def accepts (s : State A W) (emitTs : ℕ) (info : SettleInfo W) : Bool :=
  ((s.workerBindings info.pubkey).bind s.sessions).any fun session => session.vUpdatedAt < emitTs

def settleAll [DecidableEq A] (cfg : Config A W) (emitTs : ℕ) :
    List (SettleInfo W) → Pallet A W (List (SettleInfo W))
  | [] => pure []
  | info :: rest => do
    let s ← get
    tryHandleSettle cfg emitTs info
    let later ← settleAll cfg emitTs rest
    pure (if accepts s emitTs info then info :: later else later)

def payAccepted [DecidableEq A] (cfg : Config A W)
    (onReward : List (SettleInfo W) → Pallet A W Unit) (event : WorkingInfoUpdate W) :
    Pallet A W Unit := do
  each (reportState .workerUnresponsive) event.offline
  each (reportState .workerIdle) event.recoveredToOnline
  let accepted ← settleAll cfg (event.timestampMs / 1000) event.settle
  onReward accepted

def Unassigned (s : State A W) (info : SettleInfo W) : Prop :=
  s.workerAssignments info.pubkey = none ∧ (fromFixed info.payout).isSome

structure Timely (emitTs : ℕ) (s : State A W) (settle : List (SettleInfo W)) : Prop where
  taken : ∀ info ∈ settle, accepts s emitTs info = true ∨ Unassigned s info
  apart : settle.Pairwise fun i j =>
    s.workerBindings i.pubkey ≠ s.workerBindings j.pubkey ∨ Unassigned s j

/-! ## One entry -/

section Entry

variable [DecidableEq A] {cfg : Config A W} {s s' : State A W} {emitTs : ℕ} {info : SettleInfo W}

theorem tryHandleSettle_dropped (dropped : accepts s emitTs info = false) :
    tryHandleSettle cfg emitTs info s = .ok ((), s) := by
  have spec : Sat (tryHandleSettle cfg emitTs info) s (fun _ s' => s' = s) (fun _ => False) := by
    unfold accepts at dropped
    refine Sat.get_bind ?_
    cases bound : s.workerBindings info.pubkey with
    | none => rfl
    | some account =>
      rw [bound, Option.bind_some] at dropped
      dsimp only
      cases found : s.sessions account with
      | none => rfl
      | some session =>
        rw [found, Option.any_some, decide_eq_false_iff_not, Nat.not_lt] at dropped
        dsimp only
        rw [if_pos dropped]
        rfl
  obtain ⟨⟨⟩, _, run, rfl⟩ := spec.returns
  exact run

structure Touches (s : State A W) (info : SettleInfo W) (s' : State A W) : Prop where
  bindings : s'.workerBindings = s.workerBindings
  assignments : s'.workerAssignments = s.workerAssignments
  sessions : ∀ a, s.workerBindings info.pubkey ≠ some a → s'.sessions a = s.sessions a

theorem tryHandleSettle_touches :
    Sat (tryHandleSettle cfg emitTs info) s (fun _ s' => Touches s info s') (fun _ => True) := by
  have refl : Touches s info s := ⟨rfl, rfl, fun _ _ => rfl⟩
  refine Sat.get_bind ?_
  split
  · exact refl
  rename_i account bound
  split
  · exact refl
  rename_i session found
  refine Sat.ite (fun _ => refl) fun _ => ?_
  refine Sat.demand_bind (fun payout _ => Sat.alter_bind ?_) fun _ => trivial
  refine Sat.demand_bind (fun treasury _ => ?_) fun _ => trivial
  set s₁ := s.putSession account { session with
    v := info.v, vUpdatedAt := s.now, totalReward := session.totalReward + payout } with hs₁
  have put : Touches s info s₁ := by
    refine ⟨rfl, rfl, fun a other => ?_⟩
    have ne : a ≠ account := fun same => other (same ▸ bound)
    exact Function.update_of_ne ne _ _
  have paid : Leaves (fun s : State A W => (s.workerBindings, s.workerAssignments, s.sessions))
      (fun _ => True) (withdrawImbalanceFromSubsidyPool cfg treasury) := by
    refine .ite (.pure _) (.bind .get fun _ => .bind (.ensure trivial) fun _ => ?_)
    exact .bind (.ensure trivial) fun _ => .alter fun _ => rfl
  refine ((paid.attempt) s₁).bind (fun _ _ => trivial) fun _ s₂ same => ?_
  obtain ⟨bindings, assignments, sessions⟩ : s₂.workerBindings = s₁.workerBindings ∧
      s₂.workerAssignments = s₁.workerAssignments ∧ s₂.sessions = s₁.sessions := by
    simpa using same
  exact ⟨bindings.trans put.bindings, assignments.trans put.assignments,
    fun a other => by rw [sessions]; exact put.sessions a other⟩

omit [DecidableEq A] in
theorem Touches.accepts {other : SettleInfo W} (h : Touches s info s')
    (apart : s.workerBindings info.pubkey ≠ s.workerBindings other.pubkey) :
    accepts s' emitTs other = accepts s emitTs other := by
  unfold Computation.accepts
  rw [h.bindings]
  cases bound : s.workerBindings other.pubkey with
  | none => rfl
  | some account => rw [Option.bind_some, Option.bind_some, h.sessions account (bound ▸ apart)]

omit [DecidableEq A] in
theorem Touches.unassigned {other : SettleInfo W} (h : Touches s info s')
    (unassigned : Unassigned s other) : Unassigned s' other := by
  unfold Unassigned
  rw [h.assignments]
  exact unassigned

omit [DecidableEq A] in
theorem Timely.tail {rest : List (SettleInfo W)} (h : Timely emitTs s (info :: rest))
    (touches : Touches s info s') : Timely emitTs s' rest := by
  obtain ⟨first, later⟩ := List.pairwise_cons.1 h.apart
  refine ⟨fun j mem => ?_, later.imp fun {i j} apart => ?_⟩
  · rcases first j mem with apart | unassigned
    · rw [touches.accepts apart]
      exact (h.taken j (List.mem_cons_of_mem _ mem)).imp_right touches.unassigned
    · exact .inr (touches.unassigned unassigned)
  · rw [touches.bindings]
    exact apart.imp_right touches.unassigned

theorem reportState_keeps {settle : List (SettleInfo W)} (state : WorkerState)
    (worker : W) (h : Timely emitTs s settle) :
    Sat (reportState state worker) s (fun _ s' => Timely emitTs s' settle) (fun _ => True) := by
  refine Sat.get_bind ?_
  split
  · exact h
  rename_i account bound
  split
  · exact h
  rename_i session found
  refine Sat.ite (fun _ => sat_alter.2 ?_) fun _ => h
  refine ⟨fun info mem => (h.taken info mem).imp_left fun taken => ?_, h.apart⟩
  rw [← taken]
  unfold accepts
  change Option.any _ (Option.bind (s.workerBindings info.pubkey) _) = _
  cases bound : s.workerBindings info.pubkey with
  | none => rfl
  | some a =>
    rw [Option.bind_some, Option.bind_some]
    by_cases same : a = account
    · subst same
      rw [found]
      unfold State.putSession
      dsimp only
      rw [Function.update_self, Option.any_some, Option.any_some]
    · unfold State.putSession
      dsimp only
      rw [Function.update_of_ne same]

end Entry

/-! ## All entries -/

inductive Covers (s : State A W) : List (SettleInfo W) → List (SettleInfo W) → Prop
  | nil : Covers s [] []
  | keep {info : SettleInfo W} {settle accepted : List (SettleInfo W)}
      (h : Covers s settle accepted) : Covers s (info :: settle) (info :: accepted)
  | skip {info : SettleInfo W} {settle accepted : List (SettleInfo W)}
      (unassigned : Unassigned s info) (h : Covers s settle accepted) :
      Covers s (info :: settle) accepted

theorem Covers.frame {s s' : State A W} {settle accepted : List (SettleInfo W)}
    (h : Covers s settle accepted) (same : s.workerAssignments = s'.workerAssignments) :
    Covers s' settle accepted := by
  induction h with
  | nil => exact .nil
  | keep _ ih => exact .keep ih
  | skip unassigned _ ih =>
    refine .skip ?_ ih
    unfold Unassigned
    rw [← same]
    exact unassigned

section Loops

variable [DecidableEq A] {cfg : Config A W} {s s' : State A W} {emitTs : ℕ}
  {settle accepted : List (SettleInfo W)}

theorem map_settleAll (cfg : Config A W) (emitTs : ℕ) (settle : List (SettleInfo W)) :
    each (tryHandleSettle cfg emitTs) settle =
      (fun _ => ()) <$> settleAll cfg emitTs settle := by
  induction settle with
  | nil => rfl
  | cons info rest ih =>
    unfold each settleAll
    rw [ih, map_bind]
    simp only [map_bind, map_pure]
    rfl

theorem settleAll_covers (timely : Timely emitTs s settle) :
    Sat (settleAll cfg emitTs settle) s (fun accepted s' => Covers s settle accepted ∧
      s'.workerAssignments = s.workerAssignments) (fun _ => True) := by
  induction settle generalizing s with
  | nil => exact ⟨.nil, rfl⟩
  | cons info rest ih =>
    refine Sat.get_bind (tryHandleSettle_touches.bind (fun _ _ => trivial) fun _ s₁ touches => ?_)
    refine (ih (timely.tail touches)).bind (fun _ _ => trivial) ?_
    rintro later s₂ ⟨covers, same⟩
    have covers : Covers s rest later := covers.frame touches.assignments
    refine ⟨?_, same.trans touches.assignments⟩
    split_ifs with taken
    · exact .keep covers
    · exact .skip ((timely.taken info List.mem_cons_self).resolve_left taken) covers

theorem rewardWorker_unassigned {info : SettleInfo W} (h : Unassigned s info) :
    StakePoolV2.rewardWorker cfg info s = .ok ((), s) := by
  obtain ⟨none, converts⟩ := h
  have spec : Sat (StakePoolV2.rewardWorker cfg info) s (fun _ s' => s' = s)
      (fun _ => False) := by
    refine Sat.demand_bind (fun reward _ => Sat.get_bind ?_) fun failed => ?_
    · rw [none]
      rfl
    · rw [failed] at converts
      cases converts
  obtain ⟨⟨⟩, _, run, rfl⟩ := spec.returns
  exact run

theorem onReward_covers (h : Covers s settle accepted)
    (same : s'.workerAssignments = s.workerAssignments) :
    StakePoolV2.onReward cfg settle s' = StakePoolV2.onReward cfg accepted s' := by
  unfold StakePoolV2.onReward
  induction h generalizing s' with
  | nil => rfl
  | @keep info _ _ h ih =>
    refine (SparesWorkers.rewardWorker cfg info s').bind_congr fun _ s₁ same₁ => ih ?_
    exact (congrArg Prod.snd same₁).trans same
  | @skip info _ _ unassigned h ih =>
    have unassigned' : Unassigned s' info := by
      unfold Unassigned
      rw [same]
      exact unassigned
    rw [each_cons_of_ok (rewardWorker_unassigned unassigned')]
    exact ih same

end Loops

end Computation

namespace Mock

def payout : Computation.WorkingInfoUpdate ℕ where
  timestampMs := 1000000
  offline := []
  recoveredToOnline := []
  settle := [⟨7, Fixed.zero, Fixed.wrap (2 ^ 64), Fixed.zero⟩]

def started (seconds : ℕ) : List (Event Account ℕ) :=
  opening (10 ^ 15) (10 ^ 15) ++ [
    .signed bob (.contributeStakePool 0 (10 ^ 14) none),
    .move (.elapse seconds),
    .signed alice (.startComputing 0 7 (10 ^ 13))]

def poolValue (s : State Account ℕ) : Option ℕ :=
  (stakePoolOf s).map fun p => p.basepool.totalValue

end Mock

end Cyrux
