import Cyrux.Scheduler.RequestOrder

/-!
# The lock of the request scheduler
-/

namespace Cyrux.Scheduler

open Proc Unsigned

variable {FlowId : Type} [DecidableEq FlowId] {s : World FlowId} {request : Request FlowId}

def World.awaited (s : World FlowId) : List (Request FlowId) :=
  s.waiting.dropWhile (·.startSignal ∈ s.cancelled)

def Request.guard (request : Request FlowId) : ServingGuard FlowId :=
  ⟨request.flowId, request.startSignal⟩

def Served (s : World FlowId) (guard : ServingGuard FlowId) (s' : World FlowId) : Prop :=
  s'.guards = s.guards.erase guard ++ (s.awaited.take 1).map Request.guard ∧
    s'.waiting = s.awaited.tail

def World.FrontAwaited (s : World FlowId) : Prop :=
  ∀ request ∈ s.waiting.head?, request.startSignal ∉ s.cancelled

omit [DecidableEq FlowId] in
theorem awaited_eq (h : s.FrontAwaited) : s.awaited = s.waiting := by
  unfold World.awaited
  unfold World.FrontAwaited at h
  cases hw : s.waiting with
  | nil => rfl
  | cons request rest =>
    rw [hw] at h
    have hnot := h request rfl
    rw [List.dropWhile_cons, if_neg (by simpa using hnot)]

def Opened (s : World FlowId) : Prop := ∀ channel ∈ s.cancelled, channel < s.channels

def SameChannels (s s' : World FlowId) : Prop :=
  s'.channels = s.channels ∧ s'.cancelled = s.cancelled

omit [DecidableEq FlowId] in
theorem Opened.of_same {s' : World FlowId} (h : Opened s) (same : SameChannels s s') :
    Opened s' := by
  unfold Opened
  rw [same.1, same.2]
  exact h

/-! ## The parts of `acquire` -/

theorem same_evictLast : Runs evictLast s (fun _ s' => SameChannels s s') fun _ _ => False := by
  apply Runs.get_bind
  split
  · exact ⟨rfl, rfl⟩
  · split
    · exact ⟨rfl, rfl⟩
    · exact ⟨rfl, rfl⟩

theorem same_makeRoom (flowId : FlowId) (flow : Flow) (startTag cost : ℕ) :
    Runs (makeRoom flowId flow startTag cost) s (fun _ s' => SameChannels s s')
      fun e s' => e ≠ .deadlock ∧ SameChannels s s' := by
  apply Runs.demand_bind
  case missing =>
    intro _
    exact ⟨nofun, rfl, rfl⟩
  intro last _
  split
  · exact ⟨nofun, rfl, rfl⟩
  · exact same_evictLast.mono (fun _ _ same => same) fun _ _ he => he.elim

omit [DecidableEq FlowId] in
theorem dispatch_awaited (h : request.startSignal ∉ s.cancelled) :
    Runs (dispatch request) s
      (fun _ s' => s'.guards = s.guards ++ [request.guard] ∧ s'.backlog = s.backlog ∧
        SameChannels s s')
      fun _ _ => False := by
  apply Runs.ensure_bind
  case fails => exact fun hn => hn h
  intro _
  exact ⟨rfl, rfl, rfl, rfl⟩

omit [DecidableEq FlowId] in
theorem dispatch_cancelled (h : request.startSignal ∈ s.cancelled) :
    Runs (dispatch request) s (fun _ _ => False)
      fun e s' => e = .deadlock ∧ SameChannels s s' := by
  apply Runs.ensure_bind
  case fails => exact fun _ => ⟨rfl, rfl, rfl⟩
  intro hn
  exact hn h

omit [DecidableEq FlowId] in
theorem opened_enter (h : Opened s) (new : request.startSignal = s.channels) :
    Runs (enter request) { s with channels := s.channels + 1 } (fun _ s' => Opened s')
      fun _ _ => False := by
  have h' : Opened { s with channels := s.channels + 1 } :=
    fun channel hc => (h channel hc).trans (Nat.lt_succ_self _)
  apply Runs.get_bind
  split
  · have hfresh : request.startSignal ∉ s.cancelled := by
      intro hmem
      rw [new] at hmem
      exact absurd (h _ hmem) (Nat.lt_irrefl _)
    refine (dispatch_awaited (s := { s with channels := s.channels + 1 }) hfresh).mono ?_
      fun _ _ he => he
    rintro _ s' ⟨-, -, same⟩
    exact h'.of_same same
  · exact h'

theorem opened_acquire (h : Opened s) (flowId : FlowId) (weight : ℕ) :
    Runs (acquire flowId weight) s (fun _ s' => Opened s')
      fun e s' => e ≠ .deadlock ∧ Opened s' := by
  apply Runs.get_bind
  apply Runs.alter_bind
  apply Runs.bind
  refine Runs.mono (Q := fun _ s' => SameChannels s s')
    (E := fun e s' => e ≠ .deadlock ∧ SameChannels s s') ?_ ?_ ?_
  · apply Runs.when
    · intro _
      apply same_makeRoom
    · intro _
      exact ⟨rfl, rfl⟩
  · intro _ s' same
    apply Runs.alter_bind
    apply Runs.bind
    refine (opened_enter (h.of_same same) same.1.symm).mono ?_ fun _ _ he => he.elim
    exact fun _ _ h' => h'
  · rintro e s' ⟨he, same⟩
    exact ⟨he, h.of_same same⟩

/-! ## Dropping a guard -/

omit [DecidableEq FlowId] in
theorem tryPickupNext_awaited (h : s.FrontAwaited) :
    Runs tryPickupNext s
      (fun _ s' => s'.guards = s.guards ++ (s.waiting.take 1).map Request.guard ∧
        s'.waiting = s.waiting.tail ∧ SameChannels s s')
      fun _ _ => False := by
  apply Runs.get_bind
  cases hpop : s.backlog.popFirst with
  | none =>
    have hempty : s.waiting = [] := by
      rw [SchedulerInner.waiting, RBTree.popFirst_eq_none.1 hpop]
      rfl
    refine ⟨?_, ?_, rfl, rfl⟩
    · rw [hempty, List.take_nil, List.map_nil, List.append_nil]
    · rw [hempty]
      rfl
  | some popped =>
    obtain ⟨⟨k, request⟩, backlog⟩ := popped
    have hwaiting : s.waiting = request :: backlog.entries.map Prod.snd := by
      rw [SchedulerInner.waiting, RBTree.entries_of_popFirst hpop]
      rfl
    refine (dispatch_awaited ?_).mono ?_ fun _ _ he => he
    · apply h
      rw [hwaiting]
      rfl
    · rintro _ s' ⟨hguards, hbacklog, same⟩
      refine ⟨?_, ?_, same⟩
      · rw [hguards, hwaiting]
        rfl
      · rw [SchedulerInner.waiting, hbacklog, hwaiting]
        rfl

omit [DecidableEq FlowId] in
theorem tryPickupNext_cancelled (h : ¬ s.FrontAwaited) :
    Runs tryPickupNext s (fun _ _ => False)
      fun e s' => e = .deadlock ∧ SameChannels s s' := by
  unfold World.FrontAwaited at h
  push Not at h
  obtain ⟨request, hfront, hcancelled⟩ := h
  apply Runs.get_bind
  cases hpop : s.backlog.popFirst with
  | none =>
    rw [SchedulerInner.waiting, RBTree.popFirst_eq_none.1 hpop] at hfront
    cases hfront
  | some popped =>
    obtain ⟨⟨k, first⟩, backlog⟩ := popped
    rw [SchedulerInner.waiting, RBTree.entries_of_popFirst hpop] at hfront
    obtain rfl : first = request := Option.some.inj hfront
    apply Runs.alter_bind
    exact dispatch_cancelled hcancelled

section Release

variable {Q : Unit → World FlowId → Prop} {E : Fault → World FlowId → Prop}

omit [DecidableEq FlowId] in
theorem pickup_after_serving {t : World FlowId} (serving : ℕ) (log : List (Event FlowId))
    (hguards : t.guards = s.guards) (hbacklog : t.backlog = s.backlog) (same : SameChannels s t)
    (next : ∀ t : World FlowId, t.guards = s.guards → t.backlog = s.backlog → SameChannels s t →
      Runs tryPickupNext t Q E) :
    Runs (do alter (fun s => { s with serving := serving }); tryPickupNext) { t with log := log }
      Q E := by
  apply next
  · exact hguards
  · exact hbacklog
  · exact ⟨same.1, same.2⟩

theorem runs_release (flowId : FlowId) (actualCost : ℕ)
    (next : ∀ t : World FlowId, t.guards = s.guards → t.backlog = s.backlog → SameChannels s t →
      Runs tryPickupNext t Q E) :
    Runs (release flowId actualCost) s Q E := by
  apply Runs.bind
  refine Runs.mono (Q := fun _ t => t.guards = s.guards ∧ t.backlog = s.backlog ∧ SameChannels s t)
    (E := fun _ _ => False) ?_ ?_ fun _ _ he => he.elim
  · apply Runs.get_bind
    split
    · exact ⟨rfl, rfl, rfl, rfl⟩
    · exact ⟨rfl, rfl, rfl, rfl⟩
  · rintro _ t ⟨hguards, hbacklog, same⟩
    apply Runs.get_bind
    apply runs_subtract_bind
    exact pickup_after_serving _ _ hguards hbacklog same next

end Release

omit [DecidableEq FlowId] in
theorem frontAwaited_congr {t : World FlowId} (hbacklog : t.backlog = s.backlog)
    (same : SameChannels s t) : t.FrontAwaited ↔ s.FrontAwaited := by
  unfold World.FrontAwaited SchedulerInner.waiting
  rw [hbacklog, same.2]

variable {channel actualCost : ℕ} {guard : ServingGuard FlowId}

theorem dropGuard_awaited (h : Opened s) (held : s.guards.find? (·.channel = channel) = some guard)
    (front : s.FrontAwaited) :
    Runs (dropGuard channel actualCost) s (fun _ s' => Opened s' ∧ Served s guard s')
      fun _ _ => False := by
  apply Runs.get_bind
  rw [held]
  apply runs_release
  intro t hguards hbacklog same
  have front' : t.FrontAwaited := (frontAwaited_congr hbacklog same).2 front
  refine (tryPickupNext_awaited front').mono ?_ fun _ _ he => he
  rintro _ s' ⟨hguards', hwaiting', same'⟩
  refine ⟨(h.of_same same).of_same same', ?_⟩
  unfold Served
  rw [awaited_eq front, hguards', hwaiting', hguards]
  unfold SchedulerInner.waiting
  rw [hbacklog]
  exact ⟨rfl, rfl⟩

theorem dropGuard_cancelled (h : Opened s)
    (held : s.guards.find? (·.channel = channel) = some guard) (front : ¬ s.FrontAwaited) :
    Runs (dropGuard channel actualCost) s (fun _ _ => False)
      fun e s' => e = .deadlock ∧ Opened s' := by
  apply Runs.get_bind
  rw [held]
  apply runs_release
  intro t _ hbacklog same
  refine (tryPickupNext_cancelled fun front' => ?_).mono (fun _ _ hf => hf) ?_
  · exact front ((frontAwaited_congr hbacklog same).1 front')
  · rintro e s' ⟨he, same'⟩
    exact ⟨he, (h.of_same same).of_same same'⟩

theorem dropGuard_unheld (h : Opened s) (unheld : s.guards.find? (·.channel = channel) = none) :
    Runs (dropGuard channel actualCost) s (fun _ s' => Opened s') fun _ _ => False := by
  apply Runs.get_bind
  rw [unheld]
  exact h

/-! ## Runs -/

theorem Opened.step (h : Opened s) (op : Op FlowId) : Opened (s.step op) := by
  apply Runs.of_after (P := Opened)
  cases op with
  | acquire flowId weight =>
    apply Runs.bind
    exact (opened_acquire h flowId weight).mono (fun _ _ h' => h') fun _ _ he => he.2
  | drop channel actualCost =>
    change Runs (dropGuard channel actualCost) s _ _
    cases held : s.guards.find? (·.channel = channel) with
    | none => exact (dropGuard_unheld h held).mono (fun _ _ h' => h') fun _ _ he => he.elim
    | some guard =>
      by_cases front : s.FrontAwaited
      · exact (dropGuard_awaited h held front).mono (fun _ _ h' => h'.1) fun _ _ he => he.elim
      · exact (dropGuard_cancelled h held front).mono (fun _ _ hf => hf.elim) fun _ _ he => he.2
  | cancel channel =>
    apply Runs.when
    · intro hlt c hc
      obtain rfl | hc := List.mem_cons.1 hc
      · exact hlt
      · exact h c hc
    · exact fun _ => h

theorem Opened.run (h : Opened s) (ops : List (Op FlowId)) : Opened (s.run ops) := by
  induction ops generalizing s with
  | nil => exact h
  | cons op ops ih => exact ih (h.step op)

def Op.Released (op : Op FlowId) (s : World FlowId) : Prop :=
  op.call.result s ≠ .error .deadlock ∧
    ∀ channel actualCost guard, op = .drop channel actualCost →
      s.guards.find? (·.channel = channel) = some guard → Served s guard (s.step op)

def Op.MeetsAwaited (op : Op FlowId) (s : World FlowId) : Prop :=
  ∀ channel actualCost, op = .drop channel actualCost → s.guards.any (·.channel = channel) →
    s.FrontAwaited

theorem Opened.released_iff (h : Opened s) (op : Op FlowId) :
    op.Released s ↔ op.MeetsAwaited s := by
  cases op with
  | acquire flowId weight =>
    refine ⟨fun _ => nofun, fun _ => ⟨fun hdead => ?_, nofun⟩⟩
    have hruns : Runs (Op.acquire flowId weight).call s (fun _ _ => True)
        fun e _ => e ≠ .deadlock := by
      apply Runs.bind
      exact (opened_acquire h flowId weight).mono (fun _ _ _ => trivial) fun _ _ he => he.1
    exact hruns.of_error hdead rfl
  | cancel channel =>
    refine ⟨fun _ => nofun, fun _ => ⟨fun hdead => ?_, nofun⟩⟩
    have hruns : Runs (Op.cancel channel : Op FlowId).call s (fun _ _ => True)
        fun _ _ => False := by
      apply Runs.when
      · exact fun _ => trivial
      · exact fun _ => trivial
    exact hruns.of_error hdead
  | drop channel actualCost =>
    constructor
    · rintro ⟨hlive, -⟩ channel' actualCost' heq hany
      cases heq
      by_contra front
      obtain ⟨guard, held⟩ := Option.isSome_iff_exists.1
        (List.find?_isSome.2 (List.any_eq_true.1 hany))
      have hruns : Runs (dropGuard channel actualCost) s _ _ := dropGuard_cancelled h held front
      obtain ⟨e, he, hdead, -⟩ | ⟨_, _, hf⟩ := hruns.outcome.symm
      · exact hlive (hdead ▸ he)
      · exact hf
    · intro front
      constructor
      · intro hdead
        cases held : s.guards.find? (·.channel = channel) with
        | none => exact (dropGuard_unheld h held).of_error hdead
        | some guard =>
          have hany : s.guards.any (·.channel = channel) :=
            List.any_eq_true.2 (List.find?_isSome.1 (Option.isSome_of_eq_some held))
          exact (dropGuard_awaited h held (front channel actualCost rfl hany)).of_error hdead
      · intro channel' actualCost' guard heq held
        cases heq
        have hany : s.guards.any (·.channel = channel) :=
          List.any_eq_true.2 (List.find?_isSome.1 (Option.isSome_of_eq_some held))
        have hruns : Runs (dropGuard channel actualCost) s _ _ :=
          dropGuard_awaited h held (front channel actualCost rfl hany)
        apply Runs.of_after (P := Served s guard)
        exact hruns.mono (fun _ _ h' => h'.2) fun _ _ he => he.elim

theorem lock_taken_once_iff (cap depth : ℕ) (ops : List (Op FlowId)) :
    (∀ before op after, ops = before ++ op :: after →
        op.Released ((World.new FlowId cap depth).run before)) ↔
      ∀ before op after, ops = before ++ op :: after →
        op.MeetsAwaited ((World.new FlowId cap depth).run before) := by
  have hopened : ∀ before, Opened ((World.new FlowId cap depth).run before) :=
    fun before => Opened.run (fun _ hc => absurd hc List.not_mem_nil) before
  constructor
  · intro h before op after hsplit
    exact ((hopened before).released_iff op).1 (h before op after hsplit)
  · intro h before op after hsplit
    exact ((hopened before).released_iff op).2 (h before op after hsplit)

theorem cancelled_front_deadlocks :
    let ops : List (Op ℕ) := [.acquire 0 1, .acquire 1 1, .acquire 2 1, .cancel 1]
    let s := (World.new ℕ 4 1).run ops
    (Op.drop 0 7).call.result s = .error .deadlock ∧
      ¬ Served s ⟨0, 0⟩ (s.step (.drop 0 7)) := by
  intro ops s
  refine ⟨by decide +kernel, fun h => ?_⟩
  have hguards : (s.step (.drop 0 7)).guards ≠ [⟨2, 2⟩] := by decide +kernel
  exact hguards (h.1.trans (by decide +kernel))

end Cyrux.Scheduler
