import Mathlib.Data.List.Perm.Basic
import Mathlib.Data.List.Range
import Cyrux.Scheduler.Request

/-!
# Order and capacity of the request scheduler
-/

namespace Cyrux.Scheduler

open Proc Unsigned

variable {FlowId : Type} [DecidableEq FlowId]

def dispatchedOf (log : List (Event FlowId)) : List (Request FlowId) :=
  log.filterMap fun
    | .dispatched request => some request
    | _ => none

def evictedOf (log : List (Event FlowId)) : List (Request FlowId) :=
  log.filterMap fun
    | .evicted request => some request
    | _ => none

section Log

variable (log : List (Event FlowId)) (request : Request FlowId) (a b : ℕ)

omit [DecidableEq FlowId]

@[simp] theorem dispatchedOf_dispatched :
    dispatchedOf (log ++ [.dispatched request]) = dispatchedOf log ++ [request] := by
  simp [dispatchedOf]

@[simp] theorem dispatchedOf_evicted :
    dispatchedOf (log ++ [.evicted request]) = dispatchedOf log := by
  simp [dispatchedOf]

@[simp] theorem dispatchedOf_subtracted :
    dispatchedOf (log ++ [.subtracted a b]) = dispatchedOf log := by
  simp [dispatchedOf]

@[simp] theorem evictedOf_dispatched :
    evictedOf (log ++ [.dispatched request]) = evictedOf log := by
  simp [evictedOf]

@[simp] theorem evictedOf_evicted :
    evictedOf (log ++ [.evicted request]) = evictedOf log ++ [request] := by
  simp [evictedOf]

@[simp] theorem evictedOf_subtracted :
    evictedOf (log ++ [.subtracted a b]) = evictedOf log := by
  simp [evictedOf]

end Log

def SchedulerInner.waiting (s : SchedulerInner FlowId) : List (Request FlowId) :=
  s.backlog.entries.map Prod.snd

def World.accounted (s : World FlowId) : List (Request FlowId) :=
  dispatchedOf s.log ++ evictedOf s.log ++ s.waiting

structure Fair (cap depth : ℕ) (s : World FlowId) : Prop where
  short : s.backlog.len ≤ s.backlogCap
  serving_le : s.serving ≤ s.depth
  busy : s.backlog.entries ≠ [] → s.serving = s.depth
  keyed : ∀ e ∈ s.backlog.entries, e.1 = e.2.startTag
  late : ∀ e ∈ s.backlog.entries, s.virtualTime ≤ e.1
  ordered : ((dispatchedOf s.log).map Request.startTag).Pairwise (· ≤ ·)
  past : ∀ r ∈ dispatchedOf s.log, r.startTag ≤ s.virtualTime
  once : (s.accounted.map Request.startSignal).Perm (List.range s.channels)
  guarded : s.guards.length = s.serving
  patient : s.cancelled = []
  sizes : s.backlogCap = cap ∧ s.depth = depth

variable {cap depth : ℕ} {s : World FlowId} {request : Request FlowId}

omit [DecidableEq FlowId] in
theorem Fair.setFlows (h : Fair cap depth s) (flows : FlowId → Option Flow) :
    Fair cap depth { s with flows := flows } :=
  ⟨h.short, h.serving_le, h.busy, h.keyed, h.late, h.ordered, h.past, h.once, h.guarded, h.patient,
    h.sizes⟩

omit [DecidableEq FlowId] in
theorem Fair.subtracted (h : Fair cap depth s) (a b : ℕ) :
    Fair cap depth { s with log := s.log ++ [.subtracted a b] } := by
  refine ⟨h.short, h.serving_le, h.busy, h.keyed, h.late, ?_, ?_, ?_, h.guarded, h.patient,
    h.sizes⟩
  · rw [dispatchedOf_subtracted]
    exact h.ordered
  · rw [dispatchedOf_subtracted]
    exact h.past
  · unfold World.accounted
    rw [dispatchedOf_subtracted, evictedOf_subtracted]
    exact h.once

def Waits (s s' : World FlowId) : Prop :=
  s'.channels = s.channels ∧ s'.virtualTime = s.virtualTime

theorem runs_evictLast (h : Fair cap depth s) (nonempty : s.backlog.entries ≠ []) :
    Runs evictLast s
      (fun _ s' => Fair cap depth s' ∧ s'.backlog.len < s'.backlogCap ∧ Waits s s')
      fun _ _ => False := by
  apply Runs.get_bind
  cases hpop : s.backlog.popLast with
  | none =>
    rw [RBTree.popLast, Option.map_eq_none_iff, RBTree.getLast_eq_none] at hpop
    exact absurd hpop nonempty
  | some popped =>
    obtain ⟨⟨k, request⟩, backlog⟩ := popped
    have hentries := RBTree.entries_of_popLast hpop
    have hmem : ∀ e ∈ backlog.entries, e ∈ s.backlog.entries := by
      intro e he
      rw [hentries]
      exact List.mem_append_left _ he
    have hlen : backlog.len < s.backlogCap := by
      have := h.short
      unfold RBTree.len at *
      rw [hentries, List.length_append, List.length_singleton] at this
      omega
    -- the request goes from the backlog to the evicted ones
    have fair :
        Fair cap depth { s with backlog := backlog, log := s.log ++ [.evicted request] } := by
      refine ⟨hlen.le, h.serving_le, fun _ => h.busy nonempty, fun e he => h.keyed e (hmem e he),
        fun e he => h.late e (hmem e he), ?_, ?_, ?_, h.guarded, h.patient, h.sizes⟩
      · rw [dispatchedOf_evicted]
        exact h.ordered
      · rw [dispatchedOf_evicted]
        exact h.past
      · refine List.Perm.trans ?_ h.once
        unfold World.accounted SchedulerInner.waiting
        rw [dispatchedOf_evicted, evictedOf_evicted, hentries]
        simp only [List.map_append, List.append_assoc, List.map_cons, List.map_nil]
        apply List.Perm.append_left
        apply List.Perm.append_left
        exact List.perm_append_comm
    dsimp only
    cases hflow : s.flows request.flowId with
    | none => exact ⟨fair, hlen, rfl, rfl⟩
    | some flow => exact ⟨(fair.subtracted _ _).setFlows _, hlen, rfl, rfl⟩

theorem runs_makeRoom (h : Fair cap depth s) (hcap : 1 ≤ cap) (full : s.backlogCap ≤ s.backlog.len)
    (flowId : FlowId) (flow : Flow) (startTag cost : ℕ) :
    Runs (makeRoom flowId flow startTag cost) s
      (fun _ s' => Fair cap depth s' ∧ s'.backlog.len < s'.backlogCap ∧ Waits s s')
      fun e s' => e = .overloaded ∧ Fair cap depth s' ∧ Waits s s' := by
  have nonempty : s.backlog.entries ≠ [] := by
    intro hnil
    unfold RBTree.len at full
    rw [hnil, List.length_nil, h.sizes.1] at full
    omega
  apply Runs.demand_bind
  case missing =>
    intro missing
    exact absurd (RBTree.getLast_eq_none.1 missing) nonempty
  intro last _
  split
  · exact ⟨rfl, (h.subtracted _ _).setFlows _, rfl, rfl⟩
  · exact (runs_evictLast h nonempty).mono (fun _ _ h' => h') fun _ _ he => he.elim

structure Next (cap depth : ℕ) (request : Request FlowId) (s : World FlowId) : Prop where
  short : s.backlog.len ≤ s.backlogCap
  room : s.serving < s.depth
  busy : s.backlog.entries ≠ [] → s.serving + 1 = s.depth
  keyed : ∀ e ∈ s.backlog.entries, e.1 = e.2.startTag
  first : ∀ e ∈ s.backlog.entries, request.startTag ≤ e.1
  late : s.virtualTime ≤ request.startTag
  ordered : ((dispatchedOf s.log).map Request.startTag).Pairwise (· ≤ ·)
  past : ∀ r ∈ dispatchedOf s.log, r.startTag ≤ s.virtualTime
  once : ((request :: s.accounted).map Request.startSignal).Perm (List.range s.channels)
  guarded : s.guards.length = s.serving
  patient : s.cancelled = []
  sizes : s.backlogCap = cap ∧ s.depth = depth

omit [DecidableEq FlowId] in
theorem runs_dispatch (h : Next cap depth request s) :
    Runs (dispatch request) s (fun _ s' => Fair cap depth s' ∧ s.virtualTime ≤ s'.virtualTime)
      fun _ _ => False := by
  apply Runs.ensure_bind
  case fails =>
    intro hn
    apply hn
    simp only [h.patient, List.not_mem_nil, not_false_eq_true]
  intro _
  refine ⟨⟨h.short, h.room, h.busy, h.keyed, h.first, ?_, ?_, ?_, ?_, h.patient, h.sizes⟩, h.late⟩
  · rw [dispatchedOf_dispatched, List.map_append, List.pairwise_append]
    refine ⟨h.ordered, List.pairwise_singleton _ _, ?_⟩
    intro tag htag tag' htag'
    obtain ⟨r, hr, rfl⟩ := List.mem_map.1 htag
    rw [List.mem_singleton.1 htag']
    exact (h.past r hr).trans h.late
  · intro r hr
    rw [dispatchedOf_dispatched, List.mem_append, List.mem_singleton] at hr
    obtain hr | rfl := hr
    · exact (h.past r hr).trans h.late
    · exact le_rfl
  · refine List.Perm.trans ?_ h.once
    apply List.Perm.map
    unfold World.accounted
    rw [dispatchedOf_dispatched, evictedOf_dispatched]
    simp only [List.append_assoc, List.singleton_append]
    exact List.perm_middle
  · simp only [List.length_append, List.length_singleton, h.guarded]

omit [DecidableEq FlowId] in
theorem runs_enter (h : Fair cap depth s) (notFull : s.backlog.len < s.backlogCap)
    (late : s.virtualTime ≤ request.startTag) (new : request.startSignal = s.channels) :
    Runs (enter request) { s with channels := s.channels + 1 }
      (fun _ s' => Fair cap depth s' ∧ s.virtualTime ≤ s'.virtualTime) fun _ _ => False := by
  have honce : ((request :: s.accounted).map Request.startSignal).Perm
      (List.range (s.channels + 1)) := by
    rw [List.range_succ, List.map_cons, new]
    have hlast : ([s.channels] ++ List.range s.channels).Perm
        (List.range s.channels ++ [s.channels]) := List.perm_append_comm
    exact (h.once.cons _).trans hlast
  apply Runs.get_bind
  split
  · rename_i room
    have hempty : s.backlog.entries = [] := by
      by_contra hne
      exact absurd (h.busy hne) (Nat.ne_of_lt room)
    refine runs_dispatch
      ⟨h.short, room, fun hne => absurd hempty hne, h.keyed, fun e he => ?_, late,
      h.ordered, h.past, honce, h.guarded, h.patient, h.sizes⟩
    change e ∈ s.backlog.entries at he
    rw [hempty] at he
    cases he
  · rename_i room
    change ¬ s.serving < s.depth at room
    have hperm := s.backlog.insert_perm request.startTag request
    have hmem : ∀ e ∈ (s.backlog.insert request.startTag request).entries,
        e = (request.startTag, request) ∨ e ∈ s.backlog.entries :=
      fun e he => List.mem_cons.1 (hperm.subset he)
    refine ⟨⟨?_, h.serving_le, ?_, ?_, ?_, h.ordered, h.past, ?_, h.guarded, h.patient,
      h.sizes⟩, le_rfl⟩
    · change (s.backlog.insert request.startTag request).entries.length ≤ s.backlogCap
      rw [hperm.length_eq]
      exact notFull
    · exact fun _ => le_antisymm h.serving_le (Nat.le_of_not_lt room)
    · intro e he
      obtain rfl | he := hmem e he
      · rfl
      · exact h.keyed e he
    · intro e he
      obtain rfl | he := hmem e he
      · exact late
      · exact h.late e he
    · refine List.Perm.trans ?_ honce
      apply List.Perm.map
      refine (List.Perm.append_left _ (hperm.map Prod.snd)).trans ?_
      exact List.perm_middle

theorem runs_acquire (h : Fair cap depth s) (hcap : 1 ≤ cap) (flowId : FlowId) (weight : ℕ) :
    Runs (acquire flowId weight) s (fun _ s' => Fair cap depth s' ∧ s.virtualTime ≤ s'.virtualTime)
      fun e s' => e = .overloaded ∧ Fair cap depth s' ∧ s.virtualTime ≤ s'.virtualTime := by
  apply Runs.get_bind
  apply Runs.alter_bind
  apply Runs.bind
  refine Runs.mono
    (Q := fun _ s' => Fair cap depth s' ∧ s'.backlog.len < s'.backlogCap ∧ Waits s s')
    (E := fun e s' => e = .overloaded ∧ Fair cap depth s' ∧ Waits s s') ?_ ?_ ?_
  · apply Runs.when
    · intro full
      apply runs_makeRoom
      · exact h.setFlows _
      · exact hcap
      · exact full
    · intro notFull
      exact ⟨h.setFlows _, Nat.lt_of_not_le notFull, rfl, rfl⟩
  · rintro _ s' ⟨h', notFull, hchannels, htime⟩
    apply Runs.alter_bind
    apply Runs.bind
    refine (runs_enter h' notFull ?_ hchannels.symm).mono ?_ fun _ _ he => he.elim
    · rw [htime]
      exact le_max_left _ _
    · rintro _ s'' ⟨h'', hle⟩
      exact ⟨h'', htime ▸ hle⟩
  · rintro e s' ⟨he, h', -, htime⟩
    exact ⟨he, h', htime.ge⟩

omit [DecidableEq FlowId] in
theorem runs_tryPickupNext (h : Fair cap depth s) {guards : List (ServingGuard FlowId)}
    (hguards : guards.length + 1 = s.serving) :
    Runs tryPickupNext { s with serving := s.serving - 1, guards := guards }
      (fun _ s' => Fair cap depth s' ∧ s.virtualTime ≤ s'.virtualTime) fun _ _ => False := by
  have hle := h.serving_le
  apply Runs.get_bind
  cases hpop : s.backlog.popFirst with
  | none =>
    have hempty := RBTree.popFirst_eq_none.1 hpop
    refine ⟨⟨h.short, (Nat.sub_le _ _).trans hle, fun hne => absurd hempty hne, h.keyed, h.late,
      h.ordered, h.past, h.once, ?_, h.patient, h.sizes⟩, le_rfl⟩
    dsimp only
    omega
  | some popped =>
    obtain ⟨⟨k, request⟩, backlog⟩ := popped
    have hentries := RBTree.entries_of_popFirst hpop
    have hmem : ∀ e ∈ backlog.entries, e ∈ s.backlog.entries := by
      intro e he
      rw [hentries]
      exact List.mem_cons_of_mem _ he
    have hfirst : (k, request) ∈ s.backlog.entries := by
      rw [hentries]
      exact List.mem_cons_self
    have hkey : k = request.startTag := h.keyed _ hfirst
    have hbusy : s.serving = s.depth := h.busy (List.ne_nil_of_mem hfirst)
    refine (runs_dispatch ?_).mono (fun _ _ h' => h') fun _ _ he => he
    refine ⟨?_, ?_, fun _ => ?_, fun e he => h.keyed e (hmem e he), fun e he => ?_, ?_, h.ordered,
      h.past, ?_, ?_, h.patient, h.sizes⟩
    · have hcap := h.short
      unfold RBTree.len at *
      rw [hentries, List.length_cons] at hcap
      dsimp only
      omega
    · dsimp only
      omega
    · dsimp only
      omega
    · rw [← hkey]
      exact RBTree.le_of_popFirst hpop he
    · rw [← hkey]
      exact h.late _ hfirst
    · refine List.Perm.trans ?_ h.once
      apply List.Perm.map
      unfold World.accounted SchedulerInner.waiting
      rw [hentries]
      exact List.perm_middle.symm
    · dsimp only
      omega

theorem runs_dropGuard (h : Fair cap depth s) (hdepth : depth < 2 ^ 32) (channel actualCost : ℕ) :
    Runs (dropGuard channel actualCost) s
      (fun _ s' => Fair cap depth s' ∧ s.virtualTime ≤ s'.virtualTime)
      fun _ _ => False := by
  apply Runs.get_bind
  cases hfind : s.guards.find? (·.channel = channel) with
  | none => exact ⟨h, le_rfl⟩
  | some guard =>
    have hguard : guard ∈ s.guards := List.mem_of_find?_eq_some hfind
    have hlength := List.length_erase_of_mem hguard
    have hpos := List.length_pos_of_mem hguard
    have hserved := h.guarded
    have hle := h.serving_le
    rw [h.sizes.2] at hle
    apply Runs.alter_bind
    apply Runs.bind
    refine Runs.mono (Q := fun _ s' =>
      ∃ flows, s' = { s with guards := s.guards.erase guard, flows := flows })
      (E := fun _ _ => False) ?_ ?_ fun _ _ he => he
    · apply Runs.get_bind
      cases hflow : s.flows guard.flowId with
      | none => exact ⟨s.flows, rfl⟩
      | some flow => exact ⟨_, rfl⟩
    rintro _ _ ⟨flows, rfl⟩
    apply Runs.get_bind
    apply runs_subtract_bind
    have hserving : wrappingSub 32 s.serving 1 = s.serving - 1 :=
      wrappingSub_eq (by omega) (by omega)
    have hguards : (s.guards.erase guard).length + 1 = s.serving := by omega
    rw [hserving]
    exact runs_tryPickupNext ((h.setFlows flows).subtracted _ _) hguards

end Cyrux.Scheduler
