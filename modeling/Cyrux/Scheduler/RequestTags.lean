import Mathlib
import Cyrux.Scheduler.RequestOrder

/-!
# The tags of the request scheduler
-/

namespace Cyrux.Scheduler

open Proc Unsigned

variable {FlowId : Type} [DecidableEq FlowId]

def costOf (flowId : FlowId) (requests : List (Request FlowId)) : ℕ :=
  ((requests.filter fun request => request.flowId = flowId).map Request.cost).sum

section Cost

variable {flowId : FlowId} {request : Request FlowId} {l l' : List (Request FlowId)}

theorem costOf_cons : costOf flowId (request :: l) =
    (if request.flowId = flowId then request.cost else 0) + costOf flowId l := by
  unfold costOf
  rw [List.filter_cons]
  split
  · rename_i h
    rw [if_pos (of_decide_eq_true h)]
    rfl
  · rename_i h
    rw [if_neg fun h' => h (decide_eq_true h'), Nat.zero_add]

theorem costOf_perm (h : l.Perm l') : costOf flowId l = costOf flowId l' :=
  ((h.filter _).map _).sum_eq

end Cost

structure Tagged (C k : ℕ) (pending : List (Request FlowId)) (s : World FlowId) : Prop where
  average : ∀ flowId flow, s.flows flowId = some flow → flow.averageCost ≤ C
  finish : ∀ flowId flow, s.flows flowId = some flow → flow.previousFinishTag ≤ k * max C 1
  known : ∀ request ∈ pending ++ s.waiting, s.flows request.flowId ≠ none
  paid : ∀ flowId flow, s.flows flowId = some flow →
    costOf flowId (pending ++ s.waiting) ≤ flow.previousFinishTag
  start : ∀ request ∈ pending ++ s.waiting, request.startTag ≤ k * max C 1
  time : s.virtualTime ≤ k * max C 1
  exact : ∀ a b, .subtracted a b ∈ s.log → b ≤ a

variable {cap depth C k : ℕ} {pending : List (Request FlowId)} {s s' : World FlowId}
  {request : Request FlowId}

theorem Tagged.forget (h : Tagged C k (request :: pending) s) : Tagged C k pending s := by
  refine ⟨h.average, h.finish, fun r hr => h.known r (List.mem_cons_of_mem _ hr),
    fun flowId flow hflow => ?_, fun r hr => h.start r (List.mem_cons_of_mem _ hr), h.time, h.exact⟩
  have hpaid := h.paid flowId flow hflow
  rw [List.cons_append, costOf_cons] at hpaid
  omega

theorem Tagged.congr (h : Tagged C k pending s) {pending' : List (Request FlowId)}
    (flows : s'.flows = s.flows) (waiting : (pending' ++ s'.waiting).Perm (pending ++ s.waiting))
    (time : s'.virtualTime ≤ k * max C 1) (log : ∀ a b, .subtracted a b ∈ s'.log → b ≤ a) :
    Tagged C k pending' s' := by
  refine ⟨?_, ?_, fun r hr => ?_, fun flowId flow hflow => ?_, fun r hr => ?_, time, log⟩
  · rw [flows]
    exact h.average
  · rw [flows]
    exact h.finish
  · rw [flows]
    exact h.known r (waiting.subset hr)
  · rw [flows] at hflow
    rw [costOf_perm waiting]
    exact h.paid flowId flow hflow
  · exact h.start r (waiting.subset hr)

theorem Tagged.frame (h : Tagged C k pending s) (flows : s'.flows = s.flows)
    (backlog : s'.backlog = s.backlog) (time : s'.virtualTime = s.virtualTime)
    (log : ∀ a b, .subtracted a b ∈ s'.log → b ≤ a) : Tagged C k pending s' := by
  have hwaiting : s'.waiting = s.waiting := by
    unfold SchedulerInner.waiting
    rw [backlog]
  exact h.congr flows (by rw [hwaiting]) (time ▸ h.time) log

theorem costOf_eq_zero {flowId : FlowId} {l : List (Request FlowId)}
    (h : ∀ r ∈ l, r.flowId ≠ flowId) : costOf flowId l = 0 := by
  unfold costOf
  rw [List.filter_eq_nil_iff.2 fun r hr => by simp [h r hr]]
  rfl

theorem update_some_cases {flows : FlowId → Option Flow} {flowId flowId' : FlowId}
    {flow flow' : Flow} (h : Function.update flows flowId (some flow) flowId' = some flow') :
    flowId' = flowId ∧ flow' = flow ∨ flowId' ≠ flowId ∧ flows flowId' = some flow' := by
  rw [Function.update_apply] at h
  split at h
  · exact .inl ⟨‹_›, (Option.some.inj h).symm⟩
  · exact .inr ⟨‹_›, h⟩

theorem Tagged.giveBack (h : Tagged C k (request :: pending) s) (hk : k * max C 1 < 2 ^ 128)
    {flow : Flow} (hflow : s.flows request.flowId = some flow) :
    Tagged C k pending { s with
      log := s.log ++ [.subtracted flow.previousFinishTag request.cost]
      flows := Function.update s.flows request.flowId (some { flow with
        previousFinishTag := wrappingSub 128 flow.previousFinishTag request.cost }) } := by
  have haverage := h.average _ _ hflow
  have hfinish := h.finish _ _ hflow
  have hpaid := h.paid _ _ hflow
  rw [List.cons_append, costOf_cons, if_pos rfl] at hpaid
  have hsub : wrappingSub 128 flow.previousFinishTag request.cost =
      flow.previousFinishTag - request.cost := wrappingSub_eq (by omega) (by omega)
  have hrest := h.forget
  rw [hsub]
  refine ⟨fun flowId flow' hflow' => ?_, fun flowId flow' hflow' => ?_, fun r hr => ?_,
    fun flowId flow' hflow' => ?_, hrest.start, hrest.time, fun a b hab => ?_⟩
  · obtain ⟨rfl, rfl⟩ | ⟨-, hother⟩ := update_some_cases hflow'
    · exact haverage
    · exact h.average _ _ hother
  · obtain ⟨rfl, rfl⟩ | ⟨-, hother⟩ := update_some_cases hflow'
    · exact (Nat.sub_le _ _).trans hfinish
    · exact h.finish _ _ hother
  · have hknown := hrest.known r hr
    simp only [Function.update_apply]
    split
    · exact Option.some_ne_none _
    · exact hknown
  · change costOf flowId (pending ++ s.waiting) ≤ _
    obtain ⟨rfl, rfl⟩ | ⟨-, hother⟩ := update_some_cases hflow'
    · dsimp only
      omega
    · exact hrest.paid _ _ hother
  · rw [List.mem_append, List.mem_singleton] at hab
    obtain hab | hab := hab
    · exact h.exact a b hab
    · cases hab
      omega

theorem tagged_evictLast (h : Tagged C k pending s) (hk : k * max C 1 < 2 ^ 128) :
    Runs evictLast s (fun _ s' => Tagged C k pending s') fun _ _ => False := by
  apply Runs.get_bind
  cases hpop : s.backlog.popLast with
  | none => exact h
  | some popped =>
    obtain ⟨⟨key, request⟩, backlog⟩ := popped
    have hentries := RBTree.entries_of_popLast hpop
    have hwaiting : (request :: pending ++ backlog.entries.map Prod.snd).Perm
        (pending ++ s.waiting) := by
      unfold SchedulerInner.waiting
      rw [hentries, List.map_append]
      refine List.Perm.trans ?_ (List.Perm.append_left _ List.perm_append_comm)
      exact List.perm_middle.symm
    have evicted : Tagged C k (request :: pending)
        { s with backlog := backlog, log := s.log ++ [.evicted request] } := by
      refine h.congr rfl hwaiting h.time fun a b hab => h.exact a b ?_
      simpa using hab
    dsimp only
    cases hflow : s.flows request.flowId with
    | none => exact evicted.forget
    | some flow => exact evicted.giveBack hk hflow

theorem tagged_makeRoom (h : Tagged C k [request] s) (hk : k * max C 1 < 2 ^ 128) {flow : Flow}
    (hflow : s.flows request.flowId = some flow) :
    Runs (makeRoom request.flowId flow request.startTag request.cost) s
      (fun _ s' => Tagged C k [request] s') fun _ s' => Tagged C k [] s' := by
  apply Runs.demand_bind
  case missing => exact fun _ => h.forget
  intro last _
  split
  · exact h.giveBack hk hflow
  · exact (tagged_evictLast h hk).mono (fun _ _ h' => h') fun _ _ he => he.elim

omit [DecidableEq FlowId] in
theorem mem_log_dispatched {log : List (Event FlowId)} {a b : ℕ}
    (h : .subtracted a b ∈ log ++ [.dispatched request]) : .subtracted a b ∈ log := by
  simpa using h

theorem tagged_dispatch (h : Tagged C k [request] s) :
    Runs (dispatch request) s (fun _ s' => Tagged C k [] s') fun _ s' => Tagged C k [] s' := by
  have hstart : request.startTag ≤ k * max C 1 := h.start request List.mem_cons_self
  have hexact : ∀ a b, .subtracted a b ∈ s.log ++ [.dispatched request] → b ≤ a :=
    fun a b hab => h.exact a b (mem_log_dispatched hab)
  apply Runs.ensure_bind
  case fails => exact fun _ => h.forget.congr rfl (.refl _) hstart hexact
  intro _
  exact h.forget.congr rfl (.refl _) hstart hexact

theorem tagged_enter (h : Tagged C k [request] s) :
    Runs (enter request) s (fun _ s' => Tagged C k [] s') fun _ s' => Tagged C k [] s' := by
  apply Runs.get_bind
  split
  · exact tagged_dispatch h
  · refine h.congr rfl ?_ h.time h.exact
    exact (s.backlog.insert_perm request.startTag request).map Prod.snd

theorem Tagged.extend (h : Tagged C k [] s) {flow : Flow} {cost : ℕ} {flowId : FlowId}
    (channel : ℕ) (hflow : flow = (s.flows flowId).getD ⟨0, 0⟩) (hcost : cost ≤ max C 1)
    (hk : (k + 1) * max C 1 < 2 ^ 128) :
    Tagged C (k + 1) [⟨flowId, max s.virtualTime flow.previousFinishTag, cost, channel⟩]
      { s with flows := Function.update s.flows flowId (some { flow with
        previousFinishTag :=
          wrappingAdd 128 (max s.virtualTime flow.previousFinishTag) cost }) } := by
  have hgrow : k * max C 1 + max C 1 = (k + 1) * max C 1 := (Nat.succ_mul _ _).symm
  have htime := h.time
  have hbefore : flow.averageCost ≤ C ∧ flow.previousFinishTag ≤ k * max C 1 ∧
      costOf flowId s.waiting ≤ flow.previousFinishTag := by
    rw [hflow]
    cases hknown : s.flows flowId with
    | none =>
      refine ⟨Nat.zero_le _, Nat.zero_le _, (costOf_eq_zero fun r hr => ?_).le⟩
      rintro rfl
      exact h.known r hr hknown
    | some flow => exact ⟨h.average _ _ hknown, h.finish _ _ hknown, h.paid _ _ hknown⟩
  obtain ⟨haverage, hfinish, hpaid⟩ := hbefore
  have hadd : wrappingAdd 128 (max s.virtualTime flow.previousFinishTag) cost =
      max s.virtualTime flow.previousFinishTag + cost := wrappingAdd_eq (by omega)
  refine ⟨fun flowId' flow' hflow' => ?_, fun flowId' flow' hflow' => ?_, fun r hr => ?_,
    fun flowId' flow' hflow' => ?_, fun r hr => ?_, by dsimp only; omega, h.exact⟩
  · obtain ⟨rfl, rfl⟩ | ⟨-, hother⟩ := update_some_cases hflow'
    · exact haverage
    · exact h.average _ _ hother
  · obtain ⟨rfl, rfl⟩ | ⟨-, hother⟩ := update_some_cases hflow'
    · dsimp only
      omega
    · have := h.finish _ _ hother
      omega
  · simp only [Function.update_apply]
    split
    · exact Option.some_ne_none _
    · rename_i hne
      obtain rfl | hr := List.mem_cons.1 hr
      · exact absurd rfl hne
      · exact h.known r hr
  · rw [List.singleton_append, costOf_cons]
    change _ + costOf flowId' s.waiting ≤ _
    obtain ⟨rfl, rfl⟩ | ⟨hne, hother⟩ := update_some_cases hflow'
    · rw [if_pos rfl]
      dsimp only
      omega
    · rw [if_neg hne.symm, Nat.zero_add]
      exact h.paid _ _ hother
  · obtain rfl | hr := List.mem_cons.1 hr
    · dsimp only
      omega
    · have := h.start r hr
      omega

theorem tagged_acquire (h : Tagged C k [] s) (hk : (k + 1) * max C 1 < 2 ^ 128) (flowId : FlowId)
    (weight : ℕ) :
    Runs (acquire flowId weight) s (fun _ s' => Tagged C (k + 1) [] s')
      fun _ s' => Tagged C (k + 1) [] s' := by
  have haverage : ((s.flows flowId).getD ⟨0, 0⟩).averageCost ≤ C := by
    cases hflow : s.flows flowId with
    | none => exact Nat.zero_le _
    | some flow => exact h.average _ _ hflow
  have hcost : max (((s.flows flowId).getD ⟨0, 0⟩).averageCost / max weight 1) 1 ≤ max C 1 :=
    max_le_max ((Nat.div_le_self _ _).trans haverage) le_rfl
  let request : Request FlowId :=
    ⟨flowId, max s.virtualTime ((s.flows flowId).getD ⟨0, 0⟩).previousFinishTag,
      max (((s.flows flowId).getD ⟨0, 0⟩).averageCost / max weight 1) 1, s.channels⟩
  have extended : Tagged C (k + 1) [request] _ := h.extend s.channels rfl hcost hk
  apply Runs.get_bind
  apply Runs.alter_bind
  apply Runs.bind
  refine Runs.mono (Q := fun _ s' => Tagged C (k + 1) [request] s')
    (E := fun _ s' => Tagged C (k + 1) [] s') ?_ ?_ fun _ _ he => he
  · apply Runs.when
    · exact fun _ => tagged_makeRoom extended hk (Function.update_self ..)
    · exact fun _ => extended
  · intro _ s' h'
    apply Runs.alter_bind
    apply Runs.bind
    exact tagged_enter (h'.congr rfl (.refl _) h'.time h'.exact)

theorem Tagged.updateAverageCost (h : Tagged C k [] s) {actualCost : ℕ} (hcost : actualCost ≤ C)
    (flowId : FlowId) :
    Runs (updateAverageCost flowId actualCost) s
      (fun _ s' => Tagged C k [] s' ∧ ∃ flows, s' = { s with flows := flows })
      fun _ _ => False := by
  apply Runs.get_bind
  cases hflow : s.flows flowId with
  | none => exact ⟨h, s.flows, rfl⟩
  | some flow =>
    refine ⟨?_, _, rfl⟩
    have hmean : wrappingAdd 128 (flow.averageCost * 4) actualCost / 5 ≤ C := by
      have haverage := h.average _ _ hflow
      have hmod : wrappingAdd 128 (flow.averageCost * 4) actualCost ≤
        flow.averageCost * 4 + actualCost := Nat.mod_le _ _
      omega
    have hfinish := h.finish _ _ hflow
    have hpaid := h.paid _ _ hflow
    refine ⟨fun flowId' flow' hflow' => ?_, fun flowId' flow' hflow' => ?_, fun r hr => ?_,
      fun flowId' flow' hflow' => ?_, h.start, h.time, h.exact⟩
    · obtain ⟨rfl, rfl⟩ | ⟨-, hother⟩ := update_some_cases hflow'
      · exact hmean
      · exact h.average _ _ hother
    · obtain ⟨rfl, rfl⟩ | ⟨-, hother⟩ := update_some_cases hflow'
      · exact hfinish
      · exact h.finish _ _ hother
    · simp only [Function.update_apply]
      split
      · exact Option.some_ne_none _
      · exact h.known r hr
    · obtain ⟨rfl, rfl⟩ | ⟨-, hother⟩ := update_some_cases hflow'
      · exact hpaid
      · exact h.paid _ _ hother

theorem tagged_tryPickupNext (h : Tagged C k [] s) :
    Runs tryPickupNext s (fun _ s' => Tagged C k [] s') fun _ s' => Tagged C k [] s' := by
  apply Runs.get_bind
  cases hpop : s.backlog.popFirst with
  | none => exact h
  | some popped =>
    apply tagged_dispatch
    refine h.congr rfl ?_ h.time h.exact
    unfold SchedulerInner.waiting
    rw [RBTree.entries_of_popFirst hpop]
    exact .refl _

theorem tagged_dropGuard (h : Tagged C k [] s) (fair : Fair cap depth s) {actualCost : ℕ}
    (hcost : actualCost ≤ C) (channel : ℕ) :
    Runs (dropGuard channel actualCost) s (fun _ s' => Tagged C k [] s')
      fun _ s' => Tagged C k [] s' := by
  apply Runs.get_bind
  cases hfind : s.guards.find? (·.channel = channel) with
  | none => exact h
  | some guard =>
    have hpos : 1 ≤ s.serving := by
      rw [← fair.guarded]
      exact List.length_pos_of_mem (List.mem_of_find?_eq_some hfind)
    apply Runs.alter_bind
    apply Runs.bind
    have h' : Tagged C k [] { s with guards := s.guards.erase guard } :=
      h.frame rfl rfl rfl h.exact
    refine (h'.updateAverageCost hcost guard.flowId).mono ?_ fun _ _ he => he.elim
    rintro _ _ ⟨h'', flows, rfl⟩
    apply Runs.get_bind
    apply runs_subtract_bind
    apply Runs.alter_bind
    apply tagged_tryPickupNext
    refine h''.frame rfl rfl rfl fun a b hab => ?_
    rw [List.mem_append, List.mem_singleton] at hab
    obtain hab | hab := hab
    · exact h''.exact a b hab
    · cases hab
      exact hpos

/-! ## Runs -/

def Op.Patient : Op FlowId → Prop
  | .cancel _ => False
  | _ => True

def Op.CostsAtMost (C : ℕ) : Op FlowId → Prop
  | .drop _ actualCost => actualCost ≤ C
  | _ => True

def Op.acquires : Op FlowId → ℕ
  | .acquire _ _ => 1
  | _ => 0

def acquiresOf (ops : List (Op FlowId)) : ℕ := (ops.map Op.acquires).sum

theorem Fair.step (h : Fair cap depth s) (hcap : 1 ≤ cap) (hdepth : depth < 2 ^ 32)
    {op : Op FlowId} (patient : op.Patient) :
    Fair cap depth (s.step op) ∧ s.virtualTime ≤ (s.step op).virtualTime := by
  cases op with
  | acquire flowId weight =>
    apply Runs.of_after (P := fun s' => Fair cap depth s' ∧ s.virtualTime ≤ s'.virtualTime)
    apply Runs.bind
    exact (runs_acquire h hcap flowId weight).mono (fun _ _ h' => h') fun _ _ h' => h'.2
  | drop channel actualCost =>
    apply Runs.of_after (P := fun s' => Fair cap depth s' ∧ s.virtualTime ≤ s'.virtualTime)
    exact (runs_dropGuard h hdepth channel actualCost).mono (fun _ _ h' => h') fun _ _ he => he.elim
  | cancel channel => exact patient.elim

theorem Tagged.step (h : Tagged C k [] s) (fair : Fair cap depth s) {op : Op FlowId}
    (patient : op.Patient)
    (costs : op.CostsAtMost C) (hk : (k + op.acquires) * max C 1 < 2 ^ 128) :
    Tagged C (k + op.acquires) [] (s.step op) := by
  cases op with
  | acquire flowId weight =>
    apply Runs.of_after (P := Tagged C (k + 1) [])
    apply Runs.bind
    exact tagged_acquire h hk flowId weight
  | drop channel actualCost =>
    apply Runs.of_after (P := Tagged C k [])
    exact tagged_dropGuard h fair costs channel
  | cancel channel => exact patient.elim

theorem Fair.run (h : Fair cap depth s) (hcap : 1 ≤ cap) (hdepth : depth < 2 ^ 32)
    {ops : List (Op FlowId)} (patient : ∀ op ∈ ops, op.Patient) : Fair cap depth (s.run ops) := by
  induction ops generalizing s with
  | nil => exact h
  | cons op ops ih =>
    obtain ⟨h', -⟩ := h.step hcap hdepth (patient op List.mem_cons_self)
    exact ih h' fun op' hop' => patient op' (List.mem_cons_of_mem _ hop')

theorem Tagged.run (h : Tagged C k [] s) (fair : Fair cap depth s) (hcap : 1 ≤ cap)
    (hdepth : depth < 2 ^ 32) {ops : List (Op FlowId)} (patient : ∀ op ∈ ops, op.Patient)
    (costs : ∀ op ∈ ops, op.CostsAtMost C) (hk : (k + acquiresOf ops) * max C 1 < 2 ^ 128) :
    Tagged C (k + acquiresOf ops) [] (s.run ops) := by
  induction ops generalizing s k with
  | nil => exact h
  | cons op ops ih =>
    have hsum : k + acquiresOf (op :: ops) = k + op.acquires + acquiresOf ops := by
      simp only [acquiresOf, List.map_cons, List.sum_cons]
      omega
    rw [hsum] at hk ⊢
    have hpatient := patient op List.mem_cons_self
    have hstep : (k + op.acquires) * max C 1 < 2 ^ 128 :=
      (Nat.mul_le_mul_right _ (Nat.le_add_right _ _)).trans_lt hk
    have h' := h.step fair hpatient (costs op List.mem_cons_self) hstep
    obtain ⟨fair', -⟩ := fair.step hcap hdepth hpatient
    exact ih h' fair' (fun op' hop' => patient op' (List.mem_cons_of_mem _ hop'))
      (fun op' hop' => costs op' (List.mem_cons_of_mem _ hop')) hk

omit [DecidableEq FlowId] in
theorem fair_new (cap depth : ℕ) : Fair cap depth (World.new FlowId cap depth) where
  short := Nat.zero_le _
  serving_le := Nat.zero_le _
  busy hne := absurd rfl hne
  keyed _ he := absurd he List.not_mem_nil
  late _ he := absurd he List.not_mem_nil
  ordered := .nil
  past _ hr := absurd hr List.not_mem_nil
  once := .refl _
  guarded := rfl
  patient := rfl
  sizes := ⟨rfl, rfl⟩

theorem tagged_new (C cap depth : ℕ) : Tagged C 0 [] (World.new FlowId cap depth) where
  average _ flow hflow := absurd hflow (Option.some_ne_none flow).symm
  finish _ flow hflow := absurd hflow (Option.some_ne_none flow).symm
  known _ hr := absurd hr List.not_mem_nil
  paid _ flow hflow := absurd hflow (Option.some_ne_none flow).symm
  start _ hr := absurd hr List.not_mem_nil
  time := Nat.zero_le _
  exact _ _ hab := absurd hab List.not_mem_nil

/-- Requests are dispatched in the order of their tags, each once. -/
theorem requests_in_order (cap depth : ℕ) (hcap : 1 ≤ cap) (hdepth : depth < 2 ^ 32)
    (ops : List (Op FlowId)) (patient : ∀ op ∈ ops, op.Patient) :
    let s := (World.new FlowId cap depth).run ops
    s.serving ≤ depth ∧ s.waiting.length ≤ cap ∧ (s.waiting ≠ [] → s.serving = depth) ∧
      (∀ request ∈ s.waiting, s.virtualTime ≤ request.startTag) ∧
      (∀ op : Op FlowId, op.Patient → s.virtualTime ≤ (s.step op).virtualTime) ∧
      ((dispatchedOf s.log).map Request.startTag).Pairwise (· ≤ ·) ∧
      ((dispatchedOf s.log ++ evictedOf s.log ++ s.waiting).map Request.startSignal).Perm
        (List.range s.channels) ∧
      ∀ C, (∀ op ∈ ops, op.CostsAtMost C) → acquiresOf ops * max C 1 < 2 ^ 128 →
        ∀ a b, .subtracted a b ∈ s.log → b ≤ a := by
  intro s
  have h : Fair cap depth s := (fair_new cap depth).run hcap hdepth patient
  refine ⟨h.sizes.2 ▸ h.serving_le, ?_, fun hne => ?_, fun request hr => ?_, fun op hop => ?_,
    h.ordered, h.once, fun C costs hC => ?_⟩
  · have hshort := h.short
    rw [h.sizes.1] at hshort
    exact (List.length_map _).trans_le hshort
  · rw [← h.sizes.2]
    exact h.busy fun hnil => hne (by rw [SchedulerInner.waiting, hnil]; rfl)
  · obtain ⟨e, he, rfl⟩ := List.mem_map.1 hr
    rw [← h.keyed e he]
    exact h.late e he
  · exact (h.step hcap hdepth hop).2
  · have tagged := (tagged_new C cap depth).run (fair_new cap depth) hcap hdepth patient costs
      (by rwa [Nat.zero_add])
    exact tagged.exact

theorem requests_in_order_evicted :
    let ops : List (Op ℕ) := [.acquire 0 1, .acquire 0 1, .acquire 1 1, .drop 0 7]
    let s := (World.new ℕ 1 1).run ops
    (evictedOf s.log).map Request.startSignal = [1] ∧
      (dispatchedOf s.log).map Request.startSignal = [0, 2] ∧
      s.serving ≤ 1 ∧ s.waiting.length ≤ 1 ∧ (s.waiting ≠ [] → s.serving = 1) ∧
      (∀ request ∈ s.waiting, s.virtualTime ≤ request.startTag) ∧
      (∀ op : Op ℕ, op.Patient → s.virtualTime ≤ (s.step op).virtualTime) ∧
      ((dispatchedOf s.log).map Request.startTag).Pairwise (· ≤ ·) ∧
      ((dispatchedOf s.log ++ evictedOf s.log ++ s.waiting).map Request.startSignal).Perm
        (List.range s.channels) ∧
      ∀ C, (∀ op ∈ ops, op.CostsAtMost C) → acquiresOf ops * max C 1 < 2 ^ 128 →
        ∀ a b, .subtracted a b ∈ s.log → b ≤ a := by
  intro ops
  refine ⟨by decide +kernel, by decide +kernel,
    requests_in_order 1 1 (by decide) (by decide) ops ?_⟩
  intro op hop
  simp only [ops, List.mem_cons, List.not_mem_nil, or_false] at hop
  obtain rfl | rfl | rfl | rfl := hop <;> exact trivial

theorem finish_tag_underflows :
    let ops : List (Op ℕ) := [.acquire 0 1, .drop 0 (2 ^ 128 - 1), .acquire 0 1, .acquire 0 1,
      .acquire 0 1, .acquire 0 1, .acquire 0 1]
    let s := (World.new ℕ 3 1).run ops
    .subtracted 0 ((2 ^ 128 - 1) / 5) ∈ s.log := by
  decide +kernel

end Cyrux.Scheduler
