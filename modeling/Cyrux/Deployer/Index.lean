import Mathlib.Data.List.Perm.Basic
import Mathlib.Data.List.Count
import Cyrux.Deployer.SidevmOp

/-!
# The indices of the deployer
-/

namespace Cyrux.Deployer

open Proc

variable {Account Worker : Type} [DecidableEq Account] [DecidableEq Worker]

def stored (s : SidevmOp Account Worker) (worker : Worker) : List ℕ :=
  (s.contractDeadlineByWorkers worker).getD []

def deadlinesOn (worker : Worker) : Option (ContractInstances Worker) → List ℕ
  | none => []
  | some instances => List.replicate (instances.workers.count worker) instances.deadline

def listed (s : SidevmOp Account Worker) (worker : Worker) : List ℕ :=
  s.contractsRunningSidevm.flatMap fun contract =>
    deadlinesOn worker (s.paidInstancesByContracts contract)

structure Indexed (s : SidevmOp Account Worker) : Prop where
  nodup : s.contractsRunningSidevm.Nodup
  domain : ∀ contract, contract ∈ s.contractsRunningSidevm ↔
    s.paidInstancesByContracts contract ≠ none
  deadlines : ∀ worker, (stored s worker).Perm (listed s worker)

def SameBut (s s' : Contract Account Worker) : Prop :=
  s' = { s with contractDeadlineByWorkers := s'.contractDeadlineByWorkers }

variable {s s' : Contract Account Worker} {d d' : ℕ} {workers : List Worker}
  {rest : Worker → List ℕ}

omit [DecidableEq Account] in
theorem stored_update (worker worker' : Worker) (deadlines : Option (List ℕ)) :
    stored { s.toSidevmOp with
      contractDeadlineByWorkers :=
        Function.update s.contractDeadlineByWorkers worker deadlines } worker' =
      if worker' = worker then deadlines.getD [] else stored s.toSidevmOp worker' := by
  unfold stored
  simp only [Function.update_apply]
  split
  · rfl
  · rfl

omit [DecidableEq Account] [DecidableEq Worker] in
theorem exists_stored {worker : Worker} (h : d ∈ stored s.toSidevmOp worker) :
    ∃ deadlines, s.contractDeadlineByWorkers worker = some deadlines ∧
      stored s.toSidevmOp worker = deadlines := by
  unfold stored at *
  cases hs : s.contractDeadlineByWorkers worker with
  | none =>
    rw [hs] at h
    cases h
  | some deadlines => exact ⟨deadlines, rfl, rfl⟩

/-! ## The loops over workers -/

omit [DecidableEq Account] in
theorem perm_cons_count {worker : Worker}
    (h : (stored s.toSidevmOp worker).Perm
      (List.replicate ((worker :: workers).count worker) d ++ rest worker)) :
    d ∈ stored s.toSidevmOp worker ∧ ((stored s.toSidevmOp worker).erase d).Perm
      (List.replicate (workers.count worker) d ++ rest worker) := by
  rw [List.count_cons_self, List.replicate_succ, List.cons_append] at h
  refine ⟨h.symm.subset List.mem_cons_self, ?_⟩
  simpa using h.erase d

omit [DecidableEq Account] in
theorem runs_clearWorkers
    (h : ∀ w, (stored s.toSidevmOp w).Perm (List.replicate (workers.count w) d ++ rest w)) :
    Runs (each (clearWorker d) workers) s
      (fun _ s' => SameBut s s' ∧ ∀ w, (stored s'.toSidevmOp w).Perm (rest w))
      fun _ _ => False := by
  let I (workers : List Worker) (s' : Contract Account Worker) : Prop := SameBut s s' ∧
    ∀ w, (stored s'.toSidevmOp w).Perm (List.replicate (workers.count w) d ++ rest w)
  have start : I workers s := ⟨rfl, h⟩
  refine (Runs.each (I := I) ?_ start).mono ?_ fun _ _ he => he
  · rintro worker workers s' ⟨same, h⟩
    obtain ⟨mem, erased⟩ := perm_cons_count (h worker)
    obtain ⟨deadlines, found, hstored⟩ := exists_stored mem
    apply Runs.demand_bind
    case missing =>
      intro missing
      rw [found] at missing
      cases missing
    intro l hl
    obtain rfl : deadlines = l := Option.some.inj (found.symm.trans hl)
    refine ⟨by rw [same]; rfl, fun w => ?_⟩
    rw [stored_update]
    split
    · rename_i hw
      subst hw
      rw [hstored] at erased
      convert erased using 1
      cases deadlines.erase d with
      | nil => rfl
      | cons _ _ => rfl
    · rename_i hw
      have := h w
      rwa [List.count_cons_of_ne (Ne.symm hw)] at this
  · rintro _ s' ⟨same, h⟩
    exact ⟨same, fun w => by simpa using h w⟩

omit [DecidableEq Account] in
theorem runs_addDeadlines (workers : List Worker) :
    Runs (each (addDeadline d) workers) s
      (fun _ s' => SameBut s s' ∧
        ∀ w, (stored s'.toSidevmOp w).Perm
          (List.replicate (workers.count w) d ++ stored s.toSidevmOp w))
      fun _ _ => False := by
  induction workers generalizing s with
  | nil => exact ⟨rfl, fun w => List.Perm.refl _⟩
  | cons worker workers ih =>
    refine ih.mono ?_ fun _ _ he => he
    rintro _ s' ⟨same, h⟩
    refine ⟨same, fun w => (h w).trans ?_⟩
    rw [stored_update]
    split
    · rename_i hw
      subst hw
      rw [List.count_cons_self, List.replicate_succ]
      refine (List.Perm.append_left _ List.perm_append_comm).trans ?_
      exact List.perm_middle
    · rename_i hw
      rw [List.count_cons_of_ne (Ne.symm hw)]

omit [DecidableEq Account] in
theorem runs_moveDeadlines
    (h : ∀ w, (stored s.toSidevmOp w).Perm (List.replicate (workers.count w) d ++ rest w)) :
    Runs (each (moveDeadline d d') workers) s
      (fun _ s' => SameBut s s' ∧
        ∀ w, (stored s'.toSidevmOp w).Perm (List.replicate (workers.count w) d' ++ rest w))
      fun _ _ => False := by
  induction workers generalizing s rest with
  | nil => exact ⟨rfl, h⟩
  | cons worker workers ih =>
    obtain ⟨mem, erased⟩ := perm_cons_count (h worker)
    obtain ⟨deadlines, found, hstored⟩ := exists_stored mem
    rw [hstored] at mem erased
    refine Runs.bind (Q := fun _ => _) ?_
    apply Runs.demand_bind
    case missing =>
      intro missing
      rw [found] at missing
      cases missing
    intro l hl
    obtain rfl : deadlines = l := Option.some.inj (found.symm.trans hl)
    apply Runs.ensure_bind
    case fails => exact fun hn => hn mem
    intro _
    -- the entry that was moved belongs to the rest of the loop
    have hrest := @ih { s with
      contractDeadlineByWorkers := Function.update s.contractDeadlineByWorkers worker
        (some (deadlines.erase d ++ [d'])) }
      (fun w => if w = worker then d' :: rest w else rest w) ?_
    · refine hrest.mono ?_ fun _ _ he => he
      rintro _ s' ⟨same, h'⟩
      refine ⟨same, fun w => (h' w).trans ?_⟩
      split
      · rename_i hw
        subst hw
        rw [List.count_cons_self, List.replicate_succ]
        exact List.perm_middle
      · rename_i hw
        rw [List.count_cons_of_ne (Ne.symm hw)]
    · intro w
      rw [stored_update]
      split
      · rename_i hw
        subst hw
        refine List.perm_append_comm.trans ?_
        exact (erased.cons d').trans List.perm_middle.symm
      · rename_i hw
        have := h w
        rwa [List.count_cons_of_ne (Ne.symm hw)] at this

/-! ## Clearing contracts -/

def Without (s : Contract Account Worker) (gone : Account → Bool) (s' : Contract Account Worker) :
    Prop :=
  s' = { s with
    contractsRunningSidevm := s.contractsRunningSidevm.filter fun c => !gone c
    paidInstancesByContracts := fun c => if gone c then none else s.paidInstancesByContracts c
    contractDeadlineByWorkers := s'.contractDeadlineByWorkers }

variable {contract : Account} {gone gone' : Account → Bool} {mid : Contract Account Worker}

omit [DecidableEq Account] [DecidableEq Worker] in
theorem Without.trans (h : Without s gone mid) (h' : Without mid gone' s') :
    Without s (fun c => gone c || gone' c) s' := by
  rw [h', h]
  congr 2
  · funext c
    cases hc : gone c <;> cases hc' : gone' c <;> simp [hc, hc']
  · rw [List.filter_filter]
    congr 1
    funext c
    cases hc : gone c <;> cases hc' : gone' c <;> simp [hc, hc']

omit [DecidableEq Account] [DecidableEq Worker] in
theorem Without.of_forall (h : ∀ c ∈ s.contractsRunningSidevm, gone c = false)
    (h' : ∀ c, gone c = true → s.paidInstancesByContracts c = none) : Without s gone s := by
  unfold Without
  have hfilter : (s.contractsRunningSidevm.filter fun c => !gone c) = s.contractsRunningSidevm :=
    List.filter_eq_self.2 fun c hc => by rw [h c hc]; rfl
  have hpaid : (fun c => if gone c then none else s.paidInstancesByContracts c) =
      s.paidInstancesByContracts := by
    funext c
    split
    · rename_i hc
      exact (h' c hc).symm
    · rfl
  rw [hfilter, hpaid]

omit [DecidableEq Account] in
theorem Without.listed_perm (h : Without s gone s') (w : Worker) :
    (listed s.toSidevmOp w).Perm
      (((s.contractsRunningSidevm.filter gone).flatMap fun c =>
          deadlinesOn w (s.paidInstancesByContracts c)) ++
        listed s'.toSidevmOp w) := by
  have hlisted : listed s'.toSidevmOp w = (s.contractsRunningSidevm.filter fun c => !gone c).flatMap
      fun c => deadlinesOn w (s.paidInstancesByContracts c) := by
    rw [h]
    apply List.flatMap_congr
    intro c hc
    rw [List.mem_filter, Bool.not_eq_true'] at hc
    simp only [hc.2, Bool.false_eq_true, if_false]
  rw [hlisted, ← List.flatMap_append]
  exact (List.filter_append_perm gone s.contractsRunningSidevm).symm.flatMap_right _

omit [DecidableEq Account] in
theorem Without.indexed_of_deadlines (h : Without s gone s') (indexed : Indexed s.toSidevmOp)
    (deadlines : ∀ w, (stored s'.toSidevmOp w).Perm (listed s'.toSidevmOp w)) :
    Indexed s'.toSidevmOp := by
  refine ⟨?_, fun c => ?_, deadlines⟩
  · rw [h]
    exact indexed.nodup.filter _
  · rw [h]
    simp only [List.mem_filter, indexed.domain]
    cases gone c <;> simp

def unlist (s : Contract Account Worker) (contract : Account) : Contract Account Worker := { s with
  contractsRunningSidevm := s.contractsRunningSidevm.filter (· ≠ contract)
  paidInstancesByContracts := Function.update s.paidInstancesByContracts contract none }

omit [DecidableEq Worker] in
theorem without_unlist (s : Contract Account Worker) (contract : Account) :
    Without s (fun c => decide (c = contract)) (unlist s contract) := by
  unfold Without unlist
  congr 2
  · funext c
    simp [Function.update_apply]
  · exact List.filter_congr fun c _ => decide_not

theorem Indexed.filter_eq (h : Indexed s.toSidevmOp)
    (hc : contract ∈ s.contractsRunningSidevm) :
    s.contractsRunningSidevm.filter (fun c => decide (c = contract)) = [contract] := by
  rw [List.filter_eq, List.count_eq_one_of_mem h.nodup hc]
  rfl

theorem Indexed.stored_perm (h : Indexed s.toSidevmOp) {instances : ContractInstances Worker}
    (paid : s.paidInstancesByContracts contract = some instances) (w : Worker) :
    (stored s.toSidevmOp w).Perm (List.replicate (instances.workers.count w) instances.deadline ++
      listed (unlist s contract).toSidevmOp w) := by
  have hc : contract ∈ s.contractsRunningSidevm := by
    rw [h.domain, paid]
    exact Option.some_ne_none _
  refine (h.deadlines w).trans (((without_unlist s contract).listed_perm w).trans ?_)
  rw [h.filter_eq hc, List.flatMap_singleton, paid]
  rfl

theorem runs_clearContract (h : Indexed s.toSidevmOp)
    (hc : contract ∈ s.contractsRunningSidevm) :
    Runs (clearContract contract) s
      (fun _ s' => Indexed s'.toSidevmOp ∧ Without s (fun c => decide (c = contract)) s')
      fun _ _ => False := by
  obtain ⟨instances, paid⟩ := Option.ne_none_iff_exists'.1 ((h.domain contract).1 hc)
  apply Runs.demand_bind
  case missing =>
    intro missing
    rw [paid] at missing
    cases missing
  intro _ found
  obtain rfl : instances = _ := Option.some.inj (paid.symm.trans found)
  -- the state before the loop has the contract in the deadlines only
  have loop :
      Runs (each (clearWorker instances.deadline) instances.workers) (unlist s contract) _ _ :=
    runs_clearWorkers fun w => h.stored_perm paid w
  refine loop.mono ?_ fun _ _ he => he
  rintro _ s' ⟨same, deadlines⟩
  have without' : Without s (fun c => decide (c = contract)) s' := by
    have without := without_unlist s contract
    unfold Without SameBut at *
    rw [same, without]
  refine ⟨without'.indexed_of_deadlines h fun w => (deadlines w).trans ?_, without'⟩
  rw [same]
  exact .refl _

omit [DecidableEq Worker] in
theorem runs_clearContract_missing [DecidableEq Worker] (h : Indexed s.toSidevmOp)
    (hc : contract ∉ s.contractsRunningSidevm) :
    Runs (clearContract contract) s (fun _ _ => False)
      fun e s' => e.isError = true ∧ s' = s := by
  have missing : s.paidInstancesByContracts contract = none := by
    by_contra hn
    exact hc ((h.domain contract).2 hn)
  apply Runs.alter_bind
  apply Runs.demand_bind
  · intro _ found
    rw [missing] at found
    cases found
  · intro _
    refine ⟨rfl, ?_⟩
    have hfilter : s.contractsRunningSidevm.filter (· ≠ contract) = s.contractsRunningSidevm :=
      List.filter_eq_self.2 fun c hmem => by
        simp only [ne_eq, decide_not, Bool.not_eq_true', decide_eq_false_iff_not]
        rintro rfl
        exact hc hmem
    rw [hfilter]

theorem runs_attempt_clearContract {f : Option Unit → Program Account Worker Unit}
    {Q : Unit → Contract Account Worker → Prop} {E : Fault → Contract Account Worker → Prop}
    (h : Indexed s.toSidevmOp)
    (cleared : ∀ r s', Indexed s'.toSidevmOp → Without s (fun c => decide (c = contract)) s' →
      Runs (f r) s' Q E) :
    Runs (attempt Fault.isError (clearContract contract) >>= f) s Q E := by
  apply Runs.attempt_bind
  by_cases hc : contract ∈ s.contractsRunningSidevm
  · exact (runs_clearContract h hc).mono (fun _ s' h' => cleared _ s' h'.1 h'.2)
      fun _ _ he => he.elim
  · refine (runs_clearContract_missing h hc).mono (fun _ _ he => he.elim) ?_
    rintro e _ ⟨he, rfl⟩
    rw [if_pos he]
    refine cleared none _ h (Without.of_forall ?_ ?_)
    · intro c hmem
      rw [decide_eq_false_iff_not]
      rintro rfl
      exact hc hmem
    · intro c hgone
      obtain rfl := of_decide_eq_true hgone
      by_contra hn
      exact hc ((h.domain c).2 hn)

theorem Indexed.move (h : Indexed s.toSidevmOp) {instances : ContractInstances Worker}
    {deadline : ℕ}
    (paid : s.paidInstancesByContracts contract = some instances)
    (moved : s' = { s with
      paidInstancesByContracts := Function.update s.paidInstancesByContracts contract
        (some { instances with deadline := deadline })
      contractDeadlineByWorkers := s'.contractDeadlineByWorkers })
    (deadlines : ∀ w, (stored s'.toSidevmOp w).Perm
      (List.replicate (instances.workers.count w) deadline ++
        listed (unlist s contract).toSidevmOp w)) :
    Indexed s'.toSidevmOp := by
  have hpaid : s'.paidInstancesByContracts contract =
      some { instances with deadline := deadline } := by
    rw [moved]
    exact Function.update_self ..
  have nodup : s'.contractsRunningSidevm.Nodup := by
    rw [moved]
    exact h.nodup
  have domain : ∀ c, c ∈ s'.contractsRunningSidevm ↔ s'.paidInstancesByContracts c ≠ none := by
    intro c
    rw [moved]
    by_cases hc : c = contract
    · subst hc
      simp [h.domain, paid]
    · simp [h.domain, Function.update_of_ne hc]
  refine ⟨nodup, domain, fun w => (deadlines w).trans ?_⟩
  have hc : contract ∈ s'.contractsRunningSidevm := by
    rw [domain, hpaid]
    exact Option.some_ne_none _
  have hsame : listed (unlist s' contract).toSidevmOp w =
      listed (unlist s contract).toSidevmOp w := by
    rw [moved]
    unfold listed unlist
    simp only [Function.update_idem]
  have hsplit := (without_unlist s' contract).listed_perm w
  rw [hsame, List.filter_eq, List.count_eq_one_of_mem nodup hc, List.replicate_one,
    List.flatMap_singleton, hpaid] at hsplit
  exact hsplit.symm

/-! ## Recycling -/

def Expired (s : SidevmOp Account Worker) (now : ℕ) (contract : Account) : Prop :=
  ∃ instances, s.paidInstancesByContracts contract = some instances ∧ instances.deadline < now

omit [DecidableEq Account] [DecidableEq Worker] in
theorem exists_expired (now : ℕ) {contracts : List Account} (nodup : contracts.Nodup)
    (known : ∀ c ∈ contracts, s.paidInstancesByContracts c ≠ none) :
    ∃ toRemove, expired s.paidInstancesByContracts now contracts = some toRemove ∧
      toRemove.Nodup ∧ ∀ c ∈ toRemove, c ∈ contracts ∧ Expired s.toSidevmOp now c := by
  induction contracts with
  | nil => exact ⟨[], rfl, .nil, fun _ hc => by cases hc⟩
  | cons c contracts ih =>
    rw [List.nodup_cons] at nodup
    obtain ⟨toRemove, hrest, hnodup, hmem⟩ :=
      ih nodup.2 fun c hc => known c (List.mem_cons_of_mem _ hc)
    obtain ⟨instances, paid⟩ := Option.ne_none_iff_exists'.1 (known c List.mem_cons_self)
    unfold expired
    rw [paid, hrest]
    have later : ∀ c' ∈ toRemove, c' ∈ c :: contracts ∧ Expired s.toSidevmOp now c' :=
      fun c' hc' => ⟨List.mem_cons_of_mem _ (hmem c' hc').1, (hmem c' hc').2⟩
    refine ⟨_, rfl, ?_⟩
    split
    · rename_i hlt
      refine ⟨List.nodup_cons.2 ⟨fun hc => nodup.1 (hmem c hc).1, hnodup⟩, fun c' hc' => ?_⟩
      obtain rfl | hc' := List.mem_cons.1 hc'
      · exact ⟨List.mem_cons_self, instances, paid, hlt⟩
      · exact later c' hc'
    · exact ⟨hnodup, later⟩

theorem runs_recycle {env : Env Account Worker} (h : Indexed s.toSidevmOp) :
    Runs (recycle env) s
      (fun _ s' => Indexed s'.toSidevmOp ∧ ∃ gone, Without s gone s' ∧
        ∀ c, gone c = true → Expired s.toSidevmOp env.blockNumber c)
      fun _ _ => False := by
  obtain ⟨toRemove, hexpired, nodup, hmem⟩ := exists_expired (s := s) env.blockNumber
    h.nodup fun c hc => (h.domain c).1 hc
  apply Runs.demand_bind
  case missing =>
    intro missing
    rw [hexpired] at missing
    cases missing
  intro _ found
  obtain rfl : toRemove = _ := Option.some.inj (hexpired.symm.trans found)
  -- those that the loop has not come to are still there
  let I (left : List Account) (s' : Contract Account Worker) : Prop :=
    Indexed s'.toSidevmOp ∧ left.Nodup ∧
      (∀ c ∈ left, c ∈ s'.contractsRunningSidevm ∧ Expired s.toSidevmOp env.blockNumber c) ∧
      ∃ gone, Without s gone s' ∧ ∀ c, gone c = true → Expired s.toSidevmOp env.blockNumber c
  have start : I toRemove s := by
    refine ⟨h, nodup, hmem, fun _ => false, ?_, fun _ hc => by cases hc⟩
    exact Without.of_forall (fun _ _ => rfl) fun _ hc => by cases hc
  refine (Runs.each (I := I) ?_ start).mono (fun _ s' hs' => ⟨hs'.1, hs'.2.2.2⟩) fun _ _ he => he
  rintro c left s' ⟨indexed, nodup, present, gone, without, hgone⟩
  rw [List.nodup_cons] at nodup
  obtain ⟨hc, hexpired⟩ := present c List.mem_cons_self
  apply Runs.mapError
  refine (runs_clearContract indexed hc).mono ?_ fun _ _ he => he
  rintro _ s'' ⟨indexed', without'⟩
  refine ⟨indexed', nodup.2, fun c' hc' => ?_, _, without.trans without', fun c' hc' => ?_⟩
  · rw [without']
    simp only [List.mem_filter, Bool.not_eq_true', decide_eq_false_iff_not]
    obtain ⟨hpresent, hexpired'⟩ := present c' (List.mem_cons_of_mem _ hc')
    refine ⟨⟨hpresent, ?_⟩, hexpired'⟩
    rintro rfl
    exact nodup.1 hc'
  · rw [Bool.or_eq_true, decide_eq_true_eq] at hc'
    obtain hc' | rfl := hc'
    · exact hgone c' hc'
    · exact hexpired

end Cyrux.Deployer
