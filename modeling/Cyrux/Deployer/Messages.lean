import Mathlib.Algebra.Order.BigOperators.Group.List
import Mathlib.Algebra.Order.Ring.Nat
import Cyrux.Deployer.Index

/-!
# What the messages of the deployer do
-/

namespace Cyrux.Deployer

open Proc Unsigned

variable {Account Worker : Type} [DecidableEq Account] [DecidableEq Worker]

def owed (now : ℕ) : Option (ContractInstances Worker) → ℕ
  | none => 0
  | some instances => instances.price * (instances.deadline - now)

def liabilities (s : SidevmOp Account Worker) (now : ℕ) : ℕ :=
  (s.contractsRunningSidevm.map fun contract => owed now (s.paidInstancesByContracts contract)).sum

variable {s s' mid : Contract Account Worker} {env : Env Account Worker} {contract : Account}
  {instances : ContractInstances Worker} {gone : Account → Bool} {workers : List Worker}

omit [DecidableEq Account] [DecidableEq Worker] in
theorem Without.liabilities_eq (h : Without s gone s') (now : ℕ) :
    liabilities s.toSidevmOp now =
      ((s.contractsRunningSidevm.filter gone).map fun c =>
        owed now (s.paidInstancesByContracts c)).sum + liabilities s'.toSidevmOp now := by
  have hrest : liabilities s'.toSidevmOp now =
      ((s.contractsRunningSidevm.filter fun c => !gone c).map fun c =>
        owed now (s.paidInstancesByContracts c)).sum := by
    unfold liabilities
    rw [h]
    congr 1
    apply List.map_congr_left
    intro c hc
    rw [List.mem_filter, Bool.not_eq_true'] at hc
    simp only [hc.2, Bool.false_eq_true, if_false]
  rw [hrest, ← List.sum_append, ← List.map_append]
  exact ((List.filter_append_perm gone s.contractsRunningSidevm).symm.map _).sum_eq

omit [DecidableEq Account] [DecidableEq Worker] in
theorem Without.balance_eq (h : Without s gone s') : s'.balance = s.balance := by
  rw [h]

omit [DecidableEq Account] [DecidableEq Worker] in
theorem Without.limit_eq (h : Without s gone s') :
    s'.maxPaidInstancesPerWorker = s.maxPaidInstancesPerWorker := by
  rw [h]

omit [DecidableEq Account] in
theorem Without.owed_add_le (h : Without s gone s') (indexed : Indexed s.toSidevmOp)
    (hc : gone contract = true) (now : ℕ) :
    owed now (s.paidInstancesByContracts contract) + liabilities s'.toSidevmOp now ≤
      liabilities s.toSidevmOp now := by
  rw [h.liabilities_eq now]
  apply Nat.add_le_add_right
  by_cases hmem : contract ∈ s.contractsRunningSidevm
  · apply List.le_sum_of_mem
    exact List.mem_map_of_mem (List.mem_filter.2 ⟨hmem, hc⟩)
  · have hnone : s.paidInstancesByContracts contract = none := by
      by_contra hn
      exact hmem ((indexed.domain contract).2 hn)
    rw [hnone]
    exact Nat.zero_le _

omit [DecidableEq Account] in
theorem Without.stored_length_le (h : Without s gone s') (indexed : Indexed s.toSidevmOp)
    (indexed' : Indexed s'.toSidevmOp) (w : Worker) :
    (stored s'.toSidevmOp w).length ≤ (stored s.toSidevmOp w).length := by
  rw [(indexed'.deadlines w).length_eq, (indexed.deadlines w).length_eq,
    (h.listed_perm w).length_eq, List.length_append]
  exact Nat.le_add_left _ _

theorem Indexed.liabilities_add (h : Indexed mid.toSidevmOp)
    (missing : mid.paidInstancesByContracts contract = none) (now : ℕ)
    (info : Option (ContractInstances Worker)) :
    liabilities { mid.toSidevmOp with
        contractsRunningSidevm := mid.contractsRunningSidevm ++ [contract]
        paidInstancesByContracts := Function.update mid.paidInstancesByContracts contract info }
          now =
      liabilities mid.toSidevmOp now + owed now info := by
  have hne : ∀ c ∈ mid.contractsRunningSidevm, c ≠ contract := by
    rintro c hc rfl
    exact (h.domain c).1 hc missing
  unfold liabilities
  simp only [List.map_append, List.sum_append, List.map_singleton, List.sum_singleton,
    Function.update_self]
  congr 2
  exact List.map_congr_left fun c hc => by rw [Function.update_of_ne (hne c hc)]

theorem Indexed.liabilities_update (h : Indexed s.toSidevmOp)
    (hc : contract ∈ s.contractsRunningSidevm) (now : ℕ)
    (info : Option (ContractInstances Worker)) :
    liabilities { s.toSidevmOp with
        paidInstancesByContracts := Function.update s.paidInstancesByContracts contract info } now +
      owed now (s.paidInstancesByContracts contract) =
    liabilities s.toSidevmOp now + owed now info := by
  have hperm := (List.perm_cons_erase hc)
  have hnot : ∀ c ∈ s.contractsRunningSidevm.erase contract, c ≠ contract := by
    rintro c hmem rfl
    exact h.nodup.not_mem_erase hmem
  unfold liabilities
  rw [(hperm.map _).sum_eq, (hperm.map fun c => owed now (s.paidInstancesByContracts c)).sum_eq]
  simp only [List.map_cons, List.sum_cons, Function.update_self]
  have hrest : ((s.contractsRunningSidevm.erase contract).map fun c =>
      owed now (Function.update s.paidInstancesByContracts contract info c)) =
      (s.contractsRunningSidevm.erase contract).map fun c =>
        owed now (s.paidInstancesByContracts c) :=
    List.map_congr_left fun c hmem => by rw [Function.update_of_ne (hnot c hmem)]
  rw [hrest]
  omega

/-! ## Deploying -/

structure Deployed (now : ℕ) (contract : Account) (instances : ContractInstances Worker)
    (s s' : Contract Account Worker) : Prop where
  indexed : Indexed s'.toSidevmOp
  balance : s'.balance = s.balance
  limit : s'.maxPaidInstancesPerWorker = s.maxPaidInstancesPerWorker
  books : liabilities s'.toSidevmOp now + owed now (s.paidInstancesByContracts contract) ≤
    liabilities s.toSidevmOp now + owed now (some instances)
  available : ∀ w, (stored s'.toSidevmOp w).length ≤ (stored s.toSidevmOp w).length ∨
    (stored s'.toSidevmOp w).length < s.maxPaidInstancesPerWorker + instances.workers.count w

omit [DecidableEq Account] [DecidableEq Worker] in
theorem runs_ensureAvailable (workers : List Worker) :
    Runs (ensureAvailable workers) s
      (fun _ s' => s' = s ∧ ∀ w ∈ workers,
        (stored s.toSidevmOp w).length < s.maxPaidInstancesPerWorker)
      fun e _ => e.isError = true := by
  induction workers with
  | nil => exact ⟨rfl, fun _ hw => by cases hw⟩
  | cons worker workers ih =>
    apply Runs.bind
    apply Runs.ensure
    case fails => exact fun _ => rfl
    intro hlt
    refine ih.mono ?_ fun _ _ he => he
    rintro _ s' ⟨hs', hrest⟩
    refine ⟨hs', fun w hw => ?_⟩
    obtain rfl | hw := List.mem_cons.1 hw
    · exact hlt
    · exact hrest w hw

theorem Indexed.add (h : Indexed mid.toSidevmOp)
    (missing : mid.paidInstancesByContracts contract = none)
    (entered : s' = { mid with
      contractsRunningSidevm := mid.contractsRunningSidevm ++ [contract]
      paidInstancesByContracts :=
        Function.update mid.paidInstancesByContracts contract (some instances)
      contractDeadlineByWorkers := s'.contractDeadlineByWorkers })
    (deadlines : ∀ w, (stored s'.toSidevmOp w).Perm
      (List.replicate (instances.workers.count w) instances.deadline ++ stored mid.toSidevmOp w)) :
    Indexed s'.toSidevmOp := by
  have hnot : contract ∉ mid.contractsRunningSidevm := by
    rw [h.domain, missing]
    exact fun hn => hn rfl
  have hne : ∀ c ∈ mid.contractsRunningSidevm, c ≠ contract := by
    rintro c hc rfl
    exact hnot hc
  refine ⟨?_, fun c => ?_, fun w => (deadlines w).trans ?_⟩
  · rw [entered]
    refine List.nodup_append.2 ⟨h.nodup, List.nodup_singleton _, fun c hc c' hc' => ?_⟩
    rw [List.mem_singleton.1 hc']
    exact hne c hc
  · rw [entered]
    simp only [List.mem_append, List.mem_singleton, h.domain, Function.update_apply]
    split
    · simp [‹c = contract›]
    · simp [‹¬ c = contract›]
  · have hlisted : listed s'.toSidevmOp w = listed mid.toSidevmOp w ++
        List.replicate (instances.workers.count w) instances.deadline := by
      rw [entered]
      unfold listed
      simp only [List.flatMap_append, List.flatMap_singleton, Function.update_self, deadlinesOn]
      congr 1
      apply List.flatMap_congr
      intro c hc
      rw [Function.update_of_ne (hne c hc)]
    rw [hlisted]
    exact (List.Perm.append_left _ (h.deadlines w)).trans List.perm_append_comm

theorem runs_addDeployInfo (h : Indexed s.toSidevmOp) (price deadline : ℕ) :
    Runs (addDeployInfo env contract workers price deadline) s
      (fun _ s' => Deployed env.blockNumber contract ⟨workers, deadline, price⟩ s s')
      fun e _ => e.isError = true := by
  apply Runs.bind
  refine (runs_recycle h).mono ?_ fun _ _ he => he.elim
  rintro _ recycled ⟨indexed, gone, without, -⟩
  apply runs_attempt_clearContract indexed
  intro _ mid indexed' without'
  have hmid := without.trans without'
  have hgone : (gone contract || decide (contract = contract)) = true := by simp
  apply Runs.bind
  refine (runs_ensureAvailable workers).mono ?_ fun _ _ he => he
  rintro _ checked ⟨hchecked, room⟩
  rw [hchecked]
  apply Runs.alter_bind
  apply Runs.bind
  refine (runs_addDeadlines workers).mono ?_ fun _ _ he => he.elim
  rintro _ added ⟨same, deadlines⟩
  have missing : mid.paidInstancesByContracts contract = none := by
    rw [without']
    simp
  have entered :
      ({ added with contractsRunningSidevm := added.contractsRunningSidevm ++ [contract] } :
      Contract Account Worker) = { mid with
        contractsRunningSidevm := mid.contractsRunningSidevm ++ [contract]
        paidInstancesByContracts :=
          Function.update mid.paidInstancesByContracts contract (some ⟨workers, deadline, price⟩)
        contractDeadlineByWorkers := added.contractDeadlineByWorkers } := by
    rw [same]
  have hbooks := hmid.owed_add_le h hgone env.blockNumber
  have hbalance : added.balance = s.balance := by
    rw [same]
    exact hmid.balance_eq
  have hlimit : added.maxPaidInstancesPerWorker = mid.maxPaidInstancesPerWorker := by
    rw [same]
  refine ⟨indexed'.add missing entered deadlines, hbalance, hlimit.trans hmid.limit_eq, ?_, ?_⟩
  · have hadd := indexed'.liabilities_add missing env.blockNumber (some ⟨workers, deadline, price⟩)
    have hentered := congrArg (fun s : Contract Account Worker =>
      liabilities s.toSidevmOp env.blockNumber) entered
    exact calc _ = _ := congrArg (· + _) (hentered.trans hadd)
      _ ≤ _ := by omega
  · intro w
    have hlength := (deadlines w).length_eq
    rw [List.length_append, List.length_replicate] at hlength
    have hle := hmid.stored_length_le h indexed' w
    by_cases hw : w ∈ workers
    · right
      have hroom := room w hw
      rw [hmid.limit_eq] at hroom
      calc _ = workers.count w + (stored mid.toSidevmOp w).length := hlength
        _ < workers.count w + s.maxPaidInstancesPerWorker := Nat.add_lt_add_left hroom _
        _ = _ := Nat.add_comm _ _
    · left
      rw [List.count_eq_zero_of_not_mem hw, Nat.zero_add] at hlength
      exact hlength.trans_le hle

/-! ## Messages -/

structure Served (env : Env Account Worker) (added : Worker → ℕ) (s s' : Contract Account Worker) :
    Prop where
  indexed : Indexed s'.toSidevmOp
  books : s.balance + liabilities s'.toSidevmOp env.blockNumber ≤
    s'.balance + env.transferredValue + liabilities s.toSidevmOp env.blockNumber
  limit : s'.maxPaidInstancesPerWorker = s.maxPaidInstancesPerWorker
  available : ∀ w, (stored s'.toSidevmOp w).length ≤ (stored s.toSidevmOp w).length ∨
    (stored s'.toSidevmOp w).length < s.maxPaidInstancesPerWorker + added w

def Excused (env : Env Account Worker) (s : Contract Account Worker) (e : Fault) : Prop :=
  e.isError = true ∨ e = .panic "Failed to refund" ∧
    s.balance < env.transferredValue + owed env.blockNumber (s.paidInstancesByContracts env.caller)

omit [DecidableEq Account] [DecidableEq Worker] in
theorem runs_refund (amount : ℕ) :
    Runs (refund amount) s
      (fun _ s' => s' = { s with balance := s.balance - amount } ∧ amount ≤ s.balance)
      fun e _ => e = .panic "Failed to refund" ∧ s.balance < amount := by
  apply Runs.ensure_bind
  case fails => exact fun h => ⟨rfl, Nat.lt_of_not_le h⟩
  intro h
  exact ⟨rfl, h⟩

omit [DecidableEq Account] [DecidableEq Worker] in
theorem runs_when_refund {c : Prop} [Decidable c] {amount : ℕ} (hc : ¬ c → amount = 0)
    (bounded : amount ≤ env.transferredValue +
      owed env.blockNumber (s.paidInstancesByContracts env.caller)) :
    Runs (when c (refund amount)) s
      (fun _ s' => s' = { s with balance := s.balance - amount } ∧ amount ≤ s.balance)
      fun e _ => Excused env s e := by
  apply Runs.when
  · intro _
    refine (runs_refund amount).mono (fun _ _ h => h) ?_
    rintro e _ ⟨he, hlt⟩
    exact .inr ⟨he, lt_of_lt_of_le hlt bounded⟩
  · intro h
    rw [hc h]
    exact ⟨rfl, Nat.zero_le _⟩

omit [DecidableEq Account] [DecidableEq Worker] in
theorem runs_callSystem (call : SystemCall Account Worker) :
    Runs (env.callSystem call) s (fun _ s' => s' = s) fun e s' => e.isError = true ∧ s' = s := by
  unfold Env.callSystem
  cases env.system call with
  | ok _ => exact rfl
  | error e => exact ⟨rfl, rfl⟩

omit [DecidableEq Account] [DecidableEq Worker] in
theorem remainingTimeToValue_le {now : ℕ} (hnow : now < 2 ^ 32) (contract : Account) :
    remainingTimeToValue s.toSidevmOp now contract ≤
      owed now (s.paidInstancesByContracts contract) := by
  unfold remainingTimeToValue
  cases s.paidInstancesByContracts contract with
  | none => exact le_rfl
  | some info =>
    dsimp only
    split
    · exact Nat.zero_le _
    · refine saturatingMul_le.trans (Nat.mul_le_mul_left _ ?_)
      unfold saturatingAdd
      omega

theorem runs_deployToWorkers (h : Indexed s.toSidevmOp) (hnow : env.blockNumber < 2 ^ 32)
    (codeHash codeSize maxMemoryPages blocksToLive : ℕ) :
    Runs (deployToWorkers env codeHash codeSize workers maxMemoryPages blocksToLive) s
      (fun _ s' => Served env (fun w => (workers.destutter (· ≠ ·)).count w) s s')
      fun e _ => Excused env s e := by
  apply Runs.ensure_bind
  case fails => exact fun _ => .inl rfl
  intro _
  apply Runs.ensure_bind
  case fails => exact fun _ => .inl rfl
  intro _
  apply Runs.ensure_bind
  case fails => exact fun _ => .inl rfl
  intro _
  apply Runs.ensure_bind
  case fails => exact fun _ => .inl rfl
  intro _
  apply Runs.get_bind
  apply Runs.demand_bind
  case missing => exact fun _ => .inl rfl
  intro price _
  apply Runs.demand_bind
  case missing => exact fun _ => .inl rfl
  intro required hrequired
  have hremaining := remainingTimeToValue_le (s := s) hnow env.caller
  set available := saturatingAdd 128 env.transferredValue
    (remainingTimeToValue s.toSidevmOp env.blockNumber env.caller) with hset
  have havailable : available ≤ env.transferredValue +
      owed env.blockNumber (s.paidInstancesByContracts env.caller) :=
    hset ▸ saturatingAdd_le.trans (Nat.add_le_add_left hremaining _)
  apply Runs.ensure_bind
  case fails => exact fun _ => .inl rfl
  intro henough
  apply Runs.bind
  refine (runs_when_refund (by omega) ((Nat.sub_le _ _).trans havailable)).mono ?_ fun _ _ he => he
  rintro _ paid ⟨hpaid, hle⟩
  apply Runs.bind
  have hindexed : Indexed paid.toSidevmOp := by
    rw [hpaid]
    exact h
  refine (runs_addDeployInfo hindexed price _).mono ?_ fun _ _ he => .inl he
  intro _ s' deployed
  refine (runs_callSystem _).mono ?_ fun _ _ he => .inl he.1
  rintro _ _ rfl
  -- the new deadline is paid for in full
  have hnew : owed env.blockNumber (some (⟨workers.destutter (· ≠ ·),
      saturatingAdd 32 env.blockNumber blocksToLive, price⟩ : ContractInstances Worker)) ≤
      required := by
    rw [eq_of_checkedMul hrequired]
    apply Nat.mul_le_mul_left
    exact Nat.sub_le_iff_le_add'.2 saturatingAdd_le
  have hbooks := deployed.books
  have hbalance := deployed.balance
  have hlimit := deployed.limit
  have havail := deployed.available
  rw [hpaid] at hbooks hbalance hlimit havail
  exact ⟨deployed.indexed, by dsimp only at hbooks hbalance; omega, hlimit, havail⟩

omit [DecidableEq Worker] in
theorem deadlineRefund_le {now paidValue deadline value : ℕ} (hdeadline : now ≤ deadline)
    (h : deadlineRefund instances paidValue deadline = .ok value) :
    value + instances.price * (deadline - now) ≤
      paidValue + instances.price * (instances.deadline - now) := by
  unfold deadlineRefund at h
  split at h
  · cases hprice : checkedMul 128 instances.price (deadline - instances.deadline) with
    | none =>
      rw [hprice] at h
      cases h
    | some price =>
      rw [hprice] at h
      dsimp only at h
      split at h
      · cases h
      · obtain rfl : paidValue - price = value := Except.ok.inj h
        have hmul := eq_of_checkedMul hprice
        have hsum : instances.price * (deadline - now) ≤
            price + instances.price * (instances.deadline - now) := by
          rw [hmul, ← Nat.mul_add]
          apply Nat.mul_le_mul_left
          omega
        omega
  · cases hrefund : checkedMul 128 instances.price (instances.deadline - deadline) with
    | none =>
      rw [hrefund] at h
      cases h
    | some refund =>
      rw [hrefund] at h
      dsimp only at h
      cases hvalue : checkedAdd 128 paidValue refund with
      | none =>
        rw [hvalue] at h
        cases h
      | some total =>
        rw [hvalue] at h
        obtain rfl : total = value := Except.ok.inj h
        rw [eq_of_checkedAdd hvalue, eq_of_checkedMul hrefund, Nat.add_assoc, ← Nat.mul_add]
        apply Nat.add_le_add_left
        apply Nat.mul_le_mul_left
        omega

theorem runs_terminate (h : Indexed s.toSidevmOp) (hc : contract ∈ s.contractsRunningSidevm) :
    Runs (terminate env contract) s
      (fun _ s' => Indexed s'.toSidevmOp ∧ Without s (fun c => decide (c = contract)) s')
      fun e s' => e.isError = true ∧ Indexed s'.toSidevmOp ∧
        Without s (fun c => decide (c = contract)) s' := by
  apply Runs.bind
  refine (runs_clearContract h hc).mono ?_ fun _ _ he => he.elim
  intro _ s' h'
  refine (runs_callSystem _).mono ?_ ?_
  · rintro _ _ rfl
    exact h'
  · rintro e _ ⟨he, rfl⟩
    exact ⟨he, h'⟩

theorem Served.of_without {value : ℕ} (h : Indexed s.toSidevmOp)
    (hcurrent : s.paidInstancesByContracts env.caller = some instances)
    (hvalue : value ≤
      env.transferredValue + instances.price * (instances.deadline - env.blockNumber))
    (hcovered : value ≤ s.balance) (indexed : Indexed s'.toSidevmOp)
    (without : Without { s with balance := s.balance - value }
      (fun c => decide (c = env.caller)) s') :
    Served env (fun _ => 0) s s' := by
  have howed := without.owed_add_le h (decide_eq_true rfl) env.blockNumber
  have hkept : s'.balance = s.balance - value := without.balance_eq
  have hsame : liabilities ({ s with balance := s.balance - value } :
      Contract Account Worker).toSidevmOp env.blockNumber =
      liabilities s.toSidevmOp env.blockNumber := rfl
  change owed _ (s.paidInstancesByContracts env.caller) + _ ≤ _ at howed
  rw [hcurrent, hsame] at howed
  change instances.price * (instances.deadline - env.blockNumber) + _ ≤ _ at howed
  refine ⟨indexed, by omega, without.limit_eq, fun w => .inl ?_⟩
  exact without.stored_length_le h indexed w

theorem Served.of_move {value target : ℕ} (h : Indexed s.toSidevmOp)
    (hcurrent : s.paidInstancesByContracts env.caller = some instances)
    (hvalue : value + instances.price * (target - env.blockNumber) ≤
      env.transferredValue + instances.price * (instances.deadline - env.blockNumber))
    (hcovered : value ≤ s.balance)
    (moved : s' = { s with
      balance := s.balance - value
      paidInstancesByContracts := Function.update s.paidInstancesByContracts env.caller
        (some { instances with deadline := target })
      contractDeadlineByWorkers := s'.contractDeadlineByWorkers })
    (deadlines : ∀ w, (stored s'.toSidevmOp w).Perm
      (List.replicate (instances.workers.count w) target ++
        listed (unlist s env.caller).toSidevmOp w)) :
    Served env (fun _ => 0) s s' := by
  have hmem : env.caller ∈ s.contractsRunningSidevm := by
    rw [h.domain, hcurrent]
    exact Option.some_ne_none _
  let paid : Contract Account Worker := { s with balance := s.balance - value }
  have indexed : Indexed s'.toSidevmOp :=
    Indexed.move (s := paid) h hcurrent moved deadlines
  have hupdate := h.liabilities_update hmem env.blockNumber
    (some { instances with deadline := target })
  have hnew : liabilities s'.toSidevmOp env.blockNumber = liabilities { s.toSidevmOp with
      paidInstancesByContracts := Function.update s.paidInstancesByContracts env.caller
        (some { instances with deadline := target }) } env.blockNumber := by
    rw [moved]
    rfl
  rw [← hnew, hcurrent] at hupdate
  change _ + instances.price * (instances.deadline - env.blockNumber) =
    _ + instances.price * (target - env.blockNumber) at hupdate
  have hkept : s'.balance = s.balance - value := by
    rw [moved]
  refine ⟨indexed, by omega, by rw [moved], fun w => .inl ?_⟩
  rw [(deadlines w).length_eq, (h.stored_perm hcurrent w).length_eq]
  simp

theorem runs_updateDeadline (h : Indexed s.toSidevmOp) (deadline : ℕ) :
    Runs (updateDeadline env deadline) s (fun _ s' => Served env (fun _ => 0) s s')
      fun e _ => Excused env s e := by
  apply Runs.ensure_bind
  case fails => exact fun _ => .inl rfl
  intro _
  apply Runs.demand_bind
  case missing => exact fun _ => .inl rfl
  intro current hcurrent
  have hmem : env.caller ∈ s.contractsRunningSidevm := by
    rw [h.domain, hcurrent]
    exact Option.some_ne_none _
  dsimp only
  set target := max deadline env.blockNumber with htarget
  have hle : env.blockNumber ≤ target := le_max_right _ _
  split
  · -- nothing changes, and the value goes back
    refine (runs_when_refund (by omega) (Nat.le_add_right _ _)).mono ?_ fun _ _ he => he
    rintro _ s' ⟨rfl, hpaid⟩
    refine ⟨h, ?_, rfl, fun w => .inl le_rfl⟩
    dsimp only
    omega
  cases hrefund : deadlineRefund current env.transferredValue target with
  | error e => exact .inl rfl
  | ok value =>
    have hvalue := deadlineRefund_le hle hrefund
    have hbounded : value ≤ env.transferredValue +
        owed env.blockNumber (s.paidInstancesByContracts env.caller) := by
      rw [hcurrent]
      exact (Nat.le_add_right _ _).trans hvalue
    apply Runs.bind
    refine (runs_when_refund (by omega) hbounded).mono ?_ fun _ _ he => he
    rintro _ _ ⟨rfl, hcovered⟩
    split
    · -- the time is over at once
      rename_i hnow
      rw [hnow, Nat.sub_self, Nat.mul_zero, Nat.add_zero] at hvalue
      apply Runs.attempt_bind
      refine (runs_terminate (s := { s with balance := s.balance - value }) h hmem).mono ?_ ?_
      · rintro _ s' ⟨indexed, without⟩
        exact Served.of_without h hcurrent hvalue hcovered indexed without
      · rintro e s' ⟨he, indexed, without⟩
        rw [if_pos he]
        exact Served.of_without h hcurrent hvalue hcovered indexed without
    · apply Runs.bind
      refine (runs_moveDeadlines (s := { s with balance := s.balance - value })
        fun w => h.stored_perm hcurrent w).mono ?_ fun _ _ he => he.elim
      rintro _ moved ⟨same, deadlines⟩
      refine (runs_callSystem _).mono ?_ fun _ _ he => .inl he.1
      rintro _ s' hs'
      refine Served.of_move h hcurrent hvalue hcovered ?_ fun w => ?_
      · rw [hs', same]
      · rw [hs']
        exact deadlines w

/-! ## Calls -/

def Message.added : Message Worker → Worker → ℕ
  | .deployToWorkers _ _ workers _ _, w => (workers.destutter (· ≠ ·)).count w
  | _, _ => 0

def Message.KeepsLimit (message : Message Worker) : Prop :=
  ∀ n, message ≠ .setMaxPaidInstancesPerWorker n

structure Called (env : Env Account Worker) (message : Message Worker)
    (s s' : Contract Account Worker) : Prop where
  indexed : Indexed s'.toSidevmOp
  books : s.balance + liabilities s'.toSidevmOp env.blockNumber ≤
    s'.balance + liabilities s.toSidevmOp env.blockNumber
  capped : message.KeepsLimit → s'.maxPaidInstancesPerWorker = s.maxPaidInstancesPerWorker ∧
    ∀ w, (stored s'.toSidevmOp w).length ≤ (stored s.toSidevmOp w).length ∨
      (stored s'.toSidevmOp w).length < s.maxPaidInstancesPerWorker + message.added w

omit [DecidableEq Account] in
theorem Served.called {message : Message Worker}
    (h : Served env message.added { s with balance := s.balance + env.transferredValue } s') :
    Called env message s s' := by
  refine ⟨h.indexed, ?_, fun _ => ⟨h.limit, h.available⟩⟩
  have hbooks := h.books
  change s.balance + env.transferredValue + _ ≤ _ + liabilities s.toSidevmOp _ at hbooks
  omega

omit [DecidableEq Worker] in
theorem runs_ensureOwner :
    Runs (ensureOwner env) s (fun _ s' => s' = s) fun e _ => e.isError = true := by
  apply Runs.ensure
  · exact fun _ => rfl
  · exact fun _ => rfl

theorem runs_call (h : Indexed s.toSidevmOp) (hnow : env.blockNumber < 2 ^ 32)
    (message : Message Worker) :
    Runs (message.call env) s (fun _ s' => Called env message s s')
      fun e _ => e = .panic "paid an unpayable message" ∨
        Excused env { s with balance := s.balance + env.transferredValue } e := by
  apply Runs.ensure_bind
  case fails => exact fun _ => .inl rfl
  intro hvalue
  apply Runs.alter_bind
  let received : Contract Account Worker := { s with balance := s.balance + env.transferredValue }
  cases message with
  | deployToWorkers codeHash codeSize workers maxMemoryPages blocksToLive =>
    refine (runs_deployToWorkers (s := received) h hnow codeHash codeSize maxMemoryPages
      blocksToLive).mono ?_ fun _ _ he => .inr he
    exact fun _ s' served => served.called
  | updateDeadline deadline =>
    refine (runs_updateDeadline (s := received) h deadline).mono ?_ fun _ _ he => .inr he
    exact fun _ s' served => served.called
  | setVmPrice price =>
    refine Runs.bind (runs_ensureOwner.mono ?_ fun _ _ he => .inr (.inl he))
    rintro _ _ rfl
    exact ⟨⟨h.nodup, h.domain, h.deadlines⟩, Nat.add_le_add_right (Nat.le_add_right _ _) _,
      fun _ => ⟨rfl, fun _ => .inl le_rfl⟩⟩
  | setMemPrice price =>
    refine Runs.bind (runs_ensureOwner.mono ?_ fun _ _ he => .inr (.inl he))
    rintro _ _ rfl
    exact ⟨⟨h.nodup, h.domain, h.deadlines⟩, Nat.add_le_add_right (Nat.le_add_right _ _) _,
      fun _ => ⟨rfl, fun _ => .inl le_rfl⟩⟩
  | setMaxPaidInstancesPerWorker n =>
    refine Runs.bind (runs_ensureOwner.mono ?_ fun _ _ he => .inr (.inl he))
    rintro _ _ rfl
    exact ⟨⟨h.nodup, h.domain, h.deadlines⟩, Nat.add_le_add_right (Nat.le_add_right _ _) _,
      fun keeps => (keeps n rfl).elim⟩

end Cyrux.Deployer
