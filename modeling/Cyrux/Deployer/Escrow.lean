import Cyrux.Deployer.Messages

/-!
# The books of the deployer
-/

namespace Cyrux.Deployer

open Proc Unsigned

variable {Account Worker : Type} [DecidableEq Account] [DecidableEq Worker]

def Step.Distinct : Step Account Worker → Prop
  | .message _ _ _ _ (.deployToWorkers _ _ workers _ _) => (workers.destutter (· ≠ ·)).Nodup
  | .message _ _ _ _ (.setMaxPaidInstancesPerWorker _) => False
  | _ => True

omit [DecidableEq Account] in
theorem Step.Distinct.added_le {caller : Account} {value : ℕ} {isInTransaction : Bool}
    {system : SystemCall Account Worker → Except Error Unit} {message : Message Worker}
    (h : Step.Distinct (.message caller value isInTransaction system message)) :
    message.KeepsLimit ∧ ∀ w, message.added w ≤ 1 := by
  cases message with
  | deployToWorkers codeHash codeSize workers maxMemoryPages blocksToLive =>
    exact ⟨(by intro n hn; cases hn), fun w => List.nodup_iff_count_le_one.1 h w⟩
  | updateDeadline deadline => exact ⟨(by intro n hn; cases hn), fun w => Nat.zero_le _⟩
  | setVmPrice price => exact ⟨(by intro n hn; cases hn), fun w => Nat.zero_le _⟩
  | setMemPrice price => exact ⟨(by intro n hn; cases hn), fun w => Nat.zero_le _⟩
  | setMaxPaidInstancesPerWorker n => exact h.elim

namespace Chain

variable {c : Chain Account Worker} {endowment : ℕ}

structure Sound (endowment : ℕ) (c : Chain Account Worker) : Prop where
  now_lt : c.now < 2 ^ 32
  indexed : Indexed c.contract.toSidevmOp
  solvent : endowment + liabilities c.contract.toSidevmOp c.now ≤ c.contract.balance

theorem step_message (h : Indexed c.contract.toSidevmOp) (hnow : c.now < 2 ^ 32) (caller : Account)
    (value : ℕ) (isInTransaction : Bool) (system : SystemCall Account Worker → Except Error Unit)
    (message : Message Worker) :
    c.step (.message caller value isInTransaction system message) = c ∨
      ∃ s', Called (c.env caller value isInTransaction system) message c.contract s' ∧
        c.step (.message caller value isInTransaction system message) =
          { c with contract := s' } := by
  have hcall : Runs (message.call (c.env caller value isInTransaction system)) c.contract _ _ :=
    runs_call h hnow message
  unfold Runs at hcall
  split at hcall
  · rename_i s' run
    simp only [step, run]
    exact .inr ⟨s', hcall, rfl⟩
  · rename_i run
    exact .inl (by simp only [step, run])

omit [DecidableEq Account] [DecidableEq Worker] in
theorem liabilities_anti (s : SidevmOp Account Worker) {now later : ℕ} (h : now ≤ later) :
    liabilities s later ≤ liabilities s now := by
  apply List.sum_le_sum
  intro contract _
  cases s.paidInstancesByContracts contract with
  | none => exact le_rfl
  | some instances =>
    apply Nat.mul_le_mul_left
    omega

theorem Sound.step (h : Sound endowment c) (step : Step Account Worker) :
    Sound endowment (c.step step) := by
  cases step with
  | message caller value isInTransaction system message =>
    obtain hsame | ⟨s', called, hstep⟩ :=
      step_message h.indexed h.now_lt caller value isInTransaction system message
    · rw [hsame]
      exact h
    · rw [hstep]
      refine ⟨h.now_lt, called.indexed, ?_⟩
      have hbooks : c.contract.balance + liabilities s'.toSidevmOp c.now ≤
        s'.balance + liabilities c.contract.toSidevmOp c.now := called.books
      have hsolvent := h.solvent
      dsimp only
      omega
  | blocks n =>
    have hle : c.now ≤ saturatingAdd 32 c.now n := by
      have := h.now_lt
      unfold saturatingAdd
      omega
    refine ⟨?_, h.indexed, (Nat.add_le_add_left (liabilities_anti _ hle) _).trans h.solvent⟩
    change min (c.now + n) (2 ^ 32 - 1) < 2 ^ 32
    omega

theorem Sound.run (h : Sound endowment c) (steps : List (Step Account Worker)) :
    Sound endowment (c.run steps) := by
  induction steps generalizing c with
  | nil => exact h
  | cons step steps ih => exact ih (h.step step)

omit [DecidableEq Account] in
theorem sound_new (owner : Account) (vmPrice memPrice limit endowment : ℕ) {now : ℕ}
    (hnow : now < 2 ^ 32) : Sound endowment
      (⟨SidevmOp.new owner vmPrice memPrice limit endowment, now⟩ : Chain Account Worker) := by
  refine ⟨hnow, ⟨List.nodup_nil, fun contract => ?_, fun w => List.Perm.refl _⟩, le_rfl⟩
  simp [SidevmOp.new]

theorem Sound.refund (h : Sound endowment c) (caller : Account) (value : ℕ) (isInTransaction : Bool)
    (system : SystemCall Account Worker → Except Error Unit) (message : Message Worker) :
    (message.call (c.env caller value isInTransaction system)).result c.contract ≠
      .error (.panic "Failed to refund") := by
  intro failed
  have hcall : Runs (message.call (c.env caller value isInTransaction system)) c.contract _ _ :=
    runs_call h.indexed h.now_lt message
  obtain he | he | ⟨-, hlt⟩ := hcall.of_error failed
  · exact absurd he (by decide)
  · exact absurd he (by decide)
  · change c.contract.balance + value <
      value + owed c.now (c.contract.paidInstancesByContracts caller) at hlt
    have howed :=
      (without_unlist c.contract caller).owed_add_le h.indexed (decide_eq_true rfl) c.now
    have hsolvent := h.solvent
    omega

/-- The contract has the price of the time left, and no refund fails. -/
theorem escrow_solvent (owner : Account) (vmPrice memPrice limit endowment now : ℕ)
    (hnow : now < 2 ^ 32) (steps : List (Step Account Worker)) :
    let c := run ⟨SidevmOp.new owner vmPrice memPrice limit endowment, now⟩ steps
    c.contract.contractsRunningSidevm.Nodup ∧
      (∀ contract, contract ∈ c.contract.contractsRunningSidevm ↔
        c.contract.paidInstancesByContracts contract ≠ none) ∧
      endowment + (c.contract.contractsRunningSidevm.map fun contract =>
        owed c.now (c.contract.paidInstancesByContracts contract)).sum ≤ c.contract.balance ∧
      ∀ caller value isInTransaction system (message : Message Worker),
        (message.call (c.env caller value isInTransaction system)).result c.contract ≠
          .error (.panic "Failed to refund") := by
  intro c
  have h : Sound endowment c := (sound_new owner vmPrice memPrice limit endowment hnow).run steps
  exact ⟨h.indexed.nodup, h.indexed.domain, h.solvent, h.refund⟩


theorem escrow_solvent_redeployed :
    let pay (value : ℕ) (message : Message ℕ) : Step ℕ ℕ :=
      .message 7 value true (fun _ => .ok ()) message
    let steps := [pay 6 (.deployToWorkers 0 0 [1] 1 2), .blocks 1, pay 3 (.updateDeadline 13),
      .message 0 0 true (fun _ => .ok ()) (.setVmPrice 5),
      pay 18 (.deployToWorkers 0 0 [1, 2] 1 2), .blocks 1, pay 0 (.updateDeadline 0)]
    let c := run (⟨SidevmOp.new 0 3 0 5 100, 10⟩ : Chain ℕ ℕ) steps
    c.contract.balance = 116 ∧ c.contract.contractsRunningSidevm.Nodup ∧
      (∀ contract, contract ∈ c.contract.contractsRunningSidevm ↔
        c.contract.paidInstancesByContracts contract ≠ none) ∧
      100 + (c.contract.contractsRunningSidevm.map fun contract =>
        owed c.now (c.contract.paidInstancesByContracts contract)).sum ≤ c.contract.balance ∧
      ∀ caller value isInTransaction system (message : Message ℕ),
        (message.call (c.env caller value isInTransaction system)).result c.contract ≠
          .error (.panic "Failed to refund") := by
  intro pay steps
  exact ⟨by decide +kernel, escrow_solvent 0 3 0 5 100 10 (by decide) steps⟩

/-! ## The indices -/

theorem exists_mapM {α β : Type} {f : α → Option β} {l : List α} (h : ∀ a ∈ l, f a ≠ none) :
    ∃ r, l.mapM f = some r ∧ ∀ b ∈ r, ∃ a ∈ l, f a = some b := by
  induction l with
  | nil => exact ⟨[], rfl, fun _ hb => by cases hb⟩
  | cons a l ih =>
    obtain ⟨b, hb⟩ := Option.ne_none_iff_exists'.1 (h a List.mem_cons_self)
    obtain ⟨r, hr, hmem⟩ := ih fun a ha => h a (List.mem_cons_of_mem _ ha)
    refine ⟨b :: r, by simp [List.mapM_cons, hb, hr], fun b' hb' => ?_⟩
    obtain rfl | hb' := List.mem_cons.1 hb'
    · exact ⟨a, List.mem_cons_self, hb⟩
    · obtain ⟨a', ha', hfa⟩ := hmem b' hb'
      exact ⟨a', List.mem_cons_of_mem _ ha', hfa⟩

omit [DecidableEq Account] in
theorem workerEntries_ne_none {s : SidevmOp Account Worker} (h : Indexed s) {contract : Account}
    {instances : ContractInstances Worker}
    (paid : s.paidInstancesByContracts contract = some instances) :
    workerEntries s instances.workers ≠ none := by
  have found : ∀ w ∈ instances.workers,
      (s.contractDeadlineByWorkers w).map (fun deadlines => (w, deadlines)) ≠ none := by
    intro w hw hnone
    have hmem : contract ∈ s.contractsRunningSidevm := by
      rw [h.domain, paid]
      exact Option.some_ne_none _
    have hlisted : instances.deadline ∈ listed s w := by
      refine List.mem_flatMap.2 ⟨contract, hmem, ?_⟩
      rw [paid]
      exact List.mem_replicate.2 ⟨(List.count_pos_iff.2 hw).ne', rfl⟩
    have hstored := (h.deadlines w).symm.subset hlisted
    rw [stored, Option.map_eq_none_iff.1 hnone] at hstored
    cases hstored
  obtain ⟨r, hr, -⟩ := exists_mapM found
  rw [workerEntries, hr]
  exact Option.some_ne_none _

omit [DecidableEq Account] in
theorem info_ne_none {s : SidevmOp Account Worker} (h : Indexed s) (now : ℕ) :
    info s now ≠ none := by
  have known : ∀ contract ∈ s.contractsRunningSidevm,
      (s.paidInstancesByContracts contract).map (fun instances => (contract, instances)) ≠ none :=
    fun contract hc hnone => (h.domain contract).1 hc (Option.map_eq_none_iff.1 hnone)
  obtain ⟨entries, hentries, hmem⟩ := exists_mapM known
  have entered : ∀ entry ∈ entries, workerEntries s entry.2.workers ≠ none := by
    intro entry hentry
    obtain ⟨contract, -, hpaid⟩ := hmem entry hentry
    obtain ⟨instances, paid, rfl⟩ := Option.map_eq_some_iff.1 hpaid
    exact workerEntries_ne_none h paid
  obtain ⟨workers, hworkers, -⟩ := exists_mapM entered
  simp [info, hentries, hworkers]

theorem indices_agree (owner : Account) (vmPrice memPrice limit endowment now : ℕ)
    (hnow : now < 2 ^ 32) (steps : List (Step Account Worker)) :
    let c := run ⟨SidevmOp.new owner vmPrice memPrice limit endowment, now⟩ steps
    c.contract.contractsRunningSidevm.Nodup ∧
      (∀ contract, contract ∈ c.contract.contractsRunningSidevm ↔
        c.contract.paidInstancesByContracts contract ≠ none) ∧
      (∀ worker, (stored c.contract.toSidevmOp worker).Perm
        (listed c.contract.toSidevmOp worker)) ∧
      (∀ env : Env Account Worker, (recycle env).result c.contract = .ok ()) ∧
      info c.contract.toSidevmOp c.now ≠ none := by
  intro c
  have h : Sound endowment c := (sound_new owner vmPrice memPrice limit endowment hnow).run steps
  refine ⟨h.indexed.nodup, h.indexed.domain, h.indexed.deadlines, fun env => ?_,
    info_ne_none h.indexed c.now⟩
  have hrecycle : Runs (recycle env) c.contract _ _ := runs_recycle h.indexed
  obtain ⟨_, hok, -⟩ | ⟨_, -, hfalse⟩ := hrecycle.outcome
  · exact hok
  · exact hfalse.elim

theorem indices_agree_shared :
    let deploy (caller : ℕ) (workers : List ℕ) (blocks : ℕ) : Step ℕ ℕ :=
      .message caller 90 true (fun _ => .ok ()) (.deployToWorkers 0 0 workers 1 blocks)
    let steps := [deploy 7 [1, 2, 1] 4, deploy 8 [1] 4,
      .message 7 0 true (fun _ => .ok ()) (.updateDeadline 12), .blocks 3, deploy 9 [2] 1]
    let c := run (⟨SidevmOp.new 0 1 0 5 0, 10⟩ : Chain ℕ ℕ) steps
    stored c.contract.toSidevmOp 1 = [14] ∧ stored c.contract.toSidevmOp 2 = [14] ∧
      c.contract.contractsRunningSidevm.Nodup ∧
      (∀ contract, contract ∈ c.contract.contractsRunningSidevm ↔
        c.contract.paidInstancesByContracts contract ≠ none) ∧
      (∀ worker, (stored c.contract.toSidevmOp worker).Perm
        (listed c.contract.toSidevmOp worker)) ∧
      (∀ env : Env ℕ ℕ, (recycle env).result c.contract = .ok ()) ∧
      info c.contract.toSidevmOp c.now ≠ none := by
  intro deploy steps
  exact ⟨by decide +kernel, by decide +kernel, indices_agree 0 1 0 5 0 10 (by decide) steps⟩

/-! ## The cap on the instances of a worker -/

def Capped (limit : ℕ) (c : Chain Account Worker) : Prop :=
  c.contract.maxPaidInstancesPerWorker = limit ∧
    ∀ w, (stored c.contract.toSidevmOp w).length ≤ limit

theorem Capped.step {limit : ℕ} (h : Capped limit c) (sound : Sound endowment c)
    {step : Step Account Worker} (distinct : step.Distinct) : Capped limit (c.step step) := by
  cases step with
  | message caller value isInTransaction system message =>
    obtain hsame | ⟨s', called, hstep⟩ :=
      step_message sound.indexed sound.now_lt caller value isInTransaction system message
    · rw [hsame]
      exact h
    · rw [hstep]
      obtain ⟨keeps, hadded⟩ := Step.Distinct.added_le distinct
      obtain ⟨hlimit, hroom⟩ := called.capped keeps
      refine ⟨hlimit.trans h.1, fun w => ?_⟩
      have hbefore := h.2 w
      have hlt := hadded w
      obtain hle | hlt' := hroom w
      · exact hle.trans hbefore
      · rw [h.1] at hlt'
        dsimp only
        omega
  | blocks n => exact h

theorem instances_capped (owner : Account) (vmPrice memPrice limit endowment now : ℕ)
    (hnow : now < 2 ^ 32) (steps : List (Step Account Worker))
    (distinct : ∀ step ∈ steps, step.Distinct) :
    let c := run ⟨SidevmOp.new owner vmPrice memPrice limit endowment, now⟩ steps
    ∀ worker, (stored c.contract.toSidevmOp worker).length ≤ limit := by
  have key : ∀ (steps : List (Step Account Worker)) (c : Chain Account Worker),
      Sound endowment c → Capped limit c → (∀ step ∈ steps, step.Distinct) →
        Capped limit (c.run steps) := by
    intro steps
    induction steps with
    | nil => exact fun c _ h _ => h
    | cons step steps ih =>
      intro c sound h distinct
      exact ih _ (sound.step step) (h.step sound (distinct step List.mem_cons_self))
        fun step' hstep' => distinct step' (List.mem_cons_of_mem _ hstep')
  exact (key steps _ (sound_new owner vmPrice memPrice limit endowment hnow)
    ⟨rfl, fun _ => Nat.zero_le _⟩ distinct).2

theorem instances_capped_full :
    let deploy (caller : ℕ) (workers : List ℕ) : Step ℕ ℕ :=
      .message caller 90 true (fun _ => .ok ()) (.deployToWorkers 0 0 workers 1 4)
    let steps := [deploy 7 [1, 1, 2], deploy 8 [1]]
    let c := run (⟨SidevmOp.new 0 1 0 1 0, 10⟩ : Chain ℕ ℕ) steps
    stored c.contract.toSidevmOp 1 = [14] ∧
      ∀ worker, (stored c.contract.toSidevmOp worker).length ≤ 1 := by
  intro deploy steps
  refine ⟨by decide +kernel, instances_capped 0 1 0 1 0 10 (by decide) steps ?_⟩
  intro step hstep
  simp only [steps, deploy, List.mem_cons, List.not_mem_nil, or_false] at hstep
  obtain rfl | rfl := hstep <;> (unfold Step.Distinct; decide)

theorem repeated_worker_exceeds_cap :
    let deploy : Step ℕ ℕ :=
      .message 7 90 true (fun _ => .ok ()) (.deployToWorkers 0 0 [1, 2, 1] 1 4)
    let c := run (⟨SidevmOp.new 0 1 0 1 0, 10⟩ : Chain ℕ ℕ) [deploy]
    c.contract.maxPaidInstancesPerWorker = 1 ∧ stored c.contract.toSidevmOp 1 = [14, 14] := by
  decide +kernel

end Chain

end Cyrux.Deployer
