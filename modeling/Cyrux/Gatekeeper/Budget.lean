import Mathlib.Algebra.Order.BigOperators.Group.List
import Cyrux.Gatekeeper.Economics
import Cyrux.Gatekeeper.ValueRange

/-!
# The budget of a block
-/

namespace Cyrux.Economics

open Proc
open Mq (MessageOrigin)

inductive BlockMessage
  | report (origin : MessageOrigin) (event : WorkingReportEvent)
  | system (origin : MessageOrigin) (event : SystemEvent)

def BlockMessage.call (hash : WorkerPublicKey → U256) (sqrt : FixedPoint → FixedPoint)
    (block : BlockInfo) : BlockMessage → Program Unit
  | report origin event => ComputingEconomics.processComputingReport sqrt block origin event
  | system origin event =>
    alter (ComputingEconomics.processSystemEvent hash block origin event)

namespace ComputingEconomics

def countedShare (sqrt : FixedPoint → FixedPoint) (s : ComputingEconomics)
    (pubkey : WorkerPublicKey) : ℕ :=
  match s.workers pubkey with
  | none => 0
  | some info =>
    if !info.unresponsive && info.state.workingState.isSome then (info.tokenomic.share sqrt).bits
    else 0

def issued (s : ComputingEconomics) : ℕ :=
  (s.ecoCache.report.settle.map fun info => info.payout.bits + info.treasury.bits).sum

end ComputingEconomics

def Entitled (sqrt : FixedPoint → FixedPoint) (start : ComputingEconomics) (block : BlockInfo)
    (s : ComputingEconomics) : BlockMessage → Prop
  | .report (.worker pubkey) event => ∀ info measured, s.workers pubkey = some info →
      info.tokenomic.updatePInstant block.nowMs event.iterations event.contractRunning =
        some measured →
      block.blockNumber ≤ info.tokenomic.vUpdateBlock + 1 ∧
        (measured.share sqrt).bits ≤ start.countedShare sqrt pubkey
  | _ => True

/-! ## The shares -/

theorem foldl_add_bits {l : List FixedPoint} {x : FixedPoint}
    (fits : x.bits + (l.map Fixed.bits).sum < 2 ^ 128) :
    (l.foldl Fixed.add x).bits = x.bits + (l.map Fixed.bits).sum := by
  induction l generalizing x with
  | nil => rfl
  | cons y l ih =>
    rw [List.map_cons, List.sum_cons, ← Nat.add_assoc] at fits ⊢
    have first : (x.add y).bits = x.bits + y.bits :=
      Fixed.add_bits ((Nat.le_add_right _ _).trans_lt fits)
    rw [List.foldl_cons, ih (by rwa [first]), first]

theorem ComputingEconomics.sumShare_bits {sqrt : FixedPoint → FixedPoint} {s : ComputingEconomics}
    (fits : (s.keys.map (s.countedShare sqrt)).sum < 2 ^ 128) :
    (s.sumShare sqrt).bits = (s.keys.map (s.countedShare sqrt)).sum := by
  have total : ∀ keys : List WorkerPublicKey,
      ((((keys.filterMap s.workers).filter fun info =>
        !info.unresponsive && info.state.workingState.isSome).map fun info =>
          info.tokenomic.share sqrt).map Fixed.bits).sum =
        (keys.map (s.countedShare sqrt)).sum := by
    intro keys
    induction keys with
    | nil => rfl
    | cons pubkey keys ih =>
      rw [List.map_cons, List.sum_cons, ← ih]
      unfold countedShare
      cases found : s.workers pubkey with
      | none => rw [List.filterMap_cons_none found, Nat.zero_add]
      | some info =>
        rw [List.filterMap_cons_some found, List.filter_cons]
        dsimp only
        split_ifs
        · rw [List.map_cons, List.map_cons, List.sum_cons]
        · rw [Nat.zero_add]
  unfold sumShare
  rw [foldl_add_bits, total s.keys]
  · exact Nat.zero_add _
  · rw [total s.keys]
    exact (Nat.zero_add _).trans_lt fits

/-! ## One payout -/

section Payout

variable {sqrt : FixedPoint → FixedPoint} {params : Params} {self self' : TokenomicInfo}
  {sumShare payout treasury : FixedPoint} {nowMs blockNumber : ℕ}

theorem payout_le (ration : params.payoutRation.bits + params.treasuryRation.bits ≤ (fp 1).bits)
    (once : blockNumber ≤ self.vUpdateBlock + 1)
    (settled : self.updateVHeartbeat sqrt params sumShare nowMs blockNumber =
      some (self', payout, treasury)) :
    payout.bits + treasury.bits ≤
      (self.share sqrt).bits * params.budgetPerBlock.bits / sumShare.bits := by
  rcases TokenomicInfo.updateVHeartbeat_cases settled with
    ⟨-, rfl, rfl⟩ | ⟨late, part, d, divided, rfl, rfl, -, -⟩
  · exact Nat.zero_le _
  obtain ⟨nonzero, rfl⟩ := Fixed.div?_eq_some.1 divided
  have one : blockNumber - self.vUpdateBlock = 1 := by omega
  rw [one]
  set part : FixedPoint := Fixed.wrap ((self.share sqrt).bits * 2 ^ 64 / sumShare.bits) with hpart
  set budget := (part.mul params.budgetPerBlock).mul (fp 1) with hbudget
  have ratio : part.bits ≤ (self.share sqrt).bits * 2 ^ 64 / sumShare.bits := Nat.mod_le _ _
  have whole : budget.bits ≤ part.bits * params.budgetPerBlock.bits / 2 ^ 64 := by
    calc budget.bits ≤ (part.mul params.budgetPerBlock).bits * (fp 1).bits / 2 ^ 64 :=
          Fixed.mul_bits_le _ _
      _ = (part.mul params.budgetPerBlock).bits :=
          Nat.mul_div_cancel _ (show 0 < 2 ^ 64 by norm_num)
      _ ≤ part.bits * params.budgetPerBlock.bits / 2 ^ 64 := Fixed.mul_bits_le _ _
  calc (budget.mul params.payoutRation).bits + (budget.mul params.treasuryRation).bits
      ≤ budget.bits * params.payoutRation.bits / 2 ^ 64 +
          budget.bits * params.treasuryRation.bits / 2 ^ 64 :=
        Nat.add_le_add (Fixed.mul_bits_le _ _) (Fixed.mul_bits_le _ _)
    _ ≤ (budget.bits * params.payoutRation.bits + budget.bits * params.treasuryRation.bits) /
          2 ^ 64 := Nat.div_add_div_le_add_div
    _ ≤ budget.bits := by
        rw [← Nat.mul_add]
        refine Nat.div_le_of_le_mul ?_
        rw [Nat.mul_comm (2 ^ 64)]
        exact Nat.mul_le_mul_left _ ration
    _ ≤ part.bits * params.budgetPerBlock.bits / 2 ^ 64 := whole
    _ ≤ (self.share sqrt).bits * params.budgetPerBlock.bits / sumShare.bits := by
        rw [Nat.le_div_iff_mul_le (Nat.pos_of_ne_zero nonzero)]
        have cut : part.bits * params.budgetPerBlock.bits / 2 ^ 64 * 2 ^ 64 ≤
            part.bits * params.budgetPerBlock.bits := Nat.div_mul_le_self _ _
        have scaled : part.bits * sumShare.bits ≤ (self.share sqrt).bits * 2 ^ 64 :=
          (Nat.mul_le_mul_right _ ratio).trans (Nat.div_mul_le_self _ _)
        refine Nat.le_of_mul_le_mul_right ?_ (show 0 < 2 ^ 64 by norm_num)
        calc part.bits * params.budgetPerBlock.bits / 2 ^ 64 * sumShare.bits * 2 ^ 64
            = part.bits * params.budgetPerBlock.bits / 2 ^ 64 * 2 ^ 64 * sumShare.bits := by ring
          _ ≤ part.bits * params.budgetPerBlock.bits * sumShare.bits :=
              Nat.mul_le_mul_right _ cut
          _ = part.bits * sumShare.bits * params.budgetPerBlock.bits := by ring
          _ ≤ (self.share sqrt).bits * 2 ^ 64 * params.budgetPerBlock.bits :=
              Nat.mul_le_mul_right _ scaled
          _ = (self.share sqrt).bits * params.budgetPerBlock.bits * 2 ^ 64 := by ring

end Payout

/-! ## The messages of a block -/

section Block

variable {hash : WorkerPublicKey → U256} {sqrt : FixedPoint → FixedPoint}
  {start s s' : ComputingEconomics} {block : BlockInfo} {paid : List WorkerPublicKey}
  {pubkey : WorkerPublicKey} {info info' : WorkerInfo}

def ComputingEconomics.part (sqrt : FixedPoint → FixedPoint) (start : ComputingEconomics)
    (pubkey : WorkerPublicKey) : ℕ :=
  start.countedShare sqrt pubkey * start.tokenomicParams.budgetPerBlock.bits /
    (start.sumShare sqrt).bits

structure Accounted (sqrt : FixedPoint → FixedPoint) (start : ComputingEconomics)
    (block : BlockInfo) (paid : List WorkerPublicKey) (s : ComputingEconomics) : Prop where
  nodup : paid.Nodup
  listed : ∀ w ∈ paid, w ∈ start.keys
  settled : ∀ w ∈ paid, ∃ info, s.workers w = some info ∧
    block.blockNumber ≤ info.tokenomic.vUpdateBlock
  issued_le : s.issued ≤ (paid.map (start.part sqrt)).sum
  params : s.tokenomicParams = start.tokenomicParams
  sumShare : s.ecoCache.sumShare = start.sumShare sqrt

structure Unpaid (block : BlockInfo) (s s' : ComputingEconomics) : Prop where
  workers : ∀ w info, s.workers w = some info → ∃ info', s'.workers w = some info' ∧
    (block.blockNumber ≤ info.tokenomic.vUpdateBlock →
      block.blockNumber ≤ info'.tokenomic.vUpdateBlock)
  issued : s'.issued = s.issued
  params : s'.tokenomicParams = s.tokenomicParams
  sumShare : s'.ecoCache.sumShare = s.ecoCache.sumShare

theorem Unpaid.refl (block : BlockInfo) (s : ComputingEconomics) : Unpaid block s s :=
  ⟨fun _ info found => ⟨info, found, id⟩, rfl, rfl, rfl⟩

theorem Unpaid.trans {s'' : ComputingEconomics} (h : Unpaid block s s')
    (h' : Unpaid block s' s'') : Unpaid block s s'' := by
  refine ⟨fun w info found => ?_, h'.issued.trans h.issued, h'.params.trans h.params,
    h'.sumShare.trans h.sumShare⟩
  obtain ⟨info', found', later⟩ := h.workers w info found
  obtain ⟨info'', found'', later'⟩ := h'.workers w info' found'
  exact ⟨info'', found'', fun paid => later' (later paid)⟩

theorem Accounted.unpaid (h : Accounted sqrt start block paid s) (same : Unpaid block s s') :
    Accounted sqrt start block paid s' := by
  refine ⟨h.nodup, h.listed, fun w mem => ?_, same.issued.trans_le h.issued_le,
    same.params.trans h.params, same.sumShare.trans h.sumShare⟩
  obtain ⟨info, found, late⟩ := h.settled w mem
  obtain ⟨info', found', later⟩ := same.workers w info found
  exact ⟨info', found', later late⟩

theorem Unpaid.setWorker (found : s.workers pubkey = some info)
    (later : block.blockNumber ≤ info.tokenomic.vUpdateBlock →
      block.blockNumber ≤ info'.tokenomic.vUpdateBlock) :
    Unpaid block s (s.setWorker pubkey info') := by
  refine ⟨fun w entry stored => ?_, rfl, rfl, rfl⟩
  by_cases same : w = pubkey
  · subst same
    cases found.symm.trans stored
    exact ⟨info', Function.update_self _ _ _, later⟩
  · exact ⟨entry, (Function.update_of_ne same _ _).trans stored, id⟩

theorem Unpaid.forEachMut {f : WorkerInfo → WorkerInfo}
    (same : ∀ info, (f info).tokenomic = info.tokenomic) :
    Unpaid block s (s.forEachMut f) := by
  refine ⟨fun w info found => ⟨f info, ?_, fun late => ?_⟩, rfl, rfl, rfl⟩
  · unfold ComputingEconomics.forEachMut
    dsimp only
    rw [found, Option.map_some]
  · rw [same]
    exact late

theorem issued_pushSettle (entry : SettleInfo) :
    (s.pushSettle entry).issued = s.issued + (entry.payout.bits + entry.treasury.bits) := by
  unfold ComputingEconomics.issued ComputingEconomics.pushSettle
  rw [List.map_append, List.sum_append, List.map_singleton, List.sum_singleton]

theorem Unpaid.pushSettle {entry : SettleInfo} (payout : entry.payout = fp 0)
    (treasury : entry.treasury = fp 0) : Unpaid block s (s.pushSettle entry) := by
  refine ⟨fun _ info found => ⟨info, found, id⟩, ?_, rfl, rfl⟩
  rw [issued_pushSettle, payout, treasury]
  rfl

theorem processSystemEvent_unpaid (origin : MessageOrigin) (event : SystemEvent) :
    Unpaid block s (ComputingEconomics.processSystemEvent hash block origin event s) := by
  have created : Unpaid block s (ComputingEconomics.createFor hash event s) := by
    unfold ComputingEconomics.createFor
    split
    · unfold ComputingEconomics.insertNew
      split
      · exact .refl _ _
      · rename_i key _ _ missing
        refine ⟨fun w info found => ⟨info, ?_, id⟩, rfl, rfl, rfl⟩
        have ne : w ≠ key := by
          rintro rfl
          rw [missing] at found
          cases found
        exact (Function.update_of_ne ne _ _).trans found
    · exact .refl _ _
  have replayed : ∀ x, Unpaid block x
      (x.forEachMut (ComputingEconomics.replay block event)) := fun x => .forEachMut fun _ => rfl
  have valued : ∀ x, Unpaid block x (ComputingEconomics.valueFor block event x) := by
    intro x
    cases event with
    | heartbeatChallenge _ => exact .refl _ _
    | workerEvent pubkey event =>
      unfold ComputingEconomics.valueFor ComputingEconomics.valueEvent
      dsimp only
      split
      · exact .refl _ _
      · rename_i info found
        cases event with
        | registered _ => exact .setWorker found id
        | started _ _ _ => exact .setWorker found fun _ => le_rfl
        | stopped => exact .pushSettle rfl rfl
        | _ => exact .refl _ _
  unfold ComputingEconomics.processSystemEvent
  split
  · exact (created.trans (replayed _)).trans (valued _)
  · exact .refl _ _

theorem acceptHeartbeat_accounted {event : WorkingReportEvent}
    (keyed : ∀ w info, start.workers w = some info → w ∈ start.keys)
    (ration : start.tokenomicParams.payoutRation.bits +
      start.tokenomicParams.treasuryRation.bits ≤ (fp 1).bits)
    (h : Accounted sqrt start block paid s) (found : s.workers pubkey = some info)
    (entitled : ∀ measured, info.tokenomic.updatePInstant block.nowMs event.iterations
      event.contractRunning = some measured → block.blockNumber ≤ info.tokenomic.vUpdateBlock + 1 ∧
        (measured.share sqrt).bits ≤ start.countedShare sqrt pubkey) :
    Runs (ComputingEconomics.acceptHeartbeat sqrt block pubkey event info) s
      (fun _ s' => ∃ paid, Accounted sqrt start block paid s')
      (fun _ s' => ∃ paid, Accounted sqrt start block paid s') := by
  refine Runs.get_bind (Runs.demand_bind (fun measured performed => ?_) fun _ => ⟨paid, h⟩)
  obtain ⟨once, within⟩ := entitled measured performed
  obtain ⟨-, -, sameBlock⟩ := TokenomicInfo.updatePInstant_value performed
  split
  · exact ⟨paid, h.unpaid (.setWorker found fun _ => le_rfl)⟩
  refine Runs.demand_bind (fun result settled => ?_) fun _ => ⟨paid, h⟩
  obtain ⟨after, payout, treasury⟩ := result
  change ∃ paid, Accounted sqrt start block paid
    ((s.setWorker pubkey { info with heartbeatFlag := true, tokenomic := after }).pushSettle
      ⟨pubkey, after.v, payout, treasury⟩)
  have part := payout_le (h.params ▸ ration) (sameBlock ▸ once) settled
  rcases TokenomicInfo.updateVHeartbeat_cases settled with
    ⟨rfl, rfl, rfl⟩ | ⟨late, _, _, -, -, -, -, paidAfter⟩
  · refine ⟨paid, h.unpaid ((Unpaid.setWorker found fun late => ?_).trans (.pushSettle rfl rfl))⟩
    exact late.trans_eq sameBlock.symm
  -- The worker was not paid in this block yet, and it was counted.
  have unpaid : pubkey ∉ paid := by
    intro mem
    obtain ⟨entry, stored, paidLate⟩ := h.settled pubkey mem
    cases found.symm.trans stored
    have late : measured.vUpdateBlock < block.blockNumber := late
    omega
  have updated : after.vUpdateBlock = block.blockNumber := by rw [paidAfter]
  have moved : Unpaid block s
      (s.setWorker pubkey { info with heartbeatFlag := true, tokenomic := after }) :=
    .setWorker found fun _ => updated.ge
  have worth : payout.bits + treasury.bits ≤ start.part sqrt pubkey := by
    rw [h.params, h.sumShare] at part
    exact part.trans (Nat.div_le_div_right (Nat.mul_le_mul_right _ within))
  by_cases listed : pubkey ∈ start.keys
  · refine ⟨pubkey :: paid, List.nodup_cons.2 ⟨unpaid, h.nodup⟩, ?_, ?_, ?_, h.params, h.sumShare⟩
    · intro w mem
      rcases List.mem_cons.1 mem with rfl | mem
      · exact listed
      · exact h.listed w mem
    · intro w mem
      rcases List.mem_cons.1 mem with rfl | mem
      · exact ⟨_, Function.update_self _ _ _, updated.ge⟩
      · exact (h.unpaid moved).settled w mem
    · rw [issued_pushSettle, List.map_cons, List.sum_cons, Nat.add_comm]
      exact Nat.add_le_add worth h.issued_le
  · -- A worker that was not there is paid nothing.
    have none : start.workers pubkey = none := by
      cases entry : start.workers pubkey with
      | none => rfl
      | some entry' => exact absurd (keyed pubkey entry' entry) listed
    have zero : start.part sqrt pubkey = 0 := by
      unfold ComputingEconomics.part ComputingEconomics.countedShare
      rw [none, Nat.zero_mul, Nat.zero_div]
    have accounted := h.unpaid moved
    refine ⟨paid, accounted.nodup, accounted.listed, accounted.settled, ?_, h.params, h.sumShare⟩
    have issued := h.issued_le
    rw [issued_pushSettle]
    change s.issued + (payout.bits + treasury.bits) ≤ _
    omega

theorem processComputingReport_accounted {origin : MessageOrigin} {event : WorkingReportEvent}
    (keyed : ∀ w info, start.workers w = some info → w ∈ start.keys)
    (ration : start.tokenomicParams.payoutRation.bits +
      start.tokenomicParams.treasuryRation.bits ≤ (fp 1).bits)
    (h : Accounted sqrt start block paid s)
    (entitled : Entitled sqrt start block s (.report origin event)) :
    Runs (ComputingEconomics.processComputingReport sqrt block origin event) s
      (fun _ s' => ∃ paid, Accounted sqrt start block paid s')
      (fun _ s' => ∃ paid, Accounted sqrt start block paid s') := by
  refine Runs.get_bind ?_
  cases origin with
  | worker pubkey =>
    dsimp only
    cases found : s.workers pubkey with
    | none => exact ⟨paid, h⟩
    | some info =>
      refine Runs.ensure_bind (fun _ => Runs.alter_bind ?_) fun _ => ⟨paid, h⟩
      have taken : Accounted sqrt start block paid (s.setWorker pubkey
          { info with waitingHeartbeats := info.waitingHeartbeats.tail }) :=
        h.unpaid (.setWorker found id)
      split
      · exact ⟨paid, taken⟩
      · refine Runs.when (fun _ => ?_) fun _ => ⟨paid, taken⟩
        refine acceptHeartbeat_accounted keyed ration taken (Function.update_self _ _ _) ?_
        exact fun measured performed => entitled info measured found performed
  | _ => exact ⟨paid, h⟩

theorem message_accounted {message : BlockMessage}
    (keyed : ∀ w info, start.workers w = some info → w ∈ start.keys)
    (ration : start.tokenomicParams.payoutRation.bits +
      start.tokenomicParams.treasuryRation.bits ≤ (fp 1).bits)
    (h : ∃ paid, Accounted sqrt start block paid s)
    (entitled : Entitled sqrt start block s message) :
    Runs (message.call hash sqrt block) s
      (fun _ s' => ∃ paid, Accounted sqrt start block paid s')
      (fun _ s' => ∃ paid, Accounted sqrt start block paid s') := by
  obtain ⟨paid, h⟩ := h
  cases message with
  | report origin event => exact processComputingReport_accounted keyed ration h entitled
  | system origin event => exact ⟨paid, h.unpaid (processSystemEvent_unpaid origin event)⟩

theorem willProcessBlock_accounted :
    Accounted sqrt start block [] (start.willProcessBlock sqrt block) :=
  ⟨List.nodup_nil, by simp, by simp, le_rfl, rfl, rfl⟩

theorem sum_part_le (fits : (start.keys.map (start.countedShare sqrt)).sum < 2 ^ 128)
    (nodup : paid.Nodup) (listed : ∀ w ∈ paid, w ∈ start.keys) :
    (paid.map (start.part sqrt)).sum ≤ start.tokenomicParams.budgetPerBlock.bits := by
  set budget := start.tokenomicParams.budgetPerBlock.bits with hbudget
  have total := ComputingEconomics.sumShare_bits fits
  have parts : ∀ l : List WorkerPublicKey, (l.map (start.part sqrt)).sum ≤
      (l.map (start.countedShare sqrt)).sum * budget / (start.sumShare sqrt).bits := by
    intro l
    induction l with
    | nil => exact Nat.zero_le _
    | cons w l ih =>
      rw [List.map_cons, List.sum_cons, List.map_cons, List.sum_cons, Nat.add_mul]
      exact (Nat.add_le_add_left ih _).trans Nat.div_add_div_le_add_div
  have within : (paid.map (start.countedShare sqrt)).sum ≤ (start.sumShare sqrt).bits := by
    rw [total]
    obtain ⟨l, perm, sublist⟩ := List.subperm_of_subset nodup listed
    rw [← (perm.map _).sum_eq]
    exact (sublist.map _).sum_le_sum fun _ _ => Nat.zero_le _
  refine (parts paid).trans (Nat.div_le_of_le_mul ?_)
  exact Nat.mul_le_mul_right _ within

end Block

theorem block_budget (hash : WorkerPublicKey → U256) (sqrt : FixedPoint → FixedPoint)
    (start : ComputingEconomics) (block : BlockInfo) (messages : List BlockMessage)
    (keyed : ∀ w info, start.workers w = some info → w ∈ start.keys)
    (ration : start.tokenomicParams.payoutRation.bits +
      start.tokenomicParams.treasuryRation.bits ≤ (fp 1).bits)
    (fits : (start.keys.map (start.countedShare sqrt)).sum < 2 ^ 128)
    (entitled : Throughout (BlockMessage.call hash sqrt block) (Entitled sqrt start block)
      (start.willProcessBlock sqrt block) messages) :
    (afterCalls (BlockMessage.call hash sqrt block) (start.willProcessBlock sqrt block)
      messages).issued ≤ start.tokenomicParams.budgetPerBlock.bits := by
  obtain ⟨paid, accounted⟩ := Runs.afterCalls
    (I := fun s => ∃ paid, Accounted sqrt start block paid s)
    (fun s message h allowed => message_accounted keyed ration h allowed)
    ⟨[], willProcessBlock_accounted⟩ entitled
  exact accounted.issued_le.trans (sum_part_le fits accounted.nodup accounted.listed)

def slowed : WorkerInfo where
  state := ⟨[], 0, true, none, some ⟨0, .computing, 0, 0⟩⟩
  waitingHeartbeats := [5]
  tokenomic :=
    { v := fp 12
      vDeductible := fp 1
      vUpdateBlock := 9
      pBench := fp 8
      pInstant := Fixed.wrap (9 * 2 ^ 63)
      confidenceLevel := 1 }

def beforeTen : ComputingEconomics where
  keys := [[]]
  workers := Function.update (fun _ => none) [] (some slowed)
  tokenomicParams := { growing 1 with
    budgetPerBlock := fp 300
    payoutRation := Fixed.wrap (2 ^ 63)
    treasuryRation := Fixed.wrap (2 ^ 63) }

theorem keyed_beforeTen : ∀ w info, beforeTen.workers w = some info → w ∈ beforeTen.keys := by
  intro w info found
  by_cases known : w = []
  · rw [known]
    exact List.mem_singleton_self _
  · change Function.update (fun _ => none) [] (some slowed) w = some info at found
    rw [Function.update_of_ne known] at found
    cases found

theorem share_slowed : slowed.tokenomic.share root = fp 15 := by
  exact root_square (n := 15) (by norm_num)

theorem root_eq : root = fun x =>
    if x = fp 225 then fp 15 else if x = fp 400 then fp 20 else root x := by
  funext x
  split_ifs with first second
  · rw [first]
    exact root_square (n := 15) (by norm_num)
  · rw [second]
    exact root_square (n := 20) (by norm_num)
  · rfl

def blockTen : BlockInfo := ⟨10, 0, by norm_num⟩

def afterTen (nClusters : ℕ) : ComputingEconomics :=
  afterCalls (BlockMessage.call (fun _ => 0) root blockTen)
    (beforeTen.willProcessBlock root blockTen)
    [.report (.worker []) (.heartbeatV2 0 5 0 0 nClusters 0)]

theorem block_budget_alone : 0 < (afterTen 0).issued ∧ (afterTen 0).issued ≤ (fp 300).bits := by
  refine ⟨?_, block_budget _ root beforeTen _ _ keyed_beforeTen (by decide +kernel) ?_ ?_⟩
  · unfold afterTen
    rw [root_eq]
    decide +kernel
  · change (beforeTen.countedShare root [] + 0) < 2 ^ 128
    change (slowed.tokenomic.share root).bits + 0 < 2 ^ 128
    rw [share_slowed]
    decide +kernel
  · refine ⟨fun info measured found performed => ?_, trivial⟩
    cases found
    cases performed
    exact ⟨le_rfl, le_rfl⟩

theorem budget_exceeded : ∃ (start : ComputingEconomics) (block : BlockInfo) (event : _),
    (∀ w info, start.workers w = some info → w ∈ start.keys) ∧ start.keys = [[]] ∧
    start.tokenomicParams.payoutRation.bits + start.tokenomicParams.treasuryRation.bits ≤
      (fp 1).bits ∧
    (∀ info, start.workers [] = some info →
      block.blockNumber = info.tokenomic.vUpdateBlock + 1) ∧
    start.tokenomicParams.budgetPerBlock.bits <
      (afterCalls (BlockMessage.call (fun _ => 0) root block) (start.willProcessBlock root block)
        [.report (.worker []) event]).issued := by
  refine ⟨beforeTen, blockTen, .heartbeatV2 0 5 0 0 1 0, keyed_beforeTen, rfl,
    by decide +kernel, ?_, ?_⟩
  · intro info found
    cases found
    rfl
  · rw [root_eq]
    decide +kernel

end Cyrux.Economics
