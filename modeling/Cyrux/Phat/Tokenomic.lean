import Cyrux.Lib.Exec
import Cyrux.Lib.Ledger
import Mathlib

/-!
# Stakes on contracts

`pallets/cyrux/src/phat_tokenomic.rs`
-/

namespace Cyrux.Phat.Tokenomic

open Exec

variable {A C : Type}

inductive Error
  | invalidAmountOfStake
  | fundsUnavailable
  | notExpendable
  | belowMinimum

structure Config (A : Type) where
  palletId : A
  existentialDeposit : ℕ
  minStake : ℕ

structure State (A C : Type) where
  native : Ledger A
  contractUserStakes : A × C → ℕ := fun _ => 0
  contractTotalStakes : C → ℕ := fun _ => 0
  /-- `get_system_contract` of the `phat` pallet. -/
  systemContract : C → Option C := fun _ => none
  /-- The messages to system contracts, `ContractDeposit::change_deposit`: a contract with its total
  stake. -/
  pushed : List (C × C × ℕ) := []

variable [DecidableEq A]

def transfer (cfg : Config A) (source dest : A) (value : ℕ) (keepAlive : Bool) :
    Exec (State A C) Error Unit := do
  if source = dest ∨ value = 0 then
    pure ()
  else do
    let s ← get
    ensure (value ≤ s.native.balance source) .fundsUnavailable
    ensure (keepAlive = true → cfg.existentialDeposit ≤ s.native.balance source - value)
      .notExpendable
    ensure (cfg.existentialDeposit ≤ s.native.balance dest + value) .belowMinimum
    alter fun s => { s with
      native := s.native.move ⟨cfg.existentialDeposit, true⟩ source dest value }

def moveStake (cfg : Config A) (user : A) (orig amount total : ℕ) :
    Exec (State A C) Error ℕ := do
  if orig < amount then do
    let delta := amount - orig
    transfer cfg user cfg.palletId delta true
    pure (total + delta)
  else do
    let delta := orig - amount
    transfer cfg cfg.palletId user delta false
    pure (total - delta)

variable [DecidableEq C]

def adjustStake (cfg : Config A) (user : A) (contract : C) (amount : ℕ) :
    Exec (State A C) Error Unit := do
  ensure (amount = 0 ∨ cfg.minStake ≤ amount) .invalidAmountOfStake
  let s ← get
  let total ← moveStake cfg user (s.contractUserStakes (user, contract)) amount
    (s.contractTotalStakes contract)
  alter fun s => { s with
    contractUserStakes := Function.update s.contractUserStakes (user, contract) amount
    contractTotalStakes := Function.update s.contractTotalStakes contract total }
  match (← get).systemContract contract with
  | some system => alter fun s => { s with pushed := s.pushed ++ [(system, contract, total)] }
  | none => pure ()

inductive Step (cfg : Config A) : State A C → State A C → Prop
  | adjustStake {s s' : State A C} (user : A) (contract : C) (amount : ℕ)
      (signer : user ≠ cfg.palletId)
      (ok : Tokenomic.adjustStake cfg user contract amount s = .ok ((), s')) : Step cfg s s'
  | other {s s' : State A C} (stakes : s'.contractUserStakes = s.contractUserStakes)
      (totals : s'.contractTotalStakes = s.contractTotalStakes)
      (funds : s.native.balance cfg.palletId ≤ s'.native.balance cfg.palletId) : Step cfg s s'

abbrev Reachable (cfg : Config A) : State A C → Prop :=
  Reach (fun s => (∀ p, s.contractUserStakes p = 0) ∧ ∀ c, s.contractTotalStakes c = 0) (Step cfg)

/-! ## What a call does -/

section

variable {cfg : Config A} {s s' : State A C} {user : A} {contract : C} {amount : ℕ}

omit [DecidableEq C] in
theorem transfer_spec (source dest : A) (value : ℕ) (keepAlive : Bool) :
    Sat (transfer cfg source dest value keepAlive) s
      (fun _ s' => s' = { s with
        native := s.native.move ⟨cfg.existentialDeposit, true⟩ source dest value })
      (fun _ => value ≠ 0 ∧ ¬ (value ≤ s.native.balance source ∧
        (keepAlive = true → cfg.existentialDeposit ≤ s.native.balance source - value) ∧
        cfg.existentialDeposit ≤ s.native.balance dest + value)) := by
  refine Sat.ite (fun idle => ?_) fun busy => Sat.get_bind ?_
  · change s = _
    unfold Ledger.move
    rw [if_pos idle]
  · have some : value ≠ 0 := fun h => busy (.inr h)
    refine Sat.ensure_bind (fun _ => ?_) fun h => ⟨some, fun k => h k.1⟩
    refine Sat.ensure_bind (fun _ => ?_) fun h => ⟨some, fun k => h k.2.1⟩
    exact Sat.ensure_bind (fun _ => rfl) fun h => ⟨some, fun k => h k.2.2⟩

def Config.settle (cfg : Config A) (native : Ledger A) (user : A) (orig amount : ℕ) : Ledger A :=
  if orig < amount then native.move ⟨cfg.existentialDeposit, true⟩ user cfg.palletId (amount - orig)
  else native.move ⟨cfg.existentialDeposit, true⟩ cfg.palletId user (orig - amount)

theorem adjustStake_spec {orig : ℕ} (staked : s.contractUserStakes (user, contract) = orig) :
    Sat (adjustStake cfg user contract amount) s
      (fun _ s' => (amount = 0 ∨ cfg.minStake ≤ amount) ∧
        s'.native = cfg.settle s.native user orig amount ∧
        s'.contractUserStakes = Function.update s.contractUserStakes (user, contract) amount ∧
        s'.contractTotalStakes = Function.update s.contractTotalStakes contract
          (s.contractTotalStakes contract + amount - orig))
      (fun _ => amount = 0 → orig ≠ 0 ∧ ¬ (orig ≤ s.native.balance cfg.palletId ∧
        cfg.existentialDeposit ≤ s.native.balance user + orig)) := by
  refine Sat.ensure_bind (fun allowed => Sat.get_bind ?_) fun h zero => absurd (.inl zero) h
  rw [staked]
  have moved : Sat (moveStake cfg user orig amount (s.contractTotalStakes contract)) s
      (fun total s₁ => total = s.contractTotalStakes contract + amount - orig ∧
        s₁ = { s with native := cfg.settle s.native user orig amount })
      (fun _ => amount = 0 → orig ≠ 0 ∧ ¬ (orig ≤ s.native.balance cfg.palletId ∧
        cfg.existentialDeposit ≤ s.native.balance user + orig)) := by
    unfold moveStake Config.settle
    split_ifs with more
    · refine (transfer_spec user cfg.palletId (amount - orig) true).bind ?_ ?_
      · intro _ _ zero
        omega
      · rintro _ _ rfl
        exact ⟨by omega, rfl⟩
    · refine (transfer_spec cfg.palletId user (orig - amount) false).bind ?_ ?_
      · rintro _ ⟨some, poor⟩ rfl
        exact ⟨some, fun h => poor ⟨h.1, fun h => (by cases h), h.2⟩⟩
      · rintro _ _ rfl
        exact ⟨by omega, rfl⟩
  refine moved.bind (fun _ h => h) ?_
  rintro _ _ ⟨rfl, rfl⟩
  refine Sat.alter_bind (Sat.get_bind ?_)
  split <;> exact ⟨allowed, rfl, rfl, rfl⟩

end

/-! ## Redeeming stakes -/

theorem sum_update_add {ι : Type} [Fintype ι] [DecidableEq ι] (f : ι → ℕ) (i : ι) (b : ℕ) :
    ∑ x, Function.update f i b x + f i = ∑ x, f x + b := by
  rw [Finset.sum_update_of_mem (Finset.mem_univ i),
    Finset.sum_eq_add_sum_sdiff_singleton_of_mem (Finset.mem_univ i) f]
  omega

variable [Fintype A] [Fintype C] {cfg : Config A} {s s' : State A C}

structure Solvent (cfg : Config A) (s : State A C) : Prop where
  totalled : ∀ c, s.contractTotalStakes c = ∑ u, s.contractUserStakes (u, c)
  nondust : ∀ p, s.contractUserStakes p = 0 ∨ cfg.existentialDeposit ≤ s.contractUserStakes p
  funded : ∑ p, s.contractUserStakes p ≤ s.native.balance cfg.palletId

omit [DecidableEq A] [DecidableEq C] in
theorem le_sum_stakes (p : A × C) : s.contractUserStakes p ≤ ∑ p, s.contractUserStakes p :=
  Finset.single_le_sum (fun _ _ => Nat.zero_le _) (Finset.mem_univ p)

omit [Fintype C] in
theorem totalled_update {stakes : A × C → ℕ} {totals : C → ℕ}
    (h : ∀ c, totals c = ∑ u, stakes (u, c)) (user : A) (contract : C) (amount : ℕ) (c : C) :
    Function.update totals contract (totals contract + amount - stakes (user, contract)) c =
      ∑ u, Function.update stakes (user, contract) amount (u, c) := by
  rcases eq_or_ne c contract with rfl | ne
  · have column : ∀ u, Function.update stakes (user, c) amount (u, c) =
        Function.update (fun u => stakes (u, c)) user amount u := by
      intro u
      simp [Function.update_apply]
    rw [Function.update_self, Finset.sum_congr rfl fun u _ => column u, h c]
    exact Nat.sub_eq_of_eq_add (sum_update_add (fun u => stakes (u, c)) user amount).symm
  · rw [Function.update_of_ne ne, h c]
    exact Finset.sum_congr rfl fun u _ => (Function.update_of_ne (by simp [ne]) _ _).symm

theorem Solvent.step (least : cfg.existentialDeposit ≤ max 1 cfg.minStake) (h : Solvent cfg s)
    (step : Step cfg s s') : Solvent cfg s' := by
  cases step with
  | other stakes totals funds =>
    refine ⟨?_, ?_, ?_⟩
    · rw [totals, stakes]
      exact h.totalled
    · rw [stakes]
      exact h.nondust
    · rw [stakes]
      exact h.funded.trans funds
  | adjustStake user contract amount signer ok =>
    obtain ⟨allowed, native, stakes, totals⟩ := (adjustStake_spec rfl).of_ok ok
    have nondust : ∀ p, s'.contractUserStakes p = 0 ∨
        cfg.existentialDeposit ≤ s'.contractUserStakes p := by
      intro p
      rw [stakes, Function.update_apply]
      split_ifs
      · omega
      · exact h.nondust p
    refine ⟨fun c => ?_, nondust, ?_⟩
    · rw [totals, stakes]
      exact totalled_update h.totalled user contract amount c
    · have sum := sum_update_add s.contractUserStakes (user, contract) amount
      have part := le_sum_stakes (s := s) (user, contract)
      have funded := h.funded
      rw [← stakes] at sum
      rw [native]
      unfold Config.settle
      split_ifs with more
      · rw [Ledger.balance_move_dest signer]
        omega
      unfold Ledger.move
      split_ifs with idle
      · have same := idle.resolve_left signer.symm
        omega
      rw [Ledger.balance_congr (Ledger.credit_of_ne signer.symm)]
      -- the account of the pallet is reaped only when nothing is staked any more
      by_cases none : ∀ p, s'.contractUserStakes p = 0
      · rw [Finset.sum_eq_zero fun p _ => none p]
        exact Nat.zero_le _
      · obtain ⟨p, some⟩ := not_forall.1 none
        have single := le_sum_stakes (s := s') p
        have large := (nondust p).resolve_left some
        have kept : cfg.existentialDeposit ≤ s.native.balance cfg.palletId -
            (s.contractUserStakes (user, contract) - amount) := by omega
        rw [Ledger.balance_debit_of_kept (.inr (.inr kept))]
        omega

theorem solvent_of_reachable (least : cfg.existentialDeposit ≤ max 1 cfg.minStake)
    (reached : Reachable cfg s) : Solvent cfg s := by
  refine reached.invariant ?_ fun _ _ h step => h.step least step
  rintro s ⟨stakes, totals⟩
  refine ⟨fun c => ?_, fun p => .inl (stakes p), ?_⟩
  · rw [totals, Finset.sum_eq_zero fun u _ => stakes (u, c)]
  · rw [Finset.sum_eq_zero fun p _ => stakes p]
    exact Nat.zero_le _

def Redeems (cfg : Config A) (s : State A C) (user : A) (contract : C) : Prop :=
  ∃ s', adjustStake cfg user contract 0 s = .ok ((), s') ∧
    s'.contractUserStakes (user, contract) = 0 ∧
    s'.native.balance user = s.native.balance user + s.contractUserStakes (user, contract)

/-- The pallet holds what is staked and pays it back on demand. -/
theorem stakes_redeemable (least : cfg.existentialDeposit ≤ max 1 cfg.minStake)
    (reached : Reachable cfg s) {user : A} (signer : user ≠ cfg.palletId) (contract : C) :
    s.contractTotalStakes contract = ∑ u, s.contractUserStakes (u, contract) ∧
      ∑ p, s.contractUserStakes p ≤ s.native.balance cfg.palletId ∧
      Redeems cfg s user contract := by
  have solvent := solvent_of_reachable least reached
  refine ⟨solvent.totalled contract, solvent.funded, ?_⟩
  have part := le_sum_stakes (s := s) (user, contract)
  have funded := solvent.funded
  cases run : adjustStake cfg user contract 0 s with
  | error f =>
    obtain ⟨staked, poor⟩ := (adjustStake_spec rfl).of_error run rfl
    have large := (solvent.nondust (user, contract)).resolve_left staked
    exact absurd ⟨by omega, by omega⟩ poor
  | ok r =>
    obtain ⟨-, native, stakes, -⟩ := (adjustStake_spec rfl).of_ok run
    refine ⟨r.2, run, by simp [stakes], ?_⟩
    rw [native]
    unfold Config.settle
    rw [if_neg (Nat.not_lt_zero _), Ledger.balance_move_dest signer.symm, Nat.sub_zero]

theorem stakes_redeemable_staked : ∃ s : State Bool Unit,
    Reachable ⟨false, 2, 3⟩ s ∧ s.contractUserStakes (true, ()) = 5 ∧
      Redeems ⟨false, 2, 3⟩ s true () := by
  let s : State Bool Unit := { native := fun _ => some 10 }
  obtain ⟨s', run, staked⟩ : ∃ s', adjustStake ⟨false, 2, 3⟩ true () 5 s = .ok ((), s') ∧
      s'.contractUserStakes (true, ()) = 5 := ⟨_, rfl, rfl⟩
  have reached : Reachable ⟨false, 2, 3⟩ s' :=
    .step (.init ⟨fun _ => rfl, fun _ => rfl⟩) (.adjustStake true () 5 (by decide) run)
  exact ⟨s', reached, staked, (stakes_redeemable (by decide) reached (by decide) ()).2.2⟩

end Cyrux.Phat.Tokenomic
