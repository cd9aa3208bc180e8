import Cyrux.Compute.Types
import Mathlib.Logic.Function.Basic

/-!
# The ledgers
-/

namespace Cyrux

open Exec

variable {A W : Type} [DecidableEq A]

/-! ## W-PHA -/

def Config.dust (cfg : Config A W) : DustPolicy := ⟨cfg.wphaMin, cfg.reapsDust⟩

namespace State

def move (cfg : Config A W) (s : State A W) (source dest : A) (amount : ℕ) : State A W :=
  { s with wpha := s.wpha.move cfg.dust source dest amount }

def belowMinimum (cfg : Config A W) (s : State A W) (a : A) (amount : ℕ) : Prop :=
  s.wpha a = none ∧ amount < cfg.wphaMin

instance (cfg : Config A W) (s : State A W) (a : A) (amount : ℕ) :
    Decidable (s.belowMinimum cfg a amount) :=
  inferInstanceAs (Decidable (_ ∧ _))

def mintWpha (s : State A W) (target : A) (amount : ℕ) : State A W :=
  { s with wpha := s.wpha.credit target amount, wphaSupply := s.wphaSupply + amount }

def burnWpha (cfg : Config A W) (s : State A W) (target : A) (amount : ℕ) : State A W :=
  let wpha := s.wpha.debit cfg.dust target amount
  { s with
    wpha := wpha
    wphaSupply := s.wphaSupply - (s.wpha.balance target - wpha.balance target) }

end State

namespace Assets

variable (cfg : Config A W)

def transfer (source dest : A) (amount : ℕ) : Pallet A W Unit := do
  let s ← get
  ensure (amount ≤ s.balance source) (.error (.token .fundsUnavailable))
  ensure (¬ s.belowMinimum cfg dest amount) (.error (.token .belowMinimum))
  alter fun s => s.move cfg source dest amount

def mintInto (target : A) (amount : ℕ) : Pallet A W Unit := do
  if amount = 0 then
    pure ()
  else do
    let s ← get
    ensure (¬ s.belowMinimum cfg target amount) (.error (.token .belowMinimum))
    alter fun s => s.mintWpha target amount

def burnFrom (target : A) (amount : ℕ) : Pallet A W Unit := do
  let s ← get
  let actual := min amount (s.balance target)
  if actual = 0 then
    pure ()
  else do
    ensure (actual ≤ s.wphaSupply) (.error (.token .fundsUnavailable))
    alter fun s => s.burnWpha cfg target actual

variable {cfg}

theorem transfer_spec (source dest : A) (amount : ℕ) (s : State A W) :
    Sat (transfer cfg source dest amount) s
      (fun _ s' => amount ≤ s.balance source ∧ ¬ s.belowMinimum cfg dest amount ∧
        s' = s.move cfg source dest amount)
      (fun f => (f = .error (.token .fundsUnavailable) ∧ s.balance source < amount) ∨
        (f = .error (.token .belowMinimum) ∧ s.belowMinimum cfg dest amount)) := by
  refine Sat.get_bind (Sat.ensure_bind (fun funds => ?_) fun h => .inl ⟨rfl, Nat.not_le.1 h⟩)
  refine Sat.ensure_bind (fun opened => ?_) fun h => .inr ⟨rfl, not_not.1 h⟩
  exact ⟨funds, opened, rfl⟩

theorem mintInto_spec (target : A) (amount : ℕ) (s : State A W) :
    Sat (mintInto cfg target amount) s
      (fun _ s' => amount = 0 ∧ s' = s ∨
        amount ≠ 0 ∧ ¬ s.belowMinimum cfg target amount ∧ s' = s.mintWpha target amount)
      (fun f => f = .error (.token .belowMinimum) ∧ amount ≠ 0 ∧
        s.belowMinimum cfg target amount) := by
  refine Sat.ite (fun zero => .inl ⟨zero, rfl⟩) fun nonzero => ?_
  refine Sat.get_bind (Sat.ensure_bind (fun opened => ?_) fun h => ⟨rfl, nonzero, not_not.1 h⟩)
  exact .inr ⟨nonzero, opened, rfl⟩

theorem burnFrom_spec (target : A) (amount : ℕ) (s : State A W) :
    Sat (burnFrom cfg target amount) s
      (fun _ s' => min amount (s.balance target) = 0 ∧ s' = s ∨
        min amount (s.balance target) ≠ 0 ∧ min amount (s.balance target) ≤ s.wphaSupply ∧
          s' = s.burnWpha cfg target (min amount (s.balance target)))
      (fun f => f = .error (.token .fundsUnavailable)) := by
  refine Sat.get_bind (Sat.ite (fun zero => .inl ⟨zero, rfl⟩) fun nonzero => ?_)
  exact Sat.ensure_bind (fun issued => .inr ⟨nonzero, issued, rfl⟩) fun _ => rfl

end Assets

/-! ## The native currency -/

namespace State

def takeNative (s : State A W) (source : A) (amount : ℕ) : State A W :=
  { s with native := Function.update s.native source (s.native source - amount) }

def moveNative (s : State A W) (source dest : A) (amount : ℕ) : State A W :=
  let paid := s.takeNative source amount
  { paid with native := Function.update paid.native dest (paid.native dest + amount) }

end State

namespace Currency

variable (cfg : Config A W)

def transfer (source dest : A) (amount : ℕ) (keepAlive : Bool) : Pallet A W Unit := do
  if amount = 0 ∨ source = dest then
    pure ()
  else do
    let s ← get
    ensure (amount ≤ s.native source) (.error (.token .fundsUnavailable))
    ensure (cfg.existentialDeposit ≤ s.native dest + amount) (.error (.token .belowMinimum))
    ensure (s.frozen source ≤ s.native source - amount) (.error (.token .frozen))
    ensure (keepAlive = true → cfg.existentialDeposit ≤ s.native source - amount)
      (.error (.token .notExpendable))
    alter fun s => s.moveNative source dest amount

def withdraw (source : A) (amount : ℕ) : Pallet A W Unit := do
  if amount = 0 then
    pure ()
  else do
    let s ← get
    ensure (amount ≤ s.native source) (.error (.token .fundsUnavailable))
    ensure (s.frozen source ≤ s.native source - amount) (.error (.token .frozen))
    alter fun s => s.takeNative source amount

variable {cfg}

theorem transfer_spec (source dest : A) (amount : ℕ) (keepAlive : Bool) (s : State A W) :
    Sat (transfer cfg source dest amount keepAlive) s
      (fun _ s' => (s' = s ∧ (amount = 0 ∨ source = dest)) ∨
        (amount ≤ s.native source ∧ amount ≠ 0 ∧ s' = s.moveNative source dest amount))
      (fun f => ∃ e, f = .error (.token e)) := by
  unfold transfer
  split_ifs with skip
  · exact .inl ⟨rfl, skip⟩
  · refine Sat.get_bind (Sat.ensure_bind (fun funds => ?_) fun _ => ⟨_, rfl⟩)
    refine Sat.ensure_bind (fun _ => ?_) fun _ => ⟨_, rfl⟩
    refine Sat.ensure_bind (fun _ => ?_) fun _ => ⟨_, rfl⟩
    refine Sat.ensure_bind (fun _ => ?_) fun _ => ⟨_, rfl⟩
    exact .inr ⟨funds, fun h => skip (.inl h), rfl⟩

theorem withdraw_spec (source : A) (amount : ℕ) (s : State A W) :
    Sat (withdraw source amount) s
      (fun _ s' => s' = s ∨ s' = s.takeNative source amount)
      (fun f => ∃ e, f = .error (.token e)) := by
  unfold withdraw
  split_ifs with zero
  · exact .inl rfl
  · refine Sat.get_bind (Sat.ensure_bind (fun _ => ?_) fun _ => ⟨_, rfl⟩)
    exact Sat.ensure_bind (fun _ => .inr rfl) fun _ => ⟨_, rfl⟩

end Currency

end Cyrux
