import Cyrux.Sidevm.Exclusion
import Mathlib

/-!
# Upload of sidevm code
-/

namespace Cyrux.SidevmService

open Proc

variable {Hash : Type} [DecidableEq Hash]

structure System (Hash : Type) where
  contracts : ℕ → Option (Contract Hash)
  blockNumber : ℕ

inductive UploadError (Hash : Type) where
  | contractNotFound
  | sidevmNotFound
  | sidevmExpired
  | start (fault : Fault Hash)

def onContract (contractId : ℕ) (contract : Contract Hash) (m : Program Hash Unit) :
    Proc (System Hash) (UploadError Hash) Unit := fun s =>
  let update (contract' : Contract Hash) : System Hash :=
    { s with contracts := Function.update s.contracts contractId (some contract') }
  match m contract with
  | .ok _ contract' => .ok () (update contract')
  | .error fault contract' => .error (.start fault) (update contract')

def uploadSidevmCode (blake2 : List UInt8 → Hash) (contractId : ℕ) (code : List UInt8) :
    Proc (System Hash) (UploadError Hash) Unit := do
  let s ← get
  let contract ← demand (s.contracts contractId) .contractNotFound
  let info ← demand contract.sidevmInfo .sidevmNotFound
  ensure (¬ info.config.deadline < s.blockNumber) .sidevmExpired
  onContract contractId contract (startSidevm blake2 (.code code) true info.config)

section

variable {blake2 : List UInt8 → Hash} {c : Contract Hash}

omit [DecidableEq Hash] in
theorem runs_stopRunning_eq :
    Runs (stopRunning c.sidevmHandle) c
      (fun _ c' => c'.sidevmInfo = c.sidevmInfo ∧
        ((∀ n, c.sidevmHandle ≠ some (.running n)) → c' = c))
      fun _ _ => False := by
  unfold stopRunning
  split
  · rename_i n hrunning
    exact ⟨rfl, fun hnot => absurd hrunning (hnot n)⟩
  · exact ⟨rfl, fun _ => rfl⟩

theorem runs_startSidevm_error (code : SidevmCode Hash) (ensureWaitingCode : Bool)
    (config : SidevmConfig) :
    Runs (startSidevm blake2 code ensureWaitingCode config) c (fun _ _ => True)
      fun _ c' => c'.sidevmInfo = c.sidevmInfo ∧
        ((∀ n, c.sidevmHandle ≠ some (.running n)) → c' = c) := by
  apply Runs.get_bind
  apply Runs.bind
  refine runs_stopRunning_eq.mono ?_ fun _ _ he => he.elim
  intro prev c₁ h₁
  apply Runs.bind
  refine (runs_resolveCode ensureWaitingCode code).mono ?_ ?_
  · rintro ⟨bytes, codeHash⟩ c₂ -
    apply Runs.bind
    unfold launch
    split
    · trivial
    · split <;> trivial
  · rintro _ c₂ rfl
    exact h₁

theorem runs_uploadSidevmCode (contractId : ℕ) (code : List UInt8) (s : System Hash) :
    Runs (uploadSidevmCode blake2 contractId code) s (fun _ _ => True) fun _ s' =>
      (∀ id, (s'.contracts id).map Contract.sidevmInfo =
        (s.contracts id).map Contract.sidevmInfo) ∧
      ((∀ contract info n, s.contracts contractId = some contract →
        contract.sidevmInfo = some info → s.blockNumber ≤ info.config.deadline →
        contract.view info.handle ≠ .running n) → s' = s) := by
  apply Runs.demand_bind
  case missing => exact fun _ => ⟨fun _ => rfl, fun _ => rfl⟩
  intro contract hcontract
  apply Runs.demand_bind
  case missing => exact fun _ => ⟨fun _ => rfl, fun _ => rfl⟩
  intro info hinfo
  apply Runs.ensure_bind
  case fails => exact fun _ => ⟨fun _ => rfl, fun _ => rfl⟩
  intro hdeadline
  have hstart : Runs (startSidevm blake2 (.code code) true info.config) contract _ _ :=
    runs_startSidevm_error (.code code) true info.config
  unfold Runs onContract at *
  cases hrun : startSidevm blake2 (.code code) true info.config contract with
  | ok _ c' => trivial
  | error fault c' =>
    rw [hrun] at hstart
    refine ⟨fun id => ?_, fun hidle => ?_⟩
    · by_cases hid : id = contractId
      · subst hid
        rw [hcontract]
        show (Function.update s.contracts id (some c') id).map _ = _
        rw [Function.update_self]
        exact congrArg some hstart.1
      · show (Function.update s.contracts contractId (some c') id).map _ = _
        rw [Function.update_of_ne hid]
    · have hc' : c' = contract := by
        apply hstart.2
        intro n hn
        rw [Contract.sidevmHandle, hinfo] at hn
        exact hidle contract info n hcontract hinfo (by omega) (Option.some.inj hn)
      subst hc'
      show { s with contracts := Function.update s.contracts contractId (some c') } = s
      rw [← hcontract, Function.update_eq_self]

end

theorem upload_keeps_sidevmInfo {blake2 : List UInt8 → Hash} {contractId : ℕ} {code : List UInt8}
    {s : System Hash} {e : UploadError Hash}
    (rejected : (uploadSidevmCode blake2 contractId code).result s = .error e) (id : ℕ) :
    (((uploadSidevmCode blake2 contractId code).after s).contracts id).map Contract.sidevmInfo =
      (s.contracts id).map Contract.sidevmInfo :=
  ((runs_uploadSidevmCode contractId code s).of_error rejected).1 id

def withContract (contract : Contract ℕ) : System ℕ :=
  ⟨fun id => if id = 0 then some contract else none, 5⟩

end Cyrux.SidevmService
