import Mathlib
import Cyrux.Lib.Machine
import Cyrux.Lib.Proc

/-!
# The sidevm deployer

`crates/pink-drivers/sidevm_deployer/lib.rs`
-/

namespace Cyrux.Deployer

open Proc Unsigned

structure ContractInstances (Worker : Type) where
  workers : List Worker
  deadline : ℕ
  price : ℕ
  deriving DecidableEq

structure SidevmOp (Account Worker : Type) where
  owner : Account
  vmPrice : ℕ
  memPrice : ℕ
  /-- Deadlines of paid instances indexed by workers. -/
  contractDeadlineByWorkers : Worker → Option (List ℕ)
  /-- Paid instances indexed by contracts. -/
  paidInstancesByContracts : Account → Option (ContractInstances Worker)
  contractsRunningSidevm : List Account
  maxPaidInstancesPerWorker : ℕ

structure Contract (Account Worker : Type) extends SidevmOp Account Worker where
  balance : ℕ

inductive Error where
  | badOrigin
  | other (message : String)
  | systemError (message : String)
  deriving DecidableEq

inductive Fault where
  | error (e : Error)
  | panic (message : String)
  deriving DecidableEq

def Fault.isError : Fault → Bool
  | .error _ => true
  | .panic _ => false

structure SidevmConfig where
  maxCodeSize : ℕ
  maxMemoryPages : ℕ
  deadline : ℕ

inductive SystemCall (Account Worker : Type) where
  | deploySidevmToWorkers (contract : Account) (codeHash : ℕ) (workers : List Worker)
      (config : SidevmConfig)
  | setSidevmDeadline (contract : Account) (deadline : ℕ)
  | stopSidevmAt (contract : Account)

structure Env (Account Worker : Type) where
  caller : Account
  transferredValue : ℕ
  blockNumber : ℕ
  isInTransaction : Bool
  system : SystemCall Account Worker → Except Error Unit

abbrev Program (Account Worker : Type) := Proc (Contract Account Worker) Fault

variable {Account Worker : Type} [DecidableEq Account] [DecidableEq Worker]

def Env.callSystem (env : Env Account Worker) (call : SystemCall Account Worker) :
    Program Account Worker Unit :=
  match env.system call with
  | .ok () => pure ()
  | .error e => throw (.error e)

def refund (amount : ℕ) : Program Account Worker Unit := do
  let s ← get
  ensure (amount ≤ s.balance) (.panic "Failed to refund")
  alter fun s => { s with balance := s.balance - amount }

def ensureOwner (env : Env Account Worker) : Program Account Worker Unit := do
  let s ← get
  ensure (env.caller = s.owner) (.error .badOrigin)

def ensureTx (env : Env Account Worker) : Program Account Worker Unit :=
  ensure (env.isInTransaction = true) (.error (.other "Transaction required"))

/-! ## The indices -/

def clearWorker (deadline : ℕ) (worker : Worker) : Program Account Worker Unit := do
  let s ← get
  let deadlines ← demand (s.contractDeadlineByWorkers worker) (.error (.other "No instances"))
  -- the first of the equal deadlines goes, whoever it belongs to
  let rest := deadlines.erase deadline
  alter fun s => { s with
    contractDeadlineByWorkers := Function.update s.contractDeadlineByWorkers worker
      (if rest.isEmpty then none else some rest) }

def clearContract (contract : Account) : Program Account Worker Unit := do
  alter fun s => { s with
    contractsRunningSidevm := s.contractsRunningSidevm.filter (· ≠ contract) }
  let s ← get
  let instances ← demand (s.paidInstancesByContracts contract) (.error (.other "No instances"))
  alter fun s => { s with
    paidInstancesByContracts := Function.update s.paidInstancesByContracts contract none }
  each (clearWorker instances.deadline) instances.workers

def expired (paid : Account → Option (ContractInstances Worker)) (now : ℕ) :
    List Account → Option (List Account)
  | [] => some []
  | contract :: contracts => do
    let instances ← paid contract
    let rest ← expired paid now contracts
    pure (if instances.deadline < now then contract :: rest else rest)

def recycle (env : Env Account Worker) : Program Account Worker Unit := do
  let s ← get
  let toRemove ← demand
    (expired s.paidInstancesByContracts env.blockNumber s.contractsRunningSidevm)
    (.panic "Failed to get instances")
  each (fun contract => mapError (fun _ => .panic "Failed to clear") (clearContract contract))
    toRemove

def ensureAvailable (workers : List Worker) : Program Account Worker Unit :=
  each (fun worker => do
    let s ← get
    let deadlines := (s.contractDeadlineByWorkers worker).getD []
    ensure (deadlines.length < s.maxPaidInstancesPerWorker)
      (.error (.other "No available workers"))) workers

def addDeadline (deadline : ℕ) (worker : Worker) : Program Account Worker Unit :=
  alter fun s => { s with
    contractDeadlineByWorkers := Function.update s.contractDeadlineByWorkers worker
      (some ((s.contractDeadlineByWorkers worker).getD [] ++ [deadline])) }

def addDeployInfo (env : Env Account Worker) (contract : Account) (workers : List Worker)
    (price deadline : ℕ) : Program Account Worker Unit := do
  recycle env
  let _ ← attempt Fault.isError (clearContract contract)
  ensureAvailable workers
  let instances : ContractInstances Worker := ⟨workers, deadline, price⟩
  alter fun s => { s with
    paidInstancesByContracts :=
      Function.update s.paidInstancesByContracts contract (some instances) }
  each (addDeadline instances.deadline) workers
  alter fun s => { s with contractsRunningSidevm := s.contractsRunningSidevm ++ [contract] }

/-! ## Prices -/

def calcPricePerBlock (vmPrice memPrice codeSize maxMemoryPages nWorkers : ℕ) : Option ℕ := do
  let pageSize := 64 * 1024
  let pages ← checkedMul 128 maxMemoryPages pageSize
  let memSize ← checkedAdd 128 pages codeSize
  let memPrice ← checkedMul 128 memPrice memSize
  let price ← checkedAdd 128 vmPrice memPrice
  checkedMul 128 price nWorkers

def remainingTimeToValue (s : SidevmOp Account Worker) (now : ℕ) (contract : Account) : ℕ :=
  match s.paidInstancesByContracts contract with
  | none => 0
  | some info =>
    let current := saturatingAdd 32 now 1
    if info.deadline ≤ current then 0
    else saturatingMul 128 info.price (info.deadline - current)

/-! ## Messages -/

def terminate (env : Env Account Worker) (contract : Account) : Program Account Worker Unit := do
  clearContract contract
  env.callSystem (.stopSidevmAt contract)

def deployToWorkers (env : Env Account Worker) (codeHash codeSize : ℕ) (workers : List Worker)
    (maxMemoryPages blocksToLive : ℕ) : Program Account Worker Unit := do
  ensureTx env
  -- only neighbours that are equal become one
  let workers := workers.destutter (· ≠ ·)
  ensure (workers ≠ []) (.error (.other "No workers"))
  ensure (maxMemoryPages ≠ 0) (.error (.other "No memory"))
  ensure (blocksToLive ≠ 0) (.error (.other "Live too short"))
  let s ← get
  let remainingValue := remainingTimeToValue s.toSidevmOp env.blockNumber env.caller
  let availableValue := saturatingAdd 128 env.transferredValue remainingValue
  let price ← demand
    (calcPricePerBlock s.vmPrice s.memPrice codeSize maxMemoryPages (workers.length % 2 ^ 32))
    (.error (.other "Overflow"))
  let requiredValue ← demand (checkedMul 128 price blocksToLive) (.error (.other "Overflow"))
  ensure (requiredValue ≤ availableValue) (.error (.other "Not enough value"))
  when (requiredValue < availableValue) (refund (availableValue - requiredValue))
  let deadline := saturatingAdd 32 env.blockNumber blocksToLive
  addDeployInfo env env.caller workers price deadline
  env.callSystem (.deploySidevmToWorkers env.caller codeHash workers
    ⟨min codeSize (1024 * 1024 * 16), min maxMemoryPages 1024, deadline⟩)

def moveDeadline (current deadline : ℕ) (worker : Worker) : Program Account Worker Unit := do
  let s ← get
  let deadlines ← demand (s.contractDeadlineByWorkers worker) (.error (.other "No instances"))
  ensure (current ∈ deadlines) (.error (.other "No deadline for contract"))
  alter fun s => { s with
    contractDeadlineByWorkers := Function.update s.contractDeadlineByWorkers worker
      (some (deadlines.erase current ++ [deadline])) }

def deadlineRefund (current : ContractInstances Worker) (paidValue deadline : ℕ) :
    Except Error ℕ := do
  if current.deadline < deadline then
    match checkedMul 128 current.price (deadline - current.deadline) with
    | none => throw (.other "Overflow")
    | some price =>
      if paidValue < price then throw (.other "Not enough value") else pure (paidValue - price)
  else
    match checkedMul 128 current.price (current.deadline - deadline) with
    | none => throw (.other "Overflow")
    | some refund =>
      match checkedAdd 128 paidValue refund with
      | none => throw (.other "Overflow")
      | some value => pure value

def updateDeadline (env : Env Account Worker) (deadline : ℕ) : Program Account Worker Unit := do
  ensureTx env
  let s ← get
  let current ← demand (s.paidInstancesByContracts env.caller) (.error (.other "No instances"))
  let deadline := max deadline env.blockNumber
  if deadline = current.deadline then
    when (0 < env.transferredValue) (refund env.transferredValue)
  else
    match deadlineRefund current env.transferredValue deadline with
    | .error e => throw (.error e)
    | .ok value =>
      when (0 < value) (refund value)
      if deadline = env.blockNumber then
        let _ ← attempt Fault.isError (terminate env env.caller)
      else
        each (moveDeadline current.deadline deadline) current.workers
        alter fun s => { s with
          paidInstancesByContracts := Function.update s.paidInstancesByContracts env.caller
            (some { current with deadline := deadline }) }
        env.callSystem (.setSidevmDeadline env.caller deadline)

def setVmPrice (env : Env Account Worker) (price : ℕ) : Program Account Worker Unit := do
  ensureOwner env
  alter fun s => { s with vmPrice := price }

def setMemPrice (env : Env Account Worker) (price : ℕ) : Program Account Worker Unit := do
  ensureOwner env
  alter fun s => { s with memPrice := price }

def setMaxPaidInstancesPerWorker (env : Env Account Worker) (n : ℕ) :
    Program Account Worker Unit := do
  ensureOwner env
  alter fun s => { s with maxPaidInstancesPerWorker := n }

structure Info (Account Worker : Type) where
  blockNumber : ℕ
  vmPrice : ℕ
  memPrice : ℕ
  maxPaidInstancesPerWorker : ℕ
  instances : List (Account × ContractInstances Worker)
  workers : List (Worker × List ℕ)

def workerEntries (s : SidevmOp Account Worker) (workers : List Worker) :
    Option (List (Worker × List ℕ)) :=
  workers.mapM fun worker => (s.contractDeadlineByWorkers worker).map (worker, ·)

def info (s : SidevmOp Account Worker) (now : ℕ) : Option (Info Account Worker) := do
  let instances ← s.contractsRunningSidevm.mapM fun contract =>
    (s.paidInstancesByContracts contract).map (contract, ·)
  let workers ← instances.mapM fun entry => workerEntries s entry.2.workers
  pure ⟨now, s.vmPrice, s.memPrice, s.maxPaidInstancesPerWorker, instances, workers.flatten⟩

/-! ## The contract on chain -/

inductive Message (Worker : Type) where
  | deployToWorkers (codeHash codeSize : ℕ) (workers : List Worker)
      (maxMemoryPages blocksToLive : ℕ)
  | updateDeadline (deadline : ℕ)
  | setVmPrice (price : ℕ)
  | setMemPrice (price : ℕ)
  | setMaxPaidInstancesPerWorker (n : ℕ)

def Message.run (env : Env Account Worker) : Message Worker → Program Account Worker Unit
  | .deployToWorkers codeHash codeSize workers maxMemoryPages blocksToLive =>
    Deployer.deployToWorkers env codeHash codeSize workers maxMemoryPages blocksToLive
  | .updateDeadline deadline => Deployer.updateDeadline env deadline
  | .setVmPrice price => Deployer.setVmPrice env price
  | .setMemPrice price => Deployer.setMemPrice env price
  | .setMaxPaidInstancesPerWorker n => Deployer.setMaxPaidInstancesPerWorker env n

def Message.payable : Message Worker → Bool
  | .deployToWorkers .. => true
  | .updateDeadline _ => true
  | _ => false

def Message.call (env : Env Account Worker) (message : Message Worker) :
    Program Account Worker Unit := do
  ensure (message.payable = true ∨ env.transferredValue = 0)
    (.panic "paid an unpayable message")
  alter fun s => { s with balance := s.balance + env.transferredValue }
  message.run env

structure Chain (Account Worker : Type) where
  contract : Contract Account Worker
  now : ℕ

inductive Step (Account Worker : Type) where
  | message (caller : Account) (value : ℕ) (isInTransaction : Bool)
      (system : SystemCall Account Worker → Except Error Unit) (message : Message Worker)
  | blocks (n : ℕ)

def Chain.env (c : Chain Account Worker) (caller : Account) (value : ℕ) (isInTransaction : Bool)
    (system : SystemCall Account Worker → Except Error Unit) : Env Account Worker :=
  ⟨caller, value, c.now, isInTransaction, system⟩

def Chain.step (c : Chain Account Worker) : Step Account Worker → Chain Account Worker
  | .message caller value isInTransaction system message =>
    match message.call (c.env caller value isInTransaction system) c.contract with
    | .ok _ contract => { c with contract := contract }
    | .error _ _ => c
  | .blocks n => { c with now := saturatingAdd 32 c.now n }

def Chain.run (c : Chain Account Worker) (steps : List (Step Account Worker)) :
    Chain Account Worker := steps.foldl Chain.step c

def SidevmOp.new (owner : Account) (vmPrice memPrice maxPaidInstancesPerWorker endowment : ℕ) :
    Contract Account Worker where
  owner := owner
  vmPrice := vmPrice
  memPrice := memPrice
  contractDeadlineByWorkers := fun _ => none
  paidInstancesByContracts := fun _ => none
  contractsRunningSidevm := []
  maxPaidInstancesPerWorker := maxPaidInstancesPerWorker
  balance := endowment

end Cyrux.Deployer
