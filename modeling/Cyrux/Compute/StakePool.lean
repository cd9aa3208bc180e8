import Cyrux.Compute.Computation
import Cyrux.Compute.WrappedBalances

/-!
# Stake pools

`pallets/cyrux/src/compute/stake_pool_v2.rs`
-/

namespace Cyrux

open Exec Cyrux.Computation

variable {A W : Type} [DecidableEq A] [DecidableEq W]

namespace StakePool

def removeWorker (p : StakePool A W) (worker : W) : StakePool A W :=
  { p with workers := p.workers.filter fun w => w ≠ worker }

def removeCdWorker (p : StakePool A W) (worker : W) : StakePool A W :=
  { p with cdWorkers := p.cdWorkers.filter fun w => w ≠ worker }

end StakePool

namespace StakePoolV2

variable (cfg : Config A W)

/-! ## Pools -/

def create (owner : A) : Pallet A W Unit := do
  let pid ← consumeNewPid
  let cid ← consumeNewCid
  createCollection cid
  let accounts := cfg.generateOwnerAndLockAccount pid owner
  putPool pid (.stakePool {
    basepool := BasePool.new cfg pid cid owner
    payoutCommission := none
    cap := none
    workers := []
    cdWorkers := []
    lockAccount := accounts.2
    ownerRewardAccount := accounts.1 })

def setCap (owner : A) (pid : ℕ) (cap : ℕ) : Pallet A W Unit := do
  let pool ← ensureStakePool pid
  ensure (pool.basepool.owner = owner) (.error (.stakePool .unauthorizedPoolOwner))
  ensure (pool.basepool.totalValue ≤ cap) (.error (.stakePool .inadequateCapacity))
  putPool pid (.stakePool { pool with cap := some cap })

def setPayoutPref (owner : A) (pid : ℕ) (payoutCommission : Option Permill) :
    Pallet A W Unit := do
  let pool ← ensureStakePool pid
  ensure (pool.basepool.owner = owner) (.error (.stakePool .unauthorizedPoolOwner))
  putPool pid (.stakePool { pool with payoutCommission := payoutCommission })

def claimOwnerRewards (who : A) (pid : ℕ) (target : A) : Pallet A W Unit := do
  let pool ← ensureStakePool pid
  ensure (pool.basepool.owner = who) (.error (.stakePool .unauthorizedPoolOwner))
  let s ← get
  let rewards := s.balance pool.ownerRewardAccount
  ensure (0 < rewards) (.error (.stakePool .noRewardToClaim))
  Assets.transfer cfg pool.ownerRewardAccount target rewards

/-! ## Staking -/

def actingAccount (who : A) (asVault : Option ℕ) : Pallet A W A := do
  match asVault with
  | none => pure who
  | some vaultPid => do
    let vault ← ensureVault vaultPid
    let s ← get
    ensure (vaultPid ∉ s.vaultLocks) (.error (.stakePool .vaultIsLocked))
    ensure (who = vault.basepool.owner) (.error (.stakePool .unauthorizedPoolOwner))
    pure vault.basepool.poolAccountId

def subscribeVault (pid : ℕ) (pool : BasePool A) (vaultPid : ℕ) :
    Pallet A W (BasePool A) := do
  let vault ← ensureVault vaultPid
  let invested := if pid ∈ vault.investPools then vault.investPools
    else vault.investPools ++ [pid]
  putPool vaultPid (.vault { vault with investPools := invested })
  pure { pool with
    valueSubscribers := if vaultPid ∈ pool.valueSubscribers then pool.valueSubscribers
      else pool.valueSubscribers ++ [vaultPid] }

def subscribe (pid : ℕ) (pool : BasePool A) (asVault : Option ℕ) : Pallet A W (BasePool A) :=
  match asVault with
  | some vaultPid => subscribeVault pid pool vaultPid
  | none => pure pool

def contribute (origin : A) (pid : ℕ) (amount : ℕ) (asVault : Option ℕ) :
    Pallet A W Unit := do
  let who ← actingAccount origin asVault
  let pool ← ensureStakePool pid
  ensure (cfg.minContribution ≤ amount) (.error (.stakePool .insufficientContribution))
  let s ← get
  ensure (amount ≤ s.balance who) (.error (.stakePool .insufficientBalance))
  let (_, basepool) ← BasePool.contribute cfg pool.basepool who amount
  let basepool ← subscribe pid basepool asVault
  let basepool ← BasePool.tryProcessWithdrawQueue cfg basepool
  ensure (pool.cap.all fun cap => basepool.totalValue ≤ cap)
    (.error (.stakePool .stakeExceedsCapacity))
  putPool pid (.stakePool { pool with basepool := basepool })
  let _ ← mergeNftForStaker cfg basepool.cid who
  when asVault.isNone (WrappedBalances.maybeSubscribeToPool who pid basepool.cid)

def inQueueShares (site : PanicSite) (pool : BasePool A) (who : A) : Pallet A W ℕ := do
  match pool.withdrawQueue.find? fun w => w.user = who with
  | some withdraw => do
    let nft ← expect site (readNftAttr pool.cid withdraw.nftId)
    pure nft.shares
  | none => pure 0

def withdrawShares (site : PanicSite) (noNft invalid : Fault) (pid : ℕ) (proxy : PoolProxy A W)
    (who : A) (shares : ℕ) : Pallet A W Unit := do
  let maybeNftId ← mergeNftForStaker cfg proxy.basepool.cid who
  let nftId ← demand maybeNftId noNft
  let guard ← getNftAttrGuard proxy.basepool.cid nftId
  let inQueue ← inQueueShares site proxy.basepool who
  ensure (isNondustBalance shares = true ∧ shares ≤ guard.attr.shares + inQueue) invalid
  let (basepool, nft) ← BasePool.tryWithdraw cfg proxy.basepool guard.attr who shares
  guard.save nft
  let _ ← mergeNftForStaker cfg basepool.cid who
  putPool pid (proxy.withBase basepool)

def withdraw (origin : A) (pid : ℕ) (shares : ℕ) (asVault : Option ℕ) :
    Pallet A W Unit := do
  let who ← actingAccount origin asVault
  let pool ← ensureStakePool pid
  withdrawShares cfg .withdrawQueueNft (.error (.stakePool .noNftToWithdraw))
    (.error (.stakePool .invalidWithdrawalAmount)) pid (.stakePool pool) who shares

/-! ## Workers -/

def addWorker (owner : A) (pid : ℕ) (pubkey : W) : Pallet A W Unit := do
  let s ← get
  let workerInfo ← demand (s.workers pubkey) (.error (.stakePool .workerNotRegistered))
  ensure (workerInfo.operator = some owner) (.error (.stakePool .unauthorizedOperator))
  ensure workerInfo.initialScore.isSome (.error (.stakePool .benchmarkMissing))
  let pool ← ensureStakePool pid
  ensure (pool.basepool.owner = owner) (.error (.stakePool .unauthorizedPoolOwner))
  ensure (pubkey ∉ pool.workers) (.error (.stakePool .workerExists))
  ensure (pool.workers.length < cfg.maxPoolWorkers) (.error (.stakePool .workersExceedLimit))
  mapFault (fun f => if f.isError then .error (.stakePool .failedToBindSessionAndWorker) else f)
    (Computation.bind cfg (cfg.poolSubAccount pid pubkey) pubkey)
  putPool pid (.stakePool { pool with workers := pool.workers ++ [pubkey] })
  alter fun s => { s with
    workerAssignments := Function.update s.workerAssignments pubkey (some pid) }

def removeWorkerFromPool (worker : W) : Pallet A W Unit := do
  let s ← get
  let pid ← demand (s.workerAssignments worker) (.panic .removeWorker none)
  alter fun s => { s with workerAssignments := Function.update s.workerAssignments worker none }
  match s.pools pid with
  | some (.stakePool pool) => putPool pid (.stakePool (pool.removeWorker worker))
  | _ => pure ()

def onUnbound (worker : W) (_force : Bool) : Pallet A W Unit := removeWorkerFromPool worker

def removeWorker (who : A) (pid : ℕ) (worker : W) : Pallet A W Unit := do
  let pool ← ensureStakePool pid
  ensure (pool.basepool.owner = who) (.error (.stakePool .unauthorizedPoolOwner))
  let s ← get
  let lookupPid ← demand (s.workerAssignments worker) (.error (.stakePool .workerDoesNotExist))
  ensure (pid = lookupPid) (.error (.stakePool .workerInAnotherPool))
  let subAccount := cfg.poolSubAccount pid worker
  let session ← demand (s.sessions subAccount) (.error (.stakePool .sessionDoesNotExist))
  ensure (session.state = .ready) (.error (.stakePool .workerIsNotReady))
  unbindSession onUnbound subAccount false
  removeWorkerFromPool worker

def doStartComputing (owner : A) (pid : ℕ) (worker : W) (stake : ℕ) :
    Pallet A W Unit := do
  let pool ← ensureStakePool pid
  ensure (pool.basepool.owner = owner) (.error (.stakePool .unauthorizedPoolOwner))
  let free ← pool.basepool.getFreeStakes
  ensure (stake ≤ free) (.error (.stakePool .insufficientFreeStake))
  ensure (worker ∈ pool.workers) (.error (.stakePool .workerDoesNotExist))
  Computation.startComputing cfg (cfg.poolSubAccount pid worker) stake
  Assets.transfer cfg pool.basepool.poolAccountId pool.lockAccount stake
  putPool pid (.stakePool pool)

def doStopComputing (owner : A) (pid : ℕ) (worker : W) : Pallet A W Unit := do
  let pool ← ensureStakePool pid
  ensure (pool.basepool.owner = owner) (.error (.stakePool .unauthorizedPoolOwner))
  ensure (worker ∈ pool.workers) (.error (.stakePool .workerDoesNotExist))
  ensure (worker ∉ pool.cdWorkers) (.error (.stakePool .workerAlreadyStopped))
  Computation.stopComputing (cfg.poolSubAccount pid worker)
  putPool pid (.stakePool { pool with cdWorkers := pool.cdWorkers ++ [worker] })

def handleReclaim (pid : ℕ) (origStake slashed : ℕ) : Pallet A W Unit := do
  let pool ← expect .reclaimPool (ensureStakePool pid)
  ensure (slashed ≤ origStake) (.panic .reclaimSlash none)
  let returned := origStake - slashed
  let basepool := if slashed ≠ 0 then pool.basepool.slash slashed else pool.basepool
  expect .reclaimTransfer
    (Assets.transfer cfg pool.lockAccount basepool.poolAccountId returned)
  let basepool ← BasePool.tryProcessWithdrawQueue cfg basepool
  putPool pid (.stakePool { pool with basepool := basepool })

def doReclaim (pid : ℕ) (subAccount : A) (worker : W) (checkCooldown : Bool) :
    Pallet A W (ℕ × ℕ) := do
  let (origStake, slashed) ← Computation.reclaim subAccount checkCooldown
  handleReclaim cfg pid origStake slashed
  let pool ← ensureStakePool pid
  putPool pid (.stakePool (pool.removeCdWorker worker))
  pure (origStake, slashed)

def reclaimPoolWorker (pid : ℕ) (worker : W) : Pallet A W Unit := do
  let _ ← ensureStakePool pid
  let _ ← doReclaim cfg pid (cfg.poolSubAccount pid worker) worker true
  pure ()

def restartComputing (owner : A) (pid : ℕ) (worker : W) (stake : ℕ) :
    Pallet A W Unit := do
  let pool ← ensureStakePool pid
  ensure pool.basepool.withdrawQueue.isEmpty (.error (.stakePool .withdrawQueueNotEmpty))
  doStopComputing cfg owner pid worker
  let (origStake, slashed) ← doReclaim cfg pid (cfg.poolSubAccount pid worker) worker false
  ensure (slashed ≤ origStake) (.panic .restartSlash none)
  ensure (origStake - slashed < stake) (.error (.stakePool .cannotRestartWithLessStake))
  doStartComputing cfg owner pid worker stake

def releasingStake (pid : ℕ) (workers : List W) : Pallet A W ℕ :=
  workers.foldlM (fun total worker => do
    let s ← get
    let stake ← demand (s.stakes (cfg.poolSubAccount pid worker)) (.panic .releasingStake none)
    pure (total + stake)) 0

def forceStop (pid : ℕ) (pool : StakePool A W) (worker : W) : Pallet A W Unit := do
  let s ← get
  match s.sessions (cfg.poolSubAccount pid worker) with
  | none => pure ()
  | some info =>
    if info.state.isComputing ∧ worker ∉ pool.cdWorkers then
      doStopComputing cfg pool.basepool.owner pid worker
    else
      pure ()

def checkAndMaybeForceWithdraw (pid : ℕ) : Pallet A W Unit := do
  let s ← get
  let pool ← ensureStakePool pid
  let basepool ← BasePool.tryProcessWithdrawQueue cfg pool.basepool
  let pool := { pool with basepool := basepool }
  let releasing ← releasingStake cfg pid pool.cdWorkers
  putPool pid (.stakePool pool)
  let expired ← basepool.hasExpiredWithdrawal s.now cfg.gracePeriod none releasing
  when expired (each (forceStop cfg pid pool) pool.workers)

/-! ## Rewards -/

def handlePoolNewReward (pool : StakePool A W) (rewards : ℕ) :
    Pallet A W (StakePool A W) := do
  if balanceCloseToZero rewards then
    pure pool
  else if balanceCloseToZero pool.basepool.totalShares then
    pure pool
  else do
    expect .rewardSubsidy (withdrawSubsidyPool cfg cfg.wrappedBalancesAccountId rewards)
    let commission := (pool.payoutCommission.getD Permill.zero).mul rewards
    let _ ← expect .rewardMintOwner
      (WrappedBalances.mintInto cfg pool.ownerRewardAccount commission)
    let toDistribute := rewards - commission
    let minted ← expect .rewardMintPool
      (WrappedBalances.mintInto cfg pool.basepool.poolAccountId toDistribute)
    if minted ∧ isNondustBalance toDistribute then do
      let basepool ← BasePool.distributeReward cfg cfg.fuel pool.basepool toDistribute
      pure { pool with basepool := basepool }
    else
      pure pool

def rewardWorker (info : SettleInfo W) : Pallet A W Unit := do
  let reward ← convert (fromFixed info.payout)
  let s ← get
  match s.workerAssignments info.pubkey with
  | none => pure ()
  | some pid => do
    let pool ← expect .rewardPool (ensureStakePool pid)
    let pool ← handlePoolNewReward cfg pool reward
    putPool pid (.stakePool pool)

def onReward (settle : List (SettleInfo W)) : Pallet A W Unit :=
  each (rewardWorker cfg) settle

end StakePoolV2

end Cyrux
