import Cyrux.Compute.StakePool

/-!
# Vaults

`pallets/cyrux/src/compute/vault.rs`
-/

namespace Cyrux

open Exec

variable {A W : Type} [DecidableEq A] [DecidableEq W]

namespace VaultPallet

variable (cfg : Config A W)

/-! ## Owner shares -/

def create (owner : A) : Pallet A W Unit := do
  let pid ← consumeNewPid
  let cid ← consumeNewCid
  createCollection cid
  putPool pid (.vault {
    basepool := BasePool.new cfg pid cid owner
    lastSharePriceCheckpoint := cfg.initialPriceCheckPoint
    commission := none
    ownerShares := 0
    investPools := [] })

def doGainOwnerShare (vaultPid : ℕ) : Pallet A W Unit := do
  let pool ← ensureVault vaultPid
  match ← convert pool.basepool.sharePrice with
  | none => pure ()
  | some price => do
    let currentPrice ← convert (fromFixed price)
    if pool.lastSharePriceCheckpoint = 0 then
      putPool vaultPid (.vault { pool with lastSharePriceCheckpoint := currentPrice })
    else if currentPrice ≤ pool.lastSharePriceCheckpoint then
      pure ()
    else do
      let deltaPrice := (pool.commission.getD Permill.zero).mul
        (currentPrice - pool.lastSharePriceCheckpoint)
      let newPrice := currentPrice - deltaPrice
      let divisor ← convert (toFixed newPrice)
      let shares ← convert (Balance.div pool.basepool.totalValue divisor)
      let adjustShares := shares - pool.basepool.totalShares
      putPool vaultPid (.vault { pool with
        basepool := { pool.basepool with
          totalShares := pool.basepool.totalShares + adjustShares }
        ownerShares := pool.ownerShares + adjustShares
        lastSharePriceCheckpoint := newPrice })

def maybeGainOwnerShares (who : A) (vaultPid : ℕ) : Pallet A W Unit := do
  let pool ← ensureVault vaultPid
  ensure (who = pool.basepool.owner) (.error (.vault .unauthorizedPoolOwner))
  doGainOwnerShare vaultPid

def setPayoutPref (owner : A) (pid : ℕ) (payoutCommission : Option Permill) :
    Pallet A W Unit := do
  let pool ← ensureVault pid
  ensure (pool.basepool.owner = owner) (.error (.vault .unauthorizedPoolOwner))
  ensure (pool.commission ≠ payoutCommission) (.error (.vault .commissionNotChanged))
  maybeGainOwnerShares owner pid
  let pool ← expect .vaultReload (ensureVault pid)
  putPool pid (.vault { pool with commission := payoutCommission })

def claimOwnerShares (who : A) (vaultPid : ℕ) (target : A) (shares : ℕ) :
    Pallet A W Unit := do
  let pool ← ensureVault vaultPid
  ensure (who = pool.basepool.owner) (.error (.vault .unauthorizedPoolOwner))
  ensure (shares ≤ pool.ownerShares) (.error (.vault .noEnoughShareToClaim))
  ensure (0 < shares) (.error (.vault .noRewardToClaim))
  let _ ← mintNft pool.basepool.cid target shares
  let _ ← mergeNftForStaker cfg pool.basepool.cid target
  WrappedBalances.maybeSubscribeToPool who vaultPid pool.basepool.cid
  putPool vaultPid (.vault { pool with ownerShares := pool.ownerShares - shares })

/-! ## Staking -/

def contribute (who : A) (pid : ℕ) (amount : ℕ) : Pallet A W Unit := do
  ensure (cfg.minContribution ≤ amount) (.error (.vault .insufficientContribution))
  let s ← get
  let free ← demand (s.wpha who) (.error (.vault .assetAccountNotExist))
  ensure (amount ≤ free) (.error (.vault .insufficientBalance))
  doGainOwnerShare pid
  let pool ← ensureVault pid
  let (_, basepool) ← BasePool.contribute cfg pool.basepool who amount
  let basepool ← BasePool.tryProcessWithdrawQueue cfg basepool
  putPool pid (.vault { pool with basepool := basepool })
  let _ ← mergeNftForStaker cfg basepool.cid who
  WrappedBalances.maybeSubscribeToPool who pid basepool.cid

def withdraw (who : A) (pid : ℕ) (shares : ℕ) : Pallet A W Unit := do
  doGainOwnerShare pid
  let pool ← ensureVault pid
  StakePoolV2.withdrawShares cfg .vaultWithdrawQueueNft (.error (.vault .noNftToWithdraw))
    (.error (.vault .noEnoughShareToClaim)) pid (.vault pool) who shares

/-! ## Forced withdrawal -/

def requestsOf (account : A) (pool : BasePool A) : List (WithdrawInfo A) :=
  pool.withdrawQueue.filter fun w => w.user = account

def releasingStake (account : A) (investPools : List ℕ) : Pallet A W ℕ :=
  investPools.foldlM (fun total pid => do
    let pool ← ensureStakePool pid
    (requestsOf account pool.basepool).foldlM (fun total withdraw => do
      let nft ← readNftAttr pool.basepool.cid withdraw.nftId
      let price ← convert pool.basepool.sharePrice
      let price ← demand price (.error (.vault .vaultBankrupt))
      let amount ← convert (Balance.mul nft.shares price)
      pure (total + amount)) total) 0

def requestedShares (account : A) (pool : BasePool A) : Pallet A W ℕ :=
  (requestsOf account pool).foldlM (fun total withdraw => do
    let nft ← expect .vaultQueueNft (readNftAttr pool.cid withdraw.nftId)
    pure (total + nft.shares)) 0

def withdrawable (requested : ℕ) (guard : NftGuard) : Pallet A W (Option ℕ) := do
  if isNondustBalance guard.attr.shares = false then do
    let _ ← attempt Fault.isError (burnNft cfg cfg.palletId guard.cid guard.nftId)
    pure none
  else if isNondustBalance (requested + guard.attr.shares) then
    pure (some (requested + guard.attr.shares))
  else
    pure none

def sharesToWithdraw (account : A) (pool : BasePool A) : Pallet A W (Option ℕ) := do
  let requested ← requestedShares account pool
  match ← mergeNftForStaker cfg pool.cid account with
  | none => pure none
  | some nftId => do
    let guard ← expect .vaultNft (getNftAttrGuard pool.cid nftId)
    let result ← withdrawable cfg requested guard
    guard.unlock
    pure result

def withdrawFrom (vaultPid : ℕ) (vault : BasePool A) (skipped : List ℕ) (pid : ℕ) :
    Pallet A W (List ℕ) := do
  let pool ← ensureStakePool pid
  match ← sharesToWithdraw cfg vault.poolAccountId pool.basepool with
  | none => pure (skipped ++ [pid])
  | some shares => do
    StakePoolV2.withdraw cfg vault.owner pool.basepool.pid shares (some vaultPid)
    pure skipped

def mustShutdown (vault : Vault A) : Pallet A W Bool := do
  let s ← get
  if vault.basepool.withdrawQueue.head?.any
      fun w => w.startTime + 3 * cfg.gracePeriod < s.now then
    pure true
  else do
    let releasing ← releasingStake vault.basepool.poolAccountId vault.investPools
    vault.basepool.hasExpiredWithdrawal s.now cfg.gracePeriod (some cfg.vaultQueuePeriod)
      releasing

def forceWithdraw (vaultPid : ℕ) (vault : Vault A) : Pallet A W Unit := do
  let skipped ← vault.investPools.foldlM (withdrawFrom cfg vaultPid vault.basepool) []
  when (!skipped.isEmpty) (putPool vaultPid (.vault { vault with
    investPools := vault.investPools.filter fun pid => pid ∉ skipped }))
  alter fun s => { s with vaultLocks := insert vaultPid s.vaultLocks }

def checkAndMaybeForceWithdraw (vaultPid : ℕ) : Pallet A W Unit := do
  let vault ← ensureVault vaultPid
  let basepool ← BasePool.tryProcessWithdrawQueue cfg vault.basepool
  let vault := { vault with basepool := basepool }
  when basepool.withdrawQueue.isEmpty
    (alter fun s => { s with vaultLocks := s.vaultLocks.erase vaultPid })
  putPool vaultPid (.vault vault)
  let s ← get
  if vaultPid ∈ s.vaultLocks then
    pure ()
  else do
    let shutdown ← mustShutdown cfg vault
    when shutdown (forceWithdraw cfg vaultPid vault)

end VaultPallet

end Cyrux
