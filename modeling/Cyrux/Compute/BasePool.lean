import Cyrux.Compute.Assets
import Cyrux.Compute.Nft

/-!
# Base pools

`pallets/cyrux/src/compute/base_pool.rs`
-/

namespace Cyrux

open Exec

variable {A W : Type}

/-! ## Dust -/

def balanceCloseToZero (n : ℕ) : Bool := n ≤ 1000

def isNondustBalance (n : ℕ) : Bool := !balanceCloseToZero n

def extractDust (n : ℕ) : ℕ × ℕ :=
  if balanceCloseToZero n then (0, n) else (n, 0)

/-! ## Pools in storage -/

def ensureStakePool (pid : ℕ) : Pallet A W (StakePool A W) := do
  let s ← get
  match s.pools pid with
  | some (.stakePool p) => pure p
  | some (.vault _) => throw (.error (.basePool .poolTypeNotMatch))
  | none => throw (.error (.basePool .poolDoesNotExist))

def ensureVault (pid : ℕ) : Pallet A W (Vault A) := do
  let s ← get
  match s.pools pid with
  | some (.vault v) => pure v
  | some (.stakePool _) => throw (.error (.basePool .poolTypeNotMatch))
  | none => throw (.error (.basePool .poolDoesNotExist))

def State.putPool (s : State A W) (pid : ℕ) (p : PoolProxy A W) : State A W :=
  { s with pools := Function.update s.pools pid (some p) }

def putPool (pid : ℕ) (p : PoolProxy A W) : Pallet A W Unit := alter fun s => s.putPool pid p

def consumeNewPid : Pallet A W ℕ := do
  let s ← get
  alter fun s => { s with poolCount := s.poolCount + 1 }
  pure s.poolCount

def reserveCidStart : ℕ := 10000

def consumeNewCid : Pallet A W ℕ := do
  let s ← get
  let id := if s.collectionIndex ≤ reserveCidStart then reserveCidStart else s.collectionIndex
  alter fun s => { s with collectionIndex := id + 1 }
  pure id

def createCollection (cid : ℕ) : Pallet A W Unit :=
  alter fun s => { s with collections := insert cid s.collections }

def BasePool.new (cfg : Config A W) (pid cid : ℕ) (owner : A) : BasePool A where
  pid := pid
  owner := owner
  totalShares := 0
  totalValue := 0
  withdrawQueue := []
  valueSubscribers := []
  cid := cid
  poolAccountId := cfg.generateStakerAccount pid owner

namespace BasePool

/-! ## Value and price -/

def sharePrice (p : BasePool A) : Option (Option FixedPoint) := do
  let value ← toFixed p.totalValue
  let shares ← toFixed p.totalShares
  pure (value.checkedDiv shares)

def newShares (p : BasePool A) (amount : ℕ) : Option ℕ := do
  match ← p.sharePrice with
  | some price => if price.bits = 0 then pure amount else Balance.div amount price
  | none => pure amount

def slash (p : BasePool A) (amount : ℕ) : BasePool A :=
  { p with totalValue := (extractDust (p.totalValue - min p.totalValue amount)).1 }

def getFreeStakes (p : BasePool A) : Pallet A W ℕ := do
  let s ← get
  pure (s.balance p.poolAccountId)

variable [DecidableEq A] (cfg : Config A W)

/-! ## Contributing -/

def addStakeToNewNft (pool : BasePool A) (account : A) (amount : ℕ) :
    Pallet A W (ℕ × BasePool A) := do
  let shares ← convert (pool.newShares amount)
  let _ ← expect .addStakeMint (mintNft pool.cid account shares)
  expect .addStakeTransfer (Assets.transfer cfg account pool.poolAccountId amount)
  pure (shares, { pool with
    totalShares := pool.totalShares + shares
    totalValue := pool.totalValue + amount })

def ensureWhitelisted (pool : BasePool A) (account : A) : Pallet A W Unit := do
  let s ← get
  match s.whitelists pool.pid with
  | some whitelist =>
    ensure (account ∈ whitelist ∨ pool.owner = account)
      (.error (.basePool .notInContributeWhitelist))
  | none => pure ()

def contribute (pool : BasePool A) (account : A) (amount : ℕ) :
    Pallet A W (ℕ × BasePool A) := do
  ensure (pool.totalShares = 0 ∨ 0 < pool.totalValue) (.error (.basePool .poolBankrupt))
  ensureWhitelisted pool account
  let _ ← mergeNftForStaker cfg pool.cid account
  addStakeToNewNft cfg pool account amount

/-! ## The withdraw queue -/

def returnRequests (cid : ℕ) (requests : List (WithdrawInfo A)) (shares : ℕ) :
    Pallet A W ℕ :=
  burnNfts cfg id .pushBurn cfg.palletId cid (requests.map WithdrawInfo.nftId) shares

def pushWithdrawInQueue (pool : BasePool A) (nft : NftAttr) (account : A) (shares : ℕ) :
    Pallet A W (Option ℕ × BasePool A × NftAttr) := do
  match ← convert pool.sharePrice with
  | none => do
    -- The pool has no price: the NFT is reduced and nothing else is done.
    ensure (shares ≤ nft.shares) (.error (.basePool .invalidShareToWithdraw))
    pure (none, pool, ⟨nft.shares - shares⟩)
  | some _ => do
    let total ← returnRequests cfg pool.cid
      (pool.withdrawQueue.filter fun w => w.user = account) nft.shares
    let splitNftId ← expect .pushMint (mintNft pool.cid cfg.palletId shares)
    ensure (shares ≤ total) (.error (.basePool .invalidShareToWithdraw))
    let s ← get
    let queue := pool.withdrawQueue.filter fun w => w.user ≠ account
    pure (some splitNftId,
      { pool with withdrawQueue := queue ++ [⟨account, s.now, splitNftId⟩] },
      ⟨total - shares⟩)

def removeStakeFromNft (pool : BasePool A) (shares : ℕ) (nft : NftAttr) (userid : A) :
    Pallet A W (Option (ℕ × ℕ × BasePool A × NftAttr)) := do
  match ← convert pool.sharePrice with
  | none => pure none
  | some price => do
    let amount ← convert (Balance.mul shares price)
    let free ← pool.getFreeStakes
    let amount := min amount free
    if nft.shares < shares then
      pure none
    else do
      let userShares := extractDust (nft.shares - shares)
      let removed := shares + userShares.2
      if pool.totalShares < removed then
        pure none
      else do
        ensure (amount ≤ pool.totalValue) (.panic .removeStakeValue none)
        let totalStake := extractDust (pool.totalValue - amount)
        expect .removeStakeTransfer (Assets.transfer cfg pool.poolAccountId userid amount)
        pure (some (amount, removed,
          { pool with
            totalValue := if 0 < totalStake.1 then pool.totalValue - amount else 0
            totalShares := pool.totalShares - removed },
          ⟨userShares.1⟩))

def maybeRemoveDust (pool : BasePool A) (nft : NftAttr) : Pallet A W (Option (BasePool A)) := do
  match ← convert pool.sharePrice with
  | none => pure none
  | some price => do
    let current ← convert (Balance.mul nft.shares price)
    if cfg.wphaMin < current then
      pure none
    else do
      ensure (nft.shares ≤ pool.totalShares) (.panic .dustShares none)
      pure (some { pool with totalShares := pool.totalShares - nft.shares })

def popFront (pool : BasePool A) (withdraw : WithdrawInfo A) (rest : List (WithdrawInfo A)) :
    Pallet A W (BasePool A) := do
  expect .queueBurn (burnNft cfg cfg.palletId pool.cid withdraw.nftId)
  pure { pool with withdrawQueue := rest }

def freeShares (price : FixedPoint) (free shares : ℕ) : Option ℕ :=
  if price.bits = 0 then some shares else Balance.div free price

def processFront (price : FixedPoint) (pool : BasePool A) (withdraw : WithdrawInfo A)
    (rest : List (WithdrawInfo A)) : Pallet A W (BasePool A) := do
  let guard ← expect .queueNft (getNftAttrGuard pool.cid withdraw.nftId)
  match ← maybeRemoveDust cfg pool guard.attr with
  | some pool => do
    guard.unlock
    popFront cfg pool withdraw rest
  | none => do
    let free ← pool.getFreeStakes
    let freeShares ← convert (freeShares price free guard.attr.shares)
    let withdrawing := min freeShares guard.attr.shares
    match ← removeStakeFromNft cfg pool withdrawing guard.attr withdraw.user with
    | none => throw (.panic .queueRemoveStake none)
    | some (_, _, pool, nft) => do
      guard.save nft
      if nft.shares = 0 then
        popFront cfg pool withdraw rest
      else
        match ← maybeRemoveDust cfg pool nft with
        | some pool => popFront cfg pool withdraw rest
        | none => pure pool

def processQueue (price : FixedPoint) : ℕ → BasePool A → Pallet A W (BasePool A)
  | 0, _ => throw .outOfFuel
  | fuel + 1, pool => do
    let free ← pool.getFreeStakes
    if free ≤ cfg.wphaMin then
      pure pool
    else
      match pool.withdrawQueue with
      | [] => pure pool
      | withdraw :: rest => do
        let pool ← processFront cfg price pool withdraw rest
        processQueue price fuel pool

def tryProcessWithdrawQueue (pool : BasePool A) : Pallet A W (BasePool A) := do
  match ← convert pool.sharePrice with
  | none => pure pool
  | some price => processQueue cfg price cfg.fuel pool

def tryWithdraw (pool : BasePool A) (nft : NftAttr) (userid : A) (shares : ℕ) :
    Pallet A W (BasePool A × NftAttr) := do
  let (split, pool, nft) ← pushWithdrawInQueue cfg pool nft userid shares
  match split with
  | none => pure (pool, nft)
  | some _ => do
    let pool ← tryProcessWithdrawQueue cfg pool
    pure (pool, nft)

/-! ## Expiry -/

def elapsed (now startTime : ℕ) : Pallet A W ℕ := do
  ensure (startTime ≤ now) (.panic .expiryTime none)
  pure (now - startTime)

def overdue (vaultQueuePeriod : Option ℕ) (now startTime : ℕ) : Pallet A W Bool := do
  match vaultQueuePeriod with
  | some period => do
    let age ← elapsed now startTime
    pure (decide (period < age))
  | none => pure false

def expiredFrom (pool : BasePool A) (price : FixedPoint) (now gracePeriod : ℕ)
    (vaultQueuePeriod : Option ℕ) :
    ℕ → List (WithdrawInfo A) → Pallet A W Bool
  | _, [] => pure false
  | budget, request :: rest => do
    let late ← overdue vaultQueuePeriod now request.startTime
    if late then
      pure true
    else do
      let nft ← expect .expiryNft (readNftAttr pool.cid request.nftId)
      let amount ← convert (Balance.mul nft.shares price)
      if budget < amount then do
        let age ← elapsed now request.startTime
        pure (decide (gracePeriod < age))
      else
        expiredFrom pool price now gracePeriod vaultQueuePeriod (budget - amount) rest

def hasExpiredWithdrawal (pool : BasePool A) (now gracePeriod : ℕ) (vaultQueuePeriod : Option ℕ)
    (releasingStake : ℕ) : Pallet A W Bool := do
  match ← convert pool.sharePrice with
  | none => pure false
  | some price =>
    if price.bits = 0 then
      pure false
    else do
      let free ← pool.getFreeStakes
      pool.expiredFrom price now gracePeriod vaultQueuePeriod (free + releasingStake)
        pool.withdrawQueue

/-! ## Rewards -/

def queuedShares (cid : ℕ) (own : FixedPoint) (requests : List (WithdrawInfo A)) :
    Pallet A W FixedPoint :=
  requests.foldlM (fun total withdraw => do
    let attr ← expect .rewardNft (readNftAttr cid withdraw.nftId)
    let shares ← convert (toFixed attr.shares)
    pure (total.add shares)) own

def rewardSubscriber (distribute : BasePool A → ℕ → Pallet A W (BasePool A)) (pool : BasePool A)
    (rewards : ℕ) (vaultStaker : ℕ) : Pallet A W Unit := do
  let vault ← expect .rewardSubscriber (ensureVault vaultStaker)
  let account := vault.basepool.poolAccountId
  match ← expect .rewardMerge (mergeNftForStaker cfg pool.cid account) with
  | none => pure ()
  | some nftId => do
    let nft ← expect .rewardNft (readNftAttr pool.cid nftId)
    let own ← convert (toFixed nft.shares)
    let shares ← queuedShares pool.cid own
      (pool.withdrawQueue.filter fun w => w.user = account)
    let total ← convert (toFixed pool.totalShares)
    match shares.checkedDiv total with
    | none => pure ()
    | some ratio => do
      let stakeRatio ← convert (fromFixed ratio)
      let reward ← convert (toFixed rewards)
      let settled ← convert (Balance.mul stakeRatio reward)
      let basepool ← distribute vault.basepool settled
      putPool vaultStaker (.vault { vault with basepool := basepool })

def distributeReward : ℕ → BasePool A → ℕ → Pallet A W (BasePool A)
  | 0, _, _ => throw .outOfFuel
  | depth + 1, pool, rewards => do
    let pool := { pool with totalValue := pool.totalValue + rewards }
    each (rewardSubscriber cfg (distributeReward depth) pool rewards) pool.valueSubscribers
    pure pool

end BasePool

/-! ## Contribution whitelists -/

section Whitelist

variable [DecidableEq A]

def maxWhitelistLen : ℕ := 100

def ensurePoolOwner (owner : A) (pid : ℕ) : Pallet A W Unit := do
  let s ← get
  let proxy ← demand (s.pools pid) (.error (.basePool .poolDoesNotExist))
  ensure (proxy.basepool.owner = owner) (.error (.basePool .unauthorizedPoolOwner))

def putWhitelist (pid : ℕ) (whitelist : Option (List A)) : Pallet A W Unit :=
  alter fun s => { s with whitelists := Function.update s.whitelists pid whitelist }

def addStakerToWhitelist (owner : A) (pid : ℕ) (staker : A) : Pallet A W Unit := do
  ensurePoolOwner owner pid
  let s ← get
  match s.whitelists pid with
  | some whitelist => do
    ensure (staker ∉ whitelist) (.error (.basePool .alreadyInContributeWhitelist))
    ensure (whitelist.length < maxWhitelistLen) (.error (.basePool .exceedWhitelistMaxLen))
    putWhitelist pid (some (whitelist ++ [staker]))
  | none => putWhitelist pid (some [staker])

def removeStakerFromWhitelist (owner : A) (pid : ℕ) (staker : A) : Pallet A W Unit := do
  ensurePoolOwner owner pid
  let s ← get
  let whitelist ← demand (s.whitelists pid) (.error (.basePool .noWhitelistCreated))
  ensure (staker ∈ whitelist) (.error (.basePool .notInContributeWhitelist))
  let rest := whitelist.filter fun a => a ≠ staker
  putWhitelist pid (if rest.isEmpty then none else some rest)

end Whitelist

end Cyrux
