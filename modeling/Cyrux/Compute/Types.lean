import Cyrux.Lib.Exec
import Cyrux.Lib.Ledger
import Cyrux.Compute.BalanceConvert
import Mathlib.Data.Finset.Insert
import Mathlib.Data.Finset.Prod

/-!
# The state of the compute pallets
-/

namespace Cyrux

/-! ## Errors and panics -/

inductive BasePoolError
  | missCollectionId | poolBankrupt | invalidShareToWithdraw | poolDoesNotExist | poolTypeNotMatch
  | nftIdNotFound | attrLocked | unauthorizedPoolOwner | alreadyInContributeWhitelist
  | notInContributeWhitelist | exceedWhitelistMaxLen | noWhitelistCreated | burnNftFailed
deriving DecidableEq

inductive StakePoolError
  | workerNotRegistered | benchmarkMissing | workerExists | workerAlreadyStopped
  | workerDoesNotExist | workerInAnotherPool | unauthorizedOperator | unauthorizedPoolOwner
  | inadequateCapacity | stakeExceedsCapacity | insufficientContribution | noNftToWithdraw
  | insufficientBalance | insufficientFreeStake | invalidWithdrawalAmount
  | failedToBindSessionAndWorker | noRewardToClaim | workersExceedLimit
  | cannotRestartWithLessStake | withdrawQueueNotEmpty | vaultIsLocked | sessionDoesNotExist
  | workerIsNotReady
deriving DecidableEq

inductive VaultError
  | unauthorizedPoolOwner | noEnoughShareToClaim | noRewardToClaim | assetAccountNotExist
  | insufficientBalance | insufficientContribution | vaultBankrupt | noNftToWithdraw
  | commissionNotChanged
deriving DecidableEq

inductive WrappedBalancesError
  | stakerAccountNotFound | unwrapAmountExceedsAvaliableStake | voteAmountLargerThanTotalStakes
  | referendumInvalid | referendumOngoing | iterationsIsNotVaild
deriving DecidableEq

inductive ComputationError
  | badSender | workerNotRegistered | duplicateBoundSession | benchmarkMissing | sessionNotFound
  | sessionNotBound | workerNotReady | workerNotComputing | workerNotBound | coolDownNotReady
  | insufficientStake | tooMuchStake | internalErrorBadTokenomicParameters
  | duplicateBoundWorker | benchmarkTooLow | internalErrorCannotStartWithExistingStake
  | workerReregisterNeeded
deriving DecidableEq

inductive TokenError
  | fundsUnavailable | belowMinimum | frozen | notExpendable
deriving DecidableEq

inductive DispatchError
  | basePool (e : BasePoolError)
  | stakePool (e : StakePoolError)
  | vault (e : VaultError)
  | wrappedBalances (e : WrappedBalancesError)
  | computation (e : ComputationError)
  | token (e : TokenError)
  | collectionUnknown
  | nftAlreadyExists
  | democracyInsufficientFunds
deriving DecidableEq

inductive PanicSite
  | conversion
  -- `base_pool`
  | rewardSubscriber | rewardMerge | rewardNft
  | pushBurn | pushMint
  | expiryNft | expiryTime
  | addStakeMint | addStakeTransfer
  | removeStakeTransfer | removeStakeValue
  | mergeNft | mergeBurn
  | dustShares
  | queueNft | queueRemoveStake | queueBurn
  -- `stake_pool_v2`
  | releasingStake | withdrawQueueNft | reclaimPool | reclaimSlash | reclaimTransfer
  | rewardSubsidy | rewardMintOwner | rewardMintPool | rewardPool | removeWorker | restartSlash
  -- `vault`
  | vaultWithdrawQueueNft | vaultReload | vaultQueueNft | vaultNft | vaultPrice
  -- `wrapped_balances`
  | netValueNft | netValuePool | voteIndex | unlockAccount
  -- `computation`
  | boundSession | startSession | boundWorker | onlineWorkers | coolDownTime
deriving DecidableEq

inductive Fault
  | error (e : DispatchError)
  | panic (site : PanicSite) (cause : Option DispatchError)
  | outOfFuel
deriving DecidableEq

def Fault.cause? : Fault → Option DispatchError
  | .error e => some e
  | .panic _ cause => cause
  | .outOfFuel => none

def Fault.expect (site : PanicSite) : Fault → Fault
  | .error e => .panic site (some e)
  | f => f

def Fault.isError : Fault → Bool
  | .error _ => true
  | _ => false

def PanicSite.inQueue : PanicSite → Bool
  | removeStakeTransfer | removeStakeValue | dustShares | queueNft | queueRemoveStake
  | queueBurn => true
  | _ => false

def Fault.isQueuePanic : Fault → Bool
  | .panic site _ => site.inQueue
  | _ => false

def Fault.isStuckPanic : Fault → Bool
  | .panic site cause => site.inQueue ∧ cause ≠ some (.basePool .attrLocked)
  | _ => false

def Fault.plain : Fault → Bool
  | .error e => e ≠ .basePool .attrLocked ∧ e ≠ .basePool .poolBankrupt
  | .panic site cause => cause ≠ some (.basePool .attrLocked) ∧ !site.inQueue ∧
      site ≠ .releasingStake ∧ site ≠ .removeWorker
  | .outOfFuel => true

def Fault.isVotePanic : Fault → Bool
  | .panic .voteIndex _ => true
  | .panic .unlockAccount _ => true
  | _ => false

def Fault.ofSession : Fault → Bool
  | .error (.computation .internalErrorCannotStartWithExistingStake) => true
  | .panic .onlineWorkers _ => true
  | _ => false

theorem Fault.plain_expect {f : Fault} {site : PanicSite} (h : f.plain = true)
    (hs : (Fault.panic site none).plain = true) : (f.expect site).plain = true := by
  cases f with
  | error e =>
    simp only [Fault.plain, Fault.expect, decide_eq_true_eq, ne_eq, Option.some.injEq] at *
    exact ⟨h.1, hs.2⟩
  | panic => exact h
  | outOfFuel => rfl

/-! ## Pools -/

structure Permill where
  parts : ℕ
  parts_le : parts ≤ 1000000
deriving DecidableEq

def Permill.mul (p : Permill) (x : ℕ) : ℕ :=
  let rem := x % 1000000 * p.parts
  x / 1000000 * p.parts + rem / 1000000 + if 500000 < rem % 1000000 then 1 else 0

def Permill.zero : Permill := ⟨0, by decide⟩

structure WithdrawInfo (A : Type) where
  user : A
  startTime : ℕ
  nftId : ℕ
deriving DecidableEq

structure NftAttr where
  shares : ℕ
deriving DecidableEq

structure BasePool (A : Type) where
  pid : ℕ
  owner : A
  totalShares : ℕ
  totalValue : ℕ
  withdrawQueue : List (WithdrawInfo A)
  valueSubscribers : List ℕ
  cid : ℕ
  poolAccountId : A

structure StakePool (A W : Type) where
  basepool : BasePool A
  payoutCommission : Option Permill
  cap : Option ℕ
  workers : List W
  cdWorkers : List W
  lockAccount : A
  ownerRewardAccount : A

structure Vault (A : Type) where
  basepool : BasePool A
  lastSharePriceCheckpoint : ℕ
  commission : Option Permill
  ownerShares : ℕ
  investPools : List ℕ

inductive PoolProxy (A W : Type)
  | stakePool (p : StakePool A W)
  | vault (v : Vault A)

namespace PoolProxy

variable {A W : Type}

def basepool : PoolProxy A W → BasePool A
  | stakePool p => p.basepool
  | vault v => v.basepool

def ownerShares : PoolProxy A W → ℕ
  | stakePool _ => 0
  | vault v => v.ownerShares

def checkpoint : PoolProxy A W → ℕ
  | stakePool _ => 0
  | vault v => v.lastSharePriceCheckpoint

def withBase (b : BasePool A) : PoolProxy A W → PoolProxy A W
  | stakePool p => stakePool { p with basepool := b }
  | vault v => vault { v with basepool := b }

end PoolProxy

/-! ## Sessions -/

inductive WorkerState
  | ready | workerIdle | unused | workerUnresponsive | workerCoolingDown
deriving DecidableEq

namespace WorkerState

def canUnbind : WorkerState → Bool
  | ready | workerCoolingDown => true
  | _ => false

def isComputing : WorkerState → Bool
  | workerIdle | workerUnresponsive => true
  | _ => false

end WorkerState

structure Benchmark where
  pInit : ℕ
  pInstant : ℕ
  iterations : ℕ
  workingStartTime : ℕ
  challengeTimeLast : ℕ

structure SessionInfo where
  state : WorkerState
  ve : FixedPoint
  v : FixedPoint
  vUpdatedAt : ℕ
  benchmark : Benchmark
  coolDownStart : ℕ
  totalReward : ℕ

structure TokenomicParams where
  vMax : FixedPoint
  rigK : FixedPoint
  rigB : FixedPoint
  re : FixedPoint
  k : FixedPoint

structure WorkerInfo (A : Type) where
  operator : Option A
  initialScore : Option ℕ
  confidenceLevel : ℕ
  registeredAfterGkLaunched : Bool

structure FinanceAccount where
  investPools : List (ℕ × ℕ)
  locked : ℕ

/-! ## Configuration -/

inductive Role (W : Type)
  | signer
  | basePool
  | wrappedBalances
  | computation
  | staker (pid : ℕ)
  | ownerReward (pid : ℕ)
  | lock (pid : ℕ)
  | worker (pid : ℕ) (w : W)
deriving DecidableEq

structure Config (A W : Type) where
  -- accounts
  role : A → Role W
  palletId : A
  wrappedBalancesAccountId : A
  computationAccountId : A
  generateStakerAccount : ℕ → A → A
  /-- The owner reward account and the lock account of a stake pool. -/
  generateOwnerAndLockAccount : ℕ → A → A × A
  poolSubAccount : ℕ → W → A
  role_palletId : role palletId = .basePool
  role_wrappedBalances : role wrappedBalancesAccountId = .wrappedBalances
  role_computation : role computationAccountId = .computation
  role_staker : ∀ pid a, role (generateStakerAccount pid a) = .staker pid
  role_ownerReward : ∀ pid a, role (generateOwnerAndLockAccount pid a).1 = .ownerReward pid
  role_lock : ∀ pid a, role (generateOwnerAndLockAccount pid a).2 = .lock pid
  role_worker : ∀ pid w, role (poolSubAccount pid w) = .worker pid w
  -- constants
  minContribution : ℕ
  gracePeriod : ℕ
  maxPoolWorkers : ℕ
  vaultQueuePeriod : ℕ
  initialPriceCheckPoint : ℕ
  minInitP : ℕ
  checkWorkerRegisterTime : Bool
  existentialDeposit : ℕ
  /-- The minimum balance of a W-PHA account. -/
  wphaMin : ℕ
  wphaMin_pos : 0 < wphaMin
  /-- Whether a debit that leaves less than the minimum balance takes the rest as well. -/
  reapsDust : Bool
  /-- Whether burning an NFT leaves its `stake-info` property behind. -/
  keepsAttr : Bool
  /-- The square root of `fixed_sqrt`. -/
  sqrt : FixedPoint → FixedPoint
  /-- The order in which a storage prefix is iterated. -/
  iterOrder : List A → List A
  iterOrder_perm : ∀ l, (iterOrder l).Perm l
  /-- How many iterations a loop of the model may take. -/
  fuel : ℕ

/-! ## The state -/

structure State (A W : Type) where
  /-- The unix time, in seconds. -/
  now : ℕ
  -- `base_pool`
  pools : ℕ → Option (PoolProxy A W)
  poolCount : ℕ
  collectionIndex : ℕ
  whitelists : ℕ → Option (List A)
  nftLocks : Finset (ℕ × ℕ)
  nextNftId : ℕ → ℕ
  -- the NFT pallet
  collections : Finset ℕ
  nftOwner : ℕ → ℕ → Option A
  nftAttr : ℕ → ℕ → Option NftAttr
  -- `stake_pool_v2` and `vault`
  workerAssignments : W → Option ℕ
  vaultLocks : Finset ℕ
  -- `computation` and `registry`
  sessions : A → Option SessionInfo
  sessionBindings : A → Option W
  workerBindings : W → Option A
  stakes : A → Option ℕ
  onlineWorkers : ℕ
  nextSessionId : ℕ
  coolDownPeriod : ℕ
  tokenomicParameters : Option TokenomicParams
  workers : W → Option (WorkerInfo A)
  -- `wrapped_balances` and democracy
  stakerAccounts : A → Option FinanceAccount
  voteAccountMap : ℕ → List (A × (ℕ × ℕ))
  accountVoteMap : A → List ℕ
  unmintableDust : ℕ
  ongoing : ℕ → Bool
  -- the ledgers
  native : A → ℕ
  frozen : A → ℕ
  wpha : Ledger A
  wphaSupply : ℕ

abbrev Pallet (A W : Type) := Exec (State A W) Fault

namespace State

variable {A W : Type}

def balance (s : State A W) (a : A) : ℕ := s.wpha.balance a

def sharesAt (s : State A W) (cid n : ℕ) : ℕ :=
  if (s.nftOwner cid n).isSome then ((s.nftAttr cid n).map NftAttr.shares).getD 0 else 0

end State

end Cyrux
