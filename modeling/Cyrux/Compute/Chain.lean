import Cyrux.Compute.Vault

/-!
# The chain
-/

namespace Cyrux

open Exec

variable {A W : Type}

inductive Call (A W : Type)
  -- `base_pool`
  | addStakerToWhitelist (pid : ℕ) (staker : A)
  | removeStakerFromWhitelist (pid : ℕ) (staker : A)
  -- `stake_pool_v2`
  | createStakePool
  | addWorker (pid : ℕ) (worker : W)
  | removeWorker (pid : ℕ) (worker : W)
  | setCap (pid : ℕ) (cap : ℕ)
  | setStakePoolPayoutPref (pid : ℕ) (commission : Option Permill)
  | claimOwnerRewards (pid : ℕ) (target : A)
  | forceWithdrawStakePool (pid : ℕ)
  | contributeStakePool (pid : ℕ) (amount : ℕ) (asVault : Option ℕ)
  | withdrawStakePool (pid : ℕ) (shares : ℕ) (asVault : Option ℕ)
  | startComputing (pid : ℕ) (worker : W) (stake : ℕ)
  | stopComputing (pid : ℕ) (worker : W)
  | reclaimPoolWorker (pid : ℕ) (worker : W)
  | restartComputing (pid : ℕ) (worker : W) (stake : ℕ)
  -- `vault`
  | createVault
  | setVaultPayoutPref (pid : ℕ) (commission : Option Permill)
  | claimOwnerShares (pid : ℕ) (target : A) (shares : ℕ)
  | maybeGainOwnerShares (pid : ℕ)
  | forceWithdrawVault (pid : ℕ)
  | contributeVault (pid : ℕ) (amount : ℕ)
  | withdrawVault (pid : ℕ) (shares : ℕ)
  -- `wrapped_balances`
  | wrap (amount : ℕ)
  | unwrapAll
  | unwrap (amount : ℕ)
  | vote (aye nay : ℕ) (voteId : ℕ)
  | unlock (voteId maxIterations : ℕ)
  -- `computation`
  | unbind (session : A)

inductive Move (A W : Type)
  | gkMessage (event : Computation.WorkingInfoUpdate W)
  | elapse (seconds : ℕ)
  | register (worker : W) (info : WorkerInfo A)
  | setCoolDownPeriod (period : ℕ)
  | setTokenomic (params : TokenomicParams)
  | setReferendum (voteId : ℕ) (ongoing : Bool)
  | issue (account : A) (amount : ℕ)
  | freeze (account : A) (amount : ℕ)

inductive Event (A W : Type)
  | signed (who : A) (call : Call A W)
  | move (m : Move A W)

variable [DecidableEq A] [DecidableEq W] (cfg : Config A W)

def Call.exec (who : A) : Call A W → Pallet A W Unit
  | addStakerToWhitelist pid staker => Cyrux.addStakerToWhitelist who pid staker
  | removeStakerFromWhitelist pid staker => Cyrux.removeStakerFromWhitelist who pid staker
  | createStakePool => StakePoolV2.create cfg who
  | addWorker pid worker => StakePoolV2.addWorker cfg who pid worker
  | removeWorker pid worker => StakePoolV2.removeWorker cfg who pid worker
  | setCap pid cap => StakePoolV2.setCap who pid cap
  | setStakePoolPayoutPref pid commission => StakePoolV2.setPayoutPref who pid commission
  | claimOwnerRewards pid target => StakePoolV2.claimOwnerRewards cfg who pid target
  | forceWithdrawStakePool pid => StakePoolV2.checkAndMaybeForceWithdraw cfg pid
  | contributeStakePool pid amount asVault => StakePoolV2.contribute cfg who pid amount asVault
  | withdrawStakePool pid shares asVault => StakePoolV2.withdraw cfg who pid shares asVault
  | startComputing pid worker stake => StakePoolV2.doStartComputing cfg who pid worker stake
  | stopComputing pid worker => StakePoolV2.doStopComputing cfg who pid worker
  | reclaimPoolWorker pid worker => StakePoolV2.reclaimPoolWorker cfg pid worker
  | restartComputing pid worker stake => StakePoolV2.restartComputing cfg who pid worker stake
  | createVault => VaultPallet.create cfg who
  | setVaultPayoutPref pid commission => VaultPallet.setPayoutPref who pid commission
  | claimOwnerShares pid target shares => VaultPallet.claimOwnerShares cfg who pid target shares
  | maybeGainOwnerShares pid => VaultPallet.maybeGainOwnerShares who pid
  | forceWithdrawVault pid => VaultPallet.checkAndMaybeForceWithdraw cfg pid
  | contributeVault pid amount => VaultPallet.contribute cfg who pid amount
  | withdrawVault pid shares => VaultPallet.withdraw cfg who pid shares
  | wrap amount => WrappedBalances.wrap cfg who amount
  | unwrapAll => WrappedBalances.unwrapAll cfg who
  | unwrap amount => WrappedBalances.unwrap cfg who amount
  | vote aye nay voteId => WrappedBalances.vote cfg who aye nay voteId
  | unlock voteId maxIterations => WrappedBalances.unlock cfg voteId maxIterations
  | unbind session => Computation.unbind StakePoolV2.onUnbound who session

def Move.exec : Move A W → Pallet A W Unit
  | gkMessage event => Computation.onGkMessageReceived cfg (StakePoolV2.onReward cfg) event
  | elapse seconds => alter fun s => { s with now := s.now + seconds }
  | register worker info =>
    alter fun s => { s with workers := Function.update s.workers worker (some info) }
  | setCoolDownPeriod period => alter fun s => { s with coolDownPeriod := period }
  | setTokenomic params => alter fun s => { s with tokenomicParameters := some params }
  | setReferendum voteId ongoing =>
    alter fun s => { s with ongoing := Function.update s.ongoing voteId ongoing }
  | issue account amount =>
    alter fun s => { s with native := Function.update s.native account (s.native account + amount) }
  | freeze account amount =>
    alter fun s => { s with frozen := Function.update s.frozen account amount }

def Event.exec : Event A W → Pallet A W Unit
  | signed who call => call.exec cfg who
  | move m => m.exec cfg

def Event.Authentic : Event A W → Prop
  | signed who _ => cfg.role who = .signer
  | move _ => True

structure State.Genesis (s : State A W) : Prop where
  pools : ∀ pid, s.pools pid = none
  poolCount : s.poolCount = 0
  nextNftId : ∀ cid, s.nextNftId cid = 0
  nftOwner : ∀ cid n, s.nftOwner cid n = none
  nftLocks : s.nftLocks = ∅
  workerAssignments : ∀ w, s.workerAssignments w = none
  sessions : ∀ a, s.sessions a = none
  sessionBindings : ∀ a, s.sessionBindings a = none
  workerBindings : ∀ w, s.workerBindings w = none
  stakes : ∀ a, s.stakes a = none
  onlineWorkers : s.onlineWorkers = 0
  stakerAccounts : ∀ a, s.stakerAccounts a = none
  voteAccountMap : ∀ v, s.voteAccountMap v = []
  accountVoteMap : ∀ a, s.accountVoteMap a = []
  unmintableDust : s.unmintableDust = 0
  wpha : ∀ a, s.wpha a = none
  wphaSupply : s.wphaSupply = 0

def Step (Ok : State A W → Event A W → Prop) (s s' : State A W) : Prop :=
  ∃ e : Event A W, e.Authentic cfg ∧ Ok s e ∧ e.exec cfg s = .ok ((), s')

abbrev Reachable (Ok : State A W → Event A W → Prop) : State A W → Prop :=
  Reach State.Genesis (Step cfg Ok)

end Cyrux
