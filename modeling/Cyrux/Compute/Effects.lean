import Cyrux.Compute.Chain
import Mathlib.Logic.Relation

/-!
# Effects
-/

namespace Cyrux

open Relation

inductive Label (A : Type)
  | free
  | merge (account : A)
  | contribute (pid : ℕ) (account : A) (amount : ℕ)
  | request (pid : ℕ) (account : A) (shares : ℕ)
  | reduce (pid : ℕ)
  | fill (pid : ℕ)
  | gain (pid : ℕ)
  | claim (pid : ℕ) (target : A) (shares : ℕ)
  | reward (pid : ℕ)
  | unwrap (account : A)
  | vote
  | forget (account : A) (pid : ℕ)

variable {A W : Type}

/-! ## Parts of effects -/

def Config.Holder (cfg : Config A W) (a : A) : Prop :=
  cfg.role a = .signer ∨ ∃ pid, cfg.role a = .staker pid

def PoolProxy.Client (cfg : Config A W) (v : State A W) (q : PoolProxy A W) (a : A) : Prop :=
  cfg.role a = .signer ∨ (∃ p, q = .stakePool p) ∧
    ∃ pid u, v.pools pid = some (.vault u) ∧ a = u.basepool.poolAccountId

def BasePool.paid (b : BasePool A) (amount removed : ℕ) : BasePool A :=
  { b with
    totalValue := (extractDust (b.totalValue - amount)).1
    totalShares := b.totalShares - removed }

def Vault.Gains (u : Vault A) (price : FixedPoint) (current : ℕ) : Prop :=
  u.basepool.sharePrice = some (some price) ∧ fromFixed price = some current ∧
    u.lastSharePriceCheckpoint ≠ 0 ∧ u.lastSharePriceCheckpoint < current

def Vault.newPrice (u : Vault A) (current : ℕ) : ℕ :=
  current - (u.commission.getD Permill.zero).mul (current - u.lastSharePriceCheckpoint)

def Vault.gained (u : Vault A) (newPrice adjustShares : ℕ) : Vault A :=
  { u with
    basepool := { u.basepool with totalShares := u.basepool.totalShares + adjustShares }
    ownerShares := u.ownerShares + adjustShares
    lastSharePriceCheckpoint := newPrice }

namespace State

section

variable [DecidableEq A]

def mergeNfts (cfg : Config A W) (s : State A W) (cid : ℕ) (a : A) : State A W :=
  (s.burnNfts cfg cid (s.ownedInCollection cid a)).mintNft cid a
    (s.sharesIn cid (s.ownedInCollection cid a))

def mintOrDust (cfg : Config A W) (s : State A W) (a : A) (amount : ℕ) : State A W :=
  if amount = 0 then s
  else if s.belowMinimum cfg a amount then { s with unmintableDust := s.unmintableDust + amount }
  else s.mintWpha a amount

end

def nextCid (s : State A W) : ℕ :=
  if s.collectionIndex ≤ reserveCidStart then reserveCidStart else s.collectionIndex

def addPool (s : State A W) (q : PoolProxy A W) : State A W :=
  { s.putPool s.poolCount q with
    poolCount := s.poolCount + 1
    collectionIndex := s.nextCid + 1
    collections := insert s.nextCid s.collections }

def unassign [DecidableEq W] (s : State A W) (pid : ℕ) (w : W) : State A W :=
  { s with
    workerAssignments := Function.update s.workerAssignments w none
    pools := match s.pools pid with
      | some (.stakePool p) => Function.update s.pools pid (some (.stakePool (p.removeWorker w)))
      | _ => s.pools }

end State

variable [DecidableEq A]

/-! ## Shares -/

inductive ShareEffect (cfg : Config A W) : Label A → State A W → State A W → Prop
  /-- The NFTs of an account in the collection of a pool are merged. -/
  | merge {v : State A W} {pid : ℕ} {q : PoolProxy A W} {b : BasePool A} {a : A}
      (stored : v.pools pid = some (q.withBase b))
      (vacant : v.nftOwner b.cid (v.nextNftId b.cid) = none) :
      ShareEffect cfg (.merge a) v (v.mergeNfts cfg b.cid a)
  /-- An account pays into a pool and receives an NFT with the shares it bought. -/
  | contribute {v : State A W} {pid : ℕ} {q : PoolProxy A W} {b : BasePool A} {a : A}
      {amount shares : ℕ}
      (stored : v.pools pid = some (q.withBase b))
      (client : q.Client cfg v a) (least : cfg.minContribution ≤ amount)
      (funded : amount ≤ v.balance a)
      (opened : ¬ v.belowMinimum cfg b.poolAccountId amount)
      (bought : b.newShares amount = some shares)
      (vacant : v.nftOwner b.cid (v.nextNftId b.cid) = none) :
      ShareEffect cfg (.contribute pid a amount) v
        (((v.mintNft b.cid a shares).move cfg a b.poolAccountId amount).putPool pid
          (q.withBase { b with
            totalShares := b.totalShares + shares
            totalValue := b.totalValue + amount }))
  /-- An account moves shares from its NFT into the withdraw queue, where the new request replaces
  its earlier ones. -/
  | request {v : State A W} {pid : ℕ} {q : PoolProxy A W} {b : BasePool A} {a : A} {shares k : ℕ}
      {nft : NftAttr} {requests : List ℕ}
      (stored : v.pools pid = some (q.withBase b)) (client : q.Client cfg v a)
      (found : v.nftAttr b.cid k = some nft) (owned : v.nftOwner b.cid k = some a)
      (replaced : requests =
        (b.withdrawQueue.filter fun w => w.user = a).map WithdrawInfo.nftId)
      (nodup : requests.Nodup)
      (kept : ∀ n ∈ requests, v.nftOwner b.cid n = some cfg.palletId)
      (nondust : 1000 < shares) (enough : shares ≤ nft.shares + v.sharesIn b.cid requests)
      (vacant : v.nftOwner b.cid (v.nextNftId b.cid) = none) :
      ShareEffect cfg (.request pid a shares) v
        ((((v.burnNfts cfg b.cid requests).mintNft b.cid cfg.palletId shares).setNftAttr b.cid k
            ⟨nft.shares + v.sharesIn b.cid requests - shares⟩).putPool pid
          (q.withBase { b with
            withdrawQueue := (b.withdrawQueue.filter fun w => w.user ≠ a) ++
              [⟨a, v.now, v.nextNftId b.cid⟩] }))
  /-- Without a share price, shares vanish from the NFT of an account. -/
  | reduce {v : State A W} {pid : ℕ} {q : PoolProxy A W} {b : BasePool A} {a : A} {shares k : ℕ}
      {nft : NftAttr} (stored : v.pools pid = some (q.withBase b)) (client : q.Client cfg v a)
      (found : v.nftAttr b.cid k = some nft) (owned : v.nftOwner b.cid k = some a)
      (priceless : b.sharePrice = some none)
      (nondust : 1000 < shares) (enough : shares ≤ nft.shares) :
      ShareEffect cfg (.reduce pid) v (v.setNftAttr b.cid k ⟨nft.shares - shares⟩)
  /-- The front request is worth no more than the minimum balance and is dropped. -/
  | dust {v : State A W} {pid : ℕ} {q : PoolProxy A W} {b : BasePool A} {w : WithdrawInfo A}
      {rest : List (WithdrawInfo A)} {nft : NftAttr}
      (stored : v.pools pid = some (q.withBase b)) (queue : b.withdrawQueue = w :: rest)
      (found : v.nftAttr b.cid w.nftId = some nft)
      (owned : v.nftOwner b.cid w.nftId = some cfg.palletId)
      (covered : nft.shares ≤ b.totalShares) :
      ShareEffect cfg (.fill pid) v
        ((v.burnNft cfg b.cid w.nftId).putPool pid
          (q.withBase { b with
            totalShares := b.totalShares - nft.shares
            withdrawQueue := rest }))
  /-- The front request is paid in part. -/
  | part {v : State A W} {pid : ℕ} {q : PoolProxy A W} {b : BasePool A} {w : WithdrawInfo A}
      {rest : List (WithdrawInfo A)} {nft : NftAttr} {price : FixedPoint} {n value amount : ℕ}
      (stored : v.pools pid = some (q.withBase b)) (queue : b.withdrawQueue = w :: rest)
      (found : v.nftAttr b.cid w.nftId = some nft)
      (priced : b.sharePrice = some (some price))
      (worth : Balance.mul n price = some value)
      (paid : amount = min value (v.balance b.poolAccountId))
      (valued : amount ≤ b.totalValue)
      (opened : ¬ v.belowMinimum cfg w.user amount)
      (left : 1000 < nft.shares - n) (covered : n ≤ b.totalShares) :
      ShareEffect cfg (.fill pid) v
        (((v.setNftAttr b.cid w.nftId ⟨nft.shares - n⟩).move cfg
            b.poolAccountId w.user amount).putPool pid
          (q.withBase (b.paid amount n)))
  /-- The front request is paid, but for dust, and leaves the queue. -/
  | full {v : State A W} {pid : ℕ} {q : PoolProxy A W} {b : BasePool A} {w : WithdrawInfo A}
      {rest : List (WithdrawInfo A)} {nft : NftAttr} {price : FixedPoint} {n value amount : ℕ}
      (stored : v.pools pid = some (q.withBase b)) (queue : b.withdrawQueue = w :: rest)
      (found : v.nftAttr b.cid w.nftId = some nft)
      (owned : v.nftOwner b.cid w.nftId = some cfg.palletId)
      (priced : b.sharePrice = some (some price))
      (worth : Balance.mul n price = some value)
      (paid : amount = min value (v.balance b.poolAccountId))
      (valued : amount ≤ b.totalValue)
      (opened : ¬ v.belowMinimum cfg w.user amount)
      (within : n ≤ nft.shares) (covered : nft.shares ≤ b.totalShares) :
      ShareEffect cfg (.fill pid) v
        ((((v.setNftAttr b.cid w.nftId ⟨0⟩).burnNft cfg b.cid w.nftId).move cfg
            b.poolAccountId w.user amount).putPool pid
          (q.withBase { b.paid amount nft.shares with withdrawQueue := rest }))
  /-- The owner of a vault gains shares for the rise of the share price. -/
  | gain {v : State A W} {pid : ℕ} {u : Vault A} {price divisor : FixedPoint}
      {current shares : ℕ}
      (stored : v.pools pid = some (.vault u)) (gains : u.Gains price current)
      (divided : toFixed (u.newPrice current) = some divisor)
      (bought : Balance.div u.basepool.totalValue divisor = some shares) :
      ShareEffect cfg (.gain pid) v
        (v.putPool pid (.vault (u.gained (u.newPrice current)
          (shares - u.basepool.totalShares))))
  /-- The owner of a vault takes gained shares as an NFT. -/
  | claim {v : State A W} {pid : ℕ} {u : Vault A} {target : A} {shares : ℕ}
      (stored : v.pools pid = some (.vault u)) (enough : shares ≤ u.ownerShares)
      (vacant : v.nftOwner u.basepool.cid (v.nextNftId u.basepool.cid) = none) :
      ShareEffect cfg (.claim pid target shares) v
        ((v.mintNft u.basepool.cid target shares).putPool pid
          (.vault { u with ownerShares := u.ownerShares - shares }))
  /-- A new stake pool. -/
  | createStakePool {v : State A W} {owner : A} :
      ShareEffect cfg .free v (v.addPool (.stakePool {
        basepool := BasePool.new cfg v.poolCount v.nextCid owner
        payoutCommission := none
        cap := none
        workers := []
        cdWorkers := []
        lockAccount := (cfg.generateOwnerAndLockAccount v.poolCount owner).2
        ownerRewardAccount := (cfg.generateOwnerAndLockAccount v.poolCount owner).1 }))
  /-- A new vault. -/
  | createVault {v : State A W} {owner : A} :
      ShareEffect cfg .free v (v.addPool (.vault {
        basepool := BasePool.new cfg v.poolCount v.nextCid owner
        lastSharePriceCheckpoint := cfg.initialPriceCheckPoint
        commission := none
        ownerShares := 0
        investPools := [] }))

/-! ## Everything else -/

def State.investedIn (v : State A W) (a : A) : List (ℕ × ℕ) :=
  ((v.stakerAccounts a).map FinanceAccount.investPools).getD []

theorem State.investedIn_putStakerAccount {v : State A W} {a : A} {account : FinanceAccount}
    (more : v.investedIn a ⊆ account.investPools) (b : A) :
    v.investedIn b ⊆ State.investedIn
      { v with stakerAccounts := Function.update v.stakerAccounts a (some account) } b := by
  rcases eq_or_ne b a with rfl | ne
  · unfold State.investedIn at more ⊢
    simpa using more
  · unfold State.investedIn
    simp [Function.update_of_ne ne]

structure Unrelated (cfg : Config A W) (v v' : State A W) : Prop where
  now : v.now ≤ v'.now
  pools : v'.pools = v.pools
  poolCount : v'.poolCount = v.poolCount
  collectionIndex : v'.collectionIndex = v.collectionIndex
  nftLocks : v'.nftLocks = v.nftLocks
  nextNftId : v'.nextNftId = v.nextNftId
  nftOwner : v'.nftOwner = v.nftOwner
  nftAttr : v'.nftAttr = v.nftAttr
  workerAssignments : v'.workerAssignments = v.workerAssignments
  sessions : v'.sessions = v.sessions
  sessionBindings : v'.sessionBindings = v.sessionBindings
  workerBindings : v'.workerBindings = v.workerBindings
  stakes : v'.stakes = v.stakes
  onlineWorkers : v'.onlineWorkers = v.onlineWorkers
  listed : ∀ a, v.investedIn a ⊆ v'.investedIn a
  unmintableDust : v'.unmintableDust = v.unmintableDust
  native : ∀ a, a ≠ cfg.computationAccountId → v.native a ≤ v'.native a
  wpha : v'.wpha = v.wpha
  wphaSupply : v'.wphaSupply = v.wphaSupply

def State.locked (v : State A W) (a : A) : ℕ :=
  ((v.stakerAccounts a).map FinanceAccount.locked).getD 0

structure KeepsVotes (v v' : State A W) : Prop where
  voteAccountMap : v'.voteAccountMap = v.voteAccountMap
  accountVoteMap : v'.accountVoteMap = v.accountVoteMap
  locked : v'.locked = v.locked
  account : ∀ a, v.stakerAccounts a ≠ none → v'.stakerAccounts a ≠ none

omit [DecidableEq A] in
theorem KeepsVotes.of_same {v v' : State A W} (votes : v'.voteAccountMap = v.voteAccountMap)
    (voted : v'.accountVoteMap = v.accountVoteMap)
    (accounts : v'.stakerAccounts = v.stakerAccounts) :
    KeepsVotes v v' := by
  refine ⟨votes, voted, ?_, fun a h => accounts ▸ h⟩
  unfold State.locked
  rw [accounts]

theorem KeepsVotes.putStakerAccount {v : State A W} {a : A} {account : FinanceAccount}
    (same : account.locked = v.locked a) :
    KeepsVotes v
      { v with stakerAccounts := Function.update v.stakerAccounts a (some account) } := by
  refine ⟨rfl, rfl, funext fun b => ?_, fun b h => ?_⟩
  · unfold State.locked at same ⊢
    rcases eq_or_ne b a with rfl | ne
    · simp [same]
    · simp [Function.update_of_ne ne]
  · rcases eq_or_ne b a with rfl | ne
    · simp
    · simpa [Function.update_of_ne ne] using h

omit [DecidableEq A] in
theorem Unrelated.set {cfg : Config A W} {v : State A W} {whitelists : ℕ → Option (List A)}
    {vaultLocks : Finset ℕ} {coolDownPeriod : ℕ} {tokenomicParameters : Option TokenomicParams}
    {workers : W → Option (WorkerInfo A)} {stakerAccounts : A → Option FinanceAccount}
    {voteAccountMap : ℕ → List (A × (ℕ × ℕ))} {accountVoteMap : A → List ℕ} {ongoing : ℕ → Bool}
    {frozen : A → ℕ}
    (listed : ∀ a, v.investedIn a ⊆
      State.investedIn { v with stakerAccounts := stakerAccounts } a) :
    Unrelated cfg v { v with
      whitelists := whitelists
      vaultLocks := vaultLocks
      coolDownPeriod := coolDownPeriod
      tokenomicParameters := tokenomicParameters
      workers := workers
      stakerAccounts := stakerAccounts
      voteAccountMap := voteAccountMap
      accountVoteMap := accountVoteMap
      ongoing := ongoing
      frozen := frozen } := by
  constructor
  case now => exact le_rfl
  case native => exact fun _ _ => le_rfl
  case listed => exact listed
  all_goals rfl

variable [DecidableEq W]

inductive SideEffect (cfg : Config A W) : Label A → State A W → State A W → Prop
  | other {v v' : State A W} (h : Unrelated cfg v v') (votes : KeepsVotes v v') :
      SideEffect cfg .free v v'
  /-- Votes and locks change. -/
  | voted {v v' : State A W} (h : Unrelated cfg v v') : SideEffect cfg .vote v v'
  /-- A vault records its first price. -/
  | mark {v : State A W} {pid : ℕ} {u : Vault A} {price : FixedPoint} {current : ℕ}
      (stored : v.pools pid = some (.vault u))
      (priced : u.basepool.sharePrice = some (some price))
      (rounded : fromFixed price = some current) :
      SideEffect cfg .free v (v.putPool pid (.vault { u with lastSharePriceCheckpoint := current }))
  /-- The preferences of a stake pool change, and it has more subscribers. -/
  | setStakePool {v : State A W} {pid : ℕ} {p : StakePool A W} {commission : Option Permill}
      {cap : Option ℕ} {subscribers : List ℕ} (stored : v.pools pid = some (.stakePool p))
      (subscribed : p.basepool.valueSubscribers ⊆ subscribers) :
      SideEffect cfg .free v (v.putPool pid (.stakePool { p with
        basepool := { p.basepool with valueSubscribers := subscribers }
        payoutCommission := commission
        cap := cap }))
  /-- The preferences of a vault change, and it has more investments. -/
  | setVault {v : State A W} {pid : ℕ} {u : Vault A} {commission : Option Permill}
      {invested : List ℕ} (stored : v.pools pid = some (.vault u))
      (nodup : u.investPools.Nodup → invested.Nodup) (kept : u.investPools ⊆ invested) :
      SideEffect cfg .free v (v.putPool pid (.vault { u with
        commission := commission
        investPools := invested }))
  /-- A vault forgets one of its investments. -/
  | forget {v : State A W} {pid pid' : ℕ} {u : Vault A} (stored : v.pools pid = some (.vault u)) :
      SideEffect cfg (.forget u.basepool.poolAccountId pid') v (v.putPool pid (.vault { u with
        investPools := u.investPools.filter fun x => x ≠ pid' }))
  /-- The value of a vault grows with that of a stake pool. -/
  | vaultReward {v : State A W} {pid : ℕ} {u : Vault A} {rewards : ℕ}
      (stored : v.pools pid = some (.vault u)) :
      SideEffect cfg (.reward pid) v (v.putPool pid (.vault { u with
        basepool := { u.basepool with totalValue := u.basepool.totalValue + rewards } }))
  /-- A reward is paid out of the subsidy pool: it is minted to the owner and to the pool, whose
  value grows by no more than was minted to it. -/
  | poolReward {v minted : State A W} {pid : ℕ} {p : StakePool A W}
      {commission distributed bonus : ℕ}
      (stored : v.pools pid = some (.stakePool p))
      (funded : commission + distributed ≤ v.native cfg.computationAccountId)
      (owner : minted = (v.moveNative cfg.computationAccountId cfg.wrappedBalancesAccountId
        (commission + distributed)).mintOrDust cfg p.ownerRewardAccount commission)
      (covered : bonus = 0 ∨
        bonus = distributed ∧ ¬ minted.belowMinimum cfg p.basepool.poolAccountId distributed) :
      SideEffect cfg (.reward pid) v ((minted.mintOrDust cfg p.basepool.poolAccountId
        distributed).putPool pid (.stakePool { p with
          basepool := { p.basepool with totalValue := p.basepool.totalValue + bonus } }))
  /-- The owner of a stake pool takes the commission. -/
  | payOwner {v : State A W} {pid : ℕ} {p : StakePool A W} {target : A} {amount : ℕ}
      (stored : v.pools pid = some (.stakePool p))
      (funded : amount ≤ v.balance p.ownerRewardAccount)
      (opened : ¬ v.belowMinimum cfg target amount) :
      SideEffect cfg .free v (v.move cfg p.ownerRewardAccount target amount)
  /-- A worker joins a stake pool. -/
  | bind {v : State A W} {pid : ℕ} {p : StakePool A W} {w : W}
      (stored : v.pools pid = some (.stakePool p)) (new : w ∉ p.workers)
      (session : v.sessionBindings (cfg.poolSubAccount pid w) = none)
      (worker : v.workerBindings w = none)
      (ready : (v.sessions (cfg.poolSubAccount pid w)).all fun info => info.state = .ready) :
      SideEffect cfg .free v { (v.bindSession (cfg.poolSubAccount pid w) w).putPool pid
          (.stakePool { p with workers := p.workers ++ [w] }) with
        workerAssignments := Function.update v.workerAssignments w (some pid) }
  /-- A session starts; the pool locks the stake. -/
  | start {v : State A W} {pid : ℕ} {p : StakePool A W} {w : W} {stake : ℕ}
      {info info' : SessionInfo}
      (stored : v.pools pid = some (.stakePool p)) (worker : w ∈ p.workers)
      (found : v.sessions (cfg.poolSubAccount pid w) = some info) (ready : info.state = .ready)
      (unstaked : v.stakes (cfg.poolSubAccount pid w) = none) (idle : info'.state = .workerIdle)
      (funded : stake ≤ v.balance p.basepool.poolAccountId)
      (opened : ¬ v.belowMinimum cfg p.lockAccount stake) :
      SideEffect cfg .free v ((v.startSession (cfg.poolSubAccount pid w) stake info').move cfg
        p.basepool.poolAccountId p.lockAccount stake)
  /-- The owner of a pool stops a session. -/
  | stop {v : State A W} {pid : ℕ} {p : StakePool A W} {w : W} {info info' : SessionInfo}
      (stored : v.pools pid = some (.stakePool p)) (worker : w ∈ p.workers)
      (fresh : w ∉ p.cdWorkers)
      (found : v.sessions (cfg.poolSubAccount pid w) = some info)
      (running : info.state ≠ .ready ∧ info.state ≠ .workerCoolingDown)
      (cooling : info'.state = .workerCoolingDown) (online : 0 < v.onlineWorkers) :
      SideEffect cfg .free v ((v.stopSession (cfg.poolSubAccount pid w) info').putPool pid
        (.stakePool { p with cdWorkers := p.cdWorkers ++ [w] }))
  /-- A session gives its stake back to the pool. -/
  | reclaim {v : State A W} {pid : ℕ} {p : StakePool A W} {w : W} {stake : ℕ}
      {info info' : SessionInfo}
      (stored : v.pools pid = some (.stakePool p))
      (found : v.sessions (cfg.poolSubAccount pid w) = some info)
      (cooling : info.state = .workerCoolingDown) (ready : info'.state = .ready)
      (staked : stake = (v.stakes (cfg.poolSubAccount pid w)).getD 0)
      (funded : stake ≤ v.balance p.lockAccount)
      (opened : ¬ v.belowMinimum cfg p.basepool.poolAccountId stake) :
      SideEffect cfg .free v (((v.reclaimSession (cfg.poolSubAccount pid w) info').move cfg
        p.lockAccount p.basepool.poolAccountId stake).putPool pid
          (.stakePool (p.removeCdWorker w)))
  /-- A worker leaves its session and its pool; `halted` is the state after stopping a session
  that is computing. -/
  | unbind {v halted : State A W} {pid : ℕ} {session : A} {w bound : W} {info info' : SessionInfo}
      (assigned : v.workerAssignments w = some pid)
      (binding : v.sessionBindings session = some bound)
      (same : w = bound ∨ session = cfg.poolSubAccount pid w)
      (found : v.sessions session = some info)
      (stopped : info.state.canUnbind = true ∧ halted = v ∨
        info.state.canUnbind = false ∧ info.state ≠ .ready ∧ info.state ≠ .workerCoolingDown ∧
          info'.state = .workerCoolingDown ∧ 0 < v.onlineWorkers ∧
          halted = v.stopSession session info') :
      SideEffect cfg .free v ((halted.unbindSession session bound).unassign pid w)
  /-- The gatekeeper reports on a session. -/
  | report {v : State A W} {session : A} {info info' : SessionInfo}
      (found : v.sessions session = some info)
      (state : info'.state = info.state ∨
        info.state.isComputing = true ∧ info'.state.isComputing = true) :
      SideEffect cfg .free v (v.putSession session info')
  | wrap {v : State A W} {user : A} {amount : ℕ} (signer : cfg.role user = .signer)
      (funded : amount ≤ v.native user) :
      SideEffect cfg .free v
        ((v.moveNative user cfg.wrappedBalancesAccountId amount).mintOrDust cfg user amount)
  | unwrap {v : State A W} {user : A} {amount : ℕ} (signer : cfg.role user = .signer)
      (backed : amount ≤ v.native cfg.wrappedBalancesAccountId)
      (owned : amount ≤ v.balance user) (issued : amount ≤ v.wphaSupply) :
      SideEffect cfg (.unwrap user) v
        ((v.moveNative cfg.wrappedBalancesAccountId user amount).burnWpha cfg user amount)

theorem SideEffect.set {cfg : Config A W} {v : State A W} {whitelists : ℕ → Option (List A)}
    {vaultLocks : Finset ℕ} {coolDownPeriod : ℕ} {tokenomicParameters : Option TokenomicParams}
    {workers : W → Option (WorkerInfo A)} {ongoing : ℕ → Bool} {frozen : A → ℕ} :
    SideEffect cfg .free v { v with
      whitelists := whitelists
      vaultLocks := vaultLocks
      coolDownPeriod := coolDownPeriod
      tokenomicParameters := tokenomicParameters
      workers := workers
      ongoing := ongoing
      frozen := frozen } :=
  .other (.set fun _ => List.Subset.refl _) (.of_same rfl rfl rfl)

/-! ## Runs -/

inductive Effect (cfg : Config A W) : Label A → State A W → State A W → Prop
  | share {l : Label A} {v v' : State A W} (h : ShareEffect cfg l v v') : Effect cfg l v v'
  | side {l : Label A} {v v' : State A W} (h : SideEffect cfg l v v') : Effect cfg l v v'

abbrev Run (cfg : Config A W) (P : State A W → Label A → Prop) : State A W → State A W → Prop :=
  ReflTransGen fun v v' => ∃ l, P v l ∧ Effect cfg l v v'

structure Lenient (cfg : Config A W) (P : State A W → Label A → Prop) : Prop where
  free : ∀ v, P v .free
  merge : ∀ v a, cfg.Holder a → P v (.merge a)

section

variable {cfg : Config A W} {P : State A W → Label A → Prop} {v v' v'' : State A W}

theorem Run.share {l : Label A} (allowed : P v l) (h : ShareEffect cfg l v v') : Run cfg P v v' :=
  .single ⟨l, allowed, .share h⟩

theorem Run.side (lenient : Lenient cfg P) (h : SideEffect cfg .free v v') : Run cfg P v v' :=
  .single ⟨.free, lenient.free v, .side h⟩

theorem Run.invariant {I : State A W → Prop}
    (step : ∀ v v' l, I v → P v l → Effect cfg l v v' → I v') (run : Run cfg P v v') (h : I v) :
    I v' := by
  induction run with
  | refl => exact h
  | tail _ last ih =>
    obtain ⟨l, allowed, effect⟩ := last
    exact step _ _ l ih allowed effect

end

end Cyrux
