import Cyrux.Compute.BasePool

/-!
# Wrapped balances

`pallets/cyrux/src/compute/wrapped_balances.rs`
-/

namespace Cyrux

open Exec

def Balance.wrappingAdd (x y : ℕ) : ℕ := (x + y) % 2 ^ 128

def Balance.wrappingSub (x y : ℕ) : ℕ := (x + 2 ^ 128 - y) % 2 ^ 128

namespace WrappedBalances

variable {A W : Type} [DecidableEq A] (cfg : Config A W)

/-! ## Minting, burning, subscriptions -/

def mintInto (target : A) (amount : ℕ) : Pallet A W Bool := do
  match ← attempt (· = .error (.token .belowMinimum)) (Assets.mintInto cfg target amount) with
  | some _ => pure true
  | none => do
    alter fun s => { s with unmintableDust := s.unmintableDust + amount }
    pure false

def burnFrom (target : A) (amount : ℕ) : Pallet A W Unit :=
  Assets.burnFrom cfg target amount

def putStakerAccount (who : A) (account : FinanceAccount) : Pallet A W Unit :=
  alter fun s => { s with stakerAccounts := Function.update s.stakerAccounts who (some account) }

def maybeSubscribeToPool (who : A) (pid cid : ℕ) : Pallet A W Unit := do
  let s ← get
  let account := (s.stakerAccounts who).getD ⟨[], 0⟩
  let invested := if (pid, cid) ∈ account.investPools then account.investPools
    else account.investPools ++ [(pid, cid)]
  putStakerAccount who { account with investPools := invested }

/-! ## Net value -/

def shareValue (price : Option FixedPoint) (shares : ℕ) : Option ℕ :=
  match price with
  | some price => Balance.mul shares price
  | none => some 0

def addNftValue (pid cid : ℕ) (total : ℕ) (nftId : ℕ) : Pallet A W ℕ := do
  let guard ← expect .netValueNft (getNftAttrGuard cid nftId)
  let s ← get
  let proxy ← demand (s.pools pid) (.panic .netValuePool none)
  let price ← convert proxy.basepool.sharePrice
  let value ← convert (shareValue price guard.attr.shares)
  guard.unlock
  pure (total + value)

def getNetValue (who : A) : Pallet A W ℕ := do
  let s ← get
  let free := s.balance who
  match s.stakerAccounts who with
  | none => pure free
  | some account =>
    account.investPools.foldlM (fun total (pid, cid) => do
      let s ← get
      (s.ownedInCollection cid who).foldlM (addNftValue pid cid) total) free

def lockedOf (who : A) : Pallet A W ℕ := do
  let s ← get
  pure (((s.stakerAccounts who).map FinanceAccount.locked).getD 0)

/-! ## Wrapping and unwrapping -/

def wrap (user : A) (amount : ℕ) : Pallet A W Unit := do
  Currency.transfer cfg user cfg.wrappedBalancesAccountId amount true
  let _ ← mintInto cfg user amount
  let s ← get
  match s.stakerAccounts user with
  | some _ => pure ()
  | none => putStakerAccount user ⟨[], 0⟩

def payOut (user : A) (amount : ℕ) : Pallet A W Unit := do
  Currency.transfer cfg cfg.wrappedBalancesAccountId user amount false
  burnFrom cfg user amount

def unwrapAll (user : A) : Pallet A W Unit := do
  let active ← getNetValue user
  let s ← get
  let free := s.balance user
  let locked ← lockedOf user
  payOut cfg user (min (Balance.wrappingSub active locked) free)

def unwrap (user : A) (amount : ℕ) : Pallet A W Unit := do
  let s ← get
  ensure (amount ≤ s.balance user)
    (.error (.wrappedBalances .unwrapAmountExceedsAvaliableStake))
  let active ← getNetValue user
  let locked ← lockedOf user
  ensure (amount + locked ≤ active)
    (.error (.wrappedBalances .unwrapAmountExceedsAvaliableStake))
  payOut cfg user amount

/-! ## Voting -/

def accumulateAccountVote (votes : List (A × (ℕ × ℕ))) : ℕ × ℕ :=
  votes.foldl (fun total v =>
    (Balance.wrappingAdd total.1 v.2.1, Balance.wrappingAdd total.2 v.2.2)) (0, 0)

def democracyVote (ayes nays : ℕ) : Pallet A W Unit := do
  let s ← get
  let voter := cfg.wrappedBalancesAccountId
  ensure (ayes + nays ≤ s.native voter) (.error .democracyInsufficientFunds)
  alter fun s => { s with
    frozen := Function.update s.frozen voter (max (s.frozen voter) (ayes + nays)) }

def voteOf (s : State A W) (voteId : ℕ) (user : A) : Option (ℕ × ℕ) :=
  ((s.voteAccountMap voteId).find? fun v => v.1 = user).map Prod.snd

def updateUserLocked (user : A) : Pallet A W Unit := do
  let s ← get
  let maxLock ← (s.accountVoteMap user).foldlM (fun maxLock voteId => do
    let (aye, nay) ← demand (voteOf s voteId user) (.panic .voteIndex none)
    pure (max maxLock (Balance.wrappingAdd aye nay))) 0
  let account ← demand (s.stakerAccounts user) (.error (.wrappedBalances .stakerAccountNotFound))
  putStakerAccount user { account with locked := maxLock }

def vote (user : A) (aye nay : ℕ) (voteId : ℕ) : Pallet A W Unit := do
  let s ← get
  ensure (s.ongoing voteId = true) (.error (.wrappedBalances .referendumInvalid))
  let active ← getNetValue user
  ensure (Balance.wrappingAdd aye nay ≤ active)
    (.error (.wrappedBalances .voteAmountLargerThanTotalStakes))
  alter fun s => { s with
    voteAccountMap := Function.update s.voteAccountMap voteId
      ((user, (aye, nay)) :: (s.voteAccountMap voteId).filter fun v => v.1 ≠ user)
    accountVoteMap := Function.update s.accountVoteMap user
      (voteId :: (s.accountVoteMap user).filter fun v => v ≠ voteId) }
  let s ← get
  let total := accumulateAccountVote (s.voteAccountMap voteId)
  democracyVote cfg total.1 total.2
  updateUserLocked user

def maxIterrations : ℕ := 100

def unlockUser (voteId : ℕ) (user : A) : Pallet A W Unit := do
  alter fun s => { s with
    voteAccountMap := Function.update s.voteAccountMap voteId
      ((s.voteAccountMap voteId).filter fun v => v.1 ≠ user)
    accountVoteMap := Function.update s.accountVoteMap user
      ((s.accountVoteMap user).filter fun v => v ≠ voteId) }
  expect .unlockAccount (updateUserLocked user)

def unlock (voteId maxIterations : ℕ) : Pallet A W Unit := do
  let s ← get
  ensure (s.ongoing voteId = false) (.error (.wrappedBalances .referendumOngoing))
  ensure (0 < maxIterations ∧ maxIterations ≤ maxIterrations)
    (.error (.wrappedBalances .iterationsIsNotVaild))
  let users := cfg.iterOrder ((s.voteAccountMap voteId).map Prod.fst)
  each (unlockUser voteId) (users.take maxIterations)

end WrappedBalances

end Cyrux
