import Cyrux.Compute.Mock
import Cyrux.Compute.Price
import Cyrux.Compute.QueueSpec

/-!
# What a withdraw queue pays
-/

namespace Cyrux

open Exec

variable {A W : Type} [DecidableEq A]

structure WithdrawEventStats where
  amount : ℕ := 0
  shares : ℕ := 0
  burntShares : ℕ := 0
deriving DecidableEq

namespace BasePool

/-! ## The statistics -/

section Stats

variable (cfg : Config A W)

def processFrontStats (price : FixedPoint) (pool : BasePool A) (withdraw : WithdrawInfo A)
    (rest : List (WithdrawInfo A)) : Pallet A W (BasePool A × WithdrawEventStats) := do
  let guard ← expect .queueNft (getNftAttrGuard pool.cid withdraw.nftId)
  match ← maybeRemoveDust cfg pool guard.attr with
  | some pool => do
    guard.unlock
    let pool ← popFront cfg pool withdraw rest
    pure (pool, { burntShares := guard.attr.shares })
  | none => do
    let free ← pool.getFreeStakes
    let freeShares ← convert (freeShares price free guard.attr.shares)
    let withdrawing := min freeShares guard.attr.shares
    match ← removeStakeFromNft cfg pool withdrawing guard.attr withdraw.user with
    | none => throw (.panic .queueRemoveStake none)
    | some (reduced, withdrawn, pool, nft) => do
      guard.save nft
      if nft.shares = 0 then do
        let pool ← popFront cfg pool withdraw rest
        pure (pool, { amount := reduced, shares := withdrawn })
      else
        match ← maybeRemoveDust cfg pool nft with
        | some pool => do
          let pool ← popFront cfg pool withdraw rest
          pure (pool, { amount := reduced, shares := withdrawn, burntShares := nft.shares })
        | none => pure (pool, { amount := reduced, shares := withdrawn })

def processQueueStats (price : FixedPoint) :
    ℕ → BasePool A → Pallet A W (BasePool A × List (A × WithdrawEventStats))
  | 0, _ => throw .outOfFuel
  | fuel + 1, pool => do
    let free ← pool.getFreeStakes
    if free ≤ cfg.wphaMin then
      pure (pool, [])
    else
      match pool.withdrawQueue with
      | [] => pure (pool, [])
      | withdraw :: rest => do
        let (pool, stats) ← processFrontStats cfg price pool withdraw rest
        let (pool, later) ← processQueueStats price fuel pool
        pure (pool, (withdraw.user, stats) :: later)

def tryProcessWithdrawQueueStats (pool : BasePool A) :
    Pallet A W (BasePool A × List (A × WithdrawEventStats)) := do
  match ← convert pool.sharePrice with
  | none => pure (pool, [])
  | some price => processQueueStats cfg price cfg.fuel pool

end Stats

variable {cfg : Config A W}

theorem map_processFrontStats (price : FixedPoint) (b : BasePool A) (w : WithdrawInfo A)
    (rest : List (WithdrawInfo A)) :
    Prod.fst <$> processFrontStats cfg price b w rest = processFront cfg price b w rest := by
  unfold processFrontStats processFront
  rw [map_bind]
  congr 1
  funext guard
  rw [map_bind]
  congr 1
  funext dust
  cases dust with
  | some b => simp only [map_bind, map_pure, bind_pure]
  | none =>
    simp only [map_bind]
    congr 1
    funext free
    congr 1
    funext payable
    congr 1
    funext removed
    cases removed with
    | none => rfl
    | some r =>
      simp only [map_bind]
      congr 1
      funext _
      split
      · simp only [map_bind, map_pure, bind_pure]
      · rw [map_bind]
        congr 1
        funext dust
        cases dust with
        | some b => simp only [map_bind, map_pure, bind_pure]
        | none => rw [map_pure]

theorem map_processQueueStats (price : FixedPoint) (fuel : ℕ) (b : BasePool A) :
    Prod.fst <$> processQueueStats cfg price fuel b = processQueue cfg price fuel b := by
  induction fuel generalizing b with
  | zero => rfl
  | succ fuel ih =>
    unfold processQueueStats processQueue
    rw [map_bind]
    congr 1
    funext free
    split
    · rw [map_pure]
    · cases b.withdrawQueue with
      | nil => rw [map_pure]
      | cons w rest =>
        dsimp only
        rw [← map_processFrontStats, map_bind, bind_map_left]
        congr 1
        funext r
        rw [← ih, map_bind, map_eq_pure_bind]
        simp only [map_pure]

theorem map_tryProcessWithdrawQueueStats (b : BasePool A) :
    Prod.fst <$> tryProcessWithdrawQueueStats cfg b = tryProcessWithdrawQueue cfg b := by
  unfold tryProcessWithdrawQueueStats tryProcessWithdrawQueue
  rw [map_bind]
  congr 1
  funext o
  cases o with
  | none => rw [map_pure]
  | some price => exact map_processQueueStats price cfg.fuel b

/-! ## One payment -/

section Payment

variable {b : BasePool A} {s : State A W}

theorem removeStakeFromNft_covered (n : ℕ) (nft : NftAttr) (user : A) :
    Sat (removeStakeFromNft cfg b n nft user) s
      (fun r _ => ∀ p, r = some p → p.1 ≤ s.balance b.poolAccountId ∧
        p.1 + p.2.2.1.totalValue ≤ b.totalValue)
      (fun f => f = .panic .conversion none ∧ (2 ^ 80 ≤ b.totalValue ∨ 2 ^ 80 ≤ b.totalShares ∨
          b.totalShares < n) ∨
        f = .panic .removeStakeTransfer (some (.token .belowMinimum)) ∧
          ∃ amount, s.belowMinimum cfg user amount) := by
  unfold removeStakeFromNft convert
  refine Sat.demand_bind (fun o priced => ?_) fun unpriced => ?_
  · cases o with
    | none => exact fun p h => by cases h
    | some price =>
      refine Sat.demand_bind (fun value worth => ?_) fun overflow => ?_
      · refine (getFreeStakes_spec b s).bind (fun _ h => h.elim) ?_
        rintro free s ⟨rfl, rfl⟩
        refine Sat.ite (fun _ p h => by cases h) fun within => ?_
        refine Sat.ite (fun _ p h => by cases h) fun covered => ?_
        have most : value ≤ b.totalValue := worth_le_totalValue priced worth (by omega)
        have valued : min value (s.balance b.poolAccountId) ≤ b.totalValue :=
          (Nat.min_le_left _ _).trans most
        refine Sat.ensure_bind (fun _ => ?_) fun h => absurd valued h
        refine (Sat.mapFault (Assets.transfer_spec _ _ _ _) (E := fun f =>
          f = .panic .removeStakeTransfer (some (.token .belowMinimum)) ∧
            ∃ amount, s.belowMinimum cfg user amount) ?_).bind (fun _ h => .inr h) ?_
        · rintro _ (⟨rfl, broke⟩ | ⟨rfl, below⟩)
          · exact absurd broke (Nat.not_lt.2 (Nat.min_le_right _ _))
          · exact ⟨rfl, _, below⟩
        · rintro _ _ - p ⟨⟩
          dsimp only
          split_ifs <;> omega
      · refine .inl ⟨rfl, .inr (.inr ?_)⟩
        by_contra within
        rw [worth_eq priced (Nat.not_lt.1 within)] at overflow
        cases overflow
  · refine .inl ⟨rfl, ?_⟩
    by_contra small
    rw [sharePrice_eq.2 ⟨by omega, by omega, rfl⟩] at unpriced
    cases unpriced

def Covered (f : Fault) : Prop := f ≠ .panic .removeStakeValue none

omit [DecidableEq A] in
theorem maybeRemoveDust_covered (nft : NftAttr) :
    Sat (maybeRemoveDust cfg b nft) s
      (fun r _ => ∀ b', r = some b' → b'.totalValue = b.totalValue) Covered := by
  refine Sat.demand_bind (fun o _ => ?_) fun _ => by rintro ⟨⟩
  cases o with
  | none => exact fun b' h => by cases h
  | some price =>
    refine Sat.demand_bind (fun current _ => ?_) fun _ => by rintro ⟨⟩
    refine Sat.ite (fun _ b' h => by cases h) fun _ => ?_
    refine Sat.ensure_bind (fun _ => ?_) fun _ => by rintro ⟨⟩
    rintro b' ⟨⟩
    rfl

theorem popFront_covered (w : WithdrawInfo A) (rest : List (WithdrawInfo A)) :
    Sat (popFront cfg b w rest) s (fun b' _ => b'.totalValue = b.totalValue) Covered := by
  refine (Sat.mapFault (burnNft_spec _ _ _ _) (E := Covered) ?_).bind (fun _ h => h) ?_
  · rintro _ ⟨rfl, _⟩
    rintro ⟨⟩
  · intro _ _ _
    rfl

end Payment

/-! ## The whole queue -/

theorem processFrontStats_covered (price : FixedPoint) (b : BasePool A) (w : WithdrawInfo A)
    (rest : List (WithdrawInfo A)) (s : State A W) :
    Sat (processFrontStats cfg price b w rest) s
      (fun r _ => r.2.amount + r.1.totalValue ≤ b.totalValue) Covered := by
  refine (Sat.mapFault (getNftAttrGuard_spec _ _ _) (E := Covered) ?_).bind
    (fun _ h => h) ?_
  · rintro _ (⟨rfl, _⟩ | ⟨rfl, _⟩) <;> rintro ⟨⟩
  intro guard s₁ _
  refine (maybeRemoveDust_covered guard.attr).bind (fun _ h => h) ?_
  rintro (_ | b₁) s₂ dropped
  · refine (getFreeStakes_spec b s₂).bind (fun _ h => h.elim) ?_
    rintro free _ -
    refine Sat.demand_bind (fun payable _ => ?_) fun _ => by rintro ⟨⟩
    refine (removeStakeFromNft_covered _ guard.attr w.user).bind ?_ ?_
    · rintro f (⟨rfl, _⟩ | ⟨rfl, _⟩) <;> rintro ⟨⟩
    rintro (_ | ⟨amount, removed, b₁, nft⟩) s₃ h
    · rintro ⟨⟩
    · have paid := (h _ rfl).2
      refine (NftGuard.save_spec _ _ _).bind (fun _ h => h.elim) ?_
      intro _ s₄ _
      refine Sat.ite (fun _ => ?_) fun _ => ?_
      · refine (popFront_covered w rest).bind (fun _ h => h) fun b₂ _ same => ?_
        show amount + b₂.totalValue ≤ b.totalValue
        rw [same]
        exact paid
      · refine (maybeRemoveDust_covered nft).bind (fun _ h => h) ?_
        rintro (_ | b₂) s₅ dropped
        · exact paid
        · refine (popFront_covered w rest).bind (fun _ h => h) fun b₃ _ same => ?_
          show amount + b₃.totalValue ≤ b.totalValue
          rw [same, dropped b₂ rfl]
          exact paid
  · refine (NftGuard.unlock_spec _ _).bind (fun _ h => h.elim) ?_
    intro _ s₃ _
    refine (popFront_covered w rest).bind (fun _ h => h) fun b₂ _ same => ?_
    show 0 + b₂.totalValue ≤ b.totalValue
    rw [same, dropped b₁ rfl, Nat.zero_add]

def paidOut (stats : List (A × WithdrawEventStats)) : ℕ := (stats.map fun p => p.2.amount).sum

theorem processQueueStats_covered (price : FixedPoint) (fuel : ℕ) (b : BasePool A)
    (s : State A W) :
    Sat (processQueueStats cfg price fuel b) s
      (fun r _ => paidOut r.2 + r.1.totalValue ≤ b.totalValue) Covered := by
  induction fuel generalizing b s with
  | zero => rintro ⟨⟩
  | succ fuel ih =>
    refine (getFreeStakes_spec b s).bind (fun _ h => h.elim) ?_
    rintro free s ⟨rfl, rfl⟩
    refine Sat.ite (fun _ => (Nat.zero_add _).le) fun _ => ?_
    split
    · exact (Nat.zero_add _).le
    · rename_i w rest queue
      refine (processFrontStats_covered price b w rest s).bind (fun _ h => h) ?_
      rintro ⟨b₁, stats⟩ s₁ first
      refine (ih b₁ s₁).bind (fun _ h => h) ?_
      rintro ⟨b₂, later⟩ s₂ next
      change stats.amount + paidOut later + b₂.totalValue ≤ b.totalValue
      dsimp only at first next
      omega

theorem tryProcessWithdrawQueueStats_covered (b : BasePool A) (s : State A W) :
    Sat (tryProcessWithdrawQueueStats cfg b) s
      (fun r _ => paidOut r.2 + r.1.totalValue ≤ b.totalValue) Covered := by
  refine Sat.demand_bind (fun o _ => ?_) fun _ => by rintro ⟨⟩
  cases o with
  | none => exact (Nat.zero_add _).le
  | some price => exact processQueueStats_covered price cfg.fuel b s

end BasePool

open BasePool in
/-- Payments are covered by the value of the pool. -/
theorem withdrawals_le_totalValue (cfg : Config A W) (b : BasePool A) (s : State A W)
    (value : b.totalValue < 2 ^ 80) (shares : b.totalShares < 2 ^ 80) :
    (∀ n nft user, n ≤ b.totalShares → Sat (removeStakeFromNft cfg b n nft user) s
      (fun r s' => ∀ amount removed b' nft', r = some (amount, removed, b', nft') →
        amount ≤ b.totalValue ∧ amount ≤ s.balance b.poolAccountId ∧
        b'.totalValue ≤ b.totalValue - amount ∧ s' = s.move cfg b.poolAccountId user amount)
      (fun f => f = .panic .removeStakeTransfer (some (.token .belowMinimum)))) ∧
    Prod.fst <$> tryProcessWithdrawQueueStats cfg b = tryProcessWithdrawQueue cfg b ∧
    Sat (tryProcessWithdrawQueueStats cfg b) s
      (fun r _ => paidOut r.2 ≤ b.totalValue ∧ r.1.totalValue ≤ b.totalValue - paidOut r.2)
      (fun f => f ≠ .panic .removeStakeValue none) := by
  refine ⟨fun n nft user within => ?_, map_tryProcessWithdrawQueueStats b,
    (tryProcessWithdrawQueueStats_covered b s).mono (fun r _ paid => ?_) fun _ h => h⟩
  · refine ((removeStakeFromNft_covered n nft user).and
      (removeStakeFromNft_spec b n nft user s)).mono ?_ ?_
    · rintro _ s' ⟨paid, removed⟩ amount gone b' nft' rfl
      obtain ⟨free, taken⟩ := paid _ rfl
      dsimp only at free taken
      exact ⟨by omega, free, by omega, removed.state⟩
    · rintro f ⟨⟨-, large | large | beyond⟩ | ⟨refused, -⟩, -⟩
      · omega
      · omega
      · omega
      · exact refused
  · omega

theorem withdrawals_le_totalValue_part :
    ∃ s s' : State Mock.Account ℕ, ∃ b b' : BasePool Mock.Account, ∃ stats,
      b.tryProcessWithdrawQueueStats Mock.runtime s = .ok ((b', stats), s') ∧
      0 < BasePool.paidOut stats ∧ BasePool.paidOut stats ≤ b.totalValue := by
  obtain ⟨s, -, waits⟩ := Mock.exists_reachable Mock.runtime (fun _ _ => True)
    (Mock.opening (10 ^ 15) (10 ^ 15) ++ [
      .signed Mock.alice .createVault,
      .signed Mock.bob (.contributeVault 1 (10 ^ 13)),
      .signed Mock.alice (.contributeStakePool 0 (10 ^ 13) (some 1)),
      .signed Mock.bob (.withdrawVault 1 (10 ^ 12))])
    (fun s => (Mock.vaultOf s).any fun u => u.basepool.totalValue < 2 ^ 80 ∧
      u.basepool.totalShares < 2 ^ 80 ∧
      Mock.yields (u.basepool.tryProcessWithdrawQueueStats Mock.runtime)
        (s.move Mock.runtime Mock.bob u.basepool.poolAccountId (10 ^ 11))
        (fun r => 0 < BasePool.paidOut r.2))
    (by decide +kernel)
  obtain ⟨u, -, waits⟩ := (Option.any_eq_true _ _).1 waits
  obtain ⟨value, shares, pays⟩ := of_decide_eq_true waits
  obtain ⟨⟨b', stats⟩, s', run, pays⟩ := Mock.exists_of_yields pays
  obtain ⟨-, -, bounds⟩ := withdrawals_le_totalValue Mock.runtime u.basepool
    (s.move Mock.runtime Mock.bob u.basepool.poolAccountId (10 ^ 11)) value shares
  exact ⟨_, s', u.basepool, b', stats, run, of_decide_eq_true pays, (bounds.of_ok run).1⟩

end Cyrux
