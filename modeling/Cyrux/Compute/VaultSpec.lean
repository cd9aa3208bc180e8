import Cyrux.Compute.StakingSpec

/-!
# Vault calls as runs of effects
-/

namespace Cyrux

open Exec

variable {A W : Type} [DecidableEq A] [DecidableEq W] {cfg : Config A W}
  {P : State A W → Label A → Prop} {s : State A W}

namespace VaultPallet

/-! ## Owner shares -/

inductive Settles (u : Vault A) : Vault A → Prop
  | idle : Settles u u
  | mark {price : FixedPoint} {current : ℕ} (priced : u.basepool.sharePrice = some (some price))
      (rounded : fromFixed price = some current) (unmarked : u.lastSharePriceCheckpoint = 0) :
      Settles u { u with lastSharePriceCheckpoint := current }
  | gain {price divisor : FixedPoint} {current shares : ℕ} (gains : u.Gains price current)
      (divided : toFixed (u.newPrice current) = some divisor)
      (bought : Balance.div u.basepool.totalValue divisor = some shares) :
      Settles u (u.gained (u.newPrice current) (shares - u.basepool.totalShares))

omit [DecidableEq A] [DecidableEq W] in
theorem doGainOwnerShare_settles (pid : ℕ) (s : State A W) :
    Sat (doGainOwnerShare pid) s
      (fun _ s' => ∃ u u', s.pools pid = some (.vault u) ∧ Settles u u' ∧
        s' = s.putPool pid (.vault u'))
      (fun f => f.plain = true) := by
  refine (ensureVault_spec pid s).bind (fun _ h => h) ?_
  rintro u s ⟨stored, rfl⟩
  have idle : s = s.putPool pid (.vault u) := (State.putPool_stored stored).symm
  refine (convert_spec _ s).bind (fun _ h => h) ?_
  rintro (_ | price) s ⟨priced, rfl⟩
  · exact ⟨u, u, stored, .idle, idle⟩
  · refine (convert_spec _ s).bind (fun _ h => h) ?_
    rintro current s ⟨rounded, rfl⟩
    refine Sat.ite (fun unmarked => ?_) fun marked => ?_
    · exact ⟨u, _, stored, .mark priced rounded unmarked, rfl⟩
    refine Sat.ite (fun _ => ⟨u, u, stored, .idle, idle⟩) fun risen => ?_
    have gains : u.Gains price current := ⟨priced, rounded, marked, Nat.not_le.1 risen⟩
    refine (convert_spec _ s).bind (fun _ h => h) ?_
    rintro divisor s ⟨divided, rfl⟩
    refine (convert_spec _ s).bind (fun _ h => h) ?_
    rintro shares s ⟨bought, rfl⟩
    exact ⟨u, _, stored, .gain gains divided bought, rfl⟩

theorem doGainOwnerShare_spec {pid : ℕ} (lenient : Lenient cfg P)
    (allowed : ∀ u price current, s.pools pid = some (.vault u) → u.Gains price current →
      P s (.gain pid)) :
    Sat (doGainOwnerShare pid) s (fun _ s' => Run cfg P s s')
      (fun f => f.plain = true) := by
  refine (doGainOwnerShare_settles pid s).mono ?_ fun _ h => h
  rintro _ _ ⟨u, u', stored, settles, rfl⟩
  cases settles with
  | idle => rw [State.putPool_stored stored]
  | mark priced rounded => exact Run.side lenient (.mark stored priced rounded)
  | gain gains divided bought =>
    exact Run.share (allowed u _ _ stored gains) (.gain stored gains divided bought)

theorem maybeGainOwnerShares_spec {who : A} {pid : ℕ} (lenient : Lenient cfg P)
    (allowed : ∀ u price current, s.pools pid = some (.vault u) → u.Gains price current →
      P s (.gain pid)) :
    Sat (maybeGainOwnerShares who pid) s (fun _ s' => Run cfg P s s')
      (fun f => f.plain = true) := by
  refine (ensureVault_spec pid s).bind (fun _ h => h) ?_
  rintro u s ⟨-, rfl⟩
  exact Sat.ensure_bind (fun _ => doGainOwnerShare_spec lenient allowed) fun _ => rfl

theorem setPayoutPref_spec {owner : A} {pid : ℕ} {commission : Option Permill}
    (lenient : Lenient cfg P)
    (allowed : ∀ u price current, s.pools pid = some (.vault u) → u.Gains price current →
      P s (.gain pid)) :
    Sat (setPayoutPref owner pid commission) s (fun _ s' => Run cfg P s s')
      (fun f => f.plain = true) := by
  refine (ensureVault_spec pid s).bind (fun _ h => h) ?_
  rintro _ s ⟨-, rfl⟩
  refine Sat.ensure_bind (fun _ => ?_) fun _ => rfl
  refine Sat.ensure_bind (fun _ => ?_) fun _ => rfl
  refine (maybeGainOwnerShares_spec lenient allowed).bind (fun _ h => h) ?_
  intro _ s₁ run
  refine (Sat.mapFault (ensureVault_spec pid s₁) fun f h => Fault.plain_expect h rfl).bind
    (fun _ h => h) ?_
  rintro u _ ⟨stored, rfl⟩
  exact sat_alter.2 (run.trans
    (Run.side lenient (.setVault stored (fun h => h) (List.Subset.refl _))))

theorem claimOwnerShares_spec {who target : A} {pid shares : ℕ} (lenient : Lenient cfg P)
    (ready : Ready cfg s) (claims : ∀ v, P v (.claim pid target shares))
    (merges : ∀ v, P v (.merge target)) :
    Sat (claimOwnerShares cfg who pid target shares) s
      (fun _ s' => Run cfg P s s' ∧ s'.Lists pid who) (fun f => f.plain = true) := by
  refine (ensureVault_spec pid s).bind (fun _ h => h) ?_
  rintro u s ⟨stored, rfl⟩
  refine Sat.ensure_bind (fun _ => ?_) fun _ => rfl
  refine Sat.ensure_bind (fun enough => ?_) fun _ => rfl
  refine Sat.ensure_bind (fun _ => ?_) fun _ => rfl
  refine (mintNft_spec _ _ _ s).bind (fun _ h => h) ?_
  rintro _ s₁ ⟨-, minted⟩
  have unlocked₁ : s₁.nftLocks = ∅ := by rw [minted]; exact ready.unlocked
  refine (mergeNftForStaker_spec _ target unlocked₁).bind (fun _ h => h) ?_
  rintro _ s₂ ⟨merged, -⟩
  have claim : Run cfg P s (s₁.putPool pid (.vault { u with
      ownerShares := u.ownerShares - shares })) := by
    rw [minted]
    exact Run.share (claims s) (.claim stored enough (ready.tidy.vacant _))
  have merge := (merged.putPool pid _).run (claim.tidy ready.tidy) (merges _)
    (q := .vault { u with ownerShares := u.ownerShares - shares }) (b := u.basepool)
    (State.putPool_self _ _ _) rfl
  refine (WrappedBalances.maybeSubscribeToPool_spec who pid _ s₂).bind (fun _ h => h.elim) ?_
  rintro _ _ ⟨⟨accounts, rfl⟩, votes, lists, listed⟩
  refine sat_alter.2 ⟨(claim.trans merge).trans (Run.side lenient (.other (.set lists)
    ⟨votes.voteAccountMap, votes.accountVoteMap, votes.locked, votes.account⟩)), ?_⟩
  exact ⟨_, State.putPool_self _ _ _, listed⟩

/-! ## Staking -/

theorem contribute_spec {who : A} {pid amount : ℕ} (lenient : Lenient cfg P) (ready : Ready cfg s)
    (signer : cfg.role who = .signer)
    (gains : ∀ u price current, s.pools pid = some (.vault u) → u.Gains price current →
      P s (.gain pid))
    (allowed : ∀ s₁, doGainOwnerShare pid s = .ok ((), s₁) → ∀ v, Alike cfg pid s₁ v →
      v.wpha = s₁.wpha → P v (.contribute pid who amount))
    (fills : ∀ v, P v (.fill pid)) :
    Sat (contribute cfg who pid amount) s (fun _ s' => Run cfg P s s' ∧ s'.Lists pid who)
      (Excused cfg P s) := by
  refine Sat.ensure_bind (fun least => ?_) fun _ => .plain rfl
  refine Sat.get_bind (Sat.demand_bind (fun free _ => ?_) fun _ => .plain rfl)
  refine Sat.ensure_bind (fun _ => ?_) fun _ => .plain rfl
  refine (doGainOwnerShare_spec lenient gains).with_run.bind (fun _ h => .plain h) ?_
  rintro _ s₁ ⟨run₁, settled⟩
  have ready₁ := run₁.ready ready
  refine (ensureVault_spec pid s₁).bind (fun _ h => .plain h) ?_
  rintro u s₁ ⟨stored, rfl⟩
  have holder : cfg.Holder who := .inl signer
  refine (BasePool.contribute_spec (q := .vault u) lenient ready₁ stored (.inl signer) least
    (allowed s₁ settled)).bind (fun _ h => h.after run₁) ?_
  rintro ⟨shares, b₂⟩ s₂ ⟨run₂, unlocked₂, -, -⟩
  refine (BasePool.tryProcessWithdrawQueue_spec (Frame.fits_none unlocked₂) fun _ _ => fills).bind
    (fun _ h => (h.after run₂).after run₁) ?_
  intro b₃ s₃ queue
  refine Sat.alter_bind ?_
  have run₃ : Run cfg P s (s₃.putPool pid (.vault { u with basepool := b₃ })) :=
    (run₁.trans run₂).trans queue.run
  have ready₃ := run₃.ready ready
  refine (mergeNftForStaker_spec b₃.cid who ready₃.unlocked).bind (fun _ h => .plain h) ?_
  rintro _ s₄ ⟨merged, -⟩
  have run₄ := run₃.trans (merged.run ready₃.tidy (lenient.merge _ who holder)
    (q := .vault u) (b := b₃) (State.putPool_self _ _ _) rfl)
  refine (WrappedBalances.maybeSubscribeToPool_spec who pid b₃.cid s₄).mono ?_ fun _ h => h.elim
  rintro _ _ ⟨⟨accounts, rfl⟩, votes, lists, listed⟩
  refine ⟨run₄.trans (Run.side lenient (.other (.set lists) votes)),
    .vault { u with basepool := b₃ }, ?_, listed⟩
  change s₄.pools pid = _
  rw [merged.pools, State.putPool_self]

theorem withdraw_spec {who : A} {pid shares : ℕ} (lenient : Lenient cfg P) (ready : Ready cfg s)
    (signer : cfg.role who = .signer)
    (gains : ∀ u price current, s.pools pid = some (.vault u) → u.Gains price current →
      P s (.gain pid))
    (priced : ∀ s₁, doGainOwnerShare pid s = .ok ((), s₁) → ∀ v, Alike cfg pid s₁ v →
      P v (.request pid who shares))
    (priceless : ∀ s₁, doGainOwnerShare pid s = .ok ((), s₁) → ∀ u,
      s₁.pools pid = some (.vault u) → u.basepool.sharePrice = some none →
      ∀ v, Alike cfg pid s₁ v → P v (.reduce pid))
    (fills : ∀ v, P v (.fill pid)) :
    Sat (withdraw cfg who pid shares) s (fun _ s' => Run cfg P s s') (Excused cfg P s) := by
  refine (doGainOwnerShare_spec lenient gains).with_run.bind (fun _ h => .plain h) ?_
  rintro _ s₁ ⟨run₁, settled⟩
  refine (ensureVault_spec pid s₁).bind (fun _ h => .plain h) ?_
  rintro u s₁ ⟨stored, rfl⟩
  refine (StakePoolV2.withdrawShares_spec lenient (run₁.ready ready) rfl rfl rfl stored
    (.inl signer) (priced s₁ settled) (priceless s₁ settled u stored) fills).mono ?_
    fun _ h => h.after run₁
  rintro _ s' ⟨run₂, -⟩
  exact run₁.trans run₂

end VaultPallet

/-! ## Forced withdrawal -/

def State.attrShares (s : State A W) (cid n : ℕ) : ℕ :=
  ((s.nftAttr cid n).map NftAttr.shares).getD 0

def State.requestedOf (s : State A W) (b : BasePool A) (a : A) : ℕ :=
  ((b.requestIds a).map (s.attrShares b.cid)).sum

namespace VaultPallet

omit [DecidableEq W] in
theorem releasingStake_spec (account : A) (pools : List ℕ) (unlocked : s.nftLocks = ∅) :
    Sat (releasingStake account pools) s (fun _ s' => s' = s) (fun f => f.plain = true) := by
  refine sat_foldlM (I := fun _ s' => s' = s) ?_ rfl
  rintro total pid - s rfl
  refine (ensureStakePool_spec pid s).bind (fun _ h => h) ?_
  rintro p s ⟨-, rfl⟩
  refine sat_foldlM (I := fun _ s' => s' = s) ?_ rfl
  rintro total w - s rfl
  refine (readNftAttr_spec _ _ s).bind ?_ ?_
  · rintro _ (⟨rfl, -⟩ | ⟨rfl, locked⟩)
    · rfl
    · simp [unlocked] at locked
  rintro nft s ⟨-, -, rfl⟩
  refine (convert_spec _ s).bind (fun _ h => h) ?_
  rintro price s ⟨-, rfl⟩
  refine Sat.demand_bind (fun price _ => ?_) fun _ => rfl
  refine (convert_spec _ s).bind (fun _ h => h) ?_
  rintro amount s ⟨-, rfl⟩
  rfl

omit [DecidableEq W] in
theorem mustShutdown_spec (u : Vault A) (unlocked : s.nftLocks = ∅) :
    Sat (mustShutdown cfg u) s (fun _ s' => s' = s) (fun f => f.plain = true) := by
  refine Sat.get_bind (Sat.ite (fun _ => rfl) fun _ => ?_)
  refine (releasingStake_spec _ _ unlocked).bind (fun _ h => h) ?_
  rintro releasing s rfl
  exact BasePool.hasExpiredWithdrawal_spec _ _ _ _ _ unlocked

omit [DecidableEq W] in
theorem requestedShares_spec (account : A) (b : BasePool A) (unlocked : s.nftLocks = ∅) :
    Sat (requestedShares account b) s (fun total s' => total = s.requestedOf b account ∧ s' = s)
      (fun f => f.plain = true) := by
  have sum : ∀ (requests : List (WithdrawInfo A)) (total : ℕ),
      Sat (requests.foldlM (fun total w => do
        let nft ← expect .vaultQueueNft (readNftAttr b.cid w.nftId)
        pure (total + nft.shares)) total) s
        (fun total' s' => total' = total +
          ((requests.map WithdrawInfo.nftId).map (s.attrShares b.cid)).sum ∧ s' = s)
        (fun f => f.plain = true) := by
    intro requests
    induction requests with
    | nil => exact fun total => ⟨rfl, rfl⟩
    | cons w requests ih =>
      intro total
      refine Sat.bind (R := fun total' s' => total' = total + s.attrShares b.cid w.nftId ∧ s' = s)
        (F := fun f => f.plain = true) ?_ (fun _ h => h) ?_
      · refine (expect_readNftAttr_spec _ _ unlocked rfl).bind (fun _ h => h) ?_
        rintro nft s ⟨found, rfl⟩
        exact ⟨by simp [State.attrShares, found], rfl⟩
      · rintro total' s ⟨rfl, rfl⟩
        refine (ih _).mono ?_ fun _ h => h
        rintro total' _ ⟨rfl, rfl⟩
        exact ⟨by simp [Nat.add_assoc], rfl⟩
  refine (sum _ 0).mono ?_ fun _ h => h
  rintro total _ ⟨rfl, rfl⟩
  exact ⟨Nat.zero_add _, rfl⟩

omit [DecidableEq W] in
theorem withdrawable_spec {requested : ℕ} {guard : NftGuard}
    (foreign : s.nftOwner guard.cid guard.nftId ≠ some cfg.palletId) :
    Sat (withdrawable cfg requested guard) s
      (fun r s' => s' = s ∧ (∀ n, r = some n → n = requested + guard.attr.shares) ∧
        (r = none → guard.attr.shares ≤ 1000))
      (fun _ => False) := by
  have dust : ∀ {x}, ¬ isNondustBalance x = true → x ≤ 1000 := by
    intro x h
    simpa [isNondustBalance, balanceCloseToZero] using h
  refine Sat.ite (fun small => ?_) fun _ => Sat.ite (fun _ => ?_) fun small =>
    ⟨rfl, by simp, fun _ => (Nat.le_add_left _ _).trans (dust small)⟩
  · refine Sat.bind (R := fun _ s' => s' = s) (F := fun _ => False) ?_ (fun _ h => h) ?_
    · refine sat_attempt.2 ((burnNft_spec _ _ _ s).mono ?_ ?_)
      · rintro _ _ ⟨owned, -⟩
        exact absurd owned foreign
      · rintro _ ⟨rfl, -⟩
        rfl
    · rintro _ _ rfl
      exact ⟨rfl, by simp, fun _ => dust (by simp [small])⟩
  · refine ⟨rfl, ?_, by rintro ⟨⟩⟩
    rintro _ ⟨⟩
    rfl

omit [DecidableEq W] in
theorem sharesToWithdraw_spec {account : A} {b : BasePool A} (holder : cfg.Holder account)
    (unlocked : s.nftLocks = ∅) :
    Sat (sharesToWithdraw cfg account b) s
      (fun r s' => Merged cfg b.cid account s s' ∧
        (∀ n, r = some n → n = s.requestedOf b account + s.heldShares b.cid account) ∧
        (r = none → s.heldShares b.cid account ≤ 1000))
      (fun f => f.plain = true) := by
  refine (requestedShares_spec account b unlocked).bind (fun _ h => h) ?_
  rintro requested s ⟨rfl, rfl⟩
  refine (mergeNftForStaker_spec b.cid account unlocked).bind (fun _ h => h) ?_
  rintro (_ | k) s₁ ⟨merged, owner, nothing⟩
  · exact ⟨merged, by simp, fun _ => (nothing rfl).le.trans (Nat.zero_le _)⟩
  obtain ⟨owned, held⟩ := owner k rfl
  refine (Sat.mapFault (getNftAttrGuard_spec _ _ s₁) (E := fun f => f.plain = true) ?_).bind
    (fun _ h => h) ?_
  · rintro _ (⟨rfl, -⟩ | ⟨rfl, locked⟩)
    · rfl
    · simp [merged.nftLocks, unlocked] at locked
  rintro ⟨_, k, attr⟩ _ ⟨free, found, rfl, rfl, rfl⟩
  have foreign : (s₁.lockNft b.cid k).nftOwner b.cid k ≠ some cfg.palletId := by
    intro h
    exact holder.ne_palletId (Option.some.inj (owned.symm.trans h))
  refine (withdrawable_spec foreign).bind (fun _ h => h.elim) ?_
  rintro r _ ⟨rfl, shares, small⟩
  refine (NftGuard.unlock_spec _ _).bind (fun _ h => h.elim) ?_
  rintro _ _ rfl
  rw [State.sharesAt_of_attr (by rw [owned]; rfl) found] at held
  refine ⟨by rwa [State.unlockNft_lockNft free], fun n hn => ?_, fun none => ?_⟩
  · rw [shares n hn, ← held]
  · rw [← held]
    exact small none

structure AllowsForced (cfg : Config A W) (P : State A W → Label A → Prop) (s : State A W)
    (account : A) (pid : ℕ) : Prop where
  priced : ∀ p, s.pools pid = some (.stakePool p) → ∀ v, Alike cfg pid s v →
    P v (.request pid account
      (s.requestedOf p.basepool account + s.heldShares p.basepool.cid account))
  priceless : ∀ p, s.pools pid = some (.stakePool p) → p.basepool.sharePrice = some none →
    ∀ v, Alike cfg pid s v → P v (.reduce pid)
  fills : ∀ p, s.pools pid = some (.stakePool p) → ∀ v, P v (.fill pid)
  forgets : ∀ p, s.pools pid = some (.stakePool p) → s.heldShares p.basepool.cid account ≤ 1000 →
    ∀ v, Alike cfg pid s v →
      v.heldShares p.basepool.cid account = s.heldShares p.basepool.cid account →
      P v (.forget account pid)

omit [DecidableEq W] in
theorem AllowsForced.of_same {s' : State A W} {account : A} {pid : ℕ}
    (h : AllowsForced cfg P s account pid)
    (same : ∀ p, s'.pools pid = some (.stakePool p) → s.pools pid = some (.stakePool p) ∧
      SameNfts p.basepool.cid s s') :
    AllowsForced cfg P s' account pid := by
  have alike' : ∀ p, s'.pools pid = some (.stakePool p) → Alike cfg pid s s' := by
    intro p stored'
    obtain ⟨stored, nfts⟩ := same p stored'
    refine ⟨stored'.trans stored.symm, fun q hq n owned => ?_⟩
    obtain rfl : q = .stakePool p := Option.some.inj (hq.symm.trans stored)
    exact ⟨(congrFun nfts.owner n).trans owned, congrFun nfts.attr n⟩
  refine ⟨fun p stored' v alike => ?_, fun p stored' priceless v alike => ?_,
    fun p stored' => h.fills p (same p stored').1, fun p stored' small v alike held => ?_⟩
  · obtain ⟨stored, nfts⟩ := same p stored'
    have allowed := h.priced p stored v ((alike' p stored').trans alike)
    have requested : s'.requestedOf p.basepool account = s.requestedOf p.basepool account := by
      unfold State.requestedOf State.attrShares
      rw [nfts.attr]
    rwa [requested, State.heldShares_of_sameNfts nfts]
  · exact h.priceless p (same p stored').1 priceless v ((alike' p stored').trans alike)
  · obtain ⟨stored, nfts⟩ := same p stored'
    have unchanged := State.heldShares_of_sameNfts nfts account
    rw [unchanged] at small held
    exact h.forgets p stored small v ((alike' p stored').trans alike) held

structure Skipped (cfg : Config A W) (account : A) (pid : ℕ) (s s' : State A W) : Prop where
  small : ∃ p, s.pools pid = some (.stakePool p) ∧ s.heldShares p.basepool.cid account ≤ 1000 ∧
    s'.heldShares p.basepool.cid account = s.heldShares p.basepool.cid account
  alike : Alike cfg pid s s'

omit [DecidableEq W] in
theorem Skipped.of_same {s s' s'' : State A W} {account : A} {pid : ℕ}
    (h : Skipped cfg account pid s s')
    (same : ∀ p, s'.pools pid = some (.stakePool p) → s''.pools pid = some (.stakePool p) ∧
      SameNfts p.basepool.cid s' s'') : Skipped cfg account pid s s'' := by
  obtain ⟨p, stored, small, held⟩ := h.small
  have stored' : s'.pools pid = some (.stakePool p) := h.alike.pool.trans stored
  obtain ⟨stored'', nfts⟩ := same p stored'
  refine ⟨⟨p, stored, small, (State.heldShares_of_sameNfts nfts account).trans held⟩, ?_⟩
  refine h.alike.trans ⟨stored''.trans stored'.symm, fun q hq n owned => ?_⟩
  obtain rfl : q = .stakePool p := Option.some.inj (hq.symm.trans stored')
  exact ⟨(congrFun nfts.owner n).trans owned, congrFun nfts.attr n⟩

omit [DecidableEq W] in
theorem Skipped.since {s₀ s s' : State A W} {account : A} {pid : ℕ}
    (h : Skipped cfg account pid s s')
    (same : ∀ p, s.pools pid = some (.stakePool p) → s₀.pools pid = some (.stakePool p) ∧
      SameNfts p.basepool.cid s₀ s) : Skipped cfg account pid s₀ s' := by
  obtain ⟨p, stored, small, held⟩ := h.small
  obtain ⟨stored₀, nfts⟩ := same p stored
  have unchanged := State.heldShares_of_sameNfts nfts account
  refine ⟨⟨p, stored₀, unchanged ▸ small, held.trans unchanged⟩, Alike.trans ?_ h.alike⟩
  refine ⟨stored.trans stored₀.symm, fun q hq n owned => ?_⟩
  obtain rfl : q = .stakePool p := Option.some.inj (hq.symm.trans stored₀)
  exact ⟨(congrFun nfts.owner n).trans owned, congrFun nfts.attr n⟩

theorem withdrawFrom_spec {vaultPid pid : ℕ} {u : Vault A} {skipped : List ℕ}
    (lenient : Lenient cfg P) (ready : Ready cfg s)
    (storedVault : s.pools vaultPid = some (.vault u))
    (allows : AllowsForced cfg P s u.basepool.poolAccountId pid) :
    Sat (withdrawFrom cfg vaultPid u.basepool skipped pid) s
      (fun skipped' s' => Run cfg P s s' ∧
        (∃ p, s.pools pid = some (.stakePool p) ∧ Apart pid p.basepool.cid s s') ∧
        (skipped' = skipped ∨
          skipped' = skipped ++ [pid] ∧ Skipped cfg u.basepool.poolAccountId pid s s'))
      (Excused cfg P s) := by
  refine (ensureStakePool_spec pid s).bind (fun _ h => .plain h) ?_
  rintro p s ⟨stored, rfl⟩
  have holder : cfg.Holder u.basepool.poolAccountId := ready.tidy.holder storedVault
  refine (sharesToWithdraw_spec holder ready.unlocked).bind (fun _ h => .plain h) ?_
  rintro r s₁ ⟨merged, shares, small⟩
  have run₁ := merged.run ready.tidy (lenient.merge s _ holder) (q := .stakePool p)
    (b := p.basepool) stored rfl
  have apart₁ : Apart pid p.basepool.cid s s₁ :=
    ⟨fun pid' _ => by rw [merged.pools], fun c other => merged.sameNfts other⟩
  have stored₁ : s₁.pools pid = some (.stakePool p) := by rw [merged.pools, stored]
  cases r with
  | none =>
    refine ⟨run₁, ⟨p, stored, apart₁⟩, .inr ⟨rfl, ⟨p, stored, small rfl, ?_⟩, ?_⟩⟩
    · exact merged.heldShares ready.tidy
    · exact merged.alike ready.tidy holder.ne_palletId pid
  | some n =>
    obtain rfl : p.basepool.pid = pid := (ready.tidy.pool pid _ stored).key
    have alike := merged.alike ready.tidy holder.ne_palletId p.basepool.pid
    refine (StakePoolV2.withdraw_spec lenient (run₁.ready ready) (by rintro ⟨⟩) ?_ ?_
      (allows.fills p stored)).bind (fun _ h => h.after run₁) ?_
    · rintro a ⟨u', stored', -, rfl⟩ v alike'
      rw [merged.pools, storedVault] at stored'
      cases stored'
      rw [shares n rfl]
      exact allows.priced p stored v (alike.trans alike')
    · intro p' stored' price v alike'
      rw [stored₁] at stored'
      cases stored'
      exact allows.priceless p stored price v (alike.trans alike')
    · rintro _ s₂ ⟨run₂, p', stored', apart₂⟩
      rw [stored₁] at stored'
      cases stored'
      refine ⟨run₁.trans run₂, ⟨p, stored, fun pid' ne => ?_, fun c ne => ?_⟩, .inl rfl⟩
      · rw [apart₂.pools pid' ne, apart₁.pools pid' ne]
      · exact (apart₁.nfts c ne).trans (apart₂.nfts c ne)

theorem withdrawFromAll_spec {vaultPid : ℕ} {u : Vault A} (pools : List ℕ) (skipped : List ℕ)
    (nodup : pools.Nodup) (lenient : Lenient cfg P) (ready : Ready cfg s)
    (storedVault : s.pools vaultPid = some (.vault u))
    (allows : ∀ pid ∈ pools, AllowsForced cfg P s u.basepool.poolAccountId pid) :
    Sat (pools.foldlM (withdrawFrom cfg vaultPid u.basepool) skipped) s
      (fun skipped' s' => Run cfg P s s' ∧ s'.pools vaultPid = some (.vault u) ∧
        (∀ pid q, pid ∉ pools → s.pools pid = some q →
          s'.pools pid = some q ∧ SameNfts q.basepool.cid s s') ∧
        ∀ pid ∈ skipped', pid ∈ skipped ∨
          pid ∈ pools ∧ Skipped cfg u.basepool.poolAccountId pid s s')
      (Excused cfg P s) := by
  induction pools generalizing s skipped with
  | nil => exact ⟨.refl, storedVault, fun _ _ _ stored => ⟨stored, .refl _ _⟩, fun _ => .inl⟩
  | cons pid pools ih =>
    obtain ⟨fresh, nodup⟩ := List.nodup_cons.1 nodup
    refine (withdrawFrom_spec lenient ready storedVault (allows pid List.mem_cons_self)).bind
      (fun _ h => h) ?_
    rintro skipped' s₁ ⟨run₁, ⟨p, stored, apart⟩, skipping⟩
    have storedVault₁ : s₁.pools vaultPid = some (.vault u) := by
      rw [apart.pools vaultPid, storedVault]
      rintro rfl
      rw [stored] at storedVault
      cases storedVault
    -- The other pools are as they were.
    have other : ∀ pid' q, pid' ≠ pid → s.pools pid' = some q →
        s₁.pools pid' = some q ∧ SameNfts q.basepool.cid s s₁ := by
      intro pid' q ne stored'
      exact ⟨(apart.pools pid' ne).trans stored',
        apart.nfts _ fun e => ne (ready.tidy.cid_inj _ _ _ _ stored' stored e)⟩
    refine (ih skipped' nodup (run₁.ready ready) storedVault₁ ?_).mono ?_ fun _ h => h.after run₁
    · intro pid' mem
      refine (allows pid' (List.mem_cons_of_mem _ mem)).of_same fun p' stored₁' => ?_
      have ne : pid' ≠ pid := ne_of_mem_of_not_mem mem fresh
      have stored' : s.pools pid' = some (.stakePool p') := by rw [← apart.pools pid' ne, stored₁']
      exact ⟨stored', (other pid' _ ne stored').2⟩
    · rintro _ s₂ ⟨run₂, storedVault₂, kept₂, skipped₂⟩
      refine ⟨run₁.trans run₂, storedVault₂, fun pid' q new stored' => ?_, fun pid' mem => ?_⟩
      · obtain ⟨ne, new⟩ := not_or.1 (fun h => new (List.mem_cons.2 h))
        obtain ⟨stored₁, nfts₁⟩ := other pid' q ne stored'
        obtain ⟨stored₂, nfts₂⟩ := kept₂ pid' q new stored₁
        exact ⟨stored₂, nfts₁.trans nfts₂⟩
      · obtain mem | ⟨mem, later⟩ := skipped₂ pid' mem
        · obtain rfl | ⟨rfl, now⟩ := skipping
          · exact .inl mem
          · obtain mem | mem := List.mem_append.1 mem
            · exact .inl mem
            · obtain rfl := List.mem_singleton.1 mem
              exact .inr ⟨List.mem_cons_self, now.of_same fun p' stored₁ =>
                kept₂ _ _ fresh stored₁⟩
        · have ne : pid' ≠ pid := ne_of_mem_of_not_mem mem fresh
          refine .inr ⟨List.mem_cons_of_mem _ mem, later.since fun p' stored₁' => ?_⟩
          have stored' := (apart.pools pid' ne).symm.trans stored₁'
          exact ⟨stored', (other pid' _ ne stored').2⟩

theorem forget_run {vaultPid : ℕ} {u : Vault A} (forgotten : List ℕ)
    (stored : s.pools vaultPid = some (.vault u))
    (allowed : ∀ pid ∈ forgotten, ∀ invested, P (s.putPool vaultPid (.vault { u with
      investPools := invested })) (.forget u.basepool.poolAccountId pid)) :
    Run cfg P s (s.putPool vaultPid (.vault { u with
      investPools := u.investPools.filter fun pid => pid ∉ forgotten })) := by
  induction forgotten generalizing s u with
  | nil =>
    have same : u.investPools.filter (fun pid => pid ∉ ([] : List ℕ)) = u.investPools := by simp
    rw [same, State.putPool_stored stored]
  | cons pid forgotten ih =>
    have first : P s (.forget u.basepool.poolAccountId pid) := by
      have h := allowed pid List.mem_cons_self u.investPools
      rwa [State.putPool_stored stored] at h
    have rest := ih (State.putPool_self s vaultPid (.vault { u with
      investPools := u.investPools.filter fun x => x ≠ pid })) fun pid' mem invested => by
        rw [State.putPool_putPool]
        exact allowed pid' (List.mem_cons_of_mem _ mem) invested
    rw [State.putPool_putPool] at rest
    have both : (u.investPools.filter fun x => x ∉ pid :: forgotten) =
        (u.investPools.filter fun x => x ≠ pid).filter fun x => x ∉ forgotten := by
      simp [Bool.and_comm]
    rw [both]
    exact .head ⟨_, first, .side (.forget stored)⟩ rest

theorem forceWithdraw_spec {vaultPid : ℕ} {u : Vault A} (lenient : Lenient cfg P)
    (ready : Ready cfg s) (storedVault : s.pools vaultPid = some (.vault u))
    (allows : ∀ pid ∈ u.investPools, AllowsForced cfg P s u.basepool.poolAccountId pid) :
    Sat (forceWithdraw cfg vaultPid u) s (fun _ s' => Run cfg P s s') (Excused cfg P s) := by
  have nodup : u.investPools.Nodup := (ready.tidy.pool vaultPid _ storedVault).kind.2
  refine (withdrawFromAll_spec _ [] nodup lenient ready storedVault allows).bind (fun _ h => h) ?_
  rintro skipped s₁ ⟨run₁, storedVault₁, -, skipping⟩
  refine Sat.bind (R := fun _ s₂ => Run cfg P s s₂) (F := fun _ => False) ?_ (fun _ h => h.elim) ?_
  · refine sat_when.2 ⟨fun _ => sat_alter.2 ?_, fun _ => run₁⟩
    refine run₁.trans (forget_run skipped storedVault₁ fun pid mem invested => ?_)
    obtain mem | ⟨mem, skip⟩ := skipping pid mem
    · cases mem
    obtain ⟨p, stored, small, held⟩ := skip.small
    have ne : pid ≠ vaultPid := by
      rintro rfl
      rw [stored] at storedVault
      cases storedVault
    refine (allows pid mem).forgets p stored small _ (skip.alike.trans ⟨?_, ?_⟩) held
    · exact State.putPool_of_ne ne
    · exact fun q _ n owned => ⟨owned, rfl⟩
  · intro _ s₂ run₂
    exact sat_alter.2 (run₂.trans (Run.side lenient .set))

theorem checkAndMaybeForceWithdraw_spec {vaultPid : ℕ} (lenient : Lenient cfg P)
    (ready : Ready cfg s)
    (fills : ∀ u, s.pools vaultPid = some (.vault u) →
      cfg.wphaMin < s.balance u.basepool.poolAccountId → u.basepool.withdrawQueue ≠ [] →
      ∀ v, P v (.fill vaultPid))
    (allows : ∀ u, s.pools vaultPid = some (.vault u) → ∀ pid ∈ u.investPools,
      AllowsForced cfg P s u.basepool.poolAccountId pid) :
    Sat (checkAndMaybeForceWithdraw cfg vaultPid) s (fun _ s' => Run cfg P s s')
      (Excused cfg P s) := by
  refine (ensureVault_spec vaultPid s).bind (fun _ h => .plain h) ?_
  rintro u s ⟨stored, rfl⟩
  have view : Frame.view ⟨vaultPid, .vault u, none⟩ u.basepool s = s := Frame.view_stored stored
  refine (BasePool.tryProcessWithdrawQueue_spec (F := ⟨vaultPid, .vault u, none⟩)
    (Frame.fits_none ready.unlocked) (fills u stored)).bind (fun _ h => view ▸ h) ?_
  intro b s₁ queue
  have run₁ : Run cfg P s (s₁.putPool vaultPid (.vault { u with basepool := b })) := by
    have := queue.run
    rwa [view] at this
  refine Sat.bind (R := fun _ s₂ => ∃ locks, s₂ = { s₁ with vaultLocks := locks })
    (F := fun _ => False) ?_ (fun _ h => h.elim) ?_
  · exact sat_when.2 ⟨fun _ => sat_alter.2 ⟨_, rfl⟩, fun _ => ⟨s₁.vaultLocks, rfl⟩⟩
  rintro _ _ ⟨locks, rfl⟩
  have run₂ : Run cfg P s (State.putPool { s₁ with vaultLocks := locks } vaultPid
      (.vault { u with basepool := b })) :=
    run₁.trans (Run.side lenient .set)
  have ready₂ := run₂.ready ready
  refine Sat.ite (fun _ => run₂) fun _ => ?_
  refine (mustShutdown_spec _ ready₂.unlocked).bind (fun _ h => .plain h) ?_
  rintro shutdown _ rfl
  refine sat_when.2 ⟨fun _ => ?_, fun _ => run₂⟩
  refine (forceWithdraw_spec lenient ready₂ (State.putPool_self _ _ _) ?_).mono
    (fun _ _ run => run₂.trans run) fun _ h => h.after run₂
  intro pid mem
  have account : b.poolAccountId = u.basepool.poolAccountId := by rw [queue.keeps]
  rw [show ({ u with basepool := b } : Vault A).basepool.poolAccountId =
    u.basepool.poolAccountId from account]
  refine (allows u stored pid mem).of_same fun p stored₂ => ?_
  have ne : pid ≠ vaultPid := by
    rintro rfl
    rw [State.putPool_self] at stored₂
    cases stored₂
  have storedOld : s.pools pid = some (.stakePool p) := by
    rw [State.putPool_of_ne ne] at stored₂
    exact (congrFun queue.pools pid).symm.trans stored₂
  have other : p.basepool.cid ≠ u.basepool.cid := fun e =>
    ne (ready.tidy.cid_inj _ _ _ _ storedOld stored e)
  obtain ⟨owner, attr, next⟩ := queue.nfts _ other
  exact ⟨storedOld, owner, attr, next⟩

end VaultPallet

end Cyrux
