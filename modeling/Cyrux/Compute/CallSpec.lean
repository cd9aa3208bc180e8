import Cyrux.Compute.RewardSpec

/-!
# Every event is a run of effects
-/

namespace Cyrux

open Exec

variable {A W : Type} [DecidableEq A] [DecidableEq W] {cfg : Config A W}
  {P : State A W → Label A → Prop} {s : State A W}

/-! ## Wrapped balances -/

def State.nftValue (s : State A W) (pid cid n : ℕ) : Option ℕ := do
  let attr ← s.nftAttr cid n
  let proxy ← s.pools pid
  let price ← proxy.basepool.sharePrice
  WrappedBalances.shareValue price attr.shares

def State.sharesValue (s : State A W) (who : A) : Option ℕ :=
  sumOf (fun (pid, cid) => sumOf (s.nftValue pid cid) (s.ownedInCollection cid who))
    (((s.stakerAccounts who).map FinanceAccount.investPools).getD [])

def State.netValue (s : State A W) (who : A) : Option ℕ :=
  (s.sharesValue who).map (s.balance who + ·)

namespace WrappedBalances

omit [DecidableEq A] [DecidableEq W] in
theorem addNftValue_spec (pid cid total n : ℕ) (unlocked : s.nftLocks = ∅) :
    Sat (addNftValue pid cid total n) s
      (fun value s' => (s.nftValue pid cid n).map (total + ·) = some value ∧ s' = s)
      (fun f => f.plain = true ∧ f.isVotePanic = false) := by
  refine (Sat.mapFault (getNftAttrGuard_spec _ _ s)
    (E := fun f => f.plain = true ∧ f.isVotePanic = false) ?_).bind (fun _ h => h) ?_
  · rintro _ (⟨rfl, -⟩ | ⟨rfl, locked⟩)
    · exact ⟨rfl, rfl⟩
    · simp [unlocked] at locked
  rintro ⟨c, n, attr⟩ _ ⟨free, found, rfl, rfl, rfl⟩
  refine Sat.get_bind (Sat.demand_bind (fun proxy stored => ?_) fun _ => ⟨rfl, rfl⟩)
  refine Sat.demand_bind (fun price priced => ?_) fun _ => ⟨rfl, rfl⟩
  refine Sat.demand_bind (fun value worth => ?_) fun _ => ⟨rfl, rfl⟩
  refine Sat.alter_bind ⟨?_, State.unlockNft_lockNft free⟩
  change s.nftAttr c n = some attr at found
  change s.pools pid = some proxy at stored
  have same : s.nftValue pid c n = some value := by
    unfold State.nftValue
    rw [found, Option.bind_eq_bind, Option.bind_some, stored, Option.bind_eq_bind,
      Option.bind_some, priced, Option.bind_eq_bind, Option.bind_some]
    exact worth
  change (s.nftValue pid c n).map (total + ·) = _
  rw [same]
  rfl

omit [DecidableEq W] in
theorem getNetValue_spec (who : A) (unlocked : s.nftLocks = ∅) :
    Sat (getNetValue who) s (fun value s' => s.netValue who = some value ∧ s' = s)
      (fun f => f.plain = true ∧ f.isVotePanic = false) := by
  unfold getNetValue State.netValue State.sharesValue
  refine Sat.get_bind ?_
  split
  · rename_i absent
    rw [absent]
    exact ⟨rfl, rfl⟩
  · rename_i account stored
    rw [stored]
    refine sat_foldlM_sumOf _ ?_
    rintro total ⟨pid, cid⟩ -
    refine Sat.get_bind (sat_foldlM_sumOf _ ?_)
    rintro total n -
    exact addNftValue_spec pid cid total n unlocked

theorem wrap_spec {user : A} {amount : ℕ} (lenient : Lenient cfg P)
    (signer : cfg.role user = .signer) :
    Sat (wrap cfg user amount) s (fun _ s' => Run cfg P s s') (fun f => f.plain = true) := by
  refine (Currency.transfer_spec _ _ _ _ s).bind ?_ ?_
  · rintro _ ⟨e, rfl⟩
    rfl
  intro _ s₁ paid
  refine (mintInto_spec user amount s₁).bind (fun _ h => h.elim) ?_
  rintro _ s₂ ⟨minted, -⟩
  have wrapped : Run cfg P s s₂ := by
    rcases paid with ⟨rfl, zero | same⟩ | ⟨funded, -, rfl⟩
    · rw [minted, State.mintOrDust, if_pos zero]
    · rw [same, cfg.role_wrappedBalances] at signer
      cases signer
    · rw [minted]
      exact Run.side lenient (.wrap signer funded)
  refine Sat.get_bind ?_
  split
  · exact wrapped
  · rename_i absent
    refine sat_alter.2 (wrapped.trans (Run.side lenient
      (.other (.set (State.investedIn_putStakerAccount ?_)) (.putStakerAccount ?_))))
    · simp [State.investedIn, absent]
    · simp [State.locked, absent]

omit [DecidableEq W] in
theorem payOut_pays {user : A} {amount : ℕ} (signer : cfg.role user = .signer)
    (owned : amount ≤ s.balance user) :
    Sat (payOut cfg user amount) s
      (fun _ s' => amount = 0 ∧ s' = s ∨
        amount ≤ s.native cfg.wrappedBalancesAccountId ∧ amount ≤ s.wphaSupply ∧
          s' = (s.moveNative cfg.wrappedBalancesAccountId user amount).burnWpha cfg user amount)
      (fun f => f.plain = true) := by
  refine (Currency.transfer_spec _ _ _ _ s).bind ?_ ?_
  · rintro _ ⟨e, rfl⟩
    rfl
  intro _ s₁ paid
  have owned₁ : min amount (s₁.balance user) = amount := by
    rcases paid with ⟨rfl, -⟩ | ⟨-, -, rfl⟩ <;> exact Nat.min_eq_left owned
  refine (Assets.burnFrom_spec user amount s₁).mono ?_ ?_
  · intro _ s₂ burnt
    rw [owned₁] at burnt
    rcases paid with ⟨rfl, zero | same⟩ | ⟨backed, nonzero, rfl⟩
    · rcases burnt with ⟨-, rfl⟩ | ⟨nonzero, -⟩
      · exact .inl ⟨zero, rfl⟩
      · exact absurd zero nonzero
    · rw [← same, cfg.role_wrappedBalances] at signer
      cases signer
    · rcases burnt with ⟨zero, -⟩ | ⟨-, issued, rfl⟩
      · exact absurd zero nonzero
      · exact .inr ⟨backed, issued, rfl⟩
  · rintro _ rfl
    rfl

theorem payOut_spec {user : A} {amount : ℕ} (signer : cfg.role user = .signer)
    (allowed : ∀ v, P v (.unwrap user)) (owned : amount ≤ s.balance user) :
    Sat (payOut cfg user amount) s (fun _ s' => Run cfg P s s') (fun f => f.plain = true) := by
  refine (payOut_pays signer owned).mono ?_ fun _ h => h
  rintro _ _ (⟨-, rfl⟩ | ⟨backed, issued, rfl⟩)
  · exact Relation.ReflTransGen.refl
  · exact .single ⟨_, allowed s, .side (.unwrap signer backed owned issued)⟩

omit [DecidableEq A] [DecidableEq W] in
theorem lockedOf_spec (who : A) (s : State A W) :
    Sat (lockedOf who) s
      (fun locked s' => locked = ((s.stakerAccounts who).map FinanceAccount.locked).getD 0 ∧ s' = s)
      (fun _ => False) := by
  exact Sat.get_bind ⟨rfl, rfl⟩

theorem unwrapAll_spec {user : A} (ready : Ready cfg s) (signer : cfg.role user = .signer)
    (allowed : ∀ v, P v (.unwrap user)) :
    Sat (unwrapAll cfg user) s (fun _ s' => Run cfg P s s') (fun f => f.plain = true) := by
  refine (getNetValue_spec user ready.unlocked).bind (fun _ h => h.1) ?_
  rintro active s ⟨-, rfl⟩
  refine Sat.get_bind ((lockedOf_spec user s).bind (fun _ h => h.elim) ?_)
  rintro locked s ⟨-, rfl⟩
  exact payOut_spec signer allowed (Nat.min_le_right _ _)

theorem unwrap_spec {user : A} {amount : ℕ} (ready : Ready cfg s)
    (signer : cfg.role user = .signer) (allowed : ∀ v, P v (.unwrap user)) :
    Sat (unwrap cfg user amount) s (fun _ s' => Run cfg P s s') (fun f => f.plain = true) := by
  refine Sat.get_bind (Sat.ensure_bind (fun owned => ?_) fun _ => rfl)
  refine (getNetValue_spec user ready.unlocked).bind (fun _ h => h.1) ?_
  rintro active s ⟨-, rfl⟩
  refine (lockedOf_spec user s).bind (fun _ h => h.elim) ?_
  rintro locked s ⟨-, rfl⟩
  exact Sat.ensure_bind (fun _ => payOut_spec signer allowed owned) fun _ => rfl

def Voted (s s' : State A W) : Prop :=
  (∃ accounts votes voted frozen, s' = { s with
    stakerAccounts := accounts
    voteAccountMap := votes
    accountVoteMap := voted
    frozen := frozen }) ∧ ∀ a, s.investedIn a ⊆ s'.investedIn a

omit [DecidableEq A] [DecidableEq W] in
theorem Voted.trans {s s' s'' : State A W} (h : Voted s s') (h' : Voted s' s'') : Voted s s'' := by
  obtain ⟨⟨_, _, _, _, rfl⟩, lists⟩ := h
  obtain ⟨⟨_, _, _, _, rfl⟩, lists'⟩ := h'
  exact ⟨⟨_, _, _, _, rfl⟩, fun a => List.Subset.trans (lists a) (lists' a)⟩

theorem Voted.run {s' : State A W} (h : Voted s s') (votes : ∀ v, P v .vote) :
    Run cfg P s s' := by
  obtain ⟨⟨_, _, _, _, rfl⟩, lists⟩ := h
  exact .single ⟨.vote, votes s, .side (.voted (.set lists))⟩

omit [DecidableEq W] in
theorem updateUserLocked_spec (user : A) (s : State A W) :
    Sat (updateUserLocked user) s (fun _ s' => Voted s s') (fun f => f.plain = true) := by
  refine Sat.get_bind (Sat.bind (R := fun _ s' => s' = s) (F := fun f => f.plain = true) ?_
    (fun _ h => h) ?_)
  · refine sat_foldlM (I := fun _ s' => s' = s) ?_ rfl
    rintro total voteId - s rfl
    exact Sat.demand_bind (fun _ _ => rfl) fun _ => rfl
  · rintro locked s rfl
    refine Sat.demand_bind (fun account found => sat_alter.2 ⟨⟨_, _, _, _, rfl⟩, ?_⟩) fun _ => rfl
    refine State.investedIn_putStakerAccount ?_
    simp [State.investedIn, found]

theorem vote_spec {user : A} {aye nay voteId : ℕ} (votes : ∀ v, P v .vote) (ready : Ready cfg s) :
    Sat (vote cfg user aye nay voteId) s (fun _ s' => Run cfg P s s')
      (fun f => f.plain = true) := by
  refine Sat.get_bind (Sat.ensure_bind (fun _ => ?_) fun _ => rfl)
  refine (getNetValue_spec user ready.unlocked).bind (fun _ h => h.1) ?_
  rintro active s ⟨-, rfl⟩
  refine Sat.ensure_bind (fun _ => ?_) fun _ => rfl
  refine Sat.alter_bind (Sat.get_bind ?_)
  refine Sat.bind (R := fun _ s' => Voted s s') (F := fun f => f.plain = true) ?_ (fun _ h => h) ?_
  · refine Sat.get_bind (Sat.ensure_bind (fun _ => ?_) fun _ => rfl)
    exact sat_alter.2 ⟨⟨_, _, _, _, rfl⟩, fun _ => List.Subset.refl _⟩
  · intro _ s₁ voted
    exact (updateUserLocked_spec user s₁).mono (fun _ _ h => (voted.trans h).run votes)
      fun _ h => h

theorem unlock_spec {voteId iterations : ℕ} (votes : ∀ v, P v .vote) :
    Sat (unlock cfg voteId iterations) s (fun _ s' => Run cfg P s s')
      (fun f => f.plain = true) := by
  refine Sat.get_bind (Sat.ensure_bind (fun _ => ?_) fun _ => rfl)
  refine Sat.ensure_bind (fun _ => ?_) fun _ => rfl
  refine sat_each (I := fun s' => Run cfg P s s') ?_ Relation.ReflTransGen.refl
  intro user _ s₁ run
  refine Sat.alter_bind ((Sat.mapFault (updateUserLocked_spec user _)
    fun f h => Fault.plain_expect h rfl).mono ?_ fun _ h => h)
  intro _ s₂ voted
  have dropped : Voted s₁ { s₁ with
      accountVoteMap := Function.update s₁.accountVoteMap user
        ((s₁.accountVoteMap user).filter fun v => v ≠ voteId) } :=
    ⟨⟨_, _, _, _, rfl⟩, fun _ => List.Subset.refl _⟩
  exact run.trans ((dropped.trans voted).run votes)

end WrappedBalances

/-! ## Whitelists, vaults and the environment -/

omit [DecidableEq W] in
theorem ensurePoolOwner_spec (owner : A) (pid : ℕ) (s : State A W) :
    Sat (ensurePoolOwner owner pid) s (fun _ s' => s' = s) (fun f => f.plain = true) := by
  refine Sat.get_bind (Sat.demand_bind (fun _ _ => ?_) fun _ => rfl)
  exact sat_ensure.2 ⟨fun _ => rfl, fun _ => rfl⟩

theorem addStakerToWhitelist_spec {owner staker : A} {pid : ℕ} (lenient : Lenient cfg P) :
    Sat (addStakerToWhitelist owner pid staker) s (fun _ s' => Run cfg P s s')
      (fun f => f.plain = true) := by
  refine (ensurePoolOwner_spec owner pid s).bind (fun _ h => h) ?_
  rintro _ s rfl
  refine Sat.get_bind ?_
  split
  · refine Sat.ensure_bind (fun _ => ?_) fun _ => rfl
    refine Sat.ensure_bind (fun _ => ?_) fun _ => rfl
    exact sat_alter.2 (Run.side lenient .set)
  · exact sat_alter.2 (Run.side lenient .set)

theorem removeStakerFromWhitelist_spec {owner staker : A} {pid : ℕ} (lenient : Lenient cfg P) :
    Sat (removeStakerFromWhitelist owner pid staker) s (fun _ s' => Run cfg P s s')
      (fun f => f.plain = true) := by
  refine (ensurePoolOwner_spec owner pid s).bind (fun _ h => h) ?_
  rintro _ s rfl
  refine Sat.get_bind (Sat.demand_bind (fun _ _ => ?_) fun _ => rfl)
  refine Sat.ensure_bind (fun _ => ?_) fun _ => rfl
  exact sat_alter.2 (Run.side lenient .set)

theorem VaultPallet.create_spec (owner : A) (lenient : Lenient cfg P) :
    Sat (VaultPallet.create cfg owner) s (fun _ s' => Run cfg P s s') (fun _ => False) := by
  exact Run.share (lenient.free s) .createVault

def AllowsRewards (P : State A W → Label A → Prop) : Move A W → Prop
  | .gkMessage _ => ∀ v pid, P v (.reward pid)
  | _ => True

omit [DecidableEq A] [DecidableEq W] in
theorem allowsRewards {m : Move A W} (grants : ∀ v pid, P v (.reward pid)) :
    AllowsRewards P m := by
  cases m <;> first | exact grants | trivial

theorem Move.exec_spec (m : Move A W) (lenient : Lenient cfg P) (grants : AllowsRewards P m)
    (ready : Ready cfg s) :
    Sat (m.exec cfg) s (fun _ s' => Run cfg P s s') (fun f => f.plain = true) := by
  cases m with
  | gkMessage event => exact Computation.onGkMessageReceived_spec event lenient grants ready
  | elapse seconds =>
    refine sat_alter.2 (Run.side lenient (.other ?_ (.of_same rfl rfl rfl)))
    constructor
    case now => exact Nat.le_add_right _ _
    case native => exact fun _ _ => le_rfl
    case listed => exact fun _ => List.Subset.refl _
    all_goals rfl
  | issue account amount =>
    refine sat_alter.2 (Run.side lenient (.other ?_ (.of_same rfl rfl rfl)))
    constructor
    case now => exact le_rfl
    case listed => exact fun _ => List.Subset.refl _
    case native =>
      intro a _
      rcases eq_or_ne a account with rfl | ne
      · exact (Nat.le_add_right _ _).trans (Function.update_self a _ s.native).ge
      · exact (Function.update_of_ne ne _ _).ge
    all_goals rfl
  | _ => exact sat_alter.2 (Run.side lenient .set)

/-! ## Events -/

def AllowsGain (P : State A W → Label A → Prop) (s : State A W) (pid : ℕ) : Prop :=
  ∀ u price current, s.pools pid = some (.vault u) → u.Gains price current → P s (.gain pid)

def Permits (cfg : Config A W) (P : State A W → Label A → Prop) (s : State A W) :
    Event A W → Prop
  | .signed who (.contributeStakePool pid amount asVault) =>
    (∀ a, ActsFor s who asVault a → ∀ v, Alike cfg pid s v → v.wpha = s.wpha →
      P v (.contribute pid a amount)) ∧ ∀ v, P v (.fill pid)
  | .signed who (.withdrawStakePool pid shares asVault) =>
    (∀ a, ActsFor s who asVault a → ∀ v, Alike cfg pid s v → P v (.request pid a shares)) ∧
    (∀ p, s.pools pid = some (.stakePool p) → p.basepool.sharePrice = some none →
      ∀ v, Alike cfg pid s v → P v (.reduce pid)) ∧ ∀ v, P v (.fill pid)
  | .signed _ (.forceWithdrawStakePool pid) => ∀ v, P v (.fill pid)
  | .signed _ (.reclaimPoolWorker pid _) => ∀ v, P v (.fill pid)
  | .signed _ (.restartComputing pid _ _) => ∀ v, P v (.fill pid)
  | .signed _ (.setVaultPayoutPref pid _) => AllowsGain P s pid
  | .signed _ (.maybeGainOwnerShares pid) => AllowsGain P s pid
  | .signed _ (.claimOwnerShares pid target shares) =>
    (∀ v, P v (.claim pid target shares)) ∧ ∀ v, P v (.merge target)
  | .signed who (.contributeVault pid amount) =>
    AllowsGain P s pid ∧
    (∀ s₁, VaultPallet.doGainOwnerShare pid s = .ok ((), s₁) → ∀ v, Alike cfg pid s₁ v →
      v.wpha = s₁.wpha → P v (.contribute pid who amount)) ∧ ∀ v, P v (.fill pid)
  | .signed who (.withdrawVault pid shares) =>
    AllowsGain P s pid ∧
    (∀ s₁, VaultPallet.doGainOwnerShare pid s = .ok ((), s₁) → ∀ v, Alike cfg pid s₁ v →
      P v (.request pid who shares)) ∧
    (∀ s₁, VaultPallet.doGainOwnerShare pid s = .ok ((), s₁) → ∀ u,
      s₁.pools pid = some (.vault u) → u.basepool.sharePrice = some none →
      ∀ v, Alike cfg pid s₁ v → P v (.reduce pid)) ∧
    ∀ v, P v (.fill pid)
  | .signed _ (.forceWithdrawVault pid) =>
    (∀ u, s.pools pid = some (.vault u) → cfg.wphaMin < s.balance u.basepool.poolAccountId →
      u.basepool.withdrawQueue ≠ [] → ∀ v, P v (.fill pid)) ∧
    ∀ u, s.pools pid = some (.vault u) → ∀ pid' ∈ u.investPools,
      VaultPallet.AllowsForced cfg P s u.basepool.poolAccountId pid'
  | .signed who .unwrapAll => ∀ v, P v (.unwrap who)
  | .signed who (.unwrap _) => ∀ v, P v (.unwrap who)
  | .move m => AllowsRewards P m
  | .signed _ (.vote _ _ _) => ∀ v, P v .vote
  | .signed _ (.unlock _ _) => ∀ v, P v .vote
  | _ => True

theorem Event.exec_spec (e : Event A W) (authentic : e.Authentic cfg) (lenient : Lenient cfg P)
    (ready : Ready cfg s) (permits : Permits cfg P s e) :
    Sat (e.exec cfg) s (fun _ s' => Run cfg P s s') (Excused cfg P s) := by
  have plain : ∀ {m : Pallet A W Unit},
      Sat m s (fun _ s' => Run cfg P s s') (fun f => f.plain = true) →
      Sat m s (fun _ s' => Run cfg P s s') (Excused cfg P s) :=
    fun h => h.mono (fun _ _ run => run) fun _ h => .plain h
  cases e with
  | move m => exact plain (m.exec_spec lenient permits ready)
  | signed who call =>
    have signer : cfg.role who = .signer := authentic
    cases call with
    | addStakerToWhitelist => exact plain (addStakerToWhitelist_spec lenient)
    | removeStakerFromWhitelist => exact plain (removeStakerFromWhitelist_spec lenient)
    | createStakePool =>
      exact (StakePoolV2.create_spec who lenient).mono (fun _ _ run => run) fun _ h => h.elim
    | addWorker => exact plain (StakePoolV2.addWorker_spec lenient)
    | removeWorker => exact plain (StakePoolV2.removeWorker_spec lenient)
    | setCap => exact plain (StakePoolV2.setCap_spec lenient)
    | setStakePoolPayoutPref => exact plain (StakePoolV2.setPayoutPref_spec lenient)
    | claimOwnerRewards => exact plain (StakePoolV2.claimOwnerRewards_spec lenient)
    | forceWithdrawStakePool =>
      exact StakePoolV2.checkAndMaybeForceWithdraw_spec lenient ready permits
    | contributeStakePool =>
      exact (StakePoolV2.contribute_spec lenient ready signer permits.1 permits.2).mono
        (fun _ _ h => h.1) fun _ h => h
    | withdrawStakePool =>
      exact (StakePoolV2.withdraw_spec lenient ready (fun _ => signer) permits.1 permits.2.1
        permits.2.2).mono (fun _ _ h => h.1) fun _ h => h
    | startComputing => exact plain (StakePoolV2.doStartComputing_spec lenient)
    | stopComputing => exact plain (StakePoolV2.doStopComputing_spec lenient)
    | reclaimPoolWorker => exact StakePoolV2.reclaimPoolWorker_spec lenient ready permits
    | restartComputing => exact StakePoolV2.restartComputing_spec lenient ready permits
    | createVault =>
      exact (VaultPallet.create_spec who lenient).mono (fun _ _ run => run) fun _ h => h.elim
    | setVaultPayoutPref => exact plain (VaultPallet.setPayoutPref_spec lenient permits)
    | claimOwnerShares =>
      exact plain ((VaultPallet.claimOwnerShares_spec lenient ready permits.1 permits.2).mono
        (fun _ _ h => h.1) fun _ h => h)
    | maybeGainOwnerShares => exact plain (VaultPallet.maybeGainOwnerShares_spec lenient permits)
    | forceWithdrawVault =>
      exact VaultPallet.checkAndMaybeForceWithdraw_spec lenient ready permits.1 permits.2
    | contributeVault =>
      exact (VaultPallet.contribute_spec lenient ready signer permits.1 permits.2.1
        permits.2.2).mono (fun _ _ h => h.1) fun _ h => h
    | withdrawVault =>
      exact VaultPallet.withdraw_spec lenient ready signer permits.1 permits.2.1 permits.2.2.1
        permits.2.2.2
    | wrap => exact plain (WrappedBalances.wrap_spec lenient signer)
    | unwrapAll => exact plain (WrappedBalances.unwrapAll_spec ready signer permits)
    | unwrap => exact plain (WrappedBalances.unwrap_spec ready signer permits)
    | vote => exact plain (WrappedBalances.vote_spec permits ready)
    | unlock => exact plain (WrappedBalances.unlock_spec permits)
    | unbind => exact StakePoolV2.unbind_spec lenient

end Cyrux
