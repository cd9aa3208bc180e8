import Cyrux.Compute.WorkerSpec

/-!
# Rewards and the gatekeeper's messages as effects
-/

namespace Cyrux

open Exec

variable {A W : Type} [DecidableEq A] [DecidableEq W] {cfg : Config A W}
  {P : State A W → Label A → Prop} {s : State A W}

theorem Permill.mul_le (p : Permill) (x : ℕ) : p.mul x ≤ x := by
  obtain ⟨parts, le⟩ := p
  have quotient : x / 1000000 * parts ≤ x / 1000000 * 1000000 := Nat.mul_le_mul_left _ le
  have remainder : x % 1000000 * parts ≤ x % 1000000 * 1000000 := Nat.mul_le_mul_left _ le
  unfold Permill.mul
  dsimp only
  split_ifs <;> omega

omit [DecidableEq W] in
theorem WrappedBalances.mintInto_spec (target : A) (amount : ℕ) (s : State A W) :
    Sat (WrappedBalances.mintInto cfg target amount) s
      (fun minted s' => s' = s.mintOrDust cfg target amount ∧
        (minted = true → amount = 0 ∨ ¬ s.belowMinimum cfg target amount))
      (fun _ => False) := by
  refine Sat.bind (R := fun r s' => r.isSome ∧ s' = s.mintOrDust cfg target amount ∧
      (amount = 0 ∨ ¬ s.belowMinimum cfg target amount) ∨
      r = none ∧ s' = s ∧ amount ≠ 0 ∧ s.belowMinimum cfg target amount)
    (F := fun _ => False) ?_ (fun _ h => h) ?_
  · refine sat_attempt.2 ((Assets.mintInto_spec target amount s).mono ?_ ?_)
    · rintro _ _ (⟨zero, rfl⟩ | ⟨nonzero, opened, rfl⟩)
      · exact .inl ⟨rfl, by simp [State.mintOrDust, zero], .inl zero⟩
      · exact .inl ⟨rfl, by simp [State.mintOrDust, nonzero, opened], .inr opened⟩
    · rintro _ ⟨rfl, nonzero, below⟩
      exact .inr ⟨rfl, rfl, nonzero, below⟩
  · rintro (_ | _) s' h
    · obtain ⟨none, -⟩ | ⟨-, rfl, nonzero, below⟩ := h
      · cases none
      · exact Sat.alter_bind ⟨by simp [State.mintOrDust, nonzero, below], by rintro ⟨⟩⟩
    · obtain ⟨-, rfl, opened⟩ | ⟨some, -⟩ := h
      · exact ⟨rfl, fun _ => opened⟩
      · cases some

/-! ## Distribution -/

namespace BasePool

omit [DecidableEq A] [DecidableEq W] in
theorem queuedShares_spec (cid : ℕ) (own : FixedPoint) (requests : List (WithdrawInfo A))
    (unlocked : s.nftLocks = ∅) :
    Sat (queuedShares cid own requests) s (fun _ s' => s' = s) (fun f => f.plain = true) := by
  refine sat_foldlM (I := fun _ s' => s' = s) ?_ rfl
  rintro total w - s rfl
  refine (expect_readNftAttr_spec _ _ unlocked rfl).bind (fun _ h => h) ?_
  rintro nft s ⟨-, rfl⟩
  refine (convert_spec _ s).bind (fun _ h => h) ?_
  rintro _ s ⟨-, rfl⟩
  rfl

def rewarded (b : BasePool A) (rewards : ℕ) : BasePool A :=
  { b with totalValue := b.totalValue + rewards }

omit [DecidableEq W] in
theorem distributeReward_leaf {b : BasePool A} (depth rewards : ℕ)
    (leaf : b.valueSubscribers = []) :
    Sat (distributeReward cfg depth b rewards) s
      (fun b' s' => b' = b.rewarded rewards ∧ s' = s) (fun f => f.plain = true) := by
  cases depth with
  | zero => rfl
  | succ depth =>
    unfold distributeReward
    rw [leaf]
    exact ⟨by rw [rewarded, leaf], rfl⟩

theorem rewardSubscriber_spec {pid vaultPid depth rewards : ℕ} {p : StakePool A W} {b : BasePool A}
    (lenient : Lenient cfg P) (grants : ∀ v pid, P v (.reward pid))
    (stored : s.pools pid = some (.stakePool p))
    (ready : Ready cfg (Frame.view ⟨pid, .stakePool p, none⟩ b s)) :
    Sat (rewardSubscriber cfg (distributeReward cfg depth) b rewards vaultPid) s
      (fun _ s' => s'.pools pid = some (.stakePool p) ∧
        Run cfg P (Frame.view ⟨pid, .stakePool p, none⟩ b s)
          (Frame.view ⟨pid, .stakePool p, none⟩ b s'))
      (fun f => f.plain = true) := by
  have unlocked : s.nftLocks = ∅ := ready.unlocked
  refine (Sat.mapFault (ensureVault_spec vaultPid s) (E := fun f => f.plain = true)
    fun f h => Fault.plain_expect h rfl).bind (fun _ h => h) ?_
  rintro u s ⟨storedVault, rfl⟩
  have ne : vaultPid ≠ pid := by
    rintro rfl
    rw [stored] at storedVault
    cases storedVault
  have storedView : (Frame.view ⟨pid, .stakePool p, none⟩ b s).pools vaultPid = some (.vault u) :=
    (State.putPool_of_ne ne).trans storedVault
  have holder : cfg.Holder u.basepool.poolAccountId := ready.tidy.holder storedView
  refine (Sat.mapFault (mergeNftForStaker_spec b.cid u.basepool.poolAccountId unlocked)
    (E := fun f => f.plain = true) fun f h => Fault.plain_expect h rfl).bind (fun _ h => h) ?_
  rintro nft? s₁ ⟨merged, -⟩
  have run₁ : Run cfg P (Frame.view ⟨pid, .stakePool p, none⟩ b s)
      (Frame.view ⟨pid, .stakePool p, none⟩ b s₁) :=
    (merged.putPool pid _).run ready.tidy (lenient.merge _ _ holder) (q := .stakePool p) (b := b)
      (State.putPool_self _ _ _) rfl
  have stored₁ : s₁.pools pid = some (.stakePool p) := by rw [merged.pools, stored]
  have unlocked₁ : s₁.nftLocks = ∅ := merged.nftLocks.trans unlocked
  cases nft? with
  | none => exact ⟨stored₁, run₁⟩
  | some k =>
    refine (expect_readNftAttr_spec _ _ unlocked₁ rfl).bind (fun _ h => h) ?_
    rintro nft s₁ ⟨-, rfl⟩
    refine (convert_spec _ s₁).bind (fun _ h => h) ?_
    rintro own s₁ ⟨-, rfl⟩
    refine (queuedShares_spec _ own _ unlocked₁).bind (fun _ h => h) ?_
    rintro shares s₁ rfl
    refine (convert_spec _ s₁).bind (fun _ h => h) ?_
    rintro total s₁ ⟨-, rfl⟩
    split
    · exact ⟨stored₁, run₁⟩
    refine (convert_spec _ s₁).bind (fun _ h => h) ?_
    rintro ratio s₁ ⟨-, rfl⟩
    refine (convert_spec _ s₁).bind (fun _ h => h) ?_
    rintro reward s₁ ⟨-, rfl⟩
    refine (convert_spec _ s₁).bind (fun _ h => h) ?_
    rintro settled s₁ ⟨-, rfl⟩
    have leaf := (ready.tidy.pool vaultPid _ storedView).kind.1
    refine (distributeReward_leaf depth settled leaf).bind (fun _ h => h) ?_
    rintro _ s₁ ⟨rfl, rfl⟩
    refine sat_alter.2 ⟨(State.putPool_of_ne ne.symm).trans stored₁, run₁.trans ?_⟩
    have storedVault₁ : (Frame.view ⟨pid, .stakePool p, none⟩ b s₁).pools vaultPid =
        some (.vault u) := by
      refine (State.putPool_of_ne ne).trans ?_
      rw [merged.pools, storedVault]
    have order : (Frame.view ⟨pid, .stakePool p, none⟩ b s₁).putPool vaultPid _ =
        Frame.view ⟨pid, .stakePool p, none⟩ b (s₁.putPool vaultPid (.vault { u with
          basepool := u.basepool.rewarded settled })) :=
      State.putPool_comm ne.symm _ _
    rw [← order]
    exact .single ⟨_, grants _ _, .side (.vaultReward storedVault₁)⟩

theorem distributeReward_spec {pid rewards : ℕ} {p : StakePool A W} (depth : ℕ)
    (lenient : Lenient cfg P) (grants : ∀ v pid, P v (.reward pid))
    (stored : s.pools pid = some (.stakePool p))
    (ready : Ready cfg
      (Frame.view ⟨pid, .stakePool p, none⟩ (p.basepool.rewarded rewards) s)) :
    Sat (distributeReward cfg depth p.basepool rewards) s
      (fun b s' => b = p.basepool.rewarded rewards ∧
        Run cfg P (Frame.view ⟨pid, .stakePool p, none⟩ (p.basepool.rewarded rewards) s)
          (Frame.view ⟨pid, .stakePool p, none⟩ (p.basepool.rewarded rewards) s'))
      (fun f => f.plain = true) := by
  cases depth with
  | zero => rfl
  | succ depth =>
    refine Sat.bind (R := fun _ s' => s'.pools pid = some (.stakePool p) ∧
        Run cfg P (Frame.view ⟨pid, .stakePool p, none⟩ (p.basepool.rewarded rewards) s)
          (Frame.view ⟨pid, .stakePool p, none⟩ (p.basepool.rewarded rewards) s'))
      (F := fun f => f.plain = true) ?_ (fun _ h => h) fun _ _ h => ⟨rfl, h.2⟩
    refine sat_each ?_ ⟨stored, .refl⟩
    rintro vaultPid - s₁ ⟨stored₁, run₁⟩
    refine (rewardSubscriber_spec lenient grants stored₁ (run₁.ready ready)).mono ?_ fun _ h => h
    rintro _ s₂ ⟨stored₂, run₂⟩
    exact ⟨stored₂, run₁.trans run₂⟩

end BasePool

namespace StakePoolV2

theorem handlePoolNewReward_spec {pid rewards : ℕ} {p : StakePool A W} (lenient : Lenient cfg P)
    (grants : ∀ v pid, P v (.reward pid)) (ready : Ready cfg s)
    (stored : s.pools pid = some (.stakePool p)) :
    Sat (handlePoolNewReward cfg p rewards) s
      (fun p' s' => Run cfg P s (s'.putPool pid (.stakePool p'))) (fun f => f.plain = true) := by
  have idle : Run cfg P s (s.putPool pid (.stakePool p)) := by
    rw [State.putPool_stored stored]
  refine Sat.ite (fun _ => idle) fun large => Sat.ite (fun _ => idle) fun _ => ?_
  set commission := (p.payoutCommission.getD Permill.zero).mul rewards with hcommission
  have split : commission + (rewards - commission) = rewards :=
    Nat.add_sub_cancel' (Permill.mul_le _ _)
  have accounts : cfg.computationAccountId ≠ cfg.wrappedBalancesAccountId := fun same => by
    have := congrArg cfg.role same
    rw [cfg.role_computation, cfg.role_wrappedBalances] at this
    cases this
  refine (Sat.mapFault (Currency.transfer_spec _ _ _ _ s) (E := fun f => f.plain = true)
    ?_).bind (fun _ h => h) ?_
  · rintro _ ⟨e, rfl⟩
    rfl
  rintro _ s₁ (⟨-, zero | same⟩ | ⟨funded, -, paid⟩)
  · exact absurd (by simp [balanceCloseToZero, zero]) large
  · exact absurd same accounts
  refine (Sat.mapFault (WrappedBalances.mintInto_spec p.ownerRewardAccount commission s₁)
    (E := fun f => f.plain = true) fun _ h => h.elim).bind (fun _ h => h) ?_
  rintro _ s₂ ⟨owner, -⟩
  refine (Sat.mapFault (WrappedBalances.mintInto_spec p.basepool.poolAccountId
    (rewards - commission) s₂) (E := fun f => f.plain = true) fun _ h => h.elim).bind
    (fun _ h => h) ?_
  rintro minted s₃ ⟨pool, opened⟩
  rw [paid, ← split] at owner
  rw [← split] at funded
  have reward : ∀ bonus, (bonus = 0 ∨ bonus = rewards - commission ∧
      ¬ s₂.belowMinimum cfg p.basepool.poolAccountId (rewards - commission)) →
      Run cfg P s (s₃.putPool pid (.stakePool { p with
        basepool := p.basepool.rewarded bonus })) := by
    intro bonus covered
    rw [pool]
    exact .single ⟨_, grants _ _, .side (.poolReward stored funded owner covered)⟩
  refine Sat.ite (fun large' => ?_) fun _ => reward 0 (.inl rfl)
  have bonus := reward (rewards - commission) (.inr ⟨rfl, ?_⟩)
  swap
  · refine (opened large'.1).resolve_left fun zero => ?_
    simp [isNondustBalance, balanceCloseToZero, zero] at large'
  have stored₃ : s₃.pools pid = some (.stakePool p) := by
    rw [pool, State.mintOrDust_eq, owner, State.mintOrDust_eq]
    exact stored
  refine (BasePool.distributeReward_spec cfg.fuel lenient grants stored₃ (bonus.ready ready)).bind
    (fun _ h => h) ?_
  rintro _ s₄ ⟨rfl, run⟩
  exact bonus.trans run

theorem rewardWorker_spec (info : Computation.SettleInfo W) (lenient : Lenient cfg P)
    (grants : ∀ v pid, P v (.reward pid)) (ready : Ready cfg s) :
    Sat (rewardWorker cfg info) s (fun _ s' => Run cfg P s s') (fun f => f.plain = true) := by
  refine (convert_spec _ s).bind (fun _ h => h) ?_
  rintro reward s ⟨-, rfl⟩
  refine Sat.get_bind ?_
  split
  · exact Relation.ReflTransGen.refl
  · rename_i pid _
    refine (Sat.mapFault (ensureStakePool_spec pid s) (E := fun f => f.plain = true)
      fun f h => Fault.plain_expect h rfl).bind (fun _ h => h) ?_
    rintro p s ⟨stored, rfl⟩
    refine (handlePoolNewReward_spec lenient grants ready stored).bind (fun _ h => h) ?_
    intro p' s' run
    exact sat_alter.2 run

theorem onReward_spec (settle : List (Computation.SettleInfo W)) (lenient : Lenient cfg P)
    (grants : ∀ v pid, P v (.reward pid)) (ready : Ready cfg s) :
    Sat (onReward cfg settle) s (fun _ s' => Run cfg P s s') (fun f => f.plain = true) := by
  refine sat_each ?_ Relation.ReflTransGen.refl
  intro info _ s₁ run₁
  exact (rewardWorker_spec info lenient grants (run₁.ready ready)).mono
    (fun _ _ run₂ => run₁.trans run₂) fun _ h => h

end StakePoolV2

/-! ## The gatekeeper -/

namespace Computation

theorem reportState_spec {state : WorkerState} (w : W) (computing : state.isComputing = true)
    (lenient : Lenient cfg P) :
    Sat (reportState state w) s (fun _ s' => Run cfg P s s') (fun _ => False) := by
  refine Sat.get_bind ?_
  split
  · exact Relation.ReflTransGen.refl
  split
  · exact Relation.ReflTransGen.refl
  · rename_i info found
    exact Sat.ite (fun running => Run.side lenient (.report found (.inr ⟨running, computing⟩)))
      fun _ => Relation.ReflTransGen.refl

theorem tryHandleSettle_spec (emitted : ℕ) (info : SettleInfo W) (lenient : Lenient cfg P) :
    Sat (tryHandleSettle cfg emitted info) s (fun _ s' => Run cfg P s s')
      (fun f => f.plain = true) := by
  refine Sat.get_bind ?_
  split
  · exact Relation.ReflTransGen.refl
  rename_i account _
  split
  · exact Relation.ReflTransGen.refl
  rename_i session found
  refine Sat.ite (fun _ => Relation.ReflTransGen.refl) fun _ => ?_
  refine Sat.demand_bind (fun payout _ => ?_) fun _ => rfl
  refine Sat.alter_bind ?_
  have report : Run cfg P s (s.putSession account { session with
      v := info.v, vUpdatedAt := s.now, totalReward := session.totalReward + payout }) :=
    Run.side lenient (.report found (.inl rfl))
  refine Sat.demand_bind (fun treasury _ => ?_) fun _ => rfl
  refine Sat.bind (R := fun _ s' => Run cfg P s s') (F := fun f => f.plain = true) ?_
    (fun _ h => h) fun _ _ h => h
  refine sat_attempt.2 ((Currency.withdraw_spec _ _ _).mono ?_ ?_)
  · rintro _ _ (rfl | rfl)
    · exact report
    · refine report.trans (Run.side lenient (.other ?_ (.of_same rfl rfl rfl)))
      constructor
      case now => exact le_rfl
      case native =>
        intro a ne
        exact (Function.update_of_ne ne _ _).ge
      case listed => exact fun _ => List.Subset.refl _
      all_goals rfl
  · rintro _ ⟨e, rfl⟩
    exact report

theorem onGkMessageReceived_spec (event : WorkingInfoUpdate W) (lenient : Lenient cfg P)
    (grants : ∀ v pid, P v (.reward pid)) (ready : Ready cfg s) :
    Sat (onGkMessageReceived cfg (StakePoolV2.onReward cfg) event) s (fun _ s' => Run cfg P s s')
      (fun f => f.plain = true) := by
  have loop : ∀ {α : Type} (body : α → Pallet A W Unit) (l : List α) (s₁ : State A W),
      (∀ a s₂, Sat (body a) s₂ (fun _ s₃ => Run cfg P s₂ s₃) (fun f => f.plain = true)) →
      Run cfg P s s₁ →
      Sat (each body l) s₁ (fun _ s₂ => Run cfg P s s₂) (fun f => f.plain = true) := by
    intro α body l s₁ h run₁
    refine sat_each (fun a _ s₂ run₂ => ?_) run₁
    exact (h a s₂).mono (fun _ _ run₃ => run₂.trans run₃) fun _ h => h
  refine (loop _ _ s (fun w _ => (reportState_spec w rfl lenient).mono (fun _ _ h => h)
    fun _ h => h.elim) .refl).bind (fun _ h => h) fun _ s₁ run₁ => ?_
  refine (loop _ _ s₁ (fun w _ => (reportState_spec w rfl lenient).mono (fun _ _ h => h)
    fun _ h => h.elim) run₁).bind (fun _ h => h) fun _ s₂ run₂ => ?_
  refine (loop _ _ s₂ (fun info _ => tryHandleSettle_spec _ info lenient) run₂).bind
    (fun _ h => h) fun _ s₃ run₃ => ?_
  exact (StakePoolV2.onReward_spec _ lenient grants (run₃.ready ready)).mono
    (fun _ _ run₄ => run₃.trans run₄) fun _ h => h

end Computation

end Cyrux
