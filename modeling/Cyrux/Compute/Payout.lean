import Cyrux.Compute.Bankruptcy
import Cyrux.Compute.Solvency

/-!
# Paying the withdraw queue
-/

namespace Cyrux

variable {A W : Type}

/-! ## Pools through an effect -/

structure PoolProxy.Next (cfg : Config A W) (v : State A W) (l : Label A) (pid : ℕ)
    (q q' : PoolProxy A W) : Prop where
  account : q'.basepool.poolAccountId = q.basepool.poolAccountId
  kind : (∃ p, q' = .stakePool p) ↔ ∃ p, q = .stakePool p
  queue : ∀ w ∈ q'.basepool.withdrawQueue, w ∈ q.basepool.withdrawQueue ∨
    q.Client cfg v w.user ∧ ∃ shares, l = .request pid w.user shares
  value : q'.basepool.totalValue ≤ q.basepool.totalValue ∨ l = .reward pid ∨
    ∃ a amount, l = .contribute pid a amount ∧
      q'.basepool.totalValue = q.basepool.totalValue + amount

structure Successive (cfg : Config A W) (l : Label A) (v v' : State A W) : Prop where
  kept : ∀ pid q, v.pools pid = some q → ∃ q', v'.pools pid = some q' ∧ q.Next cfg v l pid q'
  new : ∀ pid q', v'.pools pid = some q' → v.pools pid = none →
    q'.basepool.withdrawQueue = [] ∧ q'.basepool.totalValue = 0

section Successive

variable {cfg : Config A W} {l : Label A} {v v' : State A W} {pid : ℕ} {q q' : PoolProxy A W}

theorem PoolProxy.Next.refl (pid : ℕ) (q : PoolProxy A W) : q.Next cfg v l pid q :=
  ⟨rfl, .rfl, fun _ mem => .inl mem, .inl le_rfl⟩

theorem PoolProxy.Next.withBase {b b' : BasePool A} (account : b'.poolAccountId = b.poolAccountId)
    (queue : ∀ w ∈ b'.withdrawQueue, w ∈ b.withdrawQueue ∨
      (q.withBase b).Client cfg v w.user ∧ ∃ shares, l = .request pid w.user shares)
    (value : b'.totalValue ≤ b.totalValue ∨ l = .reward pid ∨
      ∃ a amount, l = .contribute pid a amount ∧ b'.totalValue = b.totalValue + amount) :
    (q.withBase b).Next cfg v l pid (q.withBase b') := by
  refine ⟨?_, ?_, ?_, ?_⟩
  · rwa [basepool_withBase, basepool_withBase]
  · cases q <;> simp [PoolProxy.withBase]
  · rwa [basepool_withBase, basepool_withBase]
  · rwa [basepool_withBase, basepool_withBase]

theorem Successive.of_pools (pools : v'.pools = v.pools) : Successive cfg l v v' where
  kept pid q stored := ⟨q, pools.symm ▸ stored, .refl pid q⟩
  new pid q' stored' none := by
    rw [pools, none] at stored'
    cases stored'

theorem Successive.of_pool (stored : v.pools pid = some q)
    (pools : v'.pools = Function.update v.pools pid (some q')) (next : q.Next cfg v l pid q') :
    Successive cfg l v v' where
  kept pid' r hr := by
    rw [pools]
    by_cases e : pid' = pid
    · subst e
      obtain rfl : r = q := Option.some.inj (hr.symm.trans stored)
      exact ⟨q', Function.update_self .., next⟩
    · exact ⟨r, (Function.update_of_ne e _ _).trans hr, .refl pid' r⟩
  new pid' r hr none := by
    rw [pools, Function.update_of_ne] at hr
    · rw [none] at hr
      cases hr
    · rintro rfl
      rw [stored] at none
      cases none

theorem Successive.addPool (tidy : Tidy cfg v) (queue : q.basepool.withdrawQueue = [])
    (value : q.basepool.totalValue = 0) : Successive cfg l v (v.addPool q) where
  kept pid r hr := by
    refine ⟨r, ?_, .refl pid r⟩
    change Function.update v.pools v.poolCount (some q) pid = some r
    rw [Function.update_of_ne, hr]
    rintro rfl
    rw [tidy.fresh _ le_rfl] at hr
    cases hr
  new pid r hr none := by
    change Function.update v.pools v.poolCount (some q) pid = some r at hr
    by_cases e : pid = v.poolCount
    · subst e
      rw [Function.update_self] at hr
      cases hr
      exact ⟨queue, value⟩
    · rw [Function.update_of_ne e, none] at hr
      cases hr

theorem BasePool.paid_totalValue_le (b : BasePool A) (amount removed : ℕ) :
    (b.paid amount removed).totalValue ≤ b.totalValue := by
  unfold BasePool.paid extractDust
  split_ifs <;> simp

variable [DecidableEq A]

theorem ShareEffect.successive (tidy : Tidy cfg v) (effect : ShareEffect cfg l v v') :
    Successive cfg l v v' := by
  cases effect with
  | merge =>
    refine .of_pools ?_
    unfold State.mergeNfts
    rw [State.burnNfts_eq]
    rfl
  | contribute stored client least funded opened bought vacant =>
    exact .of_pool stored rfl (.withBase rfl (fun _ mem => .inl mem) (.inr (.inr ⟨_, _, rfl, rfl⟩)))
  | request stored client found owned replaced nodup kept nondust enough vacant =>
    rw [State.burnNfts_eq]
    refine .of_pool stored rfl (.withBase rfl (fun w mem => ?_) (.inl le_rfl))
    rcases List.mem_append.1 mem with old | new
    · exact .inl (List.mem_of_mem_filter old)
    · rw [List.mem_singleton.1 new]
      exact .inr ⟨PoolProxy.client_withBase.2 client, _, rfl⟩
  | reduce => exact .of_pools rfl
  | dust stored queue found owned covered =>
    refine .of_pool stored rfl (.withBase rfl (fun w mem => ?_) (.inl le_rfl))
    rw [queue]
    exact .inl (List.mem_cons_of_mem _ mem)
  | part stored =>
    exact .of_pool stored rfl
      (.withBase rfl (fun _ mem => .inl mem) (.inl (BasePool.paid_totalValue_le ..)))
  | @full _ _ _ b _ _ nft _ _ _ amount stored queue =>
    have value := b.paid_totalValue_le amount nft.shares
    refine .of_pool stored rfl (.withBase rfl (fun w mem => ?_) (.inl value))
    rw [queue]
    exact .inl (List.mem_cons_of_mem _ mem)
  | gain stored | claim stored =>
    exact .of_pool stored rfl ⟨rfl, by simp, fun _ mem => .inl mem, .inl le_rfl⟩
  | createStakePool | createVault => exact .addPool tidy rfl rfl

variable [DecidableEq W]

theorem SideEffect.successive (effect : SideEffect cfg l v v') : Successive cfg l v v' := by
  cases effect with
  | other h | voted h => exact .of_pools h.pools
  | mark stored | setStakePool stored | setVault stored | forget stored | bind stored
  | stop stored | reclaim stored =>
    exact .of_pool stored rfl ⟨rfl, by simp, fun _ mem => .inl mem, .inl le_rfl⟩
  | vaultReward stored =>
    exact .of_pool stored rfl ⟨rfl, by simp, fun _ mem => .inl mem, .inr (.inl rfl)⟩
  | poolReward stored funded owner covered =>
    rw [owner, State.mintOrDust_eq cfg (State.mintOrDust _ _ _ _), State.mintOrDust_eq]
    exact .of_pool stored rfl ⟨rfl, by simp, fun _ mem => .inl mem, .inr (.inl rfl)⟩
  | @unbind _ halted pid session w bound _ _ assigned binding same found stopped =>
    have pools : (halted.unbindSession session bound).pools = v.pools := by
      obtain ⟨-, rfl⟩ | ⟨-, -, -, -, -, rfl⟩ := stopped <;> rfl
    obtain kept | ⟨p, stored, left⟩ := State.unassign_pools pools pid w
    · exact .of_pools kept
    · exact .of_pool stored left ⟨rfl, by simp, fun _ mem => .inl mem, .inl le_rfl⟩
  | wrap =>
    rw [State.mintOrDust_eq]
    exact .of_pools rfl
  | payOwner | start | report | unwrap => exact .of_pools rfl

theorem Effect.successive (tidy : Tidy cfg v) (effect : Effect cfg l v v') :
    Successive cfg l v v' := by
  cases effect with
  | share effect => exact effect.successive tidy
  | side effect => exact effect.successive

end Successive

/-! ## Accounts through an effect -/

inductive Closes [DecidableEq A] (cfg : Config A W) (v : State A W) : Label A → A → Prop
  | pool {l : Label A} {pid : ℕ} {p : StakePool A W} {a : A}
      (stored : v.pools pid = some (.stakePool p))
      (role : cfg.role a = .staker pid ∨ cfg.role a = .lock pid ∨ cfg.role a = .ownerReward pid) :
      Closes cfg v l a
  | vault {pid : ℕ} {u : Vault A} (stored : v.pools pid = some (.vault u)) :
      Closes cfg v (.fill pid) u.basepool.poolAccountId
  | contribute {pid : ℕ} {a : A} {amount : ℕ}
      (emptied : v.wpha.debit cfg.dust a amount a = none) :
      Closes cfg v (.contribute pid a amount) a
  | unwrap {a : A} : Closes cfg v (.unwrap a) a

section Closes

variable [DecidableEq A] {cfg : Config A W} {l : Label A} {v v' : State A W} {a : A}

theorem State.mintOrDust_ne_none {dest : A} {amount : ℕ} (h : v.wpha a ≠ none) :
    (v.mintOrDust cfg dest amount).wpha a ≠ none := by
  unfold State.mintOrDust
  split_ifs
  · exact h
  · exact h
  · exact Ledger.credit_ne_none h

theorem Closes.of_pay {pid : ℕ} {q : PoolProxy A W} {b : BasePool A} {dest : A} {amount : ℕ}
    (tidy : Tidy cfg v) (stored : v.pools pid = some (q.withBase b)) (h : v.wpha a ≠ none) :
    v.wpha.move cfg.dust b.poolAccountId dest amount a ≠ none ∨ Closes cfg v (.fill pid) a := by
  by_cases e : a = b.poolAccountId
  · right
    have account := (tidy.pool pid _ stored).account
    rw [PoolProxy.basepool_withBase, ← e] at account
    cases q with
    | stakePool p => exact .pool stored (.inl account)
    | vault u =>
      rw [e]
      exact .vault stored
  · exact .inl (Ledger.move_ne_none h fun same => absurd same e)

theorem ShareEffect.account (tidy : Tidy cfg v) (effect : ShareEffect cfg l v v')
    (h : v.wpha a ≠ none) : v'.wpha a ≠ none ∨ Closes cfg v l a := by
  cases effect with
  | merge =>
    left
    unfold State.mergeNfts
    rw [State.burnNfts_eq]
    exact h
  | @contribute _ _ _ _ payer amount =>
    by_cases emptied : v.wpha.debit cfg.dust payer amount payer = none
    · by_cases e : a = payer
      · subst e
        exact .inr (.contribute emptied)
      · exact .inl (Ledger.move_ne_none h fun same => absurd same e)
    · exact .inl (Ledger.move_ne_none h fun _ => emptied)
  | request =>
    left
    rw [State.burnNfts_eq]
    exact h
  | reduce => exact .inl h
  | dust => exact .inl h
  | part stored => exact Closes.of_pay tidy stored h
  | full stored => exact Closes.of_pay tidy stored h
  | gain => exact .inl h
  | claim => exact .inl h
  | createStakePool => exact .inl h
  | createVault => exact .inl h

variable [DecidableEq W]

theorem SideEffect.account (tidy : Tidy cfg v) (effect : SideEffect cfg l v v')
    (h : v.wpha a ≠ none) : v'.wpha a ≠ none ∨ Closes cfg v l a := by
  -- The transfers between the accounts of a stake pool.
  have pay : ∀ {pid p source}, v.pools pid = some (.stakePool p) →
      cfg.role source = .staker pid ∨ cfg.role source = .lock pid ∨
        cfg.role source = .ownerReward pid → ∀ dest amount,
      v.wpha.move cfg.dust source dest amount a ≠ none ∨ Closes cfg v l a := by
    intro pid p source stored role dest amount
    by_cases e : a = source
    · exact .inr (.pool stored (e ▸ role))
    · exact .inl (Ledger.move_ne_none h fun same => absurd same e)
  cases effect with
  | other unrelated | voted unrelated => exact .inl (unrelated.wpha.symm ▸ h)
  | poolReward stored funded owner covered =>
    left
    refine State.mintOrDust_ne_none ?_
    rw [owner]
    exact State.mintOrDust_ne_none h
  | payOwner stored =>
    exact pay stored (.inr (.inr (tidy.pool _ _ stored).kind.2)) _ _
  | start stored => exact pay stored (.inl (tidy.pool _ _ stored).account) _ _
  | reclaim stored => exact pay stored (.inr (.inl (tidy.pool _ _ stored).kind.1)) _ _
  | unbind assigned binding same found stopped =>
    left
    obtain ⟨-, rfl⟩ | ⟨-, -, -, -, -, rfl⟩ := stopped
    · exact h
    · exact h
  | wrap => exact .inl (State.mintOrDust_ne_none h)
  | @unwrap _ user amount =>
    by_cases e : a = user
    · subst e
      exact .inr .unwrap
    · left
      change v.wpha.debit cfg.dust user amount a ≠ none
      rwa [Ledger.debit_of_ne e]
  | mark | setStakePool | setVault | forget | vaultReward | bind | stop | report => exact .inl h

theorem Effect.account (tidy : Tidy cfg v) (effect : Effect cfg l v v') (h : v.wpha a ≠ none) :
    v'.wpha a ≠ none ∨ Closes cfg v l a := by
  cases effect with
  | share effect => exact effect.account tidy h
  | side effect => exact effect.account tidy h

end Closes

/-! ## Who waits -/

def Customers (cfg : Config A W) (v : State A W) : Prop :=
  ∀ pid q, v.pools pid = some q → ∀ w ∈ q.basepool.withdrawQueue, q.Client cfg v w.user

section Customers

variable {cfg : Config A W} {l : Label A} {v v' : State A W} {pid : ℕ} {q q' : PoolProxy A W}

theorem Successive.vault (succ : Successive cfg l v v') {u : Vault A}
    (stored : v.pools pid = some (.vault u)) :
    ∃ u', v'.pools pid = some (.vault u') ∧
      u'.basepool.poolAccountId = u.basepool.poolAccountId := by
  obtain ⟨r, stored', next⟩ := succ.kept pid _ stored
  cases r with
  | stakePool p =>
    obtain ⟨_, same⟩ := next.kind.1 ⟨p, rfl⟩
    cases same
  | vault u' => exact ⟨u', stored', next.account⟩

theorem PoolProxy.Client.next {a : A} (client : q.Client cfg v a) (succ : Successive cfg l v v')
    (next : q.Next cfg v l pid q') : q'.Client cfg v' a := by
  rcases client with signer | ⟨kind, pid', u, stored, rfl⟩
  · exact .inl signer
  · obtain ⟨u', stored', account⟩ := succ.vault stored
    exact .inr ⟨next.kind.2 kind, pid', u', stored', account.symm⟩

theorem Successive.prior (succ : Successive cfg l v v') (stored' : v'.pools pid = some q')
    {w : WithdrawInfo A} (queued : w ∈ q'.basepool.withdrawQueue) :
    ∃ q, v.pools pid = some q ∧ q.Next cfg v l pid q' := by
  rcases h : v.pools pid with _ | q
  · rw [(succ.new pid q' stored' h).1] at queued
    cases queued
  · obtain ⟨r, stored, next⟩ := succ.kept pid q h
    obtain rfl : r = q' := Option.some.inj (stored.symm.trans stored')
    exact ⟨q, rfl, next⟩

theorem Successive.customers (succ : Successive cfg l v v') (h : Customers cfg v) :
    Customers cfg v' := by
  intro pid q' stored' w queued
  obtain ⟨q, stored, next⟩ := succ.prior stored' queued
  rcases next.queue w queued with old | ⟨client, -⟩
  · exact (h pid q stored w old).next succ next
  · exact client.next succ next

variable [DecidableEq A] [DecidableEq W]

theorem customers_invariant {Ok : State A W → Event A W → Prop} :
    Invariant cfg Ok (Customers cfg) fun _ _ => True :=
  .unrestricted (fun s h pid q stored => by simp [h.pools pid] at stored)
    fun _ _ _ tidy h effect => (effect.successive tidy).customers h

end Customers

/-! ## Batches -/

def maxValue : ℕ := 1000 * 2 ^ 64

theorem BasePool.sharePrice_ne_none {b : BasePool A} (shares : 1000 < b.totalShares)
    (value : b.totalValue < maxValue) : b.sharePrice ≠ some none := by
  intro none
  obtain ⟨-, -, zero | large⟩ := sharePrice_eq_none.1 none
  · omega
  · have most : scale b.totalValue < 2 ^ 64 * scale b.totalShares := by
      calc scale b.totalValue ≤ scale maxValue := scale_mono value.le
        _ < 2 ^ 64 * scale 1001 := by decide
        _ ≤ 2 ^ 64 * scale b.totalShares := Nat.mul_le_mul_left _ (scale_mono shares)
    have pos : 0 < scale b.totalShares :=
      Nat.pos_of_ne_zero (scale_eq_zero.not.2 (by omega))
    rw [Nat.le_div_iff_mul_le pos] at large
    omega

structure Batch (A : Type) where
  pids : Set ℕ
  callers : Set A

namespace Batch

def Outside (cfg : Config A W) (B : Batch A) (v : State A W) (a : A) : Prop :=
  cfg.role a = .signer ∨
    ∃ pid u, pid ∉ B.pids ∧ v.pools pid = some (.vault u) ∧ a = u.basepool.poolAccountId

def Waits (B : Batch A) (v : State A W) (a : A) : Prop :=
  a ∈ B.callers ∨ ∃ pid ∈ B.pids, ∃ q, v.pools pid = some q ∧
    ∃ w ∈ q.basepool.withdrawQueue, w.user = a

structure Payable (cfg : Config A W) (B : Batch A) (v : State A W) : Prop where
  value : ∀ pid ∈ B.pids, ∀ q, v.pools pid = some q → q.basepool.totalValue < maxValue
  account : ∀ a, B.Waits v a → B.Outside cfg v a ∧ v.wpha a ≠ none

def Allows [DecidableEq A] (cfg : Config A W) (B : Batch A) (v : State A W) : Label A → Prop
  | .fill pid => pid ∈ B.pids
  | .request pid a _ => ∀ q, v.pools pid = some q → q.Client cfg v a → a ∈ B.callers
  | .contribute pid a amount =>
    (B.Waits v a → v.wpha.debit cfg.dust a amount a ≠ none) ∧
      ∀ q, v.pools pid = some q → q.basepool.totalValue + amount < maxValue
  | .claim _ target _ => target ≠ cfg.palletId
  | .merge a => a ≠ cfg.palletId
  | .reward pid => pid ∉ B.pids
  | .unwrap a => ¬ B.Waits v a
  | _ => True

variable [DecidableEq A] {cfg : Config A W} {B : Batch A} {l : Label A} {v v' : State A W}
  {pid : ℕ} {q : PoolProxy A W} {a : A}

theorem Allows.sparesPallet (h : B.Allows cfg v l) : SparesPallet cfg v l := by
  cases l <;> first | exact h | trivial

omit [DecidableEq A] in
theorem Outside.next (h : B.Outside cfg v a) (succ : Successive cfg l v v') :
    B.Outside cfg v' a := by
  rcases h with signer | ⟨pid, u, other, stored, rfl⟩
  · exact .inl signer
  · obtain ⟨u', stored', account⟩ := succ.vault stored
    exact .inr ⟨pid, u', other, stored', account.symm⟩

theorem Waits.prior (h : B.Waits v' a) (succ : Successive cfg l v v')
    (allowed : B.Allows cfg v l) : B.Waits v a := by
  rcases h with caller | ⟨pid, mem, q', stored', w, queued, rfl⟩
  · exact .inl caller
  · obtain ⟨q, stored, next⟩ := succ.prior stored' queued
    rcases next.queue w queued with old | ⟨client, shares, rfl⟩
    · exact .inr ⟨pid, mem, q, stored, w, old, rfl⟩
    · exact .inl (allowed q stored client)

theorem Outside.not_closes (h : B.Outside cfg v a) (tidy : Tidy cfg v) (waits : B.Waits v a)
    (allowed : B.Allows cfg v l) : ¬ Closes cfg v l a := by
  intro closes
  cases closes with
  | @pool _ pid p _ stored role =>
    rcases h with signer | ⟨pid', u, other, vault, rfl⟩
    · simp [signer] at role
    · have account : cfg.role u.basepool.poolAccountId = .staker pid' :=
        (tidy.pool pid' _ vault).account
      rw [account] at role
      simp only [Role.staker.injEq, reduceCtorEq, or_self, or_false] at role
      rw [role, stored] at vault
      cases vault
  | @vault pid u stored =>
    have account : cfg.role u.basepool.poolAccountId = .staker pid :=
      (tidy.pool pid _ stored).account
    rcases h with signer | ⟨pid', u', other, vault, same⟩
    · rw [account] at signer
      cases signer
    · have account' : cfg.role u'.basepool.poolAccountId = .staker pid' :=
        (tidy.pool pid' _ vault).account
      rw [← same, account] at account'
      cases account'
      exact other allowed
  | contribute emptied => exact allowed.1 waits emptied
  | unwrap => exact allowed waits

theorem Payable.effect [DecidableEq W] (h : B.Payable cfg v) (tidy : Tidy cfg v)
    (allowed : B.Allows cfg v l) (effect : Effect cfg l v v') : B.Payable cfg v' := by
  have succ := effect.successive tidy
  refine ⟨fun pid mem q' stored' => ?_, fun a waits' => ?_⟩
  · rcases before : v.pools pid with _ | q
    · rw [(succ.new pid q' stored' before).2]
      decide
    · obtain ⟨r, stored, next⟩ := succ.kept pid q before
      obtain rfl : r = q' := Option.some.inj (stored.symm.trans stored')
      have value := h.value pid mem q before
      rcases next.value with less | rfl | ⟨a, amount, rfl, more⟩
      · omega
      · exact absurd mem allowed
      · rw [more]
        exact allowed.2 q before
  · have waits := waits'.prior succ allowed
    obtain ⟨outside, account⟩ := h.account a waits
    refine ⟨outside.next succ, (effect.account tidy account).resolve_right ?_⟩
    exact outside.not_closes tidy waits allowed

theorem Payable.not_stuck (h : B.Payable cfg v) (tidy : Tidy cfg v) (mem : pid ∈ B.pids)
    (stored : v.pools pid = some q) (queues : QueuesOk cfg v) (covered : SharesCovered v)
    {w : WithdrawInfo A} (queued : w ∈ q.basepool.withdrawQueue) :
    ¬ Stuck cfg v q.basepool w := by
  have queue : QueueOk cfg v q.basepool := queues pid q stored
  obtain ⟨nft, found, nondust⟩ := queue.funded w queued
  -- The request is part of the queue, and the queue part of the pool.
  have part : nft.shares ≤ q.basepool.totalShares := by
    have request : v.attrShares q.basepool.cid w.nftId = nft.shares := by
      simp [State.attrShares, found]
    calc nft.shares ≤ v.queuedShares q.basepool := by
          rw [← request]
          exact List.single_le_sum (fun _ _ => Nat.zero_le _) _ (List.mem_map_of_mem queued)
      _ ≤ v.liveShares q.basepool.cid := queue.queuedShares_le tidy
      _ ≤ v.heldBy q := Nat.le_add_right _ _
      _ ≤ q.basepool.totalShares := covered pid q stored
  rintro (foreign | absent | ⟨nft', found', few | priceless | valued | ⟨amount, below⟩⟩)
  · exact foreign (queue.owned w queued)
  · rw [found] at absent
    cases absent
  all_goals
    rw [found] at found'
    cases found'
  · omega
  · exact BasePool.sharePrice_ne_none (nondust.trans_le part) (h.value pid mem q stored) priceless
  · obtain ⟨n, price, value, within, priced, worth, less⟩ := valued
    have := BasePool.worth_le_totalValue priced worth (within.trans part)
    omega
  · exact (h.account w.user (.inr ⟨pid, mem, q, stored, w, queued, rfl⟩)).2 below.1

end Batch

/-! ## Events -/

def State.Payable (s : State A W) (pid : ℕ) : Prop :=
  ∀ q ∈ s.pools pid, q.basepool.totalValue < maxValue ∧
    ∀ w ∈ q.basepool.withdrawQueue, s.wpha w.user ≠ none

def State.Affords [DecidableEq A] (cfg : Config A W) (s : State A W) (pid : ℕ) (a : A)
    (amount : ℕ) : Prop :=
  ∀ q ∈ s.pools pid, q.basepool.totalValue + amount < maxValue ∧
    ∀ w ∈ q.basepool.withdrawQueue, w.user = a → s.wpha.debit cfg.dust a amount a ≠ none

instance (s : State A W) (pid : ℕ) : Decidable (s.Payable pid) :=
  inferInstanceAs (Decidable (∀ q ∈ s.pools pid, _ ∧ _))

instance [DecidableEq A] (cfg : Config A W) (s : State A W) (pid : ℕ) (a : A) (amount : ℕ) :
    Decidable (s.Affords cfg pid a amount) :=
  inferInstanceAs (Decidable (∀ q ∈ s.pools pid, _ ∧ _))

def Event.Payable [DecidableEq A] (cfg : Config A W) (s : State A W) : Event A W → Prop
  | .signed who (.contributeStakePool pid amount asVault) =>
    s.Payable pid ∧ s.Affords cfg pid (s.actor who asVault) amount
  | .signed who (.withdrawStakePool pid _ asVault) =>
    s.Payable pid ∧ s.wpha (s.actor who asVault) ≠ none
  | .signed _ (.forceWithdrawStakePool pid) => s.Payable pid
  | .signed _ (.reclaimPoolWorker pid _) => s.Payable pid
  | .signed _ (.restartComputing pid _ _) => s.Payable pid
  | .signed who (.contributeVault pid amount) => s.Payable pid ∧ s.Affords cfg pid who amount
  | .signed who (.withdrawVault pid _) => s.Payable pid ∧ s.wpha who ≠ none
  | .signed _ (.forceWithdrawVault pid) => ∀ q ∈ s.pools pid,
      (q.basepool.withdrawQueue = [] ∨ s.balance q.basepool.poolAccountId ≤ cfg.wphaMin) ∧
        s.wpha q.basepool.poolAccountId ≠ none ∧ ∀ pid' ∈ s.invested pid, s.Payable pid'
  | .signed _ (.claimOwnerShares _ target _) => target ≠ cfg.palletId
  | _ => True

instance [DecidableEq A] (cfg : Config A W) (s : State A W) (e : Event A W) :
    Decidable (e.Payable cfg s) := by
  rcases e with ⟨who, call⟩ | m
  · apply @Call.casesOn _ _ _ call <;> intros <;> dsimp only [Event.Payable] <;> infer_instance
  · exact isTrue trivial

def Event.batch (cfg : Config A W) (s : State A W) : Event A W → Batch A
  | .signed _ (.contributeStakePool pid _ _) => ⟨{pid}, ∅⟩
  | .signed who (.withdrawStakePool pid _ asVault) =>
    ⟨{pid}, {a | ActsFor s who asVault a ∧
      (cfg.role a = .signer ∨ ∃ p, s.pools pid = some (.stakePool p))}⟩
  | .signed _ (.forceWithdrawStakePool pid) => ⟨{pid}, ∅⟩
  | .signed _ (.reclaimPoolWorker pid _) => ⟨{pid}, ∅⟩
  | .signed _ (.restartComputing pid _ _) => ⟨{pid}, ∅⟩
  | .signed _ (.contributeVault pid _) => ⟨{pid}, ∅⟩
  | .signed who (.withdrawVault pid _) => ⟨{pid}, {who}⟩
  | .signed _ (.forceWithdrawVault pid) =>
    ⟨{pid' | pid' ∈ s.invested pid ∧ ∃ p, s.pools pid' = some (.stakePool p)},
      {a | ∃ u, s.pools pid = some (.vault u) ∧ a = u.basepool.poolAccountId}⟩
  | _ => ⟨∅, ∅⟩

section Events

variable [DecidableEq A] {cfg : Config A W} {B : Batch A} {s v : State A W} {e : Event A W}
  {pid : ℕ} {a : A}

omit [DecidableEq A] in
theorem PoolProxy.Client.outside {q : PoolProxy A W} (client : q.Client cfg s a)
    (stored : s.pools pid = some q)
    (others : ∀ pid' ∈ B.pids, pid' = pid ∨ ∃ p, s.pools pid' = some (.stakePool p)) :
    B.Outside cfg s a := by
  rcases client with signer | ⟨⟨p, rfl⟩, pid', u, vault, rfl⟩
  · exact .inl signer
  · refine .inr ⟨pid', u, fun mem => ?_, vault, rfl⟩
    rcases others pid' mem with rfl | ⟨p', stake⟩
    · rw [stored] at vault
      cases vault
    · rw [stake] at vault
      cases vault

omit [DecidableEq A] in
theorem State.Payable.batch {callers : Set A} (h : s.Payable pid) (customers : Customers cfg s)
    (joining : ∀ a ∈ callers, Batch.Outside cfg ⟨{pid}, callers⟩ s a ∧ s.wpha a ≠ none) :
    Batch.Payable cfg ⟨{pid}, callers⟩ s := by
  refine ⟨?_, ?_⟩
  · rintro _ rfl q stored
    exact (h q stored).1
  · rintro a (caller | ⟨_, rfl, q, stored, w, queued, rfl⟩)
    · exact joining a caller
    · exact ⟨(customers _ q stored w queued).outside stored fun _ same => .inl same,
        (h q stored).2 w queued⟩

omit [DecidableEq A] in
theorem State.stored_of_invested {pid' : ℕ} (mem : pid' ∈ s.invested pid) :
    ∃ q, s.pools pid = some q := by
  unfold State.invested at mem
  split at mem
  · exact ⟨_, by assumption⟩
  · cases mem

theorem Event.Payable.batch (h : e.Payable cfg s) (authentic : e.Authentic cfg)
    (customers : Customers cfg s) : (e.batch cfg s).Payable cfg s := by
  unfold Event.batch
  split
  case h_2 who pid shares asVault =>
    refine State.Payable.batch h.1 customers ?_
    rintro a ⟨acts, kind⟩
    refine ⟨?_, acts.eq_actor ▸ h.2⟩
    cases asVault with
    | none =>
      obtain rfl : a = who := acts
      exact .inl authentic
    | some vaultPid =>
      obtain ⟨u, vault, -, rfl⟩ := acts
      refine kind.imp_right fun ⟨p, stored⟩ => ⟨vaultPid, u, ?_, vault, rfl⟩
      rintro rfl
      rw [stored] at vault
      cases vault
  case h_7 who pid shares =>
    refine State.Payable.batch h.1 customers ?_
    rintro _ rfl
    exact ⟨.inl authentic, h.2⟩
  case h_8 pid =>
    refine ⟨?_, ?_⟩
    · rintro pid' ⟨mem, -⟩ q stored
      obtain ⟨u, vault⟩ := State.stored_of_invested mem
      exact ((h u vault).2.2 pid' mem q stored).1
    · rintro a (⟨u, vault, rfl⟩ | ⟨pid', ⟨mem, -⟩, q, stored, w, queued, rfl⟩)
      · refine ⟨.inr ⟨pid, u, ?_, vault, rfl⟩, (h _ vault).2.1⟩
        rintro ⟨-, p, stake⟩
        rw [vault] at stake
        cases stake
      · obtain ⟨u, vault⟩ := State.stored_of_invested mem
        refine ⟨(customers pid' q stored w queued).outside stored fun _ other => .inr other.2, ?_⟩
        exact ((h u vault).2.2 pid' mem q stored).2 w queued
  case h_1 => exact State.Payable.batch h.1 customers (by rintro a ⟨⟩)
  case h_6 => exact State.Payable.batch h.1 customers (by rintro a ⟨⟩)
  case h_9 => exact ⟨by rintro pid ⟨⟩, by rintro a (⟨⟨⟩⟩ | ⟨pid, ⟨⟨⟩⟩, -⟩)⟩
  all_goals exact State.Payable.batch h customers (by rintro a ⟨⟩)

omit [DecidableEq A] in
theorem settled_base {s₁ : State A W} (settled : VaultPallet.doGainOwnerShare pid s = .ok ((), s₁))
    (alike : Alike cfg pid s₁ v) :
    s₁.wpha = s.wpha ∧ ∀ q', v.pools pid = some q' → ∃ q, s.pools pid = some q ∧
      q'.basepool.totalValue = q.basepool.totalValue ∧
      q'.basepool.withdrawQueue = q.basepool.withdrawQueue := by
  obtain ⟨u, u', stored, settles, rfl⟩ :=
    (VaultPallet.doGainOwnerShare_settles pid s).of_ok settled
  refine ⟨rfl, fun q' stored' => ⟨_, stored, ?_⟩⟩
  rw [alike.pool, State.putPool_self] at stored'
  cases stored'
  obtain ⟨n, base, -⟩ := settles.shares
  change u'.basepool.totalValue = _ ∧ u'.basepool.withdrawQueue = _
  rw [base]
  exact ⟨rfl, rfl⟩

theorem State.Affords.allows {amount : ℕ} (h : s.Affords cfg pid a amount)
    (same : ∀ q', v.pools pid = some q' → ∃ q, s.pools pid = some q ∧
      q'.basepool.totalValue = q.basepool.totalValue ∧
      q'.basepool.withdrawQueue = q.basepool.withdrawQueue) (wpha : v.wpha = s.wpha) :
    Batch.Allows cfg ⟨{pid}, ∅⟩ v (.contribute pid a amount) := by
  refine ⟨?_, fun q' stored' => ?_⟩
  · rintro (⟨⟨⟩⟩ | ⟨_, rfl, q', stored', w, queued, rfl⟩)
    obtain ⟨q, stored, -, queue⟩ := same q' stored'
    rw [wpha]
    exact (h q stored).2 w (queue ▸ queued) rfl
  · obtain ⟨q, stored, value, -⟩ := same q' stored'
    rw [value]
    exact (h q stored).1

theorem Event.Payable.permits (h : e.Payable cfg s) :
    Permits cfg ((e.batch cfg s).Allows cfg) s e := by
  have gain : ∀ {B : Batch A} pid, AllowsGain (B.Allows cfg) s pid := fun _ _ _ _ _ _ => trivial
  unfold Permits
  split
  case h_1 who pid amount asVault =>
    refine ⟨fun a acts v alike wpha => ?_, fun _ => rfl⟩
    refine State.Affords.allows (acts.eq_actor ▸ h.2) (fun q' stored' => ?_) wpha
    exact ⟨q', alike.pool.symm.trans stored', rfl, rfl⟩
  case h_2 who pid shares asVault =>
    refine ⟨fun a acts v alike q stored' client => ⟨acts, ?_⟩, fun _ _ _ _ _ => trivial,
      fun _ => rfl⟩
    rcases client with signer | ⟨⟨p, rfl⟩, -⟩
    · exact .inl signer
    · exact .inr ⟨p, alike.pool.symm.trans stored'⟩
  case h_8 => exact ⟨fun _ => h, fun _ => h⟩
  case h_9 who pid amount =>
    refine ⟨gain pid, fun s₁ settled v alike wpha => ?_, fun _ => rfl⟩
    obtain ⟨accounts, same⟩ := settled_base settled alike
    exact h.2.allows same (wpha.trans accounts)
  case h_10 who pid shares =>
    exact ⟨gain pid, fun _ _ _ _ _ _ _ => rfl, fun _ _ _ _ _ _ _ => trivial, fun _ => rfl⟩
  case h_11 who pid =>
    refine ⟨fun u stored rich queue => ?_, fun u stored pid' mem => ⟨?_, ?_, ?_, ?_⟩⟩
    · rcases (h _ stored).1 with empty | poor
      · exact absurd empty queue
      · exact absurd rich (Nat.not_lt.2 poor)
    · intro p _ v _ q _ _
      exact ⟨u, stored, rfl⟩
    · exact fun _ _ _ _ _ => trivial
    · have invested : s.invested pid = u.investPools := by simp only [State.invested, stored]
      exact fun p stored' _ => ⟨invested.symm ▸ mem, p, stored'⟩
    · exact fun _ _ _ _ _ _ => trivial
  case h_12 who => rintro v (⟨⟨⟩⟩ | ⟨pid, ⟨⟨⟩⟩, -⟩)
  case h_13 who _ => rintro v (⟨⟨⟩⟩ | ⟨pid, ⟨⟨⟩⟩, -⟩)
  case h_14 => exact allowsRewards (by rintro _ _ ⟨⟩)
  all_goals first | exact gain _ | exact fun _ => rfl | exact fun _ => trivial | trivial

variable [DecidableEq W]

omit [DecidableEq W] in
theorem Blame.not_queuePanic {f : Fault} (blame : Blame cfg (B.Allows cfg) v f)
    (tidy : Tidy cfg v) (queues : QueuesOk cfg v) (covered : SharesCovered v)
    (payable : B.Payable cfg v) : f.isQueuePanic = false := by
  cases blame with
  | locked cause stored queued foreign =>
    exact absurd ((queues _ _ stored).owned _ queued) foreign
  | stuck panic allowed stored queue stuck =>
    refine absurd stuck (payable.not_stuck tidy allowed stored queues covered ?_)
    rw [queue]
    exact List.mem_cons_self
  | bankrupt => rfl
  | releasing => rfl
  | unassigned => rfl

omit [DecidableEq A] [DecidableEq W] in
theorem Fault.not_queuePanic_of_plain {f : Fault} (h : f.plain = true) :
    f.isQueuePanic = false := by
  cases f with
  | panic site cause =>
    change site.inQueue = false
    simpa using (of_decide_eq_true h).2.1
  | _ => rfl

theorem queuesCovered_invariant : Invariant cfg (fun _ e => e.SparesPallet cfg)
    (fun v => QueuesOk cfg v ∧ SharesCovered v) (SparesPallet cfg) where
  genesis s h := by
    refine ⟨?_, ?_⟩ <;> intro pid q stored <;> simp [h.pools pid] at stored
  lenient := sparesPallet_lenient
  permits _ _ _ _ _ ok := ok.permits
  preserved _ _ _ tidy h allowed effect :=
    ⟨effect.queuesOk tidy allowed h.1, effect.sharesCovered tidy h.1 h.2⟩

end Events

end Cyrux
