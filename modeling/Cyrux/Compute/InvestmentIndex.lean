import Mathlib
import Cyrux.Compute.Stakes

/-!
# The investments of vaults
-/

namespace Cyrux

variable {A W : Type}

/-! ## What may be forgotten -/

def PoolProxy.investPools : PoolProxy A W → List ℕ
  | .stakePool _ => []
  | .vault u => u.investPools

variable [DecidableEq A]

def State.Idle (s : State A W) (pid : ℕ) (a : A) : Prop :=
  ∀ q ∈ s.pools pid, s.heldShares q.basepool.cid a ≤ 1000 →
    ∀ w ∈ q.basepool.withdrawQueue, w.user ≠ a

def Event.ForgetsIdle (s : State A W) : Event A W → Prop
  | .signed _ (.forceWithdrawVault vaultPid) => ∀ q ∈ s.pools vaultPid, ∀ pid ∈ q.investPools,
      s.Idle pid q.basepool.poolAccountId
  | _ => True

def Event.investor : Event A W → Option (ℕ × ℕ)
  | .signed _ (.contributeStakePool pid _ (some vaultPid)) => some (vaultPid, pid)
  | _ => none

def InvestsBy (cfg : Config A W) (investor : Option (ℕ × ℕ)) : State A W → Label A → Prop
  | _, .contribute pid a _ => ∀ vaultPid, cfg.role a = .staker vaultPid →
      investor = some (vaultPid, pid)
  | v, .forget a pid => ∀ q, v.pools pid = some q → ¬ v.Staked 1000 q.basepool a
  | _, _ => True

section Permits

variable {cfg : Config A W} {s : State A W}

omit [DecidableEq A] in
theorem not_staker_of_signer {a : A} (signer : cfg.role a = .signer) {P : ℕ → Prop} :
    ∀ pid, cfg.role a = .staker pid → P pid := by
  intro pid role
  cases signer.symm.trans role

theorem investsBy_lenient (investor : Option (ℕ × ℕ)) : Lenient cfg (InvestsBy cfg investor) :=
  ⟨fun _ => trivial, fun _ _ _ => trivial⟩

theorem Event.permits_investsBy {e : Event A W} (tidy : Tidy cfg s) (authentic : e.Authentic cfg)
    (idle : e.ForgetsIdle s) : Permits cfg (InvestsBy cfg e.investor) s e := by
  unfold Permits
  split
  case h_1 who pid amount asVault =>
    refine ⟨fun a acts v _ _ => ?_, fun _ => trivial⟩
    cases asVault with
    | none =>
      obtain rfl : a = who := acts
      exact not_staker_of_signer authentic
    | some vaultPid =>
      obtain ⟨u, stored, -, rfl⟩ := acts
      intro vaultPid' role
      cases role.symm.trans (tidy.pool _ _ stored).account
      rfl
  case h_9 =>
    exact ⟨fun _ _ _ _ _ => trivial, fun _ _ _ _ _ => not_staker_of_signer authentic,
      fun _ => trivial⟩
  case h_11 who pid =>
    refine ⟨fun _ _ _ _ _ => trivial, fun u stored pid' mem => ⟨fun _ _ _ _ => trivial,
      fun _ _ _ _ _ => trivial, fun _ _ _ => trivial, fun p stored' small v alike held => ?_⟩⟩
    intro q hq staked
    obtain rfl : q = .stakePool p :=
      Option.some.inj ((alike.pool.symm.trans hq).symm.trans stored')
    rcases staked with more | ⟨w, waits, user⟩
    · rw [show (PoolProxy.stakePool p).basepool = p.basepool from rfl, held] at more
      omega
    · exact idle _ stored pid' mem _ stored' small w waits user
  case h_14 => exact allowsRewards fun _ _ => trivial
  all_goals simp [AllowsGain, InvestsBy]

end Permits

/-! ## Effects -/

def Clients (cfg : Config A W) (v : State A W) : Prop :=
  ∀ pid p, v.pools pid = some (.stakePool p) → ∀ a, a ≠ cfg.palletId →
    v.Staked 0 p.basepool a → (PoolProxy.stakePool p).Client cfg v a

def IndexedBut (investor : Option (ℕ × ℕ)) (v : State A W) : Prop :=
  ∀ vaultPid u pid p, v.pools vaultPid = some (.vault u) → v.pools pid = some (.stakePool p) →
    v.Staked 1000 p.basepool u.basepool.poolAccountId →
    pid ∈ u.investPools ∧ vaultPid ∈ p.basepool.valueSubscribers ∨
      investor = some (vaultPid, pid)

section Effects

variable {cfg : Config A W} {l : Label A} {v v' : State A W}

omit [DecidableEq A] in
theorem Continues.stakePool (continues : Continues l v v') {pid : ℕ} {q : PoolProxy A W}
    {p' : StakePool A W} (stored : v.pools pid = some q)
    (stored' : v'.pools pid = some (.stakePool p')) :
    ∃ p, q = .stakePool p ∧ p.basepool.valueSubscribers ⊆ p'.basepool.valueSubscribers := by
  obtain ⟨q', hq', next⟩ := continues pid q stored
  obtain rfl : q' = .stakePool p' := Option.some.inj (hq'.symm.trans stored')
  cases q with
  | stakePool p => exact ⟨p, rfl, next.subscribers⟩
  | vault u => exact next.kind.elim

omit [DecidableEq A] in
theorem Continues.vault (continues : Continues l v v') {pid : ℕ} {u : Vault A}
    (stored : v.pools pid = some (.vault u)) : ∃ u', v'.pools pid = some (.vault u') ∧
      u'.basepool.poolAccountId = u.basepool.poolAccountId ∧
      ∀ x ∈ u.investPools, x ∈ u'.investPools ∨ l = .forget u.basepool.poolAccountId x := by
  obtain ⟨q', stored', next⟩ := continues pid _ stored
  cases q' with
  | stakePool p => exact next.kind.elim
  | vault u' => exact ⟨u', stored', next.account, next.kind⟩

omit [DecidableEq A] in
theorem Continues.client {p p' : StakePool A W} {a : A} (continues : Continues l v v')
    (h : (PoolProxy.stakePool p).Client cfg v a) : (PoolProxy.stakePool p').Client cfg v' a := by
  rcases h with signer | ⟨-, pid, u, stored, rfl⟩
  · exact .inl signer
  · obtain ⟨u', stored', account, -⟩ := continues.vault stored
    exact .inr ⟨⟨p', rfl⟩, pid, u', stored', account.symm⟩

variable [DecidableEq W]

theorem Effect.client (effect : Effect cfg l v v') (tidy : Tidy cfg v) (clients : Clients cfg v)
    {t : ℕ} (small : t ≤ 1000) {pid : ℕ} {p' : StakePool A W}
    (stored' : v'.pools pid = some (.stakePool p')) {a : A} (ne : a ≠ cfg.palletId)
    (staked' : v'.Staked t p'.basepool a) :
    ∃ p, v.pools pid = some (.stakePool p) ∧ (PoolProxy.stakePool p).Client cfg v a ∧
      p.basepool.valueSubscribers ⊆ p'.basepool.valueSubscribers ∧
      (v.Staked t p.basepool a ∨ ∃ amount, l = .contribute pid a amount) := by
  obtain ⟨q, stored, -, from_⟩ := effect.stakesFrom tidy small ne pid _ stored' staked'
  obtain ⟨p, rfl, subscribers⟩ := (effect.continues tidy).stakePool stored stored'
  rcases from_ with staked | joins
  · refine ⟨p, stored, clients pid p stored a ne ?_, subscribers, .inl staked⟩
    exact staked.imp_left fun held => (Nat.zero_le t).trans_lt held
  · cases joins with
    | contribute client => exact ⟨p, stored, client, subscribers, .inr ⟨_, rfl⟩⟩
    | claim vault => cases vault

theorem Effect.clients (effect : Effect cfg l v v') (tidy : Tidy cfg v)
    (clients : Clients cfg v) : Clients cfg v' := by
  intro pid p' stored' a ne staked'
  obtain ⟨p, -, client, -, -⟩ :=
    effect.client tidy clients (Nat.zero_le _) stored' ne staked'
  exact (effect.continues tidy).client client

theorem Effect.indexedBut {investor : Option (ℕ × ℕ)} (effect : Effect cfg l v v')
    (tidy : Tidy cfg v) (clients : Clients cfg v) (allowed : InvestsBy cfg investor v l)
    (h : IndexedBut investor v) : IndexedBut investor v' := by
  intro vaultPid u' pid p' vault' pool' staked'
  have role' : cfg.role u'.basepool.poolAccountId = .staker vaultPid :=
    ((effect.tidy tidy).pool _ _ vault').account
  have ne : u'.basepool.poolAccountId ≠ cfg.palletId := by
    intro e
    rw [e, cfg.role_palletId] at role'
    cases role'
  obtain ⟨p, pool, client, subscribers, staked⟩ :=
    effect.client tidy clients le_rfl pool' ne staked'
  -- The vault was there before: nobody else has its account.
  obtain ⟨u, vault, account⟩ : ∃ u, v.pools vaultPid = some (.vault u) ∧
      u.basepool.poolAccountId = u'.basepool.poolAccountId := by
    rcases client with signer | ⟨-, k, u, stored, account⟩
    · cases signer.symm.trans role'
    · have role := (tidy.pool _ _ stored).account
      rw [show (PoolProxy.vault u).basepool = u.basepool from rfl, ← account] at role
      cases role.symm.trans role'
      exact ⟨u, stored, account.symm⟩
  obtain ⟨u'', vault'', -, invested⟩ := (effect.continues tidy).vault vault
  cases vault''.symm.trans vault'
  rcases staked with staked | ⟨amount, rfl⟩
  · rw [← account] at staked
    refine (h vaultPid u pid p vault pool staked).imp_left fun listed => ⟨?_, subscribers listed.2⟩
    refine (invested pid listed.1).resolve_right ?_
    rintro rfl
    exact allowed _ pool staked
  · exact .inr (allowed vaultPid role')

end Effects

/-! ## Every run -/

section Indexed

variable {cfg : Config A W} {s s' : State A W}

theorem IndexedBut.of_investor {vaultPid pid : ℕ} {u : Vault A}
    {p : StakePool A W} (h : IndexedBut (some (vaultPid, pid)) s)
    (vault : s.pools vaultPid = some (.vault u)) (pool : s.pools pid = some (.stakePool p))
    (invests : pid ∈ u.investPools) (subscribes : vaultPid ∈ p.basepool.valueSubscribers) :
    IndexedBut none s := by
  intro vaultPid' u' pid' p' vault' pool' staked
  obtain listed | new := h vaultPid' u' pid' p' vault' pool' staked
  · exact .inl listed
  · cases new
    cases vault.symm.trans vault'
    cases pool.symm.trans pool'
    exact .inl ⟨invests, subscribes⟩

theorem BasePool.waits_of_requestedOf {b : BasePool A} {a : A} (h : 0 < s.requestedOf b a) :
    b.Waits a := by
  by_contra none
  have empty : b.requestIds a = [] := by
    rw [List.map_eq_nil_iff, List.filter_eq_nil_iff]
    intro w mem user
    exact none ⟨w, mem, of_decide_eq_true user⟩
  rw [State.requestedOf, empty] at h
  exact absurd h (Nat.lt_irrefl 0)

variable [DecidableEq W]

theorem Run.indexedBut {investor : Option (ℕ × ℕ)} (run : Run cfg (InvestsBy cfg investor) s s')
    (tidy : Tidy cfg s) (clients : Clients cfg s) (h : IndexedBut none s) :
    Clients cfg s' ∧ IndexedBut investor s' := by
  have along : Tidy cfg s' ∧ Clients cfg s' ∧ IndexedBut investor s' := by
    refine run.invariant
      (I := fun v => Tidy cfg v ∧ Clients cfg v ∧ IndexedBut investor v) ?_ ?_
    · rintro v v' l ⟨tidy, clients, indexed⟩ allowed effect
      exact ⟨effect.tidy tidy, effect.clients tidy clients,
        effect.indexedBut tidy clients allowed indexed⟩
    · refine ⟨tidy, clients, fun vaultPid u pid p vault pool staked => .inl ?_⟩
      exact (h vaultPid u pid p vault pool staked).resolve_right nofun
  exact along.2

theorem IndexedBut.step {e : Event A W} (h : IndexedBut none s) (clients : Clients cfg s)
    (authentic : e.Authentic cfg) (ready : Ready cfg s) (idle : e.ForgetsIdle s)
    (run : e.exec cfg s = .ok ((), s')) : Clients cfg s' ∧ IndexedBut none s' := by
  have effects := (e.exec_spec authentic (investsBy_lenient e.investor) ready
    (Event.permits_investsBy ready.tidy authentic idle)).of_ok run
  obtain ⟨clients', indexed⟩ := effects.indexedBut ready.tidy clients h
  refine ⟨clients', ?_⟩
  unfold Event.investor at indexed
  split at indexed
  case h_1 who pid amount vaultPid =>
    have permits : Permits cfg _ s
        (.signed who (.contributeStakePool pid amount (some vaultPid))) := permits_true s _
    have spec := (StakePoolV2.contribute_spec lenient_true ready authentic permits.1
      permits.2).of_ok run
    obtain ⟨u, p, vault, pool, invests, subscribes⟩ := spec.2.indexed vaultPid rfl
    exact indexed.of_investor vault pool invests subscribes
  case h_2 => exact indexed

/-- A vault and the pools in which it has more than dust list each other. -/
theorem vault_investments_indexed (reached : Reachable cfg (fun s e => e.ForgetsIdle s) s)
    {vaultPid pid : ℕ} {u : Vault A} {p : StakePool A W}
    (vault : s.pools vaultPid = some (.vault u)) (pool : s.pools pid = some (.stakePool p))
    (invested : 1000 < s.heldShares p.basepool.cid u.basepool.poolAccountId ∨
      1000 < s.requestedOf p.basepool u.basepool.poolAccountId) :
    pid ∈ u.investPools ∧ vaultPid ∈ p.basepool.valueSubscribers := by
  have all : Ready cfg s ∧ Clients cfg s ∧ IndexedBut none s := by
    refine reached.invariant (I := fun s => Ready cfg s ∧ Clients cfg s ∧ IndexedBut none s) ?_ ?_
    · intro s h
      refine ⟨Genesis.ready h, fun pid p stored => ?_, fun vaultPid u pid p stored => ?_⟩
      · simp [h.pools pid] at stored
      · simp [h.pools vaultPid] at stored
    · rintro s s' ⟨ready, clients, indexed⟩ ⟨e, authentic, idle, run⟩
      have spec := e.exec_spec authentic lenient_true ready (permits_true s e)
      exact ⟨(spec.of_ok run).ready ready, indexed.step clients authentic ready idle run⟩
  obtain ⟨-, -, indexed⟩ := all
  have staked : s.Staked 1000 p.basepool u.basepool.poolAccountId :=
    invested.imp_right fun requested => BasePool.waits_of_requestedOf (Nat.zero_lt_of_lt requested)
  exact (indexed vaultPid u pid p vault pool staked).resolve_right nofun

end Indexed

instance (s : State Mock.Account ℕ) (e : Event Mock.Account ℕ) : Decidable (e.ForgetsIdle s) := by
  rcases e with ⟨who, call⟩ | m
  · apply @Call.casesOn _ _ _ call <;> intros <;> dsimp only [Event.ForgetsIdle, State.Idle] <;>
      infer_instance
  · exact isTrue trivial

def Mock.computingVault : List (Event Mock.Account ℕ) :=
  Mock.opening (10 ^ 15) (10 ^ 15) ++ [
    .signed Mock.alice .createVault,
    .signed Mock.bob (.contributeVault 1 (10 ^ 13)),
    .signed Mock.alice (.contributeStakePool 0 (10 ^ 13) (some 1)),
    .signed Mock.alice (.startComputing 0 7 (10 ^ 13))]

def Mock.forcedWithdrawal : List (Event Mock.Account ℕ) :=
  [.signed Mock.bob (.withdrawVault 1 (10 ^ 12)),
    .move (.elapse 2000000),
    .signed Mock.bob (.forceWithdrawVault 1)]

def Mock.investment (s : State Mock.Account ℕ) :
    Option (Vault Mock.Account × StakePool Mock.Account ℕ) :=
  match s.pools 1, s.pools 0 with
  | some (.vault u), some (.stakePool p) => some (u, p)
  | _, _ => none

theorem Mock.pools_of_investment {s : State Mock.Account ℕ} {u : Vault Mock.Account}
    {p : StakePool Mock.Account ℕ} (h : Mock.investment s = some (u, p)) :
    s.pools 1 = some (.vault u) ∧ s.pools 0 = some (.stakePool p) := by
  unfold Mock.investment at h
  split at h
  case h_1 vault pool =>
    cases h
    exact ⟨vault, pool⟩
  case h_2 => cases h

theorem vault_investments_indexed_forced : ∃ s,
    Reachable Mock.runtime (fun s e => e.ForgetsIdle s) s ∧ ∃ u p,
      s.pools 1 = some (.vault u) ∧ s.pools 0 = some (.stakePool p) ∧
      1000 < s.requestedOf p.basepool u.basepool.poolAccountId ∧
      0 ∈ u.investPools ∧ 1 ∈ p.basepool.valueSubscribers := by
  obtain ⟨s, reached, forced⟩ := Mock.exists_reachable Mock.runtime
    (fun s e => e.ForgetsIdle s) (Mock.computingVault ++ Mock.forcedWithdrawal)
    (fun s => (Mock.investment s).any fun (u, p) =>
      1000 < s.requestedOf p.basepool u.basepool.poolAccountId) (by decide +kernel)
  obtain ⟨⟨u, p⟩, found, requested⟩ := (Option.any_eq_true _ _).1 forced
  obtain ⟨vault, pool⟩ := Mock.pools_of_investment found
  have requested := of_decide_eq_true requested
  exact ⟨s, reached, u, p, vault, pool, requested,
    vault_investments_indexed reached vault pool (.inr requested)⟩

theorem vault_waits_unindexed : ∃ s, Reachable Mock.runtime (fun _ _ => True) s ∧ ∃ u p,
    s.pools 1 = some (.vault u) ∧ s.pools 0 = some (.stakePool p) ∧
    s.requestedOf p.basepool u.basepool.poolAccountId = 10 ^ 13 ∧ u.investPools = [] := by
  obtain ⟨s, reached, forced⟩ := Mock.exists_reachable Mock.runtime (fun _ _ => True)
    (Mock.computingVault ++ [.signed Mock.alice (.withdrawStakePool 0 (10 ^ 13) (some 1))] ++
      Mock.forcedWithdrawal)
    (fun s => (Mock.investment s).any fun (u, p) =>
      s.requestedOf p.basepool u.basepool.poolAccountId = 10 ^ 13 ∧ u.investPools = [])
    (by decide +kernel)
  obtain ⟨⟨u, p⟩, found, forgotten⟩ := (Option.any_eq_true _ _).1 forced
  obtain ⟨vault, pool⟩ := Mock.pools_of_investment found
  obtain ⟨requested, none⟩ := of_decide_eq_true forgotten
  exact ⟨s, reached, u, p, vault, pool, requested, none⟩

end Cyrux
