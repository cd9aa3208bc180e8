import Cyrux.Compute.Effects

/-!
# Well-formed states
-/

namespace Cyrux

variable {A W : Type}

/-! ## Base pools in their proxies -/

namespace PoolProxy

variable {q : PoolProxy A W} {b b' : BasePool A}

@[simp] theorem basepool_withBase : (q.withBase b).basepool = b := by cases q <;> rfl

@[simp] theorem ownerShares_withBase : (q.withBase b).ownerShares = q.ownerShares := by
  cases q <;> rfl

@[simp] theorem checkpoint_withBase : (q.withBase b).checkpoint = q.checkpoint := by
  cases q <;> rfl

@[simp] theorem withBase_basepool : q.withBase q.basepool = q := by cases q <;> rfl

theorem client_withBase {cfg : Config A W} {v : State A W} {a : A} :
    (q.withBase b).Client cfg v a ↔ q.Client cfg v a := by
  unfold PoolProxy.Client
  cases q <;> simp [PoolProxy.withBase]

structure Ok (cfg : Config A W) (pid : ℕ) (q : PoolProxy A W) : Prop where
  key : q.basepool.pid = pid
  account : cfg.role q.basepool.poolAccountId = .staker pid
  kind : match q with
    | .stakePool p =>
      cfg.role p.lockAccount = .lock pid ∧ cfg.role p.ownerRewardAccount = .ownerReward pid
    | .vault u => u.basepool.valueSubscribers = [] ∧ u.investPools.Nodup

theorem Ok.withBase {cfg : Config A W} {pid : ℕ} (h : (q.withBase b).Ok cfg pid)
    (hpid : b'.pid = b.pid) (haccount : b'.poolAccountId = b.poolAccountId)
    (hsubscribers : b'.valueSubscribers = b.valueSubscribers) : (q.withBase b').Ok cfg pid := by
  obtain ⟨key, account, kind⟩ := h
  rw [basepool_withBase] at key account
  refine ⟨by rw [basepool_withBase, hpid, key], by rw [basepool_withBase, haccount, account], ?_⟩
  cases q with
  | stakePool p => exact kind
  | vault u => exact ⟨hsubscribers.trans kind.1, kind.2⟩

end PoolProxy

/-! ## Well-formed states -/

structure Tidy (cfg : Config A W) (s : State A W) : Prop where
  pool : ∀ pid q, s.pools pid = some q → q.Ok cfg pid
  fresh : ∀ pid, s.poolCount ≤ pid → s.pools pid = none
  cid_lt : ∀ pid q, s.pools pid = some q → q.basepool.cid < s.collectionIndex
  cid_inj : ∀ pid pid' q q', s.pools pid = some q → s.pools pid' = some q' →
    q.basepool.cid = q'.basepool.cid → pid = pid'
  unused : ∀ cid, s.collectionIndex ≤ cid → s.nextNftId cid = 0
  minted : ∀ cid n, (s.nftOwner cid n).isSome → n < s.nextNftId cid
  attr : ∀ cid n, (s.nftOwner cid n).isSome → (s.nftAttr cid n).isSome

theorem State.le_nextCid (s : State A W) : s.collectionIndex ≤ s.nextCid := by
  unfold State.nextCid
  split_ifs with h
  · exact h
  · exact le_rfl

@[simp] theorem State.putPool_self (s : State A W) (pid : ℕ) (q : PoolProxy A W) :
    (s.putPool pid q).pools pid = some q := by
  simp [State.putPool]

theorem State.putPool_of_ne {s : State A W} {pid pid' : ℕ} {q : PoolProxy A W} (h : pid' ≠ pid) :
    (s.putPool pid q).pools pid' = s.pools pid' := by
  simp [State.putPool, h]

theorem State.stored_putPool {s : State A W} {pid pid' : ℕ} {q q' : PoolProxy A W}
    (h : (s.putPool pid q).pools pid' = some q') :
    pid' = pid ∧ q' = q ∨ pid' ≠ pid ∧ s.pools pid' = some q' := by
  by_cases hpid : pid' = pid
  · subst hpid
    exact .inl ⟨rfl, by simpa using h.symm⟩
  · exact .inr ⟨hpid, by rwa [State.putPool_of_ne hpid] at h⟩

theorem Genesis.tidy {cfg : Config A W} {s : State A W} (h : s.Genesis) : Tidy cfg s where
  pool pid q stored := by simp [h.pools pid] at stored
  fresh pid _ := h.pools pid
  cid_lt pid q stored := by simp [h.pools pid] at stored
  cid_inj pid _ q _ stored := by simp [h.pools pid] at stored
  unused cid _ := h.nextNftId cid
  minted cid n live := by simp [h.nftOwner cid n] at live
  attr cid n live := by simp [h.nftOwner cid n] at live

namespace Tidy

variable {cfg : Config A W} {s : State A W}

theorem vacant (h : Tidy cfg s) (cid : ℕ) : s.nftOwner cid (s.nextNftId cid) = none := by
  by_contra live
  exact lt_irrefl _ (h.minted cid _ (Option.isSome_iff_ne_none.2 live))

theorem holder (h : Tidy cfg s) {pid : ℕ} {q : PoolProxy A W} (stored : s.pools pid = some q) :
    cfg.Holder q.basepool.poolAccountId :=
  .inr ⟨pid, (h.pool pid q stored).account⟩

theorem putPool (h : Tidy cfg s) {pid : ℕ} {q q' : PoolProxy A W} (stored : s.pools pid = some q)
    (ok : q.Ok cfg pid → q'.Ok cfg pid) (cid : q'.basepool.cid = q.basepool.cid) :
    Tidy cfg (s.putPool pid q') := by
  have old : ∀ pid' r, (s.putPool pid q').pools pid' = some r →
      ∃ r', s.pools pid' = some r' ∧ r.basepool.cid = r'.basepool.cid := by
    intro pid' r hr
    obtain ⟨rfl, rfl⟩ | ⟨-, hr⟩ := State.stored_putPool hr
    · exact ⟨q, stored, cid⟩
    · exact ⟨r, hr, rfl⟩
  refine ⟨?_, ?_, ?_, ?_, h.unused, h.minted, h.attr⟩
  · intro pid' r hr
    obtain ⟨rfl, rfl⟩ | ⟨-, hr⟩ := State.stored_putPool hr
    · exact ok (h.pool _ q stored)
    · exact h.pool pid' r hr
  · intro pid' le
    by_cases hpid : pid' = pid
    · subst hpid
      rw [h.fresh pid' le] at stored
      cases stored
    · rw [State.putPool_of_ne hpid, h.fresh pid' le]
  · intro pid' r hr
    obtain ⟨r', hr', e⟩ := old pid' r hr
    exact e ▸ h.cid_lt pid' r' hr'
  · intro pid₁ pid₂ r₁ r₂ h₁ h₂ e
    obtain ⟨r₁', h₁', e₁⟩ := old pid₁ r₁ h₁
    obtain ⟨r₂', h₂', e₂⟩ := old pid₂ r₂ h₂
    exact h.cid_inj _ _ r₁' r₂' h₁' h₂' (by rw [← e₁, ← e₂, e])

theorem mintNft (h : Tidy cfg s) {cid : ℕ} (used : cid < s.collectionIndex) (a : A) (x : ℕ) :
    Tidy cfg (s.mintNft cid a x) := by
  refine ⟨h.pool, h.fresh, h.cid_lt, h.cid_inj, ?_, ?_, ?_⟩
  · intro c le
    rw [(State.mintNft_other (ne_of_gt (lt_of_lt_of_le used le))).2.2, h.unused c le]
  · intro c n live
    by_cases hc : c = cid
    · subst hc
      rw [State.mintNft_nextNftId]
      by_cases hn : n = s.nextNftId c
      · omega
      · rw [State.mintNft_nftOwner hn] at live
        have := h.minted c n live
        omega
    · rw [(State.mintNft_other hc).1] at live
      rw [(State.mintNft_other hc).2.2]
      exact h.minted c n live
  · intro c n live
    by_cases hc : c = cid
    · subst hc
      by_cases hn : n = s.nextNftId c
      · subst hn
        rw [State.mintNft_nftAttr_new]
        rfl
      · rw [State.mintNft_nftOwner hn] at live
        rw [State.mintNft_nftAttr hn]
        exact h.attr c n live
    · rw [(State.mintNft_other hc).1] at live
      rw [(State.mintNft_other hc).2.1]
      exact h.attr c n live

theorem burnNft (h : Tidy cfg s) (cid n : ℕ) : Tidy cfg (s.burnNft cfg cid n) := by
  have live : ∀ c m, ((s.burnNft cfg cid n).nftOwner c m).isSome →
      (s.nftOwner c m).isSome ∧ (s.burnNft cfg cid n).nftAttr c m = s.nftAttr c m := by
    intro c m hm
    by_cases hc : c = cid
    · subst hc
      by_cases hn : m = n
      · subst hn
        rw [State.burnNft_nftOwner_self] at hm
        cases hm
      · rw [State.burnNft_nftOwner hn] at hm
        exact ⟨hm, State.burnNft_nftAttr hn⟩
    · rw [(State.burnNft_other hc).1] at hm
      exact ⟨hm, by rw [(State.burnNft_other hc).2]⟩
  refine ⟨h.pool, h.fresh, h.cid_lt, h.cid_inj, h.unused, ?_, ?_⟩
  · intro c m hm
    exact h.minted c m (live c m hm).1
  · intro c m hm
    rw [(live c m hm).2]
    exact h.attr c m (live c m hm).1

theorem burnNfts (h : Tidy cfg s) (cid : ℕ) (nfts : List ℕ) :
    Tidy cfg (s.burnNfts cfg cid nfts) := by
  induction nfts generalizing s with
  | nil => exact h
  | cons n nfts ih => exact ih (h.burnNft cid n)

theorem setNftAttr (h : Tidy cfg s) (cid n : ℕ) (attr : NftAttr) :
    Tidy cfg (s.setNftAttr cid n attr) := by
  refine ⟨h.pool, h.fresh, h.cid_lt, h.cid_inj, h.unused, h.minted, ?_⟩
  intro c m live
  by_cases hc : c = cid
  · subst hc
    by_cases hm : m = n
    · subst hm
      rw [State.setNftAttr_nftAttr_self]
      rfl
    · rw [State.setNftAttr_nftAttr hm]
      exact h.attr c m live
  · rw [State.setNftAttr_other hc]
    exact h.attr c m live

theorem setWpha (h : Tidy cfg s) (l : Ledger A) : Tidy cfg { s with wpha := l } :=
  ⟨h.pool, h.fresh, h.cid_lt, h.cid_inj, h.unused, h.minted, h.attr⟩

theorem addPool (h : Tidy cfg s) {q : PoolProxy A W} (ok : q.Ok cfg s.poolCount)
    (cid : q.basepool.cid = s.nextCid) : Tidy cfg (s.addPool q) := by
  have le := s.le_nextCid
  refine ⟨?_, ?_, ?_, ?_, ?_, h.minted, h.attr⟩
  · intro pid r hr
    obtain ⟨rfl, rfl⟩ | ⟨-, hr⟩ := State.stored_putPool hr
    · exact ok
    · exact h.pool pid r hr
  · intro pid (lt : s.poolCount + 1 ≤ pid)
    exact (State.putPool_of_ne (by omega)).trans (h.fresh pid (by omega))
  · intro pid r hr
    change r.basepool.cid < s.nextCid + 1
    obtain ⟨rfl, rfl⟩ | ⟨-, hr⟩ := State.stored_putPool hr
    · omega
    · have := h.cid_lt pid r hr
      omega
  · intro pid₁ pid₂ r₁ r₂ h₁ h₂ e
    obtain ⟨rfl, rfl⟩ | ⟨-, h₁'⟩ := State.stored_putPool h₁ <;>
      obtain ⟨rfl, rfl⟩ | ⟨-, h₂'⟩ := State.stored_putPool h₂
    · rfl
    · have := h.cid_lt _ _ h₂'
      omega
    · have := h.cid_lt _ _ h₁'
      omega
    · exact h.cid_inj _ _ _ _ h₁' h₂' e
  · intro c (lt : s.nextCid + 1 ≤ c)
    exact h.unused c (by omega)

end Tidy

/-! ## The frame of the side effects -/

structure ShareStore (A : Type) where
  poolCount : ℕ
  collectionIndex : ℕ
  nftLocks : Finset (ℕ × ℕ)
  nextNftId : ℕ → ℕ
  nftOwner : ℕ → ℕ → Option A
  nftAttr : ℕ → ℕ → Option NftAttr

def State.shareStore (s : State A W) : ShareStore A where
  poolCount := s.poolCount
  collectionIndex := s.collectionIndex
  nftLocks := s.nftLocks
  nextNftId := s.nextNftId
  nftOwner := s.nftOwner
  nftAttr := s.nftAttr

structure PoolProxy.SameShares (q q' : PoolProxy A W) : Prop where
  cid : q'.basepool.cid = q.basepool.cid
  account : q'.basepool.poolAccountId = q.basepool.poolAccountId
  totalShares : q'.basepool.totalShares = q.basepool.totalShares
  totalValue : q.basepool.totalValue ≤ q'.basepool.totalValue
  withdrawQueue : q'.basepool.withdrawQueue = q.basepool.withdrawQueue
  ownerShares : q'.ownerShares = q.ownerShares
  checkpoint : q'.checkpoint = q.checkpoint ∨ ∃ price, q.basepool.sharePrice = some (some price) ∧
    fromFixed price = some q'.checkpoint
  ok : ∀ (cfg : Config A W) (pid : ℕ), q.Ok cfg pid → q'.Ok cfg pid

theorem PoolProxy.SameShares.refl (q : PoolProxy A W) : q.SameShares q :=
  ⟨rfl, rfl, rfl, le_rfl, rfl, rfl, .inl rfl, fun _ _ h => h⟩

structure SameShares (v v' : State A W) : Prop where
  store : v'.shareStore = v.shareStore
  now : v.now ≤ v'.now
  pool : ∀ pid, Option.Rel PoolProxy.SameShares (v.pools pid) (v'.pools pid)

namespace SameShares

variable {v v' : State A W} {cfg : Config A W}

theorem of_pools (store : v'.shareStore = v.shareStore) (now : v.now ≤ v'.now)
    (pools : v'.pools = v.pools) : SameShares v v' := by
  refine ⟨store, now, fun pid => ?_⟩
  rw [pools]
  cases v.pools pid with
  | none => exact .none
  | some q => exact .some (.refl q)

theorem of_pool {pid : ℕ} {q q' : PoolProxy A W} (store : v'.shareStore = v.shareStore)
    (now : v.now ≤ v'.now) (stored : v.pools pid = some q)
    (pools : v'.pools = Function.update v.pools pid (some q')) (same : q.SameShares q') :
    SameShares v v' := by
  refine ⟨store, now, fun pid' => ?_⟩
  rw [pools]
  by_cases h : pid' = pid
  · subst h
    rw [stored, Function.update_self]
    exact .some same
  · rw [Function.update_of_ne h]
    cases v.pools pid' with
    | none => exact .none
    | some q => exact .some (.refl q)

theorem stored (h : SameShares v v') {pid : ℕ} {q' : PoolProxy A W}
    (stored' : v'.pools pid = some q') : ∃ q, v.pools pid = some q ∧ q.SameShares q' := by
  have := h.pool pid
  rw [stored'] at this
  cases hq : v.pools pid with
  | none =>
    rw [hq] at this
    cases this
  | some q =>
    rw [hq] at this
    cases this with
    | some same => exact ⟨q, rfl, same⟩

theorem nextNftId (h : SameShares v v') : v'.nextNftId = v.nextNftId :=
  congrArg ShareStore.nextNftId h.store

theorem nftOwner (h : SameShares v v') : v'.nftOwner = v.nftOwner :=
  congrArg ShareStore.nftOwner h.store

theorem nftAttr (h : SameShares v v') : v'.nftAttr = v.nftAttr :=
  congrArg ShareStore.nftAttr h.store

theorem tidy (h : SameShares v v') (tidy : Tidy cfg v) : Tidy cfg v' := by
  have index : v'.collectionIndex = v.collectionIndex :=
    congrArg ShareStore.collectionIndex h.store
  have count : v'.poolCount = v.poolCount := congrArg ShareStore.poolCount h.store
  refine ⟨?_, ?_, ?_, ?_, ?_, ?_, ?_⟩
  · intro pid q' stored'
    obtain ⟨q, stored, same⟩ := h.stored stored'
    exact same.ok cfg pid (tidy.pool pid q stored)
  · intro pid le
    have none := tidy.fresh pid (count ▸ le)
    have rel := h.pool pid
    rw [none] at rel
    cases hq : v'.pools pid with
    | none => rfl
    | some q =>
      rw [hq] at rel
      cases rel
  · intro pid q' stored'
    obtain ⟨q, stored, same⟩ := h.stored stored'
    rw [same.cid, index]
    exact tidy.cid_lt pid q stored
  · intro pid₁ pid₂ q₁' q₂' h₁ h₂ e
    obtain ⟨q₁, stored₁, same₁⟩ := h.stored h₁
    obtain ⟨q₂, stored₂, same₂⟩ := h.stored h₂
    exact tidy.cid_inj _ _ q₁ q₂ stored₁ stored₂ (by rw [← same₁.cid, ← same₂.cid, e])
  · intro cid le
    rw [h.nextNftId]
    exact tidy.unused cid (index ▸ le)
  · intro cid n live
    rw [h.nextNftId]
    exact tidy.minted cid n (h.nftOwner ▸ live)
  · intro cid n live
    rw [h.nftAttr]
    exact tidy.attr cid n (h.nftOwner ▸ live)

end SameShares

variable [DecidableEq A]

theorem ShareEffect.tidy {cfg : Config A W} {l : Label A} {v v' : State A W}
    (effect : ShareEffect cfg l v v') (h : Tidy cfg v) : Tidy cfg v' := by
  have used : ∀ {pid q b}, v.pools pid = some (PoolProxy.withBase b q) →
      b.cid < v.collectionIndex := by
    intro pid q b stored
    have := h.cid_lt _ _ stored
    rwa [PoolProxy.basepool_withBase] at this
  cases effect with
  | merge stored =>
    refine (h.burnNfts _ _).mintNft ?_ _ _
    rw [State.burnNfts_collectionIndex]
    exact used stored
  | contribute stored =>
    exact ((h.mintNft (used stored) _ _).setWpha _).putPool stored
      (fun ok => ok.withBase rfl rfl rfl) (by simp)
  | @request _ pid q b _ _ _ _ requests stored =>
    have used' : b.cid < (v.burnNfts cfg b.cid requests).collectionIndex := by
      rw [State.burnNfts_collectionIndex]
      exact used stored
    have stored' : (v.burnNfts cfg b.cid requests).pools pid = some (q.withBase b) := by
      rw [State.burnNfts_pools, stored]
    exact (((h.burnNfts _ _).mintNft used' _ _).setNftAttr _ _ _).putPool stored'
      (fun ok => ok.withBase rfl rfl rfl) (by simp)
  | reduce => exact h.setNftAttr _ _ _
  | dust stored =>
    exact (h.burnNft _ _).putPool stored (fun ok => ok.withBase rfl rfl rfl) (by simp)
  | part stored =>
    exact ((h.setNftAttr _ _ _).setWpha _).putPool stored (fun ok => ok.withBase rfl rfl rfl)
      (by simp [BasePool.paid])
  | full stored =>
    exact (((h.setNftAttr _ _ _).burnNft _ _).setWpha _).putPool stored
      (fun ok => ok.withBase rfl rfl rfl) (by simp [BasePool.paid])
  | gain stored => exact h.putPool stored (fun ok => ⟨ok.key, ok.account, ok.kind⟩) rfl
  | claim stored =>
    exact (h.mintNft (h.cid_lt _ _ stored) _ _).putPool stored
      (fun ok => ⟨ok.key, ok.account, ok.kind⟩) rfl
  | createStakePool =>
    exact h.addPool ⟨rfl, cfg.role_staker _ _, cfg.role_lock _ _, cfg.role_ownerReward _ _⟩ rfl
  | createVault => exact h.addPool ⟨rfl, cfg.role_staker _ _, rfl, List.nodup_nil⟩ rfl

theorem State.mintOrDust_eq (cfg : Config A W) (s : State A W) (a : A) (amount : ℕ) :
    s.mintOrDust cfg a amount = { s with
      wpha := (s.mintOrDust cfg a amount).wpha
      wphaSupply := (s.mintOrDust cfg a amount).wphaSupply
      unmintableDust := (s.mintOrDust cfg a amount).unmintableDust } := by
  unfold State.mintOrDust
  split_ifs <;> rfl

variable [DecidableEq W]

omit [DecidableEq A] in
theorem State.unassign_pools {v x : State A W} (pools : x.pools = v.pools) (pid : ℕ) (w : W) :
    (x.unassign pid w).pools = v.pools ∨ ∃ p, v.pools pid = some (.stakePool p) ∧
      (x.unassign pid w).pools =
        Function.update v.pools pid (some (.stakePool (p.removeWorker w))) := by
  rcases h : v.pools pid with _ | p | u
  · exact .inl (by simp only [State.unassign, pools, h])
  · exact .inr ⟨p, rfl, by simp only [State.unassign, pools, h]⟩
  · exact .inl (by simp only [State.unassign, pools, h])

omit [DecidableEq A] in
theorem SameShares.unassign {v x : State A W} (store : x.shareStore = v.shareStore)
    (now : v.now ≤ x.now) (pools : x.pools = v.pools) (pid : ℕ) (w : W) :
    SameShares v (x.unassign pid w) := by
  obtain kept | ⟨p, stored, left⟩ := State.unassign_pools pools pid w
  · exact .of_pools store now kept
  · exact .of_pool store now stored left
      ⟨rfl, rfl, rfl, le_rfl, rfl, rfl, .inl rfl, fun _ _ ok => ⟨ok.key, ok.account, ok.kind⟩⟩

theorem SideEffect.sameShares {cfg : Config A W} {l : Label A} {v v' : State A W}
    (effect : SideEffect cfg l v v') : SameShares v v' := by
  cases effect with
  | other h | voted h =>
    refine .of_pools ?_ h.now h.pools
    unfold State.shareStore
    rw [h.poolCount, h.collectionIndex, h.nftLocks, h.nextNftId, h.nftOwner, h.nftAttr]
  | mark stored priced rounded =>
    exact .of_pool rfl le_rfl stored rfl
      ⟨rfl, rfl, rfl, le_rfl, rfl, rfl, .inr ⟨_, priced, rounded⟩,
        fun _ _ ok => ⟨ok.key, ok.account, ok.kind⟩⟩
  | setStakePool stored =>
    exact .of_pool rfl le_rfl stored rfl
      ⟨rfl, rfl, rfl, le_rfl, rfl, rfl, .inl rfl, fun _ _ ok => ⟨ok.key, ok.account, ok.kind⟩⟩
  | setVault stored nodup =>
    exact .of_pool rfl le_rfl stored rfl
      ⟨rfl, rfl, rfl, le_rfl, rfl, rfl, .inl rfl,
        fun _ _ ok => ⟨ok.key, ok.account, ok.kind.1, nodup ok.kind.2⟩⟩
  | forget stored =>
    exact .of_pool rfl le_rfl stored rfl
      ⟨rfl, rfl, rfl, le_rfl, rfl, rfl, .inl rfl,
        fun _ _ ok => ⟨ok.key, ok.account, ok.kind.1, ok.kind.2.filter _⟩⟩
  | vaultReward stored =>
    exact .of_pool rfl le_rfl stored rfl
      ⟨rfl, rfl, rfl, Nat.le_add_right _ _, rfl, rfl, .inl rfl,
        fun _ _ ok => ⟨ok.key, ok.account, ok.kind⟩⟩
  | poolReward stored funded owner covered =>
    rw [owner, State.mintOrDust_eq cfg (State.mintOrDust _ _ _ _), State.mintOrDust_eq]
    exact .of_pool rfl le_rfl stored rfl
      ⟨rfl, rfl, rfl, Nat.le_add_right _ _, rfl, rfl, .inl rfl,
        fun _ _ ok => ⟨ok.key, ok.account, ok.kind⟩⟩
  | payOwner => exact .of_pools rfl le_rfl rfl
  | bind stored =>
    exact .of_pool rfl le_rfl stored rfl
      ⟨rfl, rfl, rfl, le_rfl, rfl, rfl, .inl rfl, fun _ _ ok => ⟨ok.key, ok.account, ok.kind⟩⟩
  | start => exact .of_pools rfl le_rfl rfl
  | stop stored =>
    exact .of_pool rfl le_rfl stored rfl
      ⟨rfl, rfl, rfl, le_rfl, rfl, rfl, .inl rfl, fun _ _ ok => ⟨ok.key, ok.account, ok.kind⟩⟩
  | reclaim stored =>
    exact .of_pool rfl le_rfl stored rfl
      ⟨rfl, rfl, rfl, le_rfl, rfl, rfl, .inl rfl, fun _ _ ok => ⟨ok.key, ok.account, ok.kind⟩⟩
  | unbind assigned binding same found stopped =>
    obtain ⟨-, rfl⟩ | ⟨-, -, -, -, -, rfl⟩ := stopped
    · refine .unassign ?_ ?_ ?_ _ _
      exacts [rfl, le_rfl, rfl]
    · refine .unassign ?_ ?_ ?_ _ _
      exacts [rfl, le_rfl, rfl]
  | report => exact .of_pools rfl le_rfl rfl
  | wrap =>
    rw [State.mintOrDust_eq]
    exact .of_pools rfl le_rfl rfl
  | unwrap => exact .of_pools rfl le_rfl rfl

section

variable {cfg : Config A W} {P : State A W → Label A → Prop} {l : Label A} {v v' : State A W}

theorem Effect.tidy (effect : Effect cfg l v v') (h : Tidy cfg v) : Tidy cfg v' := by
  cases effect with
  | share effect => exact effect.tidy h
  | side effect => exact effect.sameShares.tidy h

theorem Run.tidy (run : Run cfg P v v') (h : Tidy cfg v) : Tidy cfg v' :=
  run.invariant (fun _ _ _ h _ effect => effect.tidy h) h

theorem Effect.nftLocks (effect : Effect cfg l v v') : v'.nftLocks = v.nftLocks := by
  cases effect with
  | share effect =>
    cases effect with
    | merge => exact State.burnNfts_nftLocks _
    | request => exact State.burnNfts_nftLocks _
    | _ => rfl
  | side effect => exact congrArg ShareStore.nftLocks effect.sameShares.store

theorem Run.nftLocks (run : Run cfg P v v') : v'.nftLocks = v.nftLocks :=
  run.invariant (I := fun x => x.nftLocks = v.nftLocks)
    (fun _ _ _ h _ effect => effect.nftLocks.trans h) rfl

end

end Cyrux
