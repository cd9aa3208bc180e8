import Cyrux.Compute.Invariant
import Cyrux.Compute.Mock

/-!
# Stakes and their lists
-/

namespace Cyrux

variable {A W : Type}

/-! ## Held shares -/

section HeldShares

variable [DecidableEq A] {cfg : Config A W} {s : State A W} {cid : ℕ} {a : A}

theorem State.heldShares_mintNft_le (tidy : Tidy cfg s) {o : A} (ne : o ≠ a) (x : ℕ) :
    (s.mintNft cid o x).heldShares cid a ≤ s.heldShares cid a := by
  refine State.heldShares_le tidy fun n owned => ?_
  have old : n ≠ s.nextNftId cid := by
    rintro rfl
    rw [State.mintNft_nftOwner_new] at owned
    exact ne (Option.some.inj owned)
  rw [State.mintNft_nftOwner old] at owned
  rw [State.sharesAt_mintNft, if_neg old]
  exact ⟨owned, le_rfl⟩

theorem State.heldShares_burnNfts_le (tidy : Tidy cfg s) (nfts : List ℕ) :
    (s.burnNfts cfg cid nfts).heldShares cid a ≤ s.heldShares cid a := by
  refine State.heldShares_le tidy fun n owned => ?_
  rw [State.burnNfts_nftOwner] at owned
  split_ifs at owned with burnt
  rw [State.sharesAt_burnNfts burnt]
  exact ⟨owned, le_rfl⟩

theorem State.heldShares_burnNft_le (tidy : Tidy cfg s) (n : ℕ) :
    (s.burnNft cfg cid n).heldShares cid a ≤ s.heldShares cid a :=
  State.heldShares_burnNfts_le tidy [n]

theorem State.heldShares_setNftAttr_le (tidy : Tidy cfg s) {k : ℕ} {attr : NftAttr}
    (less : s.nftOwner cid k = some a → attr.shares ≤ s.sharesAt cid k) :
    (s.setNftAttr cid k attr).heldShares cid a ≤ s.heldShares cid a := by
  refine State.heldShares_le tidy fun n owned => ⟨owned, ?_⟩
  change s.nftOwner cid n = some a at owned
  rcases eq_or_ne n k with rfl | ne
  · rw [State.sharesAt_setNftAttr (by rw [owned]; rfl), if_pos rfl]
    exact less owned
  · unfold State.sharesAt
    rw [State.setNftAttr_nftAttr ne]
    exact le_rfl

end HeldShares

/-! ## Stakes through an effect -/

def BasePool.Waits (b : BasePool A) (a : A) : Prop := ∃ w ∈ b.withdrawQueue, w.user = a

def State.Staked [DecidableEq A] (t : ℕ) (v : State A W) (b : BasePool A) (a : A) : Prop :=
  t < v.heldShares b.cid a ∨ b.Waits a

inductive Joins (cfg : Config A W) (v : State A W) (pid : ℕ) (q : PoolProxy A W) (a : A) :
    Label A → Prop
  | contribute {amount : ℕ} (client : q.Client cfg v a) :
      Joins cfg v pid q a (.contribute pid a amount)
  | claim {u : Vault A} {shares : ℕ} (vault : q = .vault u) :
      Joins cfg v pid q a (.claim pid a shares)

def StakesFrom [DecidableEq A] (cfg : Config A W) (t : ℕ) (l : Label A) (a : A)
    (v v' : State A W) : Prop :=
  ∀ pid q', v'.pools pid = some q' → v'.Staked t q'.basepool a →
    ∃ q, v.pools pid = some q ∧ q.basepool.cid = q'.basepool.cid ∧
      (v.Staked t q.basepool a ∨ Joins cfg v pid q a l)

namespace StakesFrom

variable [DecidableEq A] {cfg : Config A W} {t : ℕ} {l : Label A} {a : A} {v v' x : State A W}

theorem staked_of_sameNfts {b : BasePool A} (nfts : SameNfts b.cid v x)
    (staked : x.Staked t b a) : v.Staked t b a := by
  rcases staked with held | waits
  · left
    rwa [State.heldShares_of_sameNfts nfts] at held
  · exact .inr waits

theorem of_putPool (tidy : Tidy cfg v) {pid : ℕ} {q q' : PoolProxy A W}
    (stored : v.pools pid = some q) (pools : x.pools = v.pools)
    (nfts : ∀ c, c ≠ q.basepool.cid → SameNfts c v x) (cid : q'.basepool.cid = q.basepool.cid)
    (own : x.Staked t q'.basepool a → v.Staked t q.basepool a ∨ Joins cfg v pid q a l) :
    StakesFrom cfg t l a v (x.putPool pid q') := by
  intro pid' r hr staked
  obtain ⟨rfl, rfl⟩ | ⟨ne, hr⟩ := State.stored_putPool hr
  · exact ⟨q, stored, cid.symm, own staked⟩
  · rw [pools] at hr
    have other : r.basepool.cid ≠ q.basepool.cid := fun e => ne (tidy.cid_inj _ _ _ _ hr stored e)
    exact ⟨r, hr, rfl, .inl (staked_of_sameNfts (nfts _ other) staked)⟩

theorem of_withBase (tidy : Tidy cfg v) {pid : ℕ} {q : PoolProxy A W} {b b' : BasePool A}
    (stored : v.pools pid = some (q.withBase b)) (pools : x.pools = v.pools)
    (nfts : ∀ c, c ≠ b.cid → SameNfts c v x) (cid : b'.cid = b.cid)
    (own : x.Staked t b' a → v.Staked t b a ∨ Joins cfg v pid (q.withBase b) a l) :
    StakesFrom cfg t l a v (x.putPool pid (q.withBase b')) := by
  refine of_putPool tidy stored pools ?_ ?_ ?_
  · rwa [PoolProxy.basepool_withBase]
  · rwa [PoolProxy.basepool_withBase, PoolProxy.basepool_withBase]
  · rwa [PoolProxy.basepool_withBase, PoolProxy.basepool_withBase]

theorem of_nfts (tidy : Tidy cfg v) {pid : ℕ} {q : PoolProxy A W} {b : BasePool A}
    (stored : v.pools pid = some (q.withBase b)) (pools : x.pools = v.pools)
    (nfts : ∀ c, c ≠ b.cid → SameNfts c v x)
    (own : x.Staked t b a → v.Staked t b a) : StakesFrom cfg t l a v x := by
  have same : x.putPool pid (q.withBase b) = x := State.putPool_stored (by rw [pools, stored])
  rw [← same]
  exact of_withBase tidy stored pools nfts rfl fun staked => .inl (own staked)

theorem of_sameShares (same : SameShares v v') : StakesFrom cfg t l a v v' := by
  intro pid q' stored' staked
  obtain ⟨q, stored, pool⟩ := same.stored stored'
  have nfts : SameNfts q'.basepool.cid v v' :=
    ⟨by rw [same.nftOwner], by rw [same.nftAttr], by rw [same.nextNftId]⟩
  refine ⟨q, stored, pool.cid.symm, .inl ?_⟩
  rcases staked_of_sameNfts nfts staked with held | ⟨w, mem, user⟩
  · rw [pool.cid] at held
    exact .inl held
  · rw [pool.withdrawQueue] at mem
    exact .inr ⟨w, mem, user⟩

theorem of_addPool (tidy : Tidy cfg v) {q : PoolProxy A W} (cid : q.basepool.cid = v.nextCid)
    (queue : q.basepool.withdrawQueue = []) : StakesFrom cfg t l a v (v.addPool q) := by
  intro pid r hr staked
  obtain ⟨rfl, rfl⟩ | ⟨-, hr⟩ := State.stored_putPool hr
  · have none : (v.addPool r).heldShares r.basepool.cid a = 0 := by
      have unused : v.nextNftId v.nextCid = 0 := tidy.unused _ v.le_nextCid
      change State.sharesIn _ _ ((List.range (v.nextNftId r.basepool.cid)).filter _) = 0
      rw [cid, unused]
      rfl
    rcases staked with held | ⟨w, mem, -⟩
    · rw [none] at held
      exact absurd held (Nat.not_lt_zero t)
    · rw [queue] at mem
      cases mem
  · exact ⟨r, hr, rfl, .inl staked⟩

end StakesFrom

section Effects

variable [DecidableEq A] {cfg : Config A W} {t : ℕ} {l : Label A} {a : A} {v v' : State A W}

theorem State.Staked.of_less {x : State A W} {b b' : BasePool A} (staked : x.Staked t b' a)
    (cid : b'.cid = b.cid) (queue : b'.withdrawQueue ⊆ b.withdrawQueue)
    (held : x.heldShares b.cid a ≤ v.heldShares b.cid a) : v.Staked t b a := by
  rcases staked with more | ⟨w, mem, user⟩
  · rw [cid] at more
    exact .inl (more.trans_le held)
  · exact .inr ⟨w, queue mem, user⟩

theorem State.Staked.of_request {pid : ℕ} {q : PoolProxy A W} {b : BasePool A} {o : A}
    {shares k : ℕ} {nft : NftAttr} (tidy : Tidy cfg v) (small : t ≤ 1000)
    (ne : a ≠ cfg.palletId) (stored : v.pools pid = some (q.withBase b))
    (found : v.nftAttr b.cid k = some nft) (owned : v.nftOwner b.cid k = some o)
    (nondust : 1000 < shares) (enough : shares ≤ nft.shares + v.sharesIn b.cid (b.requestIds o))
    (staked : (((v.burnNfts cfg b.cid (b.requestIds o)).mintNft b.cid cfg.palletId
        shares).setNftAttr b.cid k ⟨nft.shares + v.sharesIn b.cid (b.requestIds o) -
          shares⟩).Staked t { b with withdrawQueue := (b.withdrawQueue.filter fun w =>
            w.user ≠ o) ++ [⟨o, v.now, v.nextNftId b.cid⟩] } a) : v.Staked t b a := by
  have live : (v.nftOwner b.cid k).isSome := by rw [owned]; rfl
  have used : b.cid < (v.burnNfts cfg b.cid (b.requestIds o)).collectionIndex := by
    rw [State.burnNfts_collectionIndex]
    have := tidy.cid_lt _ _ stored
    rwa [PoolProxy.basepool_withBase] at this
  have burnt : Tidy cfg (v.burnNfts cfg b.cid (b.requestIds o)) := tidy.burnNfts _ _
  have minted := burnt.mintNft used cfg.palletId shares
  have old : k ≠ (v.burnNfts cfg b.cid (b.requestIds o)).nextNftId b.cid := by
    rw [State.burnNfts_nextNftId]
    exact (tidy.minted _ _ live).ne
  -- Whoever waits has a stake, and so has who requests without having waited before.
  by_cases waits : b.Waits a
  · exact .inr waits
  have held : o = a → nft.shares ≤ v.heldShares b.cid a := by
    rintro rfl
    have le := State.sharesAt_le_heldShares tidy owned
    rwa [State.sharesAt_of_attr live found] at le
  have none : o = a → b.requestIds o = [] := by
    rintro rfl
    refine List.map_eq_nil_iff.2 (List.filter_eq_nil_iff.2 fun w mem same => ?_)
    exact waits ⟨w, mem, of_decide_eq_true same⟩
  have funded : o = a → shares ≤ nft.shares := by
    intro same
    rw [none same] at enough
    exact enough
  rcases staked with more | ⟨w, mem, rfl⟩
  · left
    refine more.trans_le ?_
    refine (State.heldShares_setNftAttr_le minted fun mine => ?_).trans
      ((State.heldShares_mintNft_le burnt ne.symm shares).trans
        (State.heldShares_burnNfts_le tidy _))
    rw [State.mintNft_nftOwner old, State.burnNfts_nftOwner] at mine
    split_ifs at mine with replaced
    obtain rfl : o = a := Option.some.inj (owned.symm.trans mine)
    rw [State.sharesAt_mintNft, if_neg old, State.sharesAt_burnNfts replaced,
      State.sharesAt_of_attr live found, none rfl]
    exact Nat.sub_le _ _
  · rcases List.mem_append.1 mem with mem | mem
    · exact absurd ⟨w, List.mem_of_mem_filter mem, rfl⟩ waits
    · obtain rfl : w = ⟨o, v.now, v.nextNftId b.cid⟩ := List.mem_singleton.1 mem
      left
      have := held rfl
      have := funded rfl
      omega

theorem ShareEffect.stakesFrom (effect : ShareEffect cfg l v v') (tidy : Tidy cfg v)
    (small : t ≤ 1000) (ne : a ≠ cfg.palletId) : StakesFrom cfg t l a v v' := by
  cases effect with
  | @merge _ pid q b o stored vacant =>
    have merged : Merged cfg b.cid o v (v.mergeNfts cfg b.cid o) := .inr rfl
    refine .of_nfts tidy stored merged.pools (fun c ne => merged.sameNfts ne) fun staked => ?_
    refine staked.of_less rfl (List.Subset.refl _) ?_
    rcases eq_or_ne o a with rfl | other
    · exact (State.heldShares_mergeNfts tidy).le
    · have burnt : Tidy cfg (v.burnNfts cfg b.cid (v.ownedInCollection b.cid o)) :=
        tidy.burnNfts _ _
      exact (State.heldShares_mintNft_le burnt other _).trans
        (State.heldShares_burnNfts_le tidy _)
  | @contribute _ pid q b o amount shares stored client =>
    refine .of_withBase tidy stored rfl
      (fun c ne => (SameNfts.mintNft ne o shares).trans (.move cfg _ _ _)) rfl fun staked => ?_
    rcases eq_or_ne o a with rfl | other
    · exact .inr (.contribute (PoolProxy.client_withBase.2 client))
    · exact .inl (staked.of_less rfl (List.Subset.refl _)
        (State.heldShares_mintNft_le tidy other shares))
  | @request _ pid q b o shares k nft requests stored client found owned replaced _ _ nondust
      enough =>
    subst replaced
    refine .of_withBase tidy stored (State.burnNfts_pools _) (fun c ne =>
      ((SameNfts.burnNfts cfg ne _).trans (.mintNft ne _ _)).trans (.setNftAttr ne _)) rfl
      fun staked => .inl ?_
    exact staked.of_request tidy small ne stored found owned nondust enough
  | @reduce _ pid q b o shares k nft stored client found owned =>
    refine .of_nfts tidy stored rfl (fun c ne => .setNftAttr ne _) fun staked => ?_
    refine staked.of_less rfl (List.Subset.refl _)
      (State.heldShares_setNftAttr_le tidy fun mine => ?_)
    rw [State.sharesAt_of_attr (by rw [mine]; rfl) found]
    exact Nat.sub_le _ _
  | @dust _ pid q b w rest nft stored queue =>
    refine .of_withBase tidy stored rfl (fun c ne => .burnNft cfg ne) rfl fun staked => .inl ?_
    refine staked.of_less rfl ?_ (State.heldShares_burnNft_le tidy _)
    rw [queue]
    exact List.subset_cons_self w rest
  | @part _ pid q b w rest nft price n value amount stored queue found =>
    refine .of_withBase tidy stored rfl
      (fun c ne => (SameNfts.setNftAttr ne _).trans (.move cfg _ _ _)) rfl fun staked => .inl ?_
    refine staked.of_less rfl (List.Subset.refl _)
      (State.heldShares_setNftAttr_le tidy fun mine => ?_)
    rw [State.sharesAt_of_attr (by rw [mine]; rfl) found]
    exact Nat.sub_le _ _
  | @full _ pid q b w rest nft price n value amount stored queue =>
    refine .of_withBase tidy stored rfl (fun c ne =>
      ((SameNfts.setNftAttr ne _).trans (.burnNft cfg ne)).trans (.move cfg _ _ _)) rfl
      fun staked => .inl ?_
    refine staked.of_less rfl ?_ ((State.heldShares_burnNft_le (tidy.setNftAttr _ _ _) _).trans
      (State.heldShares_setNftAttr_le tidy fun _ => Nat.zero_le _))
    change rest ⊆ b.withdrawQueue
    rw [queue]
    exact List.subset_cons_self w rest
  | gain stored =>
    exact .of_putPool tidy stored rfl (fun c _ => .refl c v) rfl fun staked =>
      .inl (staked.of_less rfl (List.Subset.refl _) le_rfl)
  | @claim _ pid u target shares stored =>
    refine .of_putPool tidy stored rfl (fun c ne => .mintNft ne _ _) rfl fun staked => ?_
    rcases eq_or_ne target a with rfl | other
    · exact .inr (.claim rfl)
    · exact .inl (staked.of_less rfl (List.Subset.refl _)
        (State.heldShares_mintNft_le tidy other shares))
  | createStakePool => exact .of_addPool tidy rfl rfl
  | createVault => exact .of_addPool tidy rfl rfl

variable [DecidableEq W]

theorem Effect.stakesFrom (effect : Effect cfg l v v') (tidy : Tidy cfg v) (small : t ≤ 1000)
    (ne : a ≠ cfg.palletId) : StakesFrom cfg t l a v v' := by
  cases effect with
  | share effect => exact effect.stakesFrom tidy small ne
  | side effect => exact .of_sameShares effect.sameShares

theorem Effect.listed (effect : Effect cfg l v v') (a : A) :
    v.investedIn a ⊆ v'.investedIn a := by
  have same : ∀ {x : State A W}, x.stakerAccounts = v.stakerAccounts →
      v.investedIn a ⊆ x.investedIn a := by
    intro x accounts
    unfold State.investedIn
    rw [accounts]
    exact List.Subset.refl _
  cases effect with
  | share effect =>
    cases effect with
    | merge =>
      refine same ?_
      unfold State.mergeNfts
      rw [State.burnNfts_eq]
      rfl
    | request =>
      refine same ?_
      rw [State.burnNfts_eq]
      rfl
    | _ => exact same rfl
  | side effect =>
    cases effect with
    | other unrelated | voted unrelated => exact unrelated.listed a
    | poolReward stored funded owner covered =>
      rw [owner, State.mintOrDust_eq cfg (State.mintOrDust _ _ _ _), State.mintOrDust_eq]
      exact same rfl
    | unbind assigned binding bound found stopped =>
      obtain ⟨-, rfl⟩ | ⟨-, -, -, -, -, rfl⟩ := stopped
      · exact same rfl
      · exact same rfl
    | wrap =>
      rw [State.mintOrDust_eq]
      exact same rfl
    | _ => exact same rfl

end Effects

/-! ## Pools through an effect -/

structure PoolProxy.Continues (l : Label A) (q q' : PoolProxy A W) : Prop where
  cid : q'.basepool.cid = q.basepool.cid
  account : q'.basepool.poolAccountId = q.basepool.poolAccountId
  subscribers : q.basepool.valueSubscribers ⊆ q'.basepool.valueSubscribers
  kind : match q, q' with
    | .stakePool _, .stakePool _ => True
    | .vault u, .vault u' => ∀ pid ∈ u.investPools, pid ∈ u'.investPools ∨
        l = .forget u.basepool.poolAccountId pid
    | _, _ => False

section Continues

variable {cfg : Config A W} {l : Label A} {v v' : State A W} {pid : ℕ} {q q' : PoolProxy A W}

theorem PoolProxy.Continues.refl (q : PoolProxy A W) : q.Continues l q := by
  refine ⟨rfl, rfl, List.Subset.refl _, ?_⟩
  cases q with
  | stakePool p => trivial
  | vault u => exact fun _ => .inl

theorem PoolProxy.Continues.withBase {b b' : BasePool A} (cid : b'.cid = b.cid)
    (account : b'.poolAccountId = b.poolAccountId)
    (subscribers : b'.valueSubscribers = b.valueSubscribers) :
    (q.withBase b).Continues l (q.withBase b') := by
  refine ⟨?_, ?_, ?_, ?_⟩
  · rwa [PoolProxy.basepool_withBase, PoolProxy.basepool_withBase]
  · rwa [PoolProxy.basepool_withBase, PoolProxy.basepool_withBase]
  · rw [PoolProxy.basepool_withBase, PoolProxy.basepool_withBase, subscribers]
    exact List.Subset.refl _
  · cases q with
    | stakePool p => trivial
    | vault u => exact fun _ => .inl

theorem PoolProxy.Continues.of_stakePool {p p' : StakePool A W}
    (cid : p'.basepool.cid = p.basepool.cid)
    (account : p'.basepool.poolAccountId = p.basepool.poolAccountId)
    (subscribers : p.basepool.valueSubscribers ⊆ p'.basepool.valueSubscribers) :
    PoolProxy.Continues (W := W) l (.stakePool p) (.stakePool p') :=
  ⟨cid, account, subscribers, trivial⟩

theorem PoolProxy.Continues.of_vault {u u' : Vault A} (cid : u'.basepool.cid = u.basepool.cid)
    (account : u'.basepool.poolAccountId = u.basepool.poolAccountId)
    (subscribers : u'.basepool.valueSubscribers = u.basepool.valueSubscribers)
    (invested : ∀ pid ∈ u.investPools, pid ∈ u'.investPools ∨
      l = .forget u.basepool.poolAccountId pid) :
    PoolProxy.Continues (W := W) l (.vault u) (.vault u') :=
  ⟨cid, account, fun _ mem => by rwa [PoolProxy.basepool, subscribers], invested⟩

def Continues (l : Label A) (v v' : State A W) : Prop :=
  ∀ pid q, v.pools pid = some q → ∃ q', v'.pools pid = some q' ∧ q.Continues l q'

theorem Continues.of_pools (pools : v'.pools = v.pools) : Continues l v v' :=
  fun _ q stored => ⟨q, pools.symm ▸ stored, .refl q⟩

theorem Continues.of_pool (stored : v.pools pid = some q)
    (pools : v'.pools = Function.update v.pools pid (some q')) (continues : q.Continues l q') :
    Continues l v v' := by
  intro pid' r hr
  rw [pools]
  by_cases e : pid' = pid
  · subst e
    obtain rfl : r = q := Option.some.inj (hr.symm.trans stored)
    exact ⟨q', Function.update_self .., continues⟩
  · exact ⟨r, (Function.update_of_ne e _ _).trans hr, .refl r⟩

theorem Continues.addPool (tidy : Tidy cfg v) : Continues l v (v.addPool q) := by
  intro pid r hr
  refine ⟨r, ?_, .refl r⟩
  change Function.update v.pools v.poolCount (some q) pid = some r
  rw [Function.update_of_ne, hr]
  rintro rfl
  rw [tidy.fresh _ le_rfl] at hr
  cases hr

variable [DecidableEq A]

theorem ShareEffect.continues (effect : ShareEffect cfg l v v') (tidy : Tidy cfg v) :
    Continues l v v' := by
  cases effect with
  | merge =>
    refine .of_pools ?_
    unfold State.mergeNfts
    rw [State.burnNfts_eq]
    rfl
  | request stored =>
    rw [State.burnNfts_eq]
    exact .of_pool stored rfl (.withBase rfl rfl rfl)
  | reduce => exact .of_pools rfl
  | gain stored => exact .of_pool stored rfl (.of_vault rfl rfl rfl fun _ => .inl)
  | claim stored => exact .of_pool stored rfl (.of_vault rfl rfl rfl fun _ => .inl)
  | createStakePool => exact .addPool tidy
  | createVault => exact .addPool tidy
  | contribute stored | dust stored | part stored | full stored =>
    exact .of_pool stored rfl (.withBase rfl rfl rfl)

variable [DecidableEq W]

theorem SideEffect.continues (effect : SideEffect cfg l v v') : Continues l v v' := by
  cases effect with
  | other h | voted h => exact .of_pools h.pools
  | mark stored | vaultReward stored =>
    exact .of_pool stored rfl (.of_vault rfl rfl rfl fun _ => .inl)
  | setStakePool stored subscribed => exact .of_pool stored rfl (.of_stakePool rfl rfl subscribed)
  | setVault stored nodup kept =>
    exact .of_pool stored rfl (.of_vault rfl rfl rfl fun _ mem => .inl (kept mem))
  | @forget _ pid pid' u stored =>
    refine .of_pool stored rfl (.of_vault rfl rfl rfl fun x mem => ?_)
    by_cases e : x = pid'
    · exact .inr (by rw [e])
    · exact .inl (List.mem_filter.2 ⟨mem, decide_eq_true e⟩)
  | poolReward stored funded owner covered =>
    rw [owner, State.mintOrDust_eq cfg (State.mintOrDust _ _ _ _), State.mintOrDust_eq]
    exact .of_pool stored rfl (.of_stakePool rfl rfl (List.Subset.refl _))
  | bind stored | stop stored | reclaim stored =>
    exact .of_pool stored rfl (.of_stakePool rfl rfl (List.Subset.refl _))
  | @unbind _ halted pid session w bound _ _ assigned binding same found stopped =>
    have pools : (halted.unbindSession session bound).pools = v.pools := by
      obtain ⟨-, rfl⟩ | ⟨-, -, -, -, -, rfl⟩ := stopped <;> rfl
    obtain kept | ⟨p, stored, left⟩ := State.unassign_pools pools pid w
    · exact .of_pools kept
    · exact .of_pool stored left (.of_stakePool rfl rfl (List.Subset.refl _))
  | wrap =>
    rw [State.mintOrDust_eq]
    exact .of_pools rfl
  | payOwner | start | report | unwrap => exact .of_pools rfl

theorem Effect.continues (effect : Effect cfg l v v') (tidy : Tidy cfg v) : Continues l v v' := by
  cases effect with
  | share effect => exact effect.continues tidy
  | side effect => exact effect.continues

theorem Run.pool {P : State A W → Label A → Prop} (run : Run cfg P v v') (tidy : Tidy cfg v)
    (stored : v.pools pid = some q) :
    ∃ q', v'.pools pid = some q' ∧ q'.basepool.cid = q.basepool.cid := by
  have along : Tidy cfg v' ∧ ∃ q', v'.pools pid = some q' ∧ q'.basepool.cid = q.basepool.cid := by
    refine run.invariant (I := fun x => Tidy cfg x ∧ ∃ q', x.pools pid = some q' ∧
      q'.basepool.cid = q.basepool.cid) ?_ ⟨tidy, q, stored, rfl⟩
    rintro x x' l ⟨tidy, r, hr, cid⟩ - effect
    obtain ⟨r', hr', continues⟩ := effect.continues tidy pid r hr
    exact ⟨effect.tidy tidy, r', hr', continues.cid.trans cid⟩
  exact along.2

end Continues

/-! ## Listed investments -/

variable [DecidableEq A]

def Event.newcomer : Event A W → Option (ℕ × A)
  | .signed who (.contributeStakePool pid _ none) => some (pid, who)
  | .signed who (.contributeVault pid _) => some (pid, who)
  | .signed _ (.claimOwnerShares pid target _) => some (pid, target)
  | _ => none

def JoinsBy (cfg : Config A W) (newcomer : Option (ℕ × A)) : State A W → Label A → Prop
  | _, .contribute pid a _ => cfg.role a = .signer → newcomer = some (pid, a)
  | _, .claim pid a _ => newcomer = some (pid, a)
  | _, _ => True

def Event.ClaimsListed (cfg : Config A W) (s : State A W) : Event A W → Prop
  | .signed who (.claimOwnerShares pid target _) => target = who ∨ cfg.role target ≠ .signer ∨
      ∃ q ∈ s.pools pid, (pid, q.basepool.cid) ∈ s.investedIn target
  | _ => True

def AllListed (cfg : Config A W) (s : State A W) : Prop :=
  ∀ a, cfg.role a = .signer → ∀ pid q, s.pools pid = some q → s.Staked 0 q.basepool a →
    (pid, q.basepool.cid) ∈ s.investedIn a

section Listed

variable {cfg : Config A W} {s s' : State A W}

omit [DecidableEq A] in
theorem joinsBy_lenient (newcomer : Option (ℕ × A)) : Lenient cfg (JoinsBy cfg newcomer) :=
  ⟨fun _ => trivial, fun _ _ _ => trivial⟩

theorem Event.permits_joinsBy {e : Event A W} (tidy : Tidy cfg s) :
    Permits cfg (JoinsBy cfg e.newcomer) s e := by
  unfold Permits
  split
  case h_1 who pid amount asVault =>
    refine ⟨fun a acts v _ _ signer => ?_, fun _ => trivial⟩
    cases asVault with
    | none =>
      obtain rfl : a = who := acts
      rfl
    | some vaultPid =>
      obtain ⟨u, stored, -, rfl⟩ := acts
      cases signer.symm.trans (tidy.pool _ _ stored).account
  case h_8 => exact ⟨fun _ => rfl, fun _ => trivial⟩
  case h_9 => exact ⟨fun _ _ _ _ _ => trivial, fun _ _ _ _ _ _ => rfl, fun _ => trivial⟩
  case h_11 => exact ⟨fun _ _ _ _ _ => trivial, fun _ _ _ _ =>
    ⟨fun _ _ _ _ => trivial, fun _ _ _ _ _ => trivial, fun _ _ _ => trivial,
      fun _ _ _ _ _ _ => trivial⟩⟩
  case h_14 => exact allowsRewards fun _ _ => trivial
  all_goals simp [AllowsGain, JoinsBy]

variable [DecidableEq W]

theorem Run.staked {newcomer : Option (ℕ × A)} (run : Run cfg (JoinsBy cfg newcomer) s s')
    (tidy : Tidy cfg s) {a : A} (user : cfg.role a = .signer) {pid : ℕ} {q : PoolProxy A W}
    (stored : s'.pools pid = some q) (staked : s'.Staked 0 q.basepool a) :
    (∃ q₀, s.pools pid = some q₀ ∧ q₀.basepool.cid = q.basepool.cid ∧ s.Staked 0 q₀.basepool a) ∨
      newcomer = some (pid, a) := by
  have ne : a ≠ cfg.palletId := by
    rintro rfl
    cases user.symm.trans cfg.role_palletId
  have along : Tidy cfg s' ∧ ∀ pid q, s'.pools pid = some q → s'.Staked 0 q.basepool a →
      (∃ q₀, s.pools pid = some q₀ ∧ q₀.basepool.cid = q.basepool.cid ∧
        s.Staked 0 q₀.basepool a) ∨ newcomer = some (pid, a) := by
    refine run.invariant (I := fun v => Tidy cfg v ∧ ∀ pid q, v.pools pid = some q →
      v.Staked 0 q.basepool a → (∃ q₀, s.pools pid = some q₀ ∧
        q₀.basepool.cid = q.basepool.cid ∧ s.Staked 0 q₀.basepool a) ∨
        newcomer = some (pid, a)) ?_
      ⟨tidy, fun pid q stored staked => .inl ⟨q, stored, rfl, staked⟩⟩
    rintro v v' l ⟨tidy, old⟩ allowed effect
    refine ⟨effect.tidy tidy, fun pid q' stored' staked' => ?_⟩
    obtain ⟨q, stored, cid, staked | joins⟩ :=
      effect.stakesFrom tidy (Nat.zero_le _) ne pid q' stored' staked'
    · obtain ⟨q₀, stored₀, cid₀, staked₀⟩ | new := old pid q stored staked
      · exact .inl ⟨q₀, stored₀, cid₀.trans cid, staked₀⟩
      · exact .inr new
    · cases joins with
      | contribute => exact .inr (allowed user)
      | claim => exact .inr allowed
  exact along.2 pid q stored staked

theorem Run.listed {P : State A W → Label A → Prop} (run : Run cfg P s s') (a : A) :
    s.investedIn a ⊆ s'.investedIn a :=
  run.invariant (I := fun v => s.investedIn a ⊆ v.investedIn a)
    (fun _ _ _ old _ effect => List.Subset.trans old (effect.listed a)) (List.Subset.refl _)

theorem Event.newcomer_listed {e : Event A W} (authentic : e.Authentic cfg) (ready : Ready cfg s)
    (ok : e.ClaimsListed cfg s) (run : e.exec cfg s = .ok ((), s')) {pid : ℕ} {a : A}
    (user : cfg.role a = .signer) (new : e.newcomer = some (pid, a)) : s'.Lists pid a := by
  unfold Event.newcomer at new
  split at new
  case h_1 amount =>
    cases new
    have permits : Permits cfg _ s (.signed a (.contributeStakePool pid amount none)) :=
      permits_true s _
    have spec := (StakePoolV2.contribute_spec lenient_true ready authentic permits.1
      permits.2).of_ok run
    exact spec.2.listed rfl
  case h_2 amount =>
    cases new
    have permits : Permits cfg _ s (.signed a (.contributeVault pid amount)) := permits_true s _
    have spec := (VaultPallet.contribute_spec lenient_true ready authentic permits.1 permits.2.1
      permits.2.2).of_ok run
    exact spec.2
  case h_3 who _ _ shares =>
    cases new
    have permits : Permits cfg _ s (.signed who (.claimOwnerShares pid a shares)) :=
      permits_true s _
    have spec := (VaultPallet.claimOwnerShares_spec lenient_true ready permits.1
      permits.2).of_ok run
    obtain rfl | role | ⟨q, stored, listed⟩ := ok
    · exact spec.2
    · exact absurd user role
    · obtain ⟨q', stored', cid⟩ := spec.1.pool ready.tidy stored
      refine ⟨q', stored', ?_⟩
      rw [cid]
      exact spec.1.listed a listed
  case h_4 => cases new

theorem AllListed.step {e : Event A W} (h : AllListed cfg s) (authentic : e.Authentic cfg)
    (ready : Ready cfg s) (ok : e.ClaimsListed cfg s) (run : e.exec cfg s = .ok ((), s')) :
    AllListed cfg s' := by
  intro a user pid q stored staked
  have effects := (e.exec_spec authentic (joinsBy_lenient e.newcomer) ready
    (Event.permits_joinsBy ready.tidy)).of_ok run
  obtain ⟨q₀, stored₀, cid, staked₀⟩ | new := effects.staked ready.tidy user stored staked
  · rw [← cid]
    exact effects.listed a (h a user pid q₀ stored₀ staked₀)
  · obtain ⟨q', stored', listed⟩ := Event.newcomer_listed authentic ready ok run user new
    obtain rfl : q' = q := Option.some.inj (stored'.symm.trans stored)
    exact listed

theorem investments_listed (reached : Reachable cfg (fun s e => e.ClaimsListed cfg s) s) {a : A}
    (user : cfg.role a = .signer) {pid : ℕ} {q : PoolProxy A W} (stored : s.pools pid = some q)
    {n : ℕ} (owned : s.nftOwner q.basepool.cid n = some a)
    (nonzero : s.sharesAt q.basepool.cid n ≠ 0) :
    ∃ account, s.stakerAccounts a = some account ∧ (pid, q.basepool.cid) ∈ account.investPools := by
  have both : Ready cfg s ∧ AllListed cfg s := by
    refine reached.invariant (I := fun s => Ready cfg s ∧ AllListed cfg s) (fun s h =>
      ⟨Genesis.ready h, fun a _ pid q stored => by simp [h.pools pid] at stored⟩) ?_
    rintro s s' ⟨ready, listed⟩ ⟨e, authentic, ok, run⟩
    have spec := e.exec_spec authentic lenient_true ready (permits_true s e)
    exact ⟨(spec.of_ok run).ready ready, listed.step authentic ready ok run⟩
  obtain ⟨ready, listed⟩ := both
  have held := State.sharesAt_le_heldShares ready.tidy owned
  have mem := listed a user pid q stored (.inl ((Nat.pos_of_ne_zero nonzero).trans_le held))
  unfold State.investedIn at mem
  cases found : s.stakerAccounts a with
  | none =>
    rw [found] at mem
    cases mem
  | some account =>
    rw [found] at mem
    exact ⟨account, rfl, mem⟩

end Listed

local instance pairBEq : LawfulBEq (ℕ × ℕ) := inferInstance

instance (s : State Mock.Account ℕ) (e : Event Mock.Account ℕ) :
    Decidable (e.ClaimsListed Mock.runtime s) := by
  rcases e with ⟨who, call⟩ | m
  · apply @Call.casesOn _ _ _ call <;> intros <;> dsimp only [Event.ClaimsListed] <;> infer_instance
  · exact isTrue trivial

def Mock.gainedVault : List (Event Mock.Account ℕ) :=
  Mock.opening (10 ^ 15) (10 ^ 15) ++ [
    .signed Mock.alice .createVault,
    .signed Mock.bob (.contributeVault 1 (10 ^ 13)),
    .signed Mock.alice (.setVaultPayoutPref 1 (some ⟨500000, by decide⟩)),
    .signed Mock.alice (.contributeStakePool 0 (10 ^ 13) (some 1)),
    .signed Mock.alice (.startComputing 0 7 (10 ^ 12)),
    Mock.settle 7 (10 * 2 ^ 64),
    .signed Mock.alice (.maybeGainOwnerShares 1)]

theorem investments_listed_claimed : ∃ s,
    Reachable Mock.runtime (fun s e => e.ClaimsListed Mock.runtime s) s ∧ ∃ q account,
      s.pools 1 = some q ∧ s.sharesAt q.basepool.cid 1 ≠ 0 ∧
      s.stakerAccounts Mock.alice = some account ∧
      (1, q.basepool.cid) ∈ account.investPools := by
  obtain ⟨s, reached, claimed⟩ := Mock.exists_reachable Mock.runtime
    (fun s e => e.ClaimsListed Mock.runtime s)
    (Mock.gainedVault ++ [.signed Mock.alice (.claimOwnerShares 1 Mock.alice (10 ^ 12))])
    (fun s => (s.pools 1).any fun q => s.nftOwner q.basepool.cid 1 = some Mock.alice ∧
      s.sharesAt q.basepool.cid 1 ≠ 0) (by decide +kernel)
  obtain ⟨q, stored, owned⟩ := (Option.any_eq_true _ _).1 claimed
  obtain ⟨owner, nonzero⟩ := of_decide_eq_true owned
  obtain ⟨account, found, listed⟩ := investments_listed reached rfl stored owner nonzero
  exact ⟨s, reached, q, account, stored, nonzero, found, listed⟩

theorem claimed_shares_not_listed : ∃ s, Reachable Mock.runtime (fun _ _ => True) s ∧
    Mock.runtime.role (.user 3) = .signer ∧ ∃ q, s.pools 1 = some q ∧
      s.nftOwner q.basepool.cid 1 = some (.user 3) ∧ s.sharesAt q.basepool.cid 1 = 10 ^ 12 ∧
      s.stakerAccounts (.user 3) = none := by
  obtain ⟨s, reached, claimed⟩ := Mock.exists_reachable Mock.runtime (fun _ _ => True)
    (Mock.gainedVault ++ [.signed Mock.alice (.claimOwnerShares 1 (.user 3) (10 ^ 12))])
    (fun s => (s.stakerAccounts (.user 3)).isNone ∧ (s.pools 1).any fun q =>
      s.nftOwner q.basepool.cid 1 = some (.user 3) ∧ s.sharesAt q.basepool.cid 1 = 10 ^ 12)
    (by decide +kernel)
  obtain ⟨unknown, claimed⟩ := of_decide_eq_true claimed
  obtain ⟨q, stored, owned⟩ := (Option.any_eq_true _ _).1 claimed
  obtain ⟨owner, shares⟩ := of_decide_eq_true owned
  exact ⟨s, reached, rfl, q, stored, owner, shares, Option.isNone_iff_eq_none.1 unknown⟩

end Cyrux
