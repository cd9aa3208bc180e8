import Cyrux.Compute.RewardSpec
import Cyrux.Compute.ShareConservation
import Mathlib.Algebra.Order.BigOperators.Group.Finset

/-!
# Bankruptcy
-/

namespace Cyrux

variable {A W : Type}

def Clear (n : ℕ) : Prop := n = 0 ∨ 1000 < n

instance (n : ℕ) : Decidable (Clear n) := inferInstanceAs (Decidable (n = 0 ∨ 1000 < n))

/-! ## The shares inside and outside the queue -/

def State.queuedShares (v : State A W) (b : BasePool A) : ℕ :=
  (b.withdrawQueue.map fun w => v.attrShares b.cid w.nftId).sum

def State.unqueued (v : State A W) (b : BasePool A) : ℕ := b.totalShares - v.queuedShares b

section Queue

variable {cfg : Config A W} {v x : State A W} {b b' : BasePool A}

theorem State.attrShares_of_attr {cid n : ℕ} {nft : NftAttr} (h : v.nftAttr cid n = some nft) :
    v.attrShares cid n = nft.shares := by
  simp [State.attrShares, h]

theorem State.queuedShares_congr (cid : b'.cid = b.cid)
    (queue : b'.withdrawQueue = b.withdrawQueue)
    (kept : ∀ w ∈ b.withdrawQueue, x.nftAttr b.cid w.nftId = v.nftAttr b.cid w.nftId) :
    x.queuedShares b' = v.queuedShares b := by
  unfold State.queuedShares State.attrShares
  rw [queue, cid]
  congr 1
  refine List.map_congr_left fun w mem => ?_
  rw [kept w mem]

theorem State.queuedShares_tail {w : WithdrawInfo A} {rest : List (WithdrawInfo A)} {nft : NftAttr}
    (front : b.withdrawQueue = w :: rest) (found : v.nftAttr b.cid w.nftId = some nft)
    (nodup : (b.withdrawQueue.map WithdrawInfo.nftId).Nodup) (cid : b'.cid = b.cid)
    (queue : b'.withdrawQueue = rest)
    (kept : ∀ n, n ≠ w.nftId → x.nftAttr b.cid n = v.nftAttr b.cid n) :
    nft.shares + x.queuedShares b' = v.queuedShares b := by
  rw [front, List.map_cons, List.nodup_cons] at nodup
  unfold State.queuedShares
  rw [front, queue, cid, List.map_cons, List.sum_cons, State.attrShares_of_attr found]
  congr 2
  refine List.map_congr_left fun w' mem => ?_
  unfold State.attrShares
  rw [kept _ fun e => nodup.1 (e ▸ List.mem_map_of_mem mem)]

theorem State.queuedShares_part {w : WithdrawInfo A} {rest : List (WithdrawInfo A)} {nft : NftAttr}
    {n : ℕ} (front : b.withdrawQueue = w :: rest) (found : v.nftAttr b.cid w.nftId = some nft)
    (nodup : (b.withdrawQueue.map WithdrawInfo.nftId).Nodup) (cid : b'.cid = b.cid)
    (queue : b'.withdrawQueue = b.withdrawQueue)
    (set : x.nftAttr b.cid w.nftId = some ⟨nft.shares - n⟩) (within : n ≤ nft.shares)
    (kept : ∀ m, m ≠ w.nftId → x.nftAttr b.cid m = v.nftAttr b.cid m) :
    n + x.queuedShares b' = v.queuedShares b := by
  rw [front, List.map_cons, List.nodup_cons] at nodup
  have rest_eq : rest.map (fun w => x.attrShares b.cid w.nftId) =
      rest.map fun w => v.attrShares b.cid w.nftId := by
    refine List.map_congr_left fun w' mem => ?_
    unfold State.attrShares
    rw [kept _ fun e => nodup.1 (e ▸ List.mem_map_of_mem mem)]
  unfold State.queuedShares
  rw [queue, cid, front, List.map_cons, List.map_cons, List.sum_cons, List.sum_cons, rest_eq,
    State.attrShares_of_attr found, State.attrShares_of_attr set]
  simp only
  omega

theorem QueueOk.clear (h : QueueOk cfg v b) : Clear (v.queuedShares b) := by
  rcases hq : b.withdrawQueue with _ | ⟨w, rest⟩
  · left
    simp [State.queuedShares, hq]
  · right
    obtain ⟨nft, found, nondust⟩ := h.funded w (by rw [hq]; exact List.mem_cons_self)
    unfold State.queuedShares
    rw [hq, List.map_cons, List.sum_cons, State.attrShares_of_attr found]
    omega

theorem State.sharesIn_le_liveShares {cid : ℕ} {nfts : List ℕ} (nodup : nfts.Nodup)
    (minted : ∀ n ∈ nfts, n < v.nextNftId cid) : v.sharesIn cid nfts ≤ v.liveShares cid := by
  unfold State.sharesIn State.liveShares
  rw [← List.sum_toFinset _ nodup]
  refine Finset.sum_le_sum_of_subset fun n mem => ?_
  exact Finset.mem_range.2 (minted n (List.mem_toFinset.1 mem))

theorem QueueOk.queuedShares_eq (h : QueueOk cfg v b) :
    v.queuedShares b = v.sharesIn b.cid (b.withdrawQueue.map WithdrawInfo.nftId) := by
  unfold State.queuedShares State.sharesIn
  rw [List.map_map]
  congr 1
  refine List.map_congr_left fun w mem => ?_
  obtain ⟨nft, found, -⟩ := h.funded w mem
  rw [State.attrShares_of_attr found]
  exact (State.sharesAt_of_attr (by rw [h.owned w mem]; rfl) found).symm

theorem QueueOk.minted (h : QueueOk cfg v b) (tidy : Tidy cfg v) :
    ∀ n ∈ b.withdrawQueue.map WithdrawInfo.nftId, n < v.nextNftId b.cid := by
  intro n hn
  obtain ⟨w, mem, rfl⟩ := List.mem_map.1 hn
  exact tidy.minted _ _ (by rw [h.owned w mem]; rfl)

theorem QueueOk.queuedShares_le (h : QueueOk cfg v b) (tidy : Tidy cfg v) :
    v.queuedShares b ≤ v.liveShares b.cid := by
  rw [h.queuedShares_eq]
  exact State.sharesIn_le_liveShares h.nfts (h.minted tidy)

end Queue

section Request

theorem sum_filter_add_sum_filter_not {α : Type} (p : α → Prop) [DecidablePred p] (f : α → ℕ)
    (l : List α) :
    ((l.filter fun x => p x).map f).sum + ((l.filter fun x => ¬ p x).map f).sum =
      (l.map f).sum := by
  induction l with
  | nil => rfl
  | cons x l ih =>
    by_cases h : p x
    · simp [h, ← ih, Nat.add_assoc]
    · simp [h, ← ih, Nat.add_left_comm]

variable [DecidableEq A] {cfg : Config A W} {v : State A W} {b : BasePool A}

theorem QueueOk.queuedShares_request (h : QueueOk cfg v b) (tidy : Tidy cfg v) {a : A}
    (shares : ℕ) {k : ℕ} (attr : NftAttr) (owned : v.nftOwner b.cid k = some a)
    (holder : cfg.Holder a) :
    (v.afterRequest cfg b a shares k attr).queuedShares { b with
        withdrawQueue := (b.withdrawQueue.filter fun w => w.user ≠ a) ++
          [⟨a, v.now, v.nextNftId b.cid⟩] } + v.requestedOf b a =
      v.queuedShares b + shares := by
  have new : (v.afterRequest cfg b a shares k attr).attrShares b.cid (v.nextNftId b.cid) = shares :=
    State.attrShares_of_attr (QueueOk.afterRequest_new tidy shares attr owned).2
  have kept : (b.withdrawQueue.filter fun w => w.user ≠ a).map
      (fun w => (v.afterRequest cfg b a shares k attr).attrShares b.cid w.nftId) =
      (b.withdrawQueue.filter fun w => w.user ≠ a).map fun w => v.attrShares b.cid w.nftId := by
    refine List.map_congr_left fun w hw => ?_
    obtain ⟨mem, ne⟩ := List.mem_filter.1 hw
    unfold State.attrShares
    rw [(h.afterRequest_kept tidy shares attr owned holder mem (by simpa using ne)).2]
  have split := sum_filter_add_sum_filter_not (fun w => w.user = a)
    (fun w => v.attrShares b.cid w.nftId) b.withdrawQueue
  unfold State.queuedShares State.requestedOf BasePool.requestIds
  rw [List.map_append, List.sum_append, kept, List.map_singleton, List.sum_singleton, new,
    List.map_map]
  simp only [Function.comp_def, ne_eq]
  omega

end Request

/-! ## Sound pools -/

structure PoolProxy.Sound (v : State A W) (q : PoolProxy A W) : Prop where
  valued : q.basepool.totalShares ≤ q.basepool.totalValue
  clear : Clear (v.unqueued q.basepool)
  checkpoint : q.checkpoint = 0 ∨ PHA ≤ q.checkpoint

theorem PHA_le_of_fromFixed {price : FixedPoint} {current : ℕ} (one : 2 ^ 64 ≤ price.bits)
    (rounded : fromFixed price = some current) : PHA ≤ current := by
  obtain ⟨-, rfl⟩ := fromFixed_eq_some.1 rounded
  calc PHA = unscale (2 ^ 48) := by
        unfold unscale
        rw [Nat.mul_div_cancel_left _ (by positivity)]
    _ ≤ _ := unscale_mono (by omega)

theorem local_sound : Local (PoolProxy.Sound (A := A) (W := W)) := by
  refine ⟨fun {v x q q'} _ nfts same h => ⟨?_, ?_, ?_⟩⟩
  · rw [same.totalShares]
    exact h.valued.trans same.totalValue
  · have queued : x.queuedShares q'.basepool = v.queuedShares q.basepool :=
      State.queuedShares_congr same.cid same.withdrawQueue fun w _ => congrFun nfts.attr _
    unfold State.unqueued
    rw [same.totalShares, queued]
    exact h.clear
  · rcases same.checkpoint with e | ⟨price, priced, rounded⟩
    · rw [e]
      exact h.checkpoint
    · exact .inr (PHA_le_of_fromFixed (BasePool.one_le_sharePrice priced h.valued) rounded)

theorem Clear.request {total queued queued' n replaced : ℕ} (inside : queued ≤ total)
    (moved : queued' + replaced = queued + n) (clear : Clear (total - queued + replaced - n)) :
    Clear (total - queued') := by
  unfold Clear at *
  omega

theorem Clear.rest {total queued queued' n : ℕ} (clear : Clear (total - queued))
    (inside : queued ≤ total) (removed : n + queued' = queued) (clear' : Clear queued') :
    Clear (total - n) ∧ Clear (total - n - queued') := by
  unfold Clear at *
  omega

theorem le_extractDust {shares value : ℕ} (le : shares ≤ value) (clear : Clear shares) :
    shares ≤ (extractDust value).1 := by
  unfold extractDust balanceCloseToZero
  unfold Clear at clear
  by_cases h : value ≤ 1000
  · omega
  · simpa [h] using le

theorem PoolProxy.Sound.withBase {v x : State A W} {q : PoolProxy A W} {b b' : BasePool A}
    (h : (q.withBase b).Sound v) (valued : b'.totalShares ≤ b'.totalValue)
    (clear : Clear (x.unqueued b')) : (q.withBase b').Sound x := by
  refine ⟨?_, ?_, ?_⟩
  · rwa [PoolProxy.basepool_withBase]
  · rwa [PoolProxy.basepool_withBase]
  · rw [PoolProxy.checkpoint_withBase]
    have := h.checkpoint
    rwa [PoolProxy.checkpoint_withBase] at this

theorem Vault.gained_le {u : Vault A} {price divisor : FixedPoint} {current shares : ℕ}
    (gains : u.Gains price current) (marked : PHA ≤ u.lastSharePriceCheckpoint)
    (divided : toFixed (u.newPrice current) = some divisor)
    (bought : Balance.div u.basepool.totalValue divisor = some shares) :
    PHA ≤ u.newPrice current ∧ shares ≤ u.basepool.totalValue := by
  have part := Permill.mul_le (u.commission.getD Permill.zero)
    (current - u.lastSharePriceCheckpoint)
  have least : PHA ≤ u.newPrice current := by
    have := gains.2.2.2
    unfold Vault.newPrice
    omega
  obtain ⟨-, bits⟩ := toFixed_eq_some.1 divided
  have one : 2 ^ 64 ≤ divisor.bits := by
    have scaled : scale PHA ≤ scale (u.newPrice current) := scale_mono least
    have : scale PHA = 2 ^ 48 := Nat.mul_div_cancel_left _ PHA_pos
    omega
  exact ⟨least, Balance.div_le_self one bought⟩

/-! ## Effects -/

def KeepsClear [DecidableEq A] (cfg : Config A W) : State A W → Label A → Prop
  | v, .contribute pid _ amount => ∀ q, v.pools pid = some q → v.unqueued q.basepool ≠ 0 ∨
      ∀ price value, q.basepool.sharePrice = some (some price) →
        Balance.mul 2000 price = some value → value ≤ amount
  | v, .request pid a shares => ∀ q, v.pools pid = some q →
      Clear (v.unqueued q.basepool + v.requestedOf q.basepool a - shares)
  | v, .gain pid => ∀ q, v.pools pid = some q → v.unqueued q.basepool ≠ 0
  | v, l => SparesPallet cfg v l

section Effects

variable [DecidableEq A] {cfg : Config A W} {v v' : State A W} {l : Label A}

theorem KeepsClear.sparesPallet (h : KeepsClear cfg v l) : SparesPallet cfg v l := by
  cases l <;> first | exact h | trivial

theorem ShareEffect.sound (effect : ShareEffect cfg l v v') (tidy : Tidy cfg v)
    (least : 1000 < cfg.minContribution)
    (initial : cfg.initialPriceCheckPoint = 0 ∨ PHA ≤ cfg.initialPriceCheckPoint)
    (queues : QueuesOk cfg v) (covered : SharesCovered v) (allowed : KeepsClear cfg v l)
    (h : Everywhere PoolProxy.Sound v) : Everywhere PoolProxy.Sound v' := by
  have loc : Local (PoolProxy.Sound (A := A) (W := W)) := local_sound
  have queues' := effect.queuesOk tidy allowed.sparesPallet queues
  -- What is known of the pool before the effect.
  have before : ∀ {pid q b}, v.pools pid = some (PoolProxy.withBase b q) →
      QueueOk cfg v b ∧ v.queuedShares b ≤ b.totalShares ∧ b.totalShares ≤ b.totalValue ∧
        Clear (v.unqueued b) := by
    intro pid q b stored
    have queue := PoolProxy.queueOk_withBase.1 (queues _ _ stored)
    have total : v.heldBy (q.withBase b) ≤ (q.withBase b).basepool.totalShares :=
      covered _ _ stored
    have sound := h _ _ stored
    have valued := sound.valued
    have clear := sound.clear
    have inside := queue.queuedShares_le tidy
    unfold State.heldBy at total
    rw [PoolProxy.basepool_withBase] at total valued clear
    exact ⟨queue, by omega, valued, clear⟩
  cases effect with
  | @merge _ pid q b a stored =>
    obtain ⟨queue, -, valued, clear⟩ := before stored
    have merged : Merged cfg b.cid a v (v.mergeNfts cfg b.cid a) := .inr rfl
    refine loc.everywhere_nfts tidy stored ?_ merged.pools (fun c ne => merged.sameNfts ne) h ?_
    · rw [merged.eq]
    · refine (h _ _ stored).withBase valued ?_
      have queued : (v.mergeNfts cfg b.cid a).queuedShares b = v.queuedShares b :=
        State.queuedShares_congr rfl rfl fun w mem =>
          (merged.keeps tidy allowed (queue.owned w mem)).2
      unfold State.unqueued
      rwa [queued]
  | @contribute _ pid q b a amount shares stored _ enough _ _ bought =>
    obtain ⟨queue, inside, valued, clear⟩ := before stored
    refine loc.everywhere_withBase tidy stored le_rfl rfl
      (fun c ne => (SameNfts.mintNft ne a shares).trans (.move cfg _ _ _)) h ?_
    have queued : ((v.mintNft b.cid a shares).move cfg a b.poolAccountId amount).queuedShares
        { b with totalShares := b.totalShares + shares, totalValue := b.totalValue + amount } =
        v.queuedShares b :=
      State.queuedShares_congr rfl rfl fun w mem =>
        State.mintNft_nftAttr (a := a) (queue.fresh tidy mem)
    refine (h _ _ stored).withBase ?_ ?_
    · exact Nat.add_le_add valued (BasePool.newShares_le bought valued)
    · have more : v.unqueued b ≠ 0 ∨ 1000 < shares := by
        have allowed := allowed _ stored
        rw [PoolProxy.basepool_withBase] at allowed
        refine allowed.imp_right fun pays => ?_
        exact BasePool.newShares_nondust bought valued (least.trans_le enough) pays
      unfold State.unqueued Clear at *
      simp only
      omega
  | @request _ pid q b a shares k nft requests stored client found owned replaced =>
    subst replaced
    obtain ⟨queue, inside, valued, clear⟩ := before stored
    refine loc.everywhere_withBase tidy stored ?_ (State.burnNfts_pools _)
      (fun c ne => ((SameNfts.burnNfts cfg ne _).trans (.mintNft ne _ _)).trans
        (.setNftAttr ne _)) h ?_
    · change v.now ≤ (v.burnNfts cfg b.cid (b.requestIds a)).now
      rw [State.burnNfts_now]
    · refine (h _ _ stored).withBase valued ?_
      have queued := queue.queuedShares_request tidy shares
        ⟨nft.shares + v.sharesIn b.cid (b.requestIds a) - shares⟩ owned (client.holder tidy)
      have allowed := allowed _ stored
      rw [PoolProxy.basepool_withBase] at allowed
      exact Clear.request inside queued allowed
  | @reduce _ pid q b a shares k nft stored client found owned =>
    obtain ⟨queue, -, valued, clear⟩ := before stored
    refine loc.everywhere_nfts tidy stored le_rfl rfl (fun c ne => .setNftAttr ne _) h ?_
    refine (h _ _ stored).withBase valued ?_
    have queued : (v.setNftAttr b.cid k ⟨nft.shares - shares⟩).queuedShares b =
        v.queuedShares b :=
      State.queuedShares_congr rfl rfl fun w mem => State.setNftAttr_nftAttr
        (queue.foreign owned (client.holder tidy).ne_palletId mem)
    unfold State.unqueued
    rwa [queued]
  | @dust _ pid q b w rest nft stored front found owned covered =>
    obtain ⟨queue, inside, valued, clear⟩ := before stored
    refine loc.everywhere_withBase tidy stored le_rfl rfl (fun c ne => .burnNft cfg ne) h ?_
    have queued : nft.shares + (v.burnNft cfg b.cid w.nftId).queuedShares
        { b with totalShares := b.totalShares - nft.shares, withdrawQueue := rest } =
        v.queuedShares b :=
      State.queuedShares_tail front found queue.nfts rfl rfl fun n ne => State.burnNft_nftAttr ne
    refine (h _ _ stored).withBase ((Nat.sub_le _ _).trans valued) ?_
    unfold State.unqueued Clear at *
    simp only at queued ⊢
    omega
  | @part _ pid q b w rest nft price n value amount stored front found priced worth paid _ _ left
      covered =>
    obtain ⟨queue, inside, valued, clear⟩ := before stored
    refine loc.everywhere_withBase tidy stored le_rfl rfl
      (fun c ne => (SameNfts.setNftAttr ne _).trans (.move cfg _ _ _)) h ?_
    have queue' := PoolProxy.queueOk_withBase.1 (queues' pid _ (State.putPool_self _ _ _))
    have queued : n + ((v.setNftAttr b.cid w.nftId ⟨nft.shares - n⟩).move cfg b.poolAccountId
        w.user amount).queuedShares (b.paid amount n) = v.queuedShares b :=
      State.queuedShares_part front found queue.nfts rfl rfl State.setNftAttr_nftAttr_self
        (by omega) fun m ne => State.setNftAttr_nftAttr ne
    obtain ⟨total, outside⟩ := clear.rest inside queued queue'.clear
    refine (h _ _ stored).withBase ?_ outside
    exact le_extractDust (BasePool.rest_le_rest priced worth (by omega) valued) total
  | @full _ pid q b w rest nft price n value amount stored front found owned priced worth paid _ _
      within covered =>
    obtain ⟨queue, inside, valued, clear⟩ := before stored
    refine loc.everywhere_withBase tidy stored le_rfl rfl (fun c ne =>
      ((SameNfts.setNftAttr ne _).trans (.burnNft cfg ne)).trans (.move cfg _ _ _)) h ?_
    have queue' := PoolProxy.queueOk_withBase.1 (queues' pid _ (State.putPool_self _ _ _))
    have queued : nft.shares + (((v.setNftAttr b.cid w.nftId ⟨0⟩).burnNft cfg b.cid w.nftId).move
        cfg b.poolAccountId w.user amount).queuedShares
          { b.paid amount nft.shares with withdrawQueue := rest } = v.queuedShares b :=
      State.queuedShares_tail front found queue.nfts rfl rfl fun m ne =>
        (State.burnNft_nftAttr ne).trans (State.setNftAttr_nftAttr ne)
    obtain ⟨total, outside⟩ := clear.rest inside queued queue'.clear
    refine (h _ _ stored).withBase ?_ outside
    refine le_extractDust ?_ total
    exact (Nat.sub_le_sub_left within _).trans
      (BasePool.rest_le_rest priced worth (by omega) valued)
  | @gain _ pid u price divisor current shares stored gains divided bought =>
    refine loc.everywhere_putPool tidy stored le_rfl rfl (fun c _ => .refl c v) h ?_
    have sound := h _ _ stored
    have marked : PHA ≤ u.lastSharePriceCheckpoint :=
      sound.checkpoint.resolve_left gains.2.2.1
    obtain ⟨least, most⟩ := Vault.gained_le gains marked divided bought
    have outside : v.unqueued u.basepool ≠ 0 := allowed _ stored
    have valued := sound.valued
    have clear := sound.clear
    refine ⟨?_, ?_, .inr least⟩
    · change u.basepool.totalShares + (shares - u.basepool.totalShares) ≤ u.basepool.totalValue
      change u.basepool.totalShares ≤ u.basepool.totalValue at valued
      omega
    · change Clear (v.unqueued u.basepool) at clear
      change Clear (u.basepool.totalShares + (shares - u.basepool.totalShares) -
        v.queuedShares u.basepool)
      unfold State.unqueued Clear at *
      omega
  | @claim _ pid u target shares stored enough =>
    refine loc.everywhere_putPool tidy stored le_rfl rfl (fun c ne => .mintNft ne _ _) h ?_
    obtain ⟨valued, clear, checkpoint⟩ := h _ _ stored
    refine ⟨valued, ?_, checkpoint⟩
    have queue : QueueOk cfg v u.basepool := queues _ _ stored
    have queued : (v.mintNft u.basepool.cid target shares).queuedShares u.basepool =
        v.queuedShares u.basepool :=
      State.queuedShares_congr rfl rfl fun w mem => State.mintNft_nftAttr (queue.fresh tidy mem)
    change Clear (u.basepool.totalShares -
      (v.mintNft u.basepool.cid target shares).queuedShares u.basepool)
    rw [queued]
    exact clear
  | createStakePool =>
    exact loc.everywhere_addPool h ⟨le_rfl, .inl rfl, .inl rfl⟩
  | createVault =>
    exact loc.everywhere_addPool h ⟨le_rfl, .inl rfl, initial⟩

variable [DecidableEq W]

theorem Effect.sound (effect : Effect cfg l v v') (tidy : Tidy cfg v)
    (least : 1000 < cfg.minContribution)
    (initial : cfg.initialPriceCheckPoint = 0 ∨ PHA ≤ cfg.initialPriceCheckPoint)
    (queues : QueuesOk cfg v) (covered : SharesCovered v) (allowed : KeepsClear cfg v l)
    (h : Everywhere PoolProxy.Sound v) : Everywhere PoolProxy.Sound v' := by
  cases effect with
  | share effect => exact effect.sound tidy least initial queues covered allowed h
  | side effect => exact local_sound.everywhere_of_sameShares effect.sameShares h

end Effects

/-! ## Runs -/

def Vault.gains (u : Vault A) : Bool :=
  u.basepool.sharePrice.any fun price => (price.bind fromFixed).any fun current =>
    u.lastSharePriceCheckpoint ≠ 0 ∧ u.lastSharePriceCheckpoint < current

def PoolProxy.gains : PoolProxy A W → Bool
  | .stakePool _ => false
  | .vault u => u.gains

def BasePool.pays (b : BasePool A) (amount : ℕ) : Bool :=
  b.sharePrice.all fun price => (price.bind (Balance.mul 2000)).all fun value => value ≤ amount

def State.actor (s : State A W) (who : A) (asVault : Option ℕ) : A :=
  match asVault.bind s.pools with
  | some q => q.basepool.poolAccountId
  | none => who

def Event.KeepsClear [DecidableEq A] (cfg : Config A W) (s : State A W) : Event A W → Prop
  | .signed _ (.contributeStakePool pid amount _) => ∀ q ∈ s.pools pid,
      s.unqueued q.basepool ≠ 0 ∨ q.basepool.pays amount = true
  | .signed who (.withdrawStakePool pid shares asVault) => ∀ q ∈ s.pools pid,
      Clear (s.unqueued q.basepool + s.requestedOf q.basepool (s.actor who asVault) - shares)
  | .signed _ (.setVaultPayoutPref pid _) => ∀ q ∈ s.pools pid,
      s.unqueued q.basepool ≠ 0 ∨ q.gains = false
  | .signed _ (.maybeGainOwnerShares pid) => ∀ q ∈ s.pools pid,
      s.unqueued q.basepool ≠ 0 ∨ q.gains = false
  | .signed _ (.contributeVault pid amount) => ∀ q ∈ s.pools pid,
      s.unqueued q.basepool ≠ 0 ∨ q.gains = false ∧ q.basepool.pays amount = true
  | .signed who (.withdrawVault pid shares) => ∀ q ∈ s.pools pid,
      (s.unqueued q.basepool ≠ 0 ∨ q.gains = false) ∧
      (1000 < s.unqueued q.basepool + s.requestedOf q.basepool who - shares ∨
        s.unqueued q.basepool + s.requestedOf q.basepool who - shares = 0 ∧ q.gains = false)
  | .signed _ (.forceWithdrawVault pid) => ∀ q ∈ s.pools pid, ∀ pid' ∈ s.invested pid,
      ∀ q' ∈ s.pools pid', Clear (s.unqueued q'.basepool -
        s.heldShares q'.basepool.cid q.basepool.poolAccountId)
  | .signed _ (.claimOwnerShares _ target _) => target ≠ cfg.palletId
  | _ => True

instance [DecidableEq A] (cfg : Config A W) (s : State A W) (e : Event A W) :
    Decidable (e.KeepsClear cfg s) := by
  rcases e with ⟨who, call⟩ | m
  · apply @Call.casesOn _ _ _ call <;> intros <;> dsimp only [Event.KeepsClear] <;> infer_instance
  · exact isTrue trivial

theorem Vault.Gains.gains {u : Vault A} {price : FixedPoint} {current : ℕ}
    (h : u.Gains price current) : u.gains = true := by
  obtain ⟨priced, rounded, nonzero, less⟩ := h
  unfold Vault.gains
  rw [priced, Option.any_some, Option.bind_some, rounded, Option.any_some]
  exact decide_eq_true ⟨nonzero, less⟩

theorem BasePool.pays_spec {b : BasePool A} {amount : ℕ} (h : b.pays amount = true) :
    ∀ price value, b.sharePrice = some (some price) → Balance.mul 2000 price = some value →
      value ≤ amount := by
  intro price value priced worth
  unfold BasePool.pays at h
  rw [priced, Option.all_some, Option.bind_some, worth, Option.all_some] at h
  exact of_decide_eq_true h

theorem ActsFor.eq_actor {s : State A W} {who a : A} {asVault : Option ℕ}
    (h : ActsFor s who asVault a) : a = s.actor who asVault := by
  cases asVault with
  | none => exact h
  | some vaultPid =>
    obtain ⟨u, stored, -, rfl⟩ := h
    simp only [State.actor, Option.bind_some, stored]
    rfl

theorem VaultPallet.Settles.shares {u u' : Vault A} (h : VaultPallet.Settles u u') :
    ∃ n, u'.basepool = { u.basepool with totalShares := u.basepool.totalShares + n } ∧
      (u.gains = false → n = 0) := by
  cases h with
  | idle => exact ⟨0, rfl, fun _ => rfl⟩
  | mark => exact ⟨0, rfl, fun _ => rfl⟩
  | gain gains => exact ⟨_, rfl, fun none => by rw [gains.gains] at none; cases none⟩

variable [DecidableEq A] {cfg : Config A W} {s v : State A W} {e : Event A W}

theorem Alike.queue {pid : ℕ} {q : PoolProxy A W} (alike : Alike cfg pid s v)
    (stored : s.pools pid = some q) (queue : QueueOk cfg s q.basepool) (a : A) :
    v.pools pid = some q ∧ v.unqueued q.basepool = s.unqueued q.basepool ∧
      v.requestedOf q.basepool a = s.requestedOf q.basepool a := by
  have kept : ∀ w ∈ q.basepool.withdrawQueue,
      v.nftAttr q.basepool.cid w.nftId = s.nftAttr q.basepool.cid w.nftId :=
    fun w mem => (alike.nft q stored w.nftId (queue.owned w mem)).2
  refine ⟨alike.pool.trans stored, ?_, ?_⟩
  · unfold State.unqueued
    rw [State.queuedShares_congr rfl rfl kept]
  · unfold State.requestedOf
    congr 1
    refine List.map_congr_left fun n mem => ?_
    obtain ⟨w, hw, rfl⟩ := List.mem_map.1 mem
    unfold State.attrShares
    rw [kept w (List.mem_filter.1 hw).1]

theorem settled_pool {pid : ℕ} {s₁ : State A W} (queues : QueuesOk cfg s)
    (settled : VaultPallet.doGainOwnerShare pid s = .ok ((), s₁)) :
    ∃ u n, s.pools pid = some (.vault u) ∧ (u.gains = false → n = 0) ∧
      ∀ v, Alike cfg pid s₁ v → ∀ q, v.pools pid = some q →
        q.basepool = { u.basepool with totalShares := u.basepool.totalShares + n } ∧
        v.unqueued q.basepool = u.basepool.totalShares + n - s.queuedShares u.basepool ∧
        ∀ a, v.requestedOf q.basepool a = s.requestedOf u.basepool a := by
  obtain ⟨u, u', stored, settles, rfl⟩ :=
    (VaultPallet.doGainOwnerShare_settles pid s).of_ok settled
  obtain ⟨n, base, none⟩ := settles.shares
  refine ⟨u, n, stored, none, fun v alike q stored' => ?_⟩
  obtain rfl : q = .vault u' := by
    rw [alike.pool, State.putPool_self] at stored'
    exact (Option.some.inj stored').symm
  have queue : QueueOk cfg (s.putPool pid (.vault u')) u'.basepool := by
    rw [base]
    exact QueueOk.frame (queues _ _ stored) le_rfl rfl rfl fun _ _ => ⟨rfl, rfl⟩
  have same := fun a => alike.queue (State.putPool_self _ _ _) queue a
  refine ⟨base, ?_, fun a => ?_⟩
  · rw [(same cfg.palletId).2.1]
    change (s.putPool pid (.vault u')).unqueued u'.basepool = _
    rw [base]
    rfl
  · rw [(same a).2.2]
    change (s.putPool pid (.vault u')).requestedOf u'.basepool a = _
    rw [base]
    rfl

theorem Event.KeepsClear.permits (h : e.KeepsClear cfg s) (queues : QueuesOk cfg s) :
    Permits cfg (Cyrux.KeepsClear cfg) s e := by
  -- The condition on a settlement.
  have gain : ∀ pid, (∀ q ∈ s.pools pid, s.unqueued q.basepool ≠ 0 ∨ q.gains = false) →
      AllowsGain (Cyrux.KeepsClear cfg) s pid := by
    intro pid h u price current stored gains q stored'
    obtain rfl : q = .vault u := Option.some.inj (stored'.symm.trans stored)
    refine (h _ stored).resolve_right fun none => ?_
    rw [PoolProxy.gains, gains.gains] at none
    cases none
  unfold Permits
  split
  case h_1 pid amount asVault =>
    refine ⟨fun a _ v alike _ q stored' => ?_, fun _ => trivial⟩
    have stored : s.pools pid = some q := by rw [← alike.pool, stored']
    obtain ⟨-, outside, -⟩ := alike.queue stored (queues _ _ stored) a
    rw [outside]
    exact (h q stored).imp_right BasePool.pays_spec
  case h_2 pid shares asVault =>
    refine ⟨fun a acts v alike q stored' => ?_, fun _ _ _ _ _ => trivial, fun _ => trivial⟩
    have stored : s.pools pid = some q := by rw [← alike.pool, stored']
    obtain ⟨-, outside, own⟩ := alike.queue stored (queues _ _ stored) a
    rw [outside, own, acts.eq_actor]
    exact h q stored
  case h_6 pid _ => exact gain pid h
  case h_7 pid => exact gain pid h
  case h_8 => exact ⟨fun _ => h, fun _ => h⟩
  case h_9 pid amount =>
    refine ⟨gain pid fun q stored => (h q stored).imp_right And.left, ?_, fun _ => trivial⟩
    intro s₁ settled v alike _ q stored'
    obtain ⟨u, n, stored, none, pool⟩ := settled_pool queues settled
    obtain ⟨base, outside, -⟩ := pool v alike q stored'
    rcases h _ stored with nonzero | ⟨gains, pays⟩
    · left
      rw [outside]
      change u.basepool.totalShares - s.queuedShares u.basepool ≠ 0 at nonzero
      omega
    · right
      rw [base, none gains]
      exact BasePool.pays_spec pays
  case h_10 pid shares =>
    refine ⟨gain pid fun q stored => (h q stored).1, ?_, fun _ _ _ _ _ _ _ => trivial,
      fun _ => trivial⟩
    intro s₁ settled v alike q stored'
    obtain ⟨u, n, stored, none, pool⟩ := settled_pool queues settled
    obtain ⟨base, outside, own⟩ := pool v alike q stored'
    rw [outside, own]
    rcases (h _ stored).2 with large | ⟨zero, gains⟩
    · right
      change 1000 < u.basepool.totalShares - s.queuedShares u.basepool + _ - _ at large
      simp only [PoolProxy.basepool] at large
      omega
    · left
      rw [none gains]
      exact zero
  case h_11 pid =>
    refine ⟨fun _ _ _ _ _ => trivial, fun u stored pid' mem => ?_⟩
    refine ⟨fun p stored' v alike q hq => ?_, fun _ _ _ _ _ => trivial,
      fun _ _ _ => trivial, fun _ _ _ _ _ _ => trivial⟩
    obtain ⟨same, outside, own⟩ := alike.queue stored' (queues _ _ stored') u.basepool.poolAccountId
    obtain rfl : q = .stakePool p := Option.some.inj (hq.symm.trans same)
    have invested : s.invested pid = u.investPools := by simp only [State.invested, stored]
    have clear := h _ stored pid' (invested ▸ mem) _ stored'
    rw [outside, own, ← Nat.sub_sub]
    change Clear (s.unqueued p.basepool + s.requestedOf p.basepool _ - _ - _)
    rwa [Nat.add_sub_cancel]
  case h_14 => exact allowsRewards fun _ _ => trivial
  all_goals simp [Cyrux.KeepsClear, Cyrux.SparesPallet]

variable [DecidableEq W]

structure AllSound (cfg : Config A W) (v : State A W) : Prop where
  queues : QueuesOk cfg v
  covered : SharesCovered v
  sound : Everywhere PoolProxy.Sound v

theorem allSound_invariant (least : 1000 < cfg.minContribution)
    (initial : cfg.initialPriceCheckPoint = 0 ∨ PHA ≤ cfg.initialPriceCheckPoint) :
    Invariant cfg (fun s e => e.KeepsClear cfg s) (AllSound cfg) (KeepsClear cfg) where
  genesis s h := by
    refine ⟨?_, ?_, ?_⟩ <;> intro pid q stored <;> simp [h.pools pid] at stored
  lenient := ⟨fun _ => trivial, fun _ _ holder => holder.ne_palletId⟩
  permits _ _ _ h _ ok := ok.permits h.queues
  preserved v v' l tidy h allowed effect :=
    ⟨effect.queuesOk tidy allowed.sparesPallet h.queues,
      effect.sharesCovered tidy h.queues h.covered,
      effect.sound tidy least initial h.queues h.covered allowed h.sound⟩

omit [DecidableEq W] in
theorem Blame.not_bankrupt {f : Fault} (blame : Blame cfg P v f)
    (h : Everywhere PoolProxy.Sound v) : f ≠ .error (.basePool .poolBankrupt) := by
  rintro rfl
  cases blame with
  | locked cause => cases cause
  | bankrupt stored shares value =>
    have valued := (h _ _ stored).valued
    omega
  | stuck panic => cases panic

/-- No pool has shares without value, and no call finds a pool bankrupt. -/
theorem pool_never_bankrupt (least : 1000 < cfg.minContribution)
    (initial : cfg.initialPriceCheckPoint = 0 ∨ PHA ≤ cfg.initialPriceCheckPoint)
    (reached : Reachable cfg (fun s e => e.KeepsClear cfg s) s) :
    (∀ pid q, s.pools pid = some q → 0 < q.basepool.totalShares → 0 < q.basepool.totalValue) ∧
      ∀ (e : Event A W) (f : Fault), e.Authentic cfg → e.KeepsClear cfg s →
        e.exec cfg s = .error f → f ≠ .error (.basePool .poolBankrupt) := by
  have inv := allSound_invariant least initial
  constructor
  · intro pid q stored shares
    exact shares.trans_le ((inv.reachable reached).sound pid q stored).valued
  · intro e f authentic ok failed
    rcases inv.blame reached authentic ok failed with plain | ⟨v, -, h, blame⟩
    · rintro rfl
      cases plain
    · exact blame.not_bankrupt h.sound

theorem pool_never_bankrupt_left : ∃ s,
    Reachable Mock.runtime (fun s e => e.KeepsClear Mock.runtime s) s ∧ ∃ q, s.pools 0 = some q ∧
      q.basepool.totalShares = 2000 ∧ 0 < q.basepool.totalValue := by
  obtain ⟨s, reached, left⟩ := Mock.exists_reachable Mock.runtime
    (fun s e => e.KeepsClear Mock.runtime s)
    (Mock.opening (10 ^ 15) (10 ^ 15) ++ [
      .signed Mock.alice (.contributeStakePool 0 (10 ^ 12) none),
      .signed Mock.alice (.withdrawStakePool 0 (10 ^ 12 - 2000) none)])
    (fun s => (s.pools 0).any fun q => q.basepool.totalShares = 2000) (by decide +kernel)
  obtain ⟨q, stored, total⟩ := (Option.any_eq_true _ _).1 left
  have total : q.basepool.totalShares = 2000 := of_decide_eq_true total
  refine ⟨s, reached, q, stored, total, ?_⟩
  have never := (pool_never_bankrupt (by decide) (.inr (by decide)) reached).1 0 q stored
  exact never (by omega)

theorem pool_bankrupt_by_dust : ∃ s, Reachable Mock.runtime (fun _ _ => True) s ∧
    (∃ q, s.pools 0 = some q ∧ q.basepool.totalShares = 500 ∧ q.basepool.totalValue = 0) ∧
      Event.exec Mock.runtime (.signed Mock.bob (.contributeStakePool 0 (10 ^ 12) none)) s =
        .error (.error (.basePool .poolBankrupt)) := by
  obtain ⟨s, reached, broke⟩ := Mock.exists_reachable Mock.runtime (fun _ _ => True)
    (Mock.opening (10 ^ 15) (10 ^ 15) ++ [
      .signed Mock.alice (.contributeStakePool 0 (50 * 10 ^ 12) none),
      .signed Mock.alice (.withdrawStakePool 0 (50 * 10 ^ 12 - 500) none)])
    (fun s => (s.pools 0).any (fun q => q.basepool.totalShares = 500 ∧ q.basepool.totalValue = 0) &&
      Mock.failsWith Mock.runtime s (.signed Mock.bob (.contributeStakePool 0 (10 ^ 12) none))
        (.error (.basePool .poolBankrupt))) (by decide +kernel)
  obtain ⟨pool, refused⟩ := Bool.and_eq_true_iff.1 broke
  obtain ⟨q, stored, empty⟩ := (Option.any_eq_true _ _).1 pool
  exact ⟨s, reached, ⟨q, stored, of_decide_eq_true empty⟩, Mock.error_of_failsWith refused⟩

end Cyrux
