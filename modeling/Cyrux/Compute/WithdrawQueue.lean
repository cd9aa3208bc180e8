import Cyrux.Compute.Invariant
import Cyrux.Compute.Mock

/-!
# Withdraw queues
-/

namespace Cyrux

variable {A W : Type}

structure QueueOk (cfg : Config A W) (v : State A W) (b : BasePool A) : Prop where
  users : (b.withdrawQueue.map WithdrawInfo.user).Nodup
  nfts : (b.withdrawQueue.map WithdrawInfo.nftId).Nodup
  times : b.withdrawQueue.Pairwise fun w w' => w.startTime ≤ w'.startTime
  past : ∀ w ∈ b.withdrawQueue, w.startTime ≤ v.now
  owned : ∀ w ∈ b.withdrawQueue, v.nftOwner b.cid w.nftId = some cfg.palletId
  funded : ∀ w ∈ b.withdrawQueue, ∃ nft, v.nftAttr b.cid w.nftId = some nft ∧ 1000 < nft.shares

def PoolProxy.QueueOk (cfg : Config A W) (v : State A W) (q : PoolProxy A W) : Prop :=
  Cyrux.QueueOk cfg v q.basepool

theorem PoolProxy.queueOk_withBase {cfg : Config A W} {v : State A W} {q : PoolProxy A W}
    {b : BasePool A} : (q.withBase b).QueueOk cfg v ↔ Cyrux.QueueOk cfg v b := by
  unfold PoolProxy.QueueOk
  rw [PoolProxy.basepool_withBase]

def SparesPallet (cfg : Config A W) : State A W → Label A → Prop
  | _, .merge a => a ≠ cfg.palletId
  | _, .claim _ target _ => target ≠ cfg.palletId
  | _, _ => True

def Event.SparesPallet (cfg : Config A W) : Event A W → Prop
  | .signed _ (.claimOwnerShares _ target _) => target ≠ cfg.palletId
  | _ => True

instance [DecidableEq A] (cfg : Config A W) (e : Event A W) : Decidable (e.SparesPallet cfg) := by
  rcases e with ⟨who, call⟩ | m
  · apply @Call.casesOn _ _ _ call <;> intros <;> dsimp only [Event.SparesPallet] <;> infer_instance
  · exact isTrue trivial

def State.afterRequest [DecidableEq A] (cfg : Config A W) (v : State A W) (b : BasePool A) (a : A)
    (shares k : ℕ) (attr : NftAttr) : State A W :=
  ((v.burnNfts cfg b.cid (b.requestIds a)).mintNft b.cid cfg.palletId shares).setNftAttr b.cid k
    attr

namespace QueueOk

variable {cfg : Config A W} {v x : State A W} {b b' : BasePool A}

theorem frame (h : QueueOk cfg v b) (now : v.now ≤ x.now) (cid : b'.cid = b.cid)
    (queue : b'.withdrawQueue = b.withdrawQueue)
    (kept : ∀ w ∈ b.withdrawQueue, x.nftOwner b.cid w.nftId = v.nftOwner b.cid w.nftId ∧
      x.nftAttr b.cid w.nftId = v.nftAttr b.cid w.nftId) : QueueOk cfg x b' := by
  refine ⟨?_, ?_, ?_, ?_, ?_, ?_⟩
  · rw [queue]
    exact h.users
  · rw [queue]
    exact h.nfts
  · rw [queue]
    exact h.times
  · intro w mem
    exact (h.past w (queue ▸ mem)).trans now
  · intro w mem
    rw [queue] at mem
    rw [cid, (kept w mem).1]
    exact h.owned w mem
  · intro w mem
    rw [queue] at mem
    rw [cid, (kept w mem).2]
    exact h.funded w mem

theorem local_queueOk : Local (PoolProxy.QueueOk (A := A) (W := W) cfg) := by
  refine ⟨fun {v x q q'} now nfts same h => ?_⟩
  exact h.frame now same.cid same.withdrawQueue fun w _ =>
    ⟨congrFun nfts.owner _, congrFun nfts.attr _⟩

theorem tail (h : QueueOk cfg v b) {w : WithdrawInfo A} {rest : List (WithdrawInfo A)}
    (front : b.withdrawQueue = w :: rest) (now : x.now = v.now) (cid : b'.cid = b.cid)
    (queue : b'.withdrawQueue = rest)
    (kept : ∀ n, n ≠ w.nftId → x.nftOwner b.cid n = v.nftOwner b.cid n ∧
      x.nftAttr b.cid n = v.nftAttr b.cid n) : QueueOk cfg x b' := by
  obtain ⟨users, nfts, times, past, owned, funded⟩ := h
  rw [front] at users nfts times past owned funded
  rw [List.map_cons, List.nodup_cons] at users nfts
  have ne : ∀ w' ∈ rest, w'.nftId ≠ w.nftId := fun w' mem e =>
    nfts.1 (e ▸ List.mem_map_of_mem mem)
  refine ⟨?_, ?_, ?_, ?_, ?_, ?_⟩
  · rw [queue]
    exact users.2
  · rw [queue]
    exact nfts.2
  · rw [queue]
    exact (List.pairwise_cons.1 times).2
  · intro w' mem
    rw [now]
    exact past w' (List.mem_cons_of_mem _ (queue ▸ mem))
  · intro w' mem
    rw [queue] at mem
    rw [cid, (kept _ (ne w' mem)).1]
    exact owned w' (List.mem_cons_of_mem _ mem)
  · intro w' mem
    rw [queue] at mem
    rw [cid, (kept _ (ne w' mem)).2]
    exact funded w' (List.mem_cons_of_mem _ mem)

theorem refill (h : QueueOk cfg v b) {w : WithdrawInfo A} {nft : NftAttr}
    (nondust : 1000 < nft.shares)
    (now : x.now = v.now) (cid : b'.cid = b.cid) (queue : b'.withdrawQueue = b.withdrawQueue)
    (owner : x.nftOwner b.cid = v.nftOwner b.cid)
    (attr : x.nftAttr b.cid = Function.update (v.nftAttr b.cid) w.nftId (some nft)) :
    QueueOk cfg x b' := by
  refine ⟨by rw [queue]; exact h.users, by rw [queue]; exact h.nfts,
    by rw [queue]; exact h.times, ?_, ?_, ?_⟩
  · intro w' mem
    rw [now]
    exact h.past w' (queue ▸ mem)
  · intro w' mem
    rw [cid, owner]
    exact h.owned w' (queue ▸ mem)
  · intro w' mem
    rw [cid, attr]
    by_cases e : w'.nftId = w.nftId
    · rw [e, Function.update_self]
      exact ⟨nft, rfl, nondust⟩
    · rw [Function.update_of_ne e]
      exact h.funded w' (queue ▸ mem)

theorem fresh (h : QueueOk cfg v b) (tidy : Tidy cfg v) {w : WithdrawInfo A}
    (mem : w ∈ b.withdrawQueue) : w.nftId ≠ v.nextNftId b.cid :=
  (tidy.minted _ _ (by rw [h.owned w mem]; rfl)).ne

theorem foreign (h : QueueOk cfg v b) {a : A} {k : ℕ} (owned : v.nftOwner b.cid k = some a)
    (ne : a ≠ cfg.palletId) {w : WithdrawInfo A} (mem : w ∈ b.withdrawQueue) : w.nftId ≠ k := by
  rintro rfl
  exact ne (Option.some.inj (owned.symm.trans (h.owned w mem)))

variable [DecidableEq A]

theorem afterRequest_kept (h : QueueOk cfg v b) (tidy : Tidy cfg v) {a : A} (shares : ℕ) {k : ℕ}
    (attr : NftAttr) (owned : v.nftOwner b.cid k = some a) (holder : cfg.Holder a)
    {w : WithdrawInfo A} (mem : w ∈ b.withdrawQueue) (ne : w.user ≠ a) :
    (v.afterRequest cfg b a shares k attr).nftOwner b.cid w.nftId = v.nftOwner b.cid w.nftId ∧
      (v.afterRequest cfg b a shares k attr).nftAttr b.cid w.nftId = v.nftAttr b.cid w.nftId := by
  have stays : w.nftId ∉ b.requestIds a := by
    intro hw
    obtain ⟨w', hw', e⟩ := List.mem_map.1 hw
    obtain ⟨mem', same⟩ := List.mem_filter.1 hw'
    obtain rfl : w' = w := List.inj_on_of_nodup_map h.nfts mem' mem e
    exact ne (by simpa using same)
  have old : w.nftId ≠ (v.burnNfts cfg b.cid (b.requestIds a)).nextNftId b.cid := by
    rw [State.burnNfts_nextNftId]
    exact h.fresh tidy mem
  constructor
  · change ((v.burnNfts cfg b.cid (b.requestIds a)).mintNft b.cid cfg.palletId shares).nftOwner
      b.cid w.nftId = _
    rw [State.mintNft_nftOwner old, State.burnNfts_nftOwner, if_neg stays]
  · unfold State.afterRequest
    rw [State.setNftAttr_nftAttr (h.foreign owned holder.ne_palletId mem),
      State.mintNft_nftAttr old, State.burnNfts_nftAttr stays]

theorem afterRequest_new (tidy : Tidy cfg v) {a : A} (shares : ℕ) {k : ℕ} (attr : NftAttr)
    (owned : v.nftOwner b.cid k = some a) :
    (v.afterRequest cfg b a shares k attr).nftOwner b.cid (v.nextNftId b.cid) = some cfg.palletId ∧
      (v.afterRequest cfg b a shares k attr).nftAttr b.cid (v.nextNftId b.cid) = some ⟨shares⟩ := by
  have vacant : v.nextNftId b.cid ≠ k := by
    rintro rfl
    rw [tidy.vacant] at owned
    cases owned
  have next : v.nextNftId b.cid = (v.burnNfts cfg b.cid (b.requestIds a)).nextNftId b.cid := by
    rw [State.burnNfts_nextNftId]
  constructor
  · change ((v.burnNfts cfg b.cid (b.requestIds a)).mintNft b.cid cfg.palletId shares).nftOwner
      b.cid (v.nextNftId b.cid) = _
    rw [next]
    exact State.mintNft_nftOwner_new
  · unfold State.afterRequest
    rw [State.setNftAttr_nftAttr vacant, next]
    exact State.mintNft_nftAttr_new

theorem request (h : QueueOk cfg v b) (tidy : Tidy cfg v) {a : A} {shares k : ℕ} (attr : NftAttr)
    (nondust : 1000 < shares) (owned : v.nftOwner b.cid k = some a) (holder : cfg.Holder a) :
    QueueOk cfg (v.afterRequest cfg b a shares k attr)
      { b with withdrawQueue := (b.withdrawQueue.filter fun w => w.user ≠ a) ++
          [⟨a, v.now, v.nextNftId b.cid⟩] } := by
  have fresh := fun w mem => h.fresh (w := w) tidy mem
  have kept := fun (w : WithdrawInfo A) (mem : w ∈ b.withdrawQueue) (ne : w.user ≠ a) =>
    h.afterRequest_kept tidy shares attr owned holder mem ne
  have new := afterRequest_new tidy shares attr owned
  obtain ⟨users, nfts, times, past, owner, funded⟩ := h
  have mem_old : ∀ w ∈ b.withdrawQueue.filter fun w => w.user ≠ a,
      w ∈ b.withdrawQueue ∧ w.user ≠ a := by
    intro w mem
    obtain ⟨mem, ne⟩ := List.mem_filter.1 mem
    exact ⟨mem, by simpa using ne⟩
  refine ⟨?_, ?_, ?_, ?_, ?_, ?_⟩
  · rw [List.map_append, List.map_singleton]
    refine (users.sublist (List.filter_sublist.map _)).append (List.nodup_singleton _) ?_
    intro u hu hu'
    obtain ⟨w, hw, rfl⟩ := List.mem_map.1 hu
    exact (mem_old w hw).2 (List.mem_singleton.1 hu')
  · rw [List.map_append, List.map_singleton]
    refine (nfts.sublist (List.filter_sublist.map _)).append (List.nodup_singleton _) ?_
    intro n hn hn'
    obtain ⟨w, hw, rfl⟩ := List.mem_map.1 hn
    exact fresh w (mem_old w hw).1 (List.mem_singleton.1 hn')
  · rw [List.pairwise_append]
    refine ⟨times.sublist List.filter_sublist, List.pairwise_singleton _ _, ?_⟩
    intro w hw w' hw'
    rw [List.mem_singleton.1 hw']
    exact past w (mem_old w hw).1
  · intro w mem
    change w.startTime ≤ (v.burnNfts cfg b.cid (b.requestIds a)).now
    rw [State.burnNfts_now]
    rcases List.mem_append.1 mem with mem | mem
    · exact past w (mem_old w mem).1
    · rw [List.mem_singleton.1 mem]
  · intro w mem
    rcases List.mem_append.1 mem with mem | mem
    · obtain ⟨mem, ne⟩ := mem_old w mem
      exact (kept w mem ne).1.trans (owner w mem)
    · rw [List.mem_singleton.1 mem]
      exact new.1
  · intro w mem
    rcases List.mem_append.1 mem with mem | mem
    · obtain ⟨mem, ne⟩ := mem_old w mem
      obtain ⟨nft, found, nondust⟩ := funded w mem
      exact ⟨nft, (kept w mem ne).2.trans found, nondust⟩
    · rw [List.mem_singleton.1 mem]
      exact ⟨⟨shares⟩, new.2, nondust⟩

end QueueOk

/-! ## Effects -/

variable [DecidableEq A] {cfg : Config A W} {v v' : State A W} {l : Label A}

abbrev QueuesOk (cfg : Config A W) (v : State A W) : Prop :=
  Everywhere (PoolProxy.QueueOk cfg) v

theorem ShareEffect.queuesOk (effect : ShareEffect cfg l v v') (tidy : Tidy cfg v)
    (allowed : SparesPallet cfg v l) (h : QueuesOk cfg v) : QueuesOk cfg v' := by
  have old : ∀ {pid q b}, v.pools pid = some (PoolProxy.withBase b q) → QueueOk cfg v b := by
    exact fun stored => PoolProxy.queueOk_withBase.1 (h _ _ stored)
  have loc : Local (PoolProxy.QueueOk cfg) := QueueOk.local_queueOk
  cases effect with
  | @merge _ pid q b a stored vacant =>
    have merged : Merged cfg b.cid a v (v.mergeNfts cfg b.cid a) := .inr rfl
    refine loc.everywhere_nfts tidy stored ?_ merged.pools ?_ h ?_
    · rw [merged.eq]
    · intro c ne
      exact merged.sameNfts ne
    · refine PoolProxy.queueOk_withBase.2 ?_
      refine (old stored).frame (by rw [merged.eq]) rfl rfl fun w mem => ?_
      have owned := (old stored).owned w mem
      obtain ⟨owner, attr⟩ := merged.keeps tidy allowed owned
      exact ⟨owner.trans owned.symm, attr⟩
  | @contribute _ pid q b a amount shares stored =>
    refine loc.everywhere_withBase tidy stored le_rfl rfl ?_ h ?_
    · exact fun c ne => (SameNfts.mintNft ne a shares).trans (.move cfg _ _ _)
    · refine PoolProxy.queueOk_withBase.2 ?_
      refine (old stored).frame le_rfl rfl rfl fun w mem => ?_
      have ne := (old stored).fresh tidy mem
      exact ⟨State.mintNft_nftOwner (x := shares) ne, State.mintNft_nftAttr (a := a) ne⟩
  | @request _ pid q b a shares k nft requests stored client found owned replaced _ _ nondust =>
    subst replaced
    refine loc.everywhere_withBase tidy stored ?_ ?_ ?_ h ?_
    · change v.now ≤ (v.burnNfts cfg b.cid (b.requestIds a)).now
      rw [State.burnNfts_now]
    · exact State.burnNfts_pools _
    · exact fun c ne => ((SameNfts.burnNfts cfg ne _).trans (.mintNft ne _ _)).trans
        (.setNftAttr ne _)
    · refine PoolProxy.queueOk_withBase.2 ?_
      exact (old stored).request tidy _ nondust owned (client.holder tidy)
  | @reduce _ pid q b a shares k nft stored client found owned =>
    refine loc.everywhere_nfts tidy stored le_rfl rfl (fun c ne => .setNftAttr ne _) h ?_
    refine PoolProxy.queueOk_withBase.2 ((old stored).frame le_rfl rfl rfl fun w mem => ⟨rfl, ?_⟩)
    exact State.setNftAttr_nftAttr ((old stored).foreign owned (client.holder tidy).ne_palletId mem)
  | @dust _ pid q b w rest nft stored queue =>
    refine loc.everywhere_withBase tidy stored le_rfl rfl (fun c ne => .burnNft cfg ne) h ?_
    refine PoolProxy.queueOk_withBase.2 ((old stored).tail queue rfl rfl rfl fun n ne => ?_)
    exact ⟨State.burnNft_nftOwner ne, State.burnNft_nftAttr ne⟩
  | @part _ pid q b w rest nft price n value amount stored queue _ _ _ _ _ _ left =>
    refine loc.everywhere_withBase tidy stored le_rfl rfl
      (fun c ne => (SameNfts.setNftAttr ne _).trans (.move cfg _ _ _)) h ?_
    refine PoolProxy.queueOk_withBase.2 ((old stored).refill (w := w) left rfl rfl rfl rfl ?_)
    exact Function.update_self _ _ _
  | @full _ pid q b w rest nft price n value amount stored queue =>
    refine loc.everywhere_withBase tidy stored le_rfl rfl (fun c ne =>
      ((SameNfts.setNftAttr ne _).trans (.burnNft cfg ne)).trans (.move cfg _ _ _)) h ?_
    refine PoolProxy.queueOk_withBase.2 ((old stored).tail queue rfl rfl rfl fun n ne => ⟨?_, ?_⟩)
    · change ((v.setNftAttr b.cid w.nftId ⟨0⟩).burnNft cfg b.cid w.nftId).nftOwner b.cid n = _
      exact State.burnNft_nftOwner ne
    · exact (State.burnNft_nftAttr ne).trans (State.setNftAttr_nftAttr ne)
  | gain stored =>
    exact loc.everywhere_putPool tidy stored le_rfl rfl (fun c _ => .refl c v) h
      ((h _ _ stored).frame le_rfl rfl rfl fun _ _ => ⟨rfl, rfl⟩)
  | @claim _ pid u target shares stored =>
    refine loc.everywhere_putPool tidy stored le_rfl rfl (fun c ne => .mintNft ne _ _) h ?_
    refine (h _ _ stored).frame le_rfl rfl rfl fun w mem => ?_
    have ne := (h _ _ stored).fresh tidy mem
    exact ⟨State.mintNft_nftOwner ne, State.mintNft_nftAttr ne⟩
  | createStakePool =>
    exact loc.everywhere_addPool h ⟨List.nodup_nil, List.nodup_nil, List.Pairwise.nil,
      by rintro _ ⟨⟩, by rintro _ ⟨⟩, by rintro _ ⟨⟩⟩
  | createVault =>
    exact loc.everywhere_addPool h ⟨List.nodup_nil, List.nodup_nil, List.Pairwise.nil,
      by rintro _ ⟨⟩, by rintro _ ⟨⟩, by rintro _ ⟨⟩⟩

variable [DecidableEq W]

theorem Effect.queuesOk (effect : Effect cfg l v v') (tidy : Tidy cfg v)
    (allowed : SparesPallet cfg v l) (h : QueuesOk cfg v) : QueuesOk cfg v' := by
  cases effect with
  | share effect => exact effect.queuesOk tidy allowed h
  | side effect => exact QueueOk.local_queueOk.everywhere_of_sameShares effect.sameShares h

/-! ## Runs -/

omit [DecidableEq A] [DecidableEq W] in
theorem sparesPallet_lenient : Lenient cfg (SparesPallet cfg) :=
  ⟨fun _ => trivial, fun _ _ holder => holder.ne_palletId⟩

omit [DecidableEq W] in
theorem Event.SparesPallet.permits {s : State A W} {e : Event A W} (h : e.SparesPallet cfg) :
    Permits cfg (Cyrux.SparesPallet cfg) s e := by
  unfold Permits
  split
  case h_8 => exact ⟨fun _ => h, fun _ => h⟩
  case h_11 => exact ⟨fun _ _ _ _ _ => trivial, fun _ _ _ _ =>
    ⟨fun _ _ _ _ => trivial, fun _ _ _ _ _ => trivial, fun _ _ _ => trivial,
      fun _ _ _ _ _ _ => trivial⟩⟩
  case h_14 => exact allowsRewards fun _ _ => trivial
  all_goals simp [AllowsGain, Cyrux.SparesPallet]

theorem queuesOk_invariant :
    Invariant cfg (fun _ e => e.SparesPallet cfg) (QueuesOk cfg) (SparesPallet cfg) where
  genesis s h pid q stored := by simp [h.pools pid] at stored
  lenient := sparesPallet_lenient
  permits _ _ _ _ _ ok := ok.permits
  preserved _ _ _ tidy h allowed effect := effect.queuesOk tidy allowed h

omit [DecidableEq W] in
theorem Blame.not_locked {f : Fault} (blame : Blame cfg P v f) (h : QueuesOk cfg v) :
    f.cause? ≠ some (.basePool .attrLocked) := by
  cases blame with
  | locked cause stored queued foreign => exact absurd ((h _ _ stored).owned _ queued) foreign
  | bankrupt => decide
  | stuck panic =>
    cases f with
    | panic site cause => exact (of_decide_eq_true panic).2
    | _ => cases panic
  | releasing => decide
  | unassigned => decide

omit [DecidableEq A] [DecidableEq W] in
theorem Fault.not_locked_of_plain {f : Fault} (h : f.plain = true) :
    f.cause? ≠ some (.basePool .attrLocked) := by
  cases f with
  | error e =>
    rintro ⟨⟩
    cases h
  | panic site cause => exact (of_decide_eq_true h).1
  | outOfFuel => rintro ⟨⟩

/-- Withdraw queues are well formed, and no NFT stays locked between calls. -/
theorem withdraw_queue_well_formed {s : State A W}
    (reached : Reachable cfg (fun _ e => e.SparesPallet cfg) s) :
    (∀ pid q, s.pools pid = some q → QueueOk cfg s q.basepool) ∧ s.nftLocks = ∅ ∧
      ∀ (e : Event A W) (f : Fault), e.Authentic cfg → e.SparesPallet cfg →
        e.exec cfg s = .error f → f.cause? ≠ some (.basePool .attrLocked) := by
  refine ⟨queuesOk_invariant.reachable reached, (Reachable.ready reached).unlocked, ?_⟩
  intro e f authentic spares failed
  rcases queuesOk_invariant.blame reached authentic spares failed with plain | ⟨v, -, h, blame⟩
  · exact Fault.not_locked_of_plain plain
  · exact blame.not_locked h

theorem withdraw_queue_well_formed_waiting : ∃ s,
    Reachable Mock.runtime (fun _ e => e.SparesPallet Mock.runtime) s ∧ ∃ q, s.pools 0 = some q ∧
      q.basepool.withdrawQueue ≠ [] ∧ QueueOk Mock.runtime s q.basepool := by
  obtain ⟨s, reached, waiting⟩ := Mock.exists_reachable Mock.runtime
    (fun _ e => e.SparesPallet Mock.runtime)
    (Mock.opening (10 ^ 15) (10 ^ 15) ++ [
      .signed Mock.alice (.contributeStakePool 0 (10 ^ 12) none),
      .signed Mock.alice (.startComputing 0 7 (10 ^ 12)),
      .signed Mock.alice (.withdrawStakePool 0 (10 ^ 11) none)])
    (fun s => (s.pools 0).any fun q => !q.basepool.withdrawQueue.isEmpty) (by decide +kernel)
  obtain ⟨q, stored, nonempty⟩ := (Option.any_eq_true _ _).1 waiting
  refine ⟨s, reached, q, stored, by simpa using nonempty, ?_⟩
  exact (withdraw_queue_well_formed reached).1 0 q stored

end Cyrux
