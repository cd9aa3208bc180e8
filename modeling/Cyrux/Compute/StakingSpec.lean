import Cyrux.Compute.QueueSpec
import Mathlib.Algebra.Order.BigOperators.Group.Finset

/-!
# Staking calls as runs of effects
-/

namespace Cyrux

open Exec

variable {A W : Type}

structure Ready (cfg : Config A W) (s : State A W) : Prop where
  tidy : Tidy cfg s
  unlocked : s.nftLocks = ∅

structure Alike (cfg : Config A W) (pid : ℕ) (s v : State A W) : Prop where
  pool : v.pools pid = s.pools pid
  nft : ∀ q, s.pools pid = some q → ∀ n, s.nftOwner q.basepool.cid n = some cfg.palletId →
    v.nftOwner q.basepool.cid n = some cfg.palletId ∧
      v.nftAttr q.basepool.cid n = s.nftAttr q.basepool.cid n

theorem Alike.trans {cfg : Config A W} {pid : ℕ} {s s' v : State A W} (h : Alike cfg pid s s')
    (h' : Alike cfg pid s' v) : Alike cfg pid s v := by
  refine ⟨h'.pool.trans h.pool, fun q stored n owned => ?_⟩
  obtain ⟨owned', attr⟩ := h.nft q stored n owned
  obtain ⟨owned'', attr'⟩ := h'.nft q (h.pool.trans stored) n owned'
  exact ⟨owned'', attr'.trans attr⟩

structure Apart (pid cid : ℕ) (s s' : State A W) : Prop where
  pools : ∀ pid', pid' ≠ pid → s'.pools pid' = s.pools pid'
  nfts : ∀ c, c ≠ cid → SameNfts c s s'

theorem State.putPool_stored {s : State A W} {pid : ℕ} {q : PoolProxy A W}
    (stored : s.pools pid = some q) : s.putPool pid q = s := by
  unfold State.putPool
  rw [← stored, Function.update_eq_self]

@[simp] theorem State.putPool_putPool (s : State A W) (pid : ℕ) (q q' : PoolProxy A W) :
    (s.putPool pid q).putPool pid q' = s.putPool pid q' := by
  simp [State.putPool]

theorem State.putPool_comm {s : State A W} {pid pid' : ℕ} (h : pid ≠ pid') (q q' : PoolProxy A W) :
    (s.putPool pid q).putPool pid' q' = (s.putPool pid' q').putPool pid q := by
  simp [State.putPool, Function.update_comm h]

theorem Frame.view_stored {s : State A W} {pid : ℕ} {q : PoolProxy A W} {b : BasePool A}
    (stored : s.pools pid = some (q.withBase b)) : Frame.view ⟨pid, q, none⟩ b s = s :=
  State.putPool_stored stored

theorem Frame.view_locked {s : State A W} {pid k : ℕ} {q : PoolProxy A W} {b : BasePool A}
    {attr : NftAttr} (stored : s.pools pid = some (q.withBase b))
    (free : (b.cid, k) ∉ s.nftLocks) (found : s.nftAttr b.cid k = some attr) :
    Frame.view ⟨pid, q, some (k, attr)⟩ b (s.lockNft b.cid k) = s := by
  have same : s.setNftAttr b.cid k attr = s := by
    unfold State.setNftAttr
    rw [← found, Function.update_eq_self, Function.update_eq_self]
  calc Frame.view ⟨pid, q, some (k, attr)⟩ b (s.lockNft b.cid k)
      = (((s.setNftAttr b.cid k attr).lockNft b.cid k).unlockNft b.cid k).putPool pid
          (q.withBase b) := rfl
    _ = s := by rw [same, State.unlockNft_lockNft free, State.putPool_stored stored]

variable [DecidableEq A] {cfg : Config A W}

/-! ## Merging -/

def State.heldShares (s : State A W) (cid : ℕ) (a : A) : ℕ :=
  s.sharesIn cid (s.ownedInCollection cid a)

section HeldShares

variable {s s' : State A W} {cid : ℕ} {a : A}

theorem State.heldShares_eq_sum :
    s.heldShares cid a = ∑ n ∈ (s.ownedInCollection cid a).toFinset, s.sharesAt cid n :=
  (List.sum_toFinset _ State.ownedInCollection_nodup).symm

theorem State.mem_owned (tidy : Tidy cfg s) {n : ℕ} (owned : s.nftOwner cid n = some a) :
    n ∈ s.ownedInCollection cid a :=
  State.mem_ownedInCollection.2 ⟨tidy.minted cid n (by rw [owned]; rfl), owned⟩

theorem State.sharesAt_le_heldShares (tidy : Tidy cfg s) {n : ℕ}
    (owned : s.nftOwner cid n = some a) : s.sharesAt cid n ≤ s.heldShares cid a := by
  rw [State.heldShares_eq_sum]
  exact Finset.single_le_sum (f := s.sharesAt cid) (fun _ _ => Nat.zero_le _)
    (List.mem_toFinset.2 (State.mem_owned tidy owned))

theorem State.heldShares_of_sameNfts (nfts : SameNfts cid s s') (a : A) :
    s'.heldShares cid a = s.heldShares cid a := by
  unfold State.heldShares State.sharesIn State.sharesAt State.ownedInCollection
  rw [nfts.owner, nfts.attr, nfts.next]

theorem State.heldShares_le (tidy : Tidy cfg s)
    (kept : ∀ n, s'.nftOwner cid n = some a →
      s.nftOwner cid n = some a ∧ s'.sharesAt cid n ≤ s.sharesAt cid n) :
    s'.heldShares cid a ≤ s.heldShares cid a := by
  rw [State.heldShares_eq_sum, State.heldShares_eq_sum]
  have owned : ∀ n ∈ (s'.ownedInCollection cid a).toFinset, s'.nftOwner cid n = some a :=
    fun n mem => (State.mem_ownedInCollection.1 (List.mem_toFinset.1 mem)).2
  refine (Finset.sum_le_sum fun n mem => (kept n (owned n mem)).2).trans
    (Finset.sum_le_sum_of_subset fun n mem => ?_)
  exact List.mem_toFinset.2 (State.mem_owned tidy (kept n (owned n mem)).1)

theorem State.heldShares_mergeNfts (tidy : Tidy cfg s) :
    (s.mergeNfts cfg cid a).heldShares cid a = s.heldShares cid a := by
  have next : (s.burnNfts cfg cid (s.ownedInCollection cid a)).nextNftId cid =
      s.nextNftId cid := by rw [State.burnNfts_nextNftId]
  have owned : (s.mergeNfts cfg cid a).ownedInCollection cid a = [s.nextNftId cid] := by
    unfold State.ownedInCollection State.mergeNfts
    rw [State.mintNft_nextNftId, next, List.range_succ, List.filter_append]
    have old : (List.range (s.nextNftId cid)).filter (fun n => decide
        (((s.burnNfts cfg cid (s.ownedInCollection cid a)).mintNft cid a
          (s.sharesIn cid (s.ownedInCollection cid a))).nftOwner cid n = some a)) = [] := by
      rw [List.filter_eq_nil_iff]
      intro n mem
      have ne : n ≠ (s.burnNfts cfg cid (s.ownedInCollection cid a)).nextNftId cid := by
        rw [next]
        exact (List.mem_range.1 mem).ne
      rw [State.mintNft_nftOwner ne, State.burnNfts_nftOwner]
      split_ifs with burnt
      · simp
      · intro same
        exact burnt (State.mem_owned tidy (of_decide_eq_true same))
    have new : ((s.burnNfts cfg cid (s.ownedInCollection cid a)).mintNft cid a
        (s.sharesIn cid (s.ownedInCollection cid a))).nftOwner cid (s.nextNftId cid) = some a := by
      rw [← next]
      exact State.mintNft_nftOwner_new
    rw [old, List.nil_append, List.filter_singleton]
    simp [new]
  have shares : (s.mergeNfts cfg cid a).sharesAt cid (s.nextNftId cid) = s.heldShares cid a := by
    unfold State.mergeNfts
    rw [State.sharesAt_mintNft, if_pos next.symm]
    rfl
  rw [State.heldShares, State.sharesIn, owned, List.map_singleton, List.sum_singleton, shares]

end HeldShares

def Merged (cfg : Config A W) (cid : ℕ) (a : A) (s s' : State A W) : Prop :=
  s' = s ∨ s' = s.mergeNfts cfg cid a

theorem mergeNftForStaker_spec (cid : ℕ) (a : A) {s : State A W} (unlocked : s.nftLocks = ∅) :
    Sat (mergeNftForStaker cfg cid a) s
      (fun r s' => Merged cfg cid a s s' ∧
        (∀ n, r = some n → s'.nftOwner cid n = some a ∧ s'.sharesAt cid n = s.heldShares cid a) ∧
        (r = none → s.heldShares cid a = 0))
      (fun f => f.plain = true) := by
  refine Sat.get_bind ?_
  split
  · rename_i owned
    refine ⟨.inl rfl, by simp, fun _ => ?_⟩
    unfold State.heldShares State.sharesIn
    rw [owned]
    rfl
  · rename_i n owned
    refine ⟨.inl rfl, ?_, by rintro ⟨⟩⟩
    rintro _ ⟨⟩
    have mem : n ∈ s.ownedInCollection cid a := by rw [owned]; exact List.mem_singleton_self n
    refine ⟨(State.mem_ownedInCollection.1 mem).2, ?_⟩
    unfold State.heldShares State.sharesIn
    simp [owned]
  · refine (burnNfts_spec _ _ _ _ s).bind ?_ ?_
    · rintro f (⟨n, -, _, ⟨rfl, -⟩ | ⟨rfl, locked⟩, rfl⟩ | ⟨_, rfl, -⟩ | rfl)
      · rfl
      · simp [unlocked] at locked
      · rfl
      · rfl
    · rintro total _ ⟨-, -, rfl, rfl⟩
      refine (mintNft_spec _ _ _ _).bind (fun _ h => h) ?_
      rintro n _ ⟨rfl, rfl⟩
      rw [Nat.zero_add]
      refine ⟨.inr rfl, ?_, by rintro ⟨⟩⟩
      rintro _ ⟨⟩
      exact ⟨State.mintNft_nftOwner_new, by rw [State.sharesAt_mintNft, if_pos rfl]; rfl⟩

section Merged

variable {s s' : State A W} {cid : ℕ} {a : A}

omit [DecidableEq A] in
theorem State.burnNfts_putPool (pid : ℕ) (q : PoolProxy A W) (nfts : List ℕ) :
    (s.putPool pid q).burnNfts cfg cid nfts = (s.burnNfts cfg cid nfts).putPool pid q := by
  induction nfts generalizing s with
  | nil => rfl
  | cons n nfts ih => exact ih (s := s.burnNft cfg cid n)

theorem Merged.putPool (h : Merged cfg cid a s s') (pid : ℕ) (q : PoolProxy A W) :
    Merged cfg cid a (s.putPool pid q) (s'.putPool pid q) := by
  rcases h with rfl | rfl
  · exact .inl rfl
  · refine .inr ?_
    change _ = ((s.putPool pid q).burnNfts cfg cid _).mintNft cid a _
    rw [State.burnNfts_putPool]
    rfl

theorem Merged.eq (h : Merged cfg cid a s s') :
    s' = { s with nftOwner := s'.nftOwner, nftAttr := s'.nftAttr, nextNftId := s'.nextNftId } := by
  rcases h with rfl | rfl
  · rfl
  · unfold State.mergeNfts
    rw [State.burnNfts_eq]
    rfl

theorem Merged.pools (h : Merged cfg cid a s s') : s'.pools = s.pools := by rw [h.eq]

theorem Merged.nftLocks (h : Merged cfg cid a s s') : s'.nftLocks = s.nftLocks := by rw [h.eq]

theorem Merged.wpha (h : Merged cfg cid a s s') : s'.wpha = s.wpha := by rw [h.eq]

theorem Merged.sameNfts (h : Merged cfg cid a s s') {c : ℕ} (other : c ≠ cid) :
    SameNfts c s s' := by
  rcases h with rfl | rfl
  · exact .refl c s'
  · exact (SameNfts.burnNfts cfg other _).trans (.mintNft other _ _)

theorem Merged.keeps (h : Merged cfg cid a s s') (tidy : Tidy cfg s) {o : A} (ne : a ≠ o) {n : ℕ}
    (owned : s.nftOwner cid n = some o) :
    s'.nftOwner cid n = some o ∧ s'.nftAttr cid n = s.nftAttr cid n := by
  rcases h with rfl | rfl
  · exact ⟨owned, rfl⟩
  · have unburnt : n ∉ s.ownedInCollection cid a := by
      intro mem
      have := (State.mem_ownedInCollection.1 mem).2
      exact ne (Option.some.inj (this.symm.trans owned))
    have old : n ≠ (s.burnNfts cfg cid (s.ownedInCollection cid a)).nextNftId cid := by
      rw [State.burnNfts_nextNftId]
      exact (tidy.minted cid n (by rw [owned]; rfl)).ne
    unfold State.mergeNfts
    rw [State.mintNft_nftOwner old, State.mintNft_nftAttr old, State.burnNfts_nftOwner,
      if_neg unburnt, State.burnNfts_nftAttr unburnt]
    exact ⟨owned, rfl⟩

theorem Merged.heldShares (h : Merged cfg cid a s s') (tidy : Tidy cfg s) :
    s'.heldShares cid a = s.heldShares cid a := by
  rcases h with rfl | rfl
  · rfl
  · exact State.heldShares_mergeNfts tidy

theorem Merged.alike (h : Merged cfg cid a s s') (tidy : Tidy cfg s) (ne : a ≠ cfg.palletId)
    (pid : ℕ) : Alike cfg pid s s' := by
  refine ⟨by rw [h.pools], fun q _ n owned => ?_⟩
  by_cases hc : q.basepool.cid = cid
  · rw [hc] at owned ⊢
    exact h.keeps tidy ne owned
  · rw [(h.sameNfts hc).owner, (h.sameNfts hc).attr]
    exact ⟨owned, rfl⟩

variable [DecidableEq W] {P : State A W → Label A → Prop}

theorem Merged.run (h : Merged cfg cid a s s') (tidy : Tidy cfg s) (allowed : P s (.merge a))
    {pid : ℕ} {q : PoolProxy A W} {b : BasePool A} (stored : s.pools pid = some (q.withBase b))
    (hcid : b.cid = cid) : Run cfg P s s' := by
  subst hcid
  rcases h with rfl | rfl
  · exact .refl
  · exact .share allowed (.merge stored (tidy.vacant _))

end Merged

variable [DecidableEq W] {P : State A W → Label A → Prop} {s : State A W}

theorem Run.ready {s' : State A W} (run : Run cfg P s s') (h : Ready cfg s) : Ready cfg s' :=
  ⟨run.tidy h.tidy, run.nftLocks.trans h.unlocked⟩

/-! ## Pools and accounts -/

omit [DecidableEq A] [DecidableEq W] in
theorem ensureStakePool_spec (pid : ℕ) (s : State A W) :
    Sat (ensureStakePool pid) s (fun p s' => s.pools pid = some (.stakePool p) ∧ s' = s)
      (fun f => f.plain = true) := by
  refine Sat.get_bind ?_
  split
  · exact ⟨by assumption, rfl⟩
  · rfl
  · rfl

omit [DecidableEq A] [DecidableEq W] in
theorem ensureVault_spec (pid : ℕ) (s : State A W) :
    Sat (ensureVault pid) s (fun u s' => s.pools pid = some (.vault u) ∧ s' = s)
      (fun f => f.plain = true) := by
  refine Sat.get_bind ?_
  split
  · exact ⟨by assumption, rfl⟩
  · rfl
  · rfl

def ActsFor (s : State A W) (who : A) (asVault : Option ℕ) (a : A) : Prop :=
  match asVault with
  | none => a = who
  | some vaultPid =>
    ∃ u, s.pools vaultPid = some (.vault u) ∧ u.basepool.owner = who ∧
      a = u.basepool.poolAccountId

omit [DecidableEq W] in
theorem StakePoolV2.actingAccount_spec (who : A) (asVault : Option ℕ) (s : State A W) :
    Sat (StakePoolV2.actingAccount who asVault) s (fun a s' => ActsFor s who asVault a ∧ s' = s)
      (fun f => f.plain = true) := by
  cases asVault with
  | none => exact ⟨rfl, rfl⟩
  | some vaultPid =>
    refine (ensureVault_spec vaultPid s).bind (fun _ h => h) ?_
    rintro u s ⟨stored, rfl⟩
    refine Sat.get_bind (Sat.ensure_bind (fun _ => ?_) fun _ => rfl)
    exact Sat.ensure_bind (fun owner => ⟨⟨u, stored, owner.symm, rfl⟩, rfl⟩) fun _ => rfl

section Client

variable {q : PoolProxy A W} {a : A}

omit [DecidableEq A] [DecidableEq W] in
theorem PoolProxy.Client.holder (client : q.Client cfg s a) (tidy : Tidy cfg s) : cfg.Holder a := by
  rcases client with signer | ⟨-, pid, u, stored, rfl⟩
  · exact .inl signer
  · exact tidy.holder stored

omit [DecidableEq A] [DecidableEq W] in
theorem PoolProxy.Client.of_pools {s' : State A W} (client : q.Client cfg s a)
    (pools : s'.pools = s.pools) : q.Client cfg s' a := by
  unfold PoolProxy.Client
  rwa [pools]

omit [DecidableEq A] [DecidableEq W] in
theorem ActsFor.client {who : A} {asVault : Option ℕ} (acts : ActsFor s who asVault a)
    (signer : asVault = none → cfg.role who = .signer) (p : StakePool A W) :
    (PoolProxy.stakePool p).Client cfg s a := by
  cases asVault with
  | none =>
    obtain rfl : a = who := acts
    exact .inl (signer rfl)
  | some vaultPid =>
    obtain ⟨u, stored, -, rfl⟩ := acts
    exact .inr ⟨⟨p, rfl⟩, vaultPid, u, stored, rfl⟩

end Client

/-! ## Contributing -/

omit [DecidableEq W] in
theorem BasePool.ensureWhitelisted_spec (b : BasePool A) (a : A) (s : State A W) :
    Sat (b.ensureWhitelisted a) s (fun _ s' => s' = s) (fun f => f.plain = true) := by
  refine Sat.get_bind ?_
  split
  · exact sat_ensure.2 ⟨fun _ => rfl, fun _ => rfl⟩
  · rfl

theorem BasePool.contribute_spec {pid amount : ℕ} {q : PoolProxy A W} {b : BasePool A} {a : A}
    (lenient : Lenient cfg P) (ready : Ready cfg s) (stored : s.pools pid = some (q.withBase b))
    (client : q.Client cfg s a) (least : cfg.minContribution ≤ amount)
    (allowed : ∀ v, Alike cfg pid s v → v.wpha = s.wpha → P v (.contribute pid a amount)) :
    Sat (BasePool.contribute cfg b a amount) s
      (fun r s' => Run cfg P s (Frame.view ⟨pid, q, none⟩ r.2 s') ∧ s'.nftLocks = ∅ ∧
        s'.pools = s.pools ∧ b.Keeps r.2)
      (Excused cfg P s) := by
  have holder := client.holder ready.tidy
  refine Sat.ensure_bind (fun _ => ?_) fun broke => ?_
  swap
  · refine .blame (.bankrupt stored ?_ ?_) <;> rw [PoolProxy.basepool_withBase] <;> omega
  refine (b.ensureWhitelisted_spec a s).bind (fun _ h => .plain h) ?_
  rintro _ s rfl
  refine (mergeNftForStaker_spec b.cid a ready.unlocked).bind (fun _ h => .plain h) ?_
  rintro _ s₁ ⟨merged, -⟩
  have run := merged.run ready.tidy (lenient.merge s a holder) stored rfl
  have tidy := run.tidy ready.tidy
  have stored₁ : s₁.pools pid = some (q.withBase b) := by rw [merged.pools, stored]
  refine (convert_spec _ _).bind (fun _ h => .plain h) ?_
  rintro shares s₁ ⟨bought, rfl⟩
  refine (Sat.mapFault (mintNft_spec _ _ _ _) (E := Excused cfg P s)
    fun f plain => .plain (Fault.plain_expect plain rfl)).bind (fun _ h => h) ?_
  rintro _ _ ⟨-, rfl⟩
  refine (Sat.mapFault (Assets.transfer_spec _ _ _ _) (E := Excused cfg P s) ?_).bind
    (fun _ h => h) ?_
  · rintro _ (⟨rfl, -⟩ | ⟨rfl, -⟩) <;> exact .plain rfl
  rintro _ _ ⟨funded, opened, rfl⟩
  refine ⟨run.trans (Run.share (allowed s₁ (merged.alike ready.tidy holder.ne_palletId pid)
    merged.wpha) ?_), merged.nftLocks.trans ready.unlocked, merged.pools, rfl⟩
  exact .contribute stored₁ (client.of_pools merged.pools) least funded opened bought
    (tidy.vacant _)

omit [DecidableEq A] [DecidableEq W] in
theorem Frame.fits_none {pid : ℕ} {q : PoolProxy A W} {b : BasePool A} (unlocked : s.nftLocks = ∅) :
    Frame.Fits cfg ⟨pid, q, none⟩ b s :=
  ⟨unlocked, by rintro _ _ ⟨⟩⟩

theorem StakePoolV2.subscribe_spec {pid : ℕ} {p : StakePool A W} {b : BasePool A}
    (asVault : Option ℕ) (lenient : Lenient cfg P) (stored : s.pools pid = some (.stakePool p)) :
    Sat (StakePoolV2.subscribe pid b asVault) s
      (fun b' s' => Run cfg P (Frame.view ⟨pid, .stakePool p, none⟩ b s)
          (Frame.view ⟨pid, .stakePool p, none⟩ b' s') ∧ s'.nftLocks = s.nftLocks ∧
        b'.cid = b.cid ∧ ∀ vaultPid, asVault = some vaultPid → vaultPid ≠ pid ∧
          vaultPid ∈ b'.valueSubscribers ∧
          ∃ u, s'.pools vaultPid = some (.vault u) ∧ pid ∈ u.investPools)
      (fun f => f.plain = true) := by
  cases asVault with
  | none => exact ⟨.refl, rfl, rfl, by rintro _ ⟨⟩⟩
  | some vaultPid =>
    refine (ensureVault_spec vaultPid s).bind (fun _ h => h) ?_
    rintro u s ⟨storedVault, rfl⟩
    have ne : vaultPid ≠ pid := by
      rintro rfl
      rw [stored] at storedVault
      cases storedVault
    have nodup : u.investPools.Nodup →
        (if pid ∈ u.investPools then u.investPools else u.investPools ++ [pid]).Nodup := by
      intro nodup
      split_ifs with mem
      · exact nodup
      · exact nodup.append (List.nodup_singleton pid) (by simpa using mem)
    have kept : u.investPools ⊆
        (if pid ∈ u.investPools then u.investPools else u.investPools ++ [pid]) := by
      split_ifs
      · exact List.Subset.refl _
      · exact List.subset_append_left _ _
    refine Sat.alter_bind ⟨?_, rfl, rfl, ?_⟩
    swap
    · rintro _ ⟨⟩
      refine ⟨ne, ?_, _, State.putPool_self _ _ _, ?_⟩
      · change vaultPid ∈ if vaultPid ∈ b.valueSubscribers then b.valueSubscribers
          else b.valueSubscribers ++ [vaultPid]
        split_ifs with mem
        · exact mem
        · simp
      · change pid ∈ if pid ∈ u.investPools then u.investPools else u.investPools ++ [pid]
        split_ifs with mem
        · exact mem
        · simp
    have invest : SideEffect cfg .free (Frame.view ⟨pid, .stakePool p, none⟩ b s)
        ((Frame.view ⟨pid, .stakePool p, none⟩ b s).putPool vaultPid (.vault { u with
          investPools := if pid ∈ u.investPools then u.investPools
            else u.investPools ++ [pid] })) :=
      .setVault ((State.putPool_of_ne ne).trans storedVault) nodup kept
    refine (Run.side lenient invest).trans (Run.side lenient ?_)
    -- Storing the vault and then the pool in memory is storing the pool last.
    have order : ∀ (u' : PoolProxy A W) (b' : BasePool A),
        Frame.view ⟨pid, .stakePool p, none⟩ b' (s.putPool vaultPid u') =
          ((Frame.view ⟨pid, .stakePool p, none⟩ b s).putPool vaultPid u').putPool pid
            (.stakePool { p with basepool := b' }) := by
      intro u' b'
      unfold Frame.view
      rw [State.putPool_comm ne.symm, State.putPool_putPool]
      rfl
    rw [order]
    refine .setStakePool (p := { p with basepool := b })
      ((State.putPool_of_ne ne.symm).trans Frame.view_pools) ?_
    split_ifs
    · exact List.Subset.refl _
    · exact List.subset_append_left _ _

omit [DecidableEq W] in
theorem WrappedBalances.maybeSubscribeToPool_spec (who : A) (pid cid : ℕ) (s : State A W) :
    Sat (WrappedBalances.maybeSubscribeToPool who pid cid) s
      (fun _ s' => (∃ accounts, s' = { s with stakerAccounts := accounts }) ∧ KeepsVotes s s' ∧
        (∀ a, s.investedIn a ⊆ s'.investedIn a) ∧ (pid, cid) ∈ s'.investedIn who)
      (fun _ => False) := by
  refine Sat.get_bind (sat_alter.2 ⟨⟨_, rfl⟩, .putStakerAccount ?_,
    State.investedIn_putStakerAccount ?_, ?_⟩)
  · unfold State.locked
    cases s.stakerAccounts who <;> rfl
  · have old : s.investedIn who = ((s.stakerAccounts who).getD ⟨[], 0⟩).investPools := by
      unfold State.investedIn
      cases s.stakerAccounts who <;> rfl
    rw [old]
    split_ifs
    · exact List.Subset.refl _
    · exact List.subset_append_left _ _
  · unfold State.investedIn
    dsimp only
    rw [Function.update_self, Option.map_some, Option.getD_some]
    split_ifs with mem
    · exact mem
    · simp

def State.Lists (s : State A W) (pid : ℕ) (who : A) : Prop :=
  ∃ q, s.pools pid = some q ∧ (pid, q.basepool.cid) ∈ s.investedIn who

structure Enrolled (s : State A W) (pid : ℕ) (who : A) (asVault : Option ℕ) : Prop where
  listed : asVault = none → s.Lists pid who
  indexed : ∀ vaultPid, asVault = some vaultPid → ∃ u p, s.pools vaultPid = some (.vault u) ∧
    s.pools pid = some (.stakePool p) ∧ pid ∈ u.investPools ∧
    vaultPid ∈ p.basepool.valueSubscribers

theorem StakePoolV2.contribute_spec {who : A} {pid amount : ℕ} {asVault : Option ℕ}
    (lenient : Lenient cfg P) (ready : Ready cfg s) (signer : cfg.role who = .signer)
    (allowed : ∀ a, ActsFor s who asVault a → ∀ v, Alike cfg pid s v → v.wpha = s.wpha →
      P v (.contribute pid a amount))
    (fills : ∀ v, P v (.fill pid)) :
    Sat (StakePoolV2.contribute cfg who pid amount asVault) s
      (fun _ s' => Run cfg P s s' ∧ Enrolled s' pid who asVault) (Excused cfg P s) := by
  refine (actingAccount_spec who asVault s).bind (fun _ h => .plain h) ?_
  rintro a s ⟨acts, rfl⟩
  refine (ensureStakePool_spec pid s).bind (fun _ h => .plain h) ?_
  rintro p s ⟨stored, rfl⟩
  have client := acts.client (fun _ => signer) p
  have holder := client.holder ready.tidy
  refine Sat.ensure_bind (fun least => ?_) fun _ => .plain rfl
  refine Sat.get_bind (Sat.ensure_bind (fun _ => ?_) fun _ => .plain rfl)
  refine (BasePool.contribute_spec (q := .stakePool p) lenient ready stored client least
    (allowed a acts)).bind (fun _ h => h) ?_
  rintro ⟨shares, b₁⟩ s₁ ⟨run₁, unlocked₁, pools₁, keeps₁⟩
  refine (subscribe_spec asVault lenient (by rw [pools₁, stored])).bind (fun _ h => .plain h) ?_
  rintro b₂ s₂ ⟨run₂, unlocked₂, cid₂, subscribed⟩
  have fits₂ : Frame.Fits cfg ⟨pid, .stakePool p, none⟩ b₂ s₂ :=
    Frame.fits_none (unlocked₂.trans unlocked₁)
  refine (BasePool.tryProcessWithdrawQueue_spec fits₂ fun _ _ => fills).bind
    (fun _ h => (h.after run₂).after run₁) ?_
  intro b₃ s₃ queue
  refine Sat.ensure_bind (fun _ => ?_) fun _ => .plain rfl
  refine Sat.alter_bind ?_
  have run₃ : Run cfg P s (s₃.putPool pid (.stakePool { p with basepool := b₃ })) :=
    (run₁.trans run₂).trans queue.run
  have ready₃ := run₃.ready ready
  refine (mergeNftForStaker_spec b₃.cid a ready₃.unlocked).bind (fun _ h => .plain h) ?_
  rintro _ s₄ ⟨merged, -⟩
  have run₄ := run₃.trans (merged.run ready₃.tidy (lenient.merge _ a holder)
    (q := .stakePool p) (b := b₃) (State.putPool_self _ _ _) rfl)
  have stored₄ : s₄.pools pid = some (.stakePool { p with basepool := b₃ }) := by
    rw [merged.pools, State.putPool_self]
  refine sat_when.2 ⟨fun alone => ?_, fun asked => ⟨run₄, ?_, ?_⟩⟩
  · refine (WrappedBalances.maybeSubscribeToPool_spec a pid b₃.cid s₄).mono ?_ fun _ h => h.elim
    rintro _ _ ⟨⟨accounts, rfl⟩, votes, lists, listed⟩
    refine ⟨run₄.trans (Run.side lenient (.other (.set lists) votes)), fun none => ?_, ?_⟩
    · subst none
      obtain rfl : a = who := acts
      exact ⟨_, stored₄, listed⟩
    · rintro vaultPid rfl
      cases alone
  · rintro rfl
    cases asked
  · intro vaultPid asVault
    obtain ⟨ne, subscriber, u, storedVault, invested⟩ := subscribed vaultPid asVault
    refine ⟨u, _, ?_, stored₄, invested, ?_⟩
    · rw [merged.pools, State.putPool_of_ne ne, queue.pools, storedVault]
    · change vaultPid ∈ b₃.valueSubscribers
      rw [queue.keeps]
      exact subscriber

/-! ## Withdrawing -/

theorem StakePoolV2.inQueueShares_spec {F : Frame A W} {b : BasePool A} {site : PanicSite} {who : A}
    (plain : (Fault.panic site none).plain = true) (fits : F.Fits cfg b s) :
    Sat (StakePoolV2.inQueueShares site b who) s (fun _ s' => s' = s)
      (Excused cfg P (F.view b s)) := by
  unfold StakePoolV2.inQueueShares
  split
  · rename_i w first
    refine (Sat.mapFault (readNftAttr_spec _ _ s) (E := Excused cfg P (F.view b s)) ?_).bind
      (fun _ h => h) ?_
    · rintro _ (⟨rfl, -⟩ | ⟨rfl, locked⟩)
      · exact .plain (Fault.plain_expect rfl plain)
      · exact .blame (BasePool.blame_locked rfl fits (List.mem_of_find?_eq_some first) locked)
    · rintro _ _ ⟨-, -, rfl⟩
      rfl
  · rfl

theorem StakePoolV2.withdrawShares_spec {site : PanicSite} {noNft invalid : Fault} {pid : ℕ}
    {q : PoolProxy A W} {who : A} {shares : ℕ} (lenient : Lenient cfg P) (ready : Ready cfg s)
    (plain : (Fault.panic site none).plain = true) (plainNoNft : noNft.plain = true)
    (plainInvalid : invalid.plain = true) (stored : s.pools pid = some q)
    (client : q.Client cfg s who)
    (priced : ∀ v, Alike cfg pid s v → P v (.request pid who shares))
    (priceless : q.basepool.sharePrice = some none → ∀ v, Alike cfg pid s v → P v (.reduce pid))
    (fills : ∀ v, P v (.fill pid)) :
    Sat (StakePoolV2.withdrawShares cfg site noNft invalid pid q who shares) s
      (fun _ s' => Run cfg P s s' ∧ Apart pid q.basepool.cid s s') (Excused cfg P s) := by
  have holder := client.holder ready.tidy
  have storedBase : s.pools pid = some (q.withBase q.basepool) := by
    rw [PoolProxy.withBase_basepool, stored]
  refine (mergeNftForStaker_spec q.basepool.cid who ready.unlocked).bind (fun _ h => .plain h) ?_
  rintro nft? s₁ ⟨merged, owner, -⟩
  have run₁ := merged.run ready.tidy (lenient.merge s who holder) storedBase rfl
  have ready₁ := run₁.ready ready
  have stored₁ : s₁.pools pid = some (q.withBase q.basepool) := by rw [merged.pools, storedBase]
  refine Sat.demand_bind (fun k hk => ?_) fun _ => .plain plainNoNft
  obtain ⟨owned, -⟩ := owner k hk
  refine (getNftAttrGuard_spec _ _ s₁).bind ?_ ?_
  · rintro _ (⟨rfl, -⟩ | ⟨rfl, locked⟩)
    · exact .plain rfl
    · simp [ready₁.unlocked] at locked
  rintro ⟨_, k, attr⟩ _ ⟨free, found, rfl, rfl, rfl⟩
  have view := Frame.view_locked stored₁ free found
  have fits : Frame.Fits cfg ⟨pid, q, some (k, attr)⟩ q.basepool (s₁.lockNft q.basepool.cid k) := by
    refine ⟨?_, ?_⟩
    · simp [State.lockNft, ready₁.unlocked]
    · rintro _ _ ⟨⟩
      exact ⟨who, holder, owned⟩
  refine (inQueueShares_spec plain fits).bind (fun _ h => (view ▸ h).after run₁) ?_
  rintro inQueue _ rfl
  refine Sat.ensure_bind (fun ok => ?_) fun _ => .plain plainInvalid
  have nondust : 1000 < shares := by
    have := ok.1
    simp only [isNondustBalance, balanceCloseToZero] at this
    simpa using this
  have alike := merged.alike ready.tidy holder.ne_palletId pid
  refine (BasePool.tryWithdraw_spec fits holder (view.symm ▸ client.of_pools merged.pools) owned
    nondust (ready₁.tidy.vacant _) (fun _ _ => view.symm ▸ priced s₁ alike)
    (fun h => view.symm ▸ priceless h s₁ alike) fills).bind (fun _ h => (view ▸ h).after run₁) ?_
  rintro ⟨b, nft⟩ s₂ ⟨run₂, -, pools₂, nfts₂, keeps⟩
  rw [view] at run₂
  refine (NftGuard.save_spec _ _ _).bind (fun _ h => h.elim) ?_
  rintro _ s₃ saved
  replace run₂ : Run cfg P s (s₃.putPool pid (q.withBase b)) := by
    rw [saved, ← keeps.cid]
    exact run₁.trans run₂
  have ready₃ := run₂.ready ready
  have unlocked₃ : s₃.nftLocks = ∅ := ready₃.unlocked
  refine (mergeNftForStaker_spec b.cid who unlocked₃).bind (fun _ h => .plain h) ?_
  rintro _ s₄ ⟨merged₄, -⟩
  refine ⟨run₂.trans ((merged₄.putPool pid (q.withBase b)).run ready₃.tidy
    (lenient.merge _ who holder) (State.putPool_self _ _ _) rfl), fun pid' ne => ?_, fun c ne => ?_⟩
  · calc (s₄.putPool pid (q.withBase b)).pools pid'
        = s₄.pools pid' := State.putPool_of_ne ne
      _ = s₂.pools pid' := by rw [merged₄.pools, saved]; rfl
      _ = s.pools pid' := by rw [pools₂]; exact congrFun merged.pools pid'
  · have same₃ : SameNfts c s₂ s₃ := by
      rw [saved]
      exact ⟨rfl, State.setNftAttr_other ne, rfl⟩
    have same₁ : SameNfts c s₁ (s₁.lockNft q.basepool.cid k) := ⟨rfl, rfl, rfl⟩
    have same₄ : SameNfts c s₄ (s₄.putPool pid (q.withBase b)) := ⟨rfl, rfl, rfl⟩
    exact ((((merged.sameNfts ne).trans same₁).trans (nfts₂ c ne)).trans same₃).trans
      ((merged₄.sameNfts (keeps.cid.symm ▸ ne)).trans same₄)

theorem StakePoolV2.withdraw_spec {who : A} {pid shares : ℕ} {asVault : Option ℕ}
    (lenient : Lenient cfg P) (ready : Ready cfg s)
    (signer : asVault = none → cfg.role who = .signer)
    (priced : ∀ a, ActsFor s who asVault a → ∀ v, Alike cfg pid s v → P v (.request pid a shares))
    (priceless : ∀ p, s.pools pid = some (.stakePool p) → p.basepool.sharePrice = some none →
      ∀ v, Alike cfg pid s v → P v (.reduce pid))
    (fills : ∀ v, P v (.fill pid)) :
    Sat (StakePoolV2.withdraw cfg who pid shares asVault) s
      (fun _ s' => Run cfg P s s' ∧ ∃ p, s.pools pid = some (.stakePool p) ∧
        Apart pid p.basepool.cid s s')
      (Excused cfg P s) := by
  refine (actingAccount_spec who asVault s).bind (fun _ h => .plain h) ?_
  rintro a s ⟨acts, rfl⟩
  refine (ensureStakePool_spec pid s).bind (fun _ h => .plain h) ?_
  rintro p s ⟨stored, rfl⟩
  refine (withdrawShares_spec lenient ready rfl rfl rfl stored (acts.client signer p)
    (priced a acts) (priceless p stored) fills).mono ?_ fun _ h => h
  rintro _ s' ⟨run, apart⟩
  exact ⟨run, p, stored, apart⟩

/-! ## Expiry -/

namespace BasePool

omit [DecidableEq A] [DecidableEq W] in
theorem elapsed_spec (now startTime : ℕ) (s : State A W) :
    Sat (elapsed now startTime) s (fun _ s' => s' = s) (fun f => f.plain = true) := by
  exact Sat.ensure_bind (fun _ => rfl) fun _ => rfl

omit [DecidableEq A] [DecidableEq W] in
theorem overdue_spec (period : Option ℕ) (now startTime : ℕ) (s : State A W) :
    Sat (overdue period now startTime) s (fun _ s' => s' = s) (fun f => f.plain = true) := by
  cases period with
  | none => rfl
  | some period =>
    refine (elapsed_spec now startTime s).bind (fun _ h => h) ?_
    rintro _ _ rfl
    rfl

omit [DecidableEq A] [DecidableEq W] in
theorem expiredFrom_spec (b : BasePool A) (price : FixedPoint) (now grace : ℕ) (period : Option ℕ)
    (budget : ℕ) (queue : List (WithdrawInfo A)) (unlocked : s.nftLocks = ∅) :
    Sat (b.expiredFrom price now grace period budget queue) s (fun _ s' => s' = s)
      (fun f => f.plain = true) := by
  induction queue generalizing budget with
  | nil => rfl
  | cons w rest ih =>
    refine (overdue_spec period now w.startTime s).bind (fun _ h => h) ?_
    rintro late s rfl
    refine Sat.ite (fun _ => rfl) fun _ => ?_
    refine (expect_readNftAttr_spec _ _ unlocked rfl).bind (fun _ h => h) ?_
    rintro nft s ⟨-, rfl⟩
    refine (convert_spec _ s).bind (fun _ h => h) ?_
    rintro amount s ⟨-, rfl⟩
    refine Sat.ite (fun _ => ?_) fun _ => ih _
    refine (elapsed_spec now w.startTime s).bind (fun _ h => h) ?_
    rintro _ _ rfl
    rfl

omit [DecidableEq A] [DecidableEq W] in
theorem hasExpiredWithdrawal_spec (b : BasePool A) (now grace : ℕ) (period : Option ℕ)
    (releasing : ℕ) (unlocked : s.nftLocks = ∅) :
    Sat (b.hasExpiredWithdrawal now grace period releasing) s (fun _ s' => s' = s)
      (fun f => f.plain = true) := by
  refine (convert_spec _ s).bind (fun _ h => h) ?_
  rintro (_ | price) s ⟨-, rfl⟩
  · rfl
  · refine Sat.ite (fun _ => rfl) fun _ => ?_
    refine (getFreeStakes_spec b s).bind (fun _ h => h.elim) ?_
    rintro free s ⟨-, rfl⟩
    exact expiredFrom_spec b price now grace period _ _ unlocked

end BasePool

end Cyrux
