import Mathlib
import Cyrux.Compute.Price
import Cyrux.Compute.WithdrawQueue

/-!
# Conservation of shares
-/

namespace Cyrux

variable {A W : Type}

def State.heldBy (v : State A W) (q : PoolProxy A W) : ℕ :=
  v.liveShares q.basepool.cid + q.ownerShares

def PoolProxy.Shares (rel : ℕ → ℕ → Prop) (v : State A W) (q : PoolProxy A W) : Prop :=
  rel (v.heldBy q) q.basepool.totalShares

theorem local_shares (rel : ℕ → ℕ → Prop) : Local (PoolProxy.Shares (A := A) (W := W) rel) := by
  refine ⟨fun {v x q q'} _ nfts same h => ?_⟩
  have live : x.liveShares q.basepool.cid = v.liveShares q.basepool.cid := by
    unfold State.liveShares State.sharesAt
    rw [nfts.owner, nfts.attr, nfts.next]
  unfold PoolProxy.Shares State.heldBy
  rw [same.cid, same.ownerShares, same.totalShares, live]
  exact h

/-! ## What the effects do to the live shares -/

section Live

variable {cfg : Config A W} {v : State A W} {cid : ℕ}

theorem Tidy.liveShares_nextCid (tidy : Tidy cfg v) : v.liveShares v.nextCid = 0 := by
  unfold State.liveShares
  rw [tidy.unused _ v.le_nextCid, Finset.sum_range_zero]

theorem State.liveShares_mergeNfts [DecidableEq A] (a : A) :
    (v.mergeNfts cfg cid a).liveShares cid = v.liveShares cid := by
  unfold State.mergeNfts
  rw [State.liveShares_mintNft]
  exact State.liveShares_burnNfts State.ownedInCollection_nodup
    fun n mem => (State.mem_ownedInCollection.1 mem).1

theorem State.liveShares_request {requests : List ℕ} {k shares : ℕ} {nft : NftAttr} {a : A}
    (tidy : Tidy cfg v) (found : v.nftAttr cid k = some nft) (owned : v.nftOwner cid k = some a)
    (holder : a ≠ cfg.palletId) (nodup : requests.Nodup)
    (kept : ∀ n ∈ requests, v.nftOwner cid n = some cfg.palletId)
    (enough : shares ≤ nft.shares + v.sharesIn cid requests) :
    (((v.burnNfts cfg cid requests).mintNft cid cfg.palletId shares).setNftAttr cid k
      ⟨nft.shares + v.sharesIn cid requests - shares⟩).liveShares cid = v.liveShares cid := by
  have lt : k < v.nextNftId cid := tidy.minted cid k (by rw [owned]; rfl)
  have unburnt : k ∉ requests := fun mem =>
    holder (Option.some.inj (owned.symm.trans (kept k mem)))
  have old : k ≠ (v.burnNfts cfg cid requests).nextNftId cid := by
    rw [State.burnNfts_nextNftId]
    exact lt.ne
  have live : (((v.burnNfts cfg cid requests).mintNft cid cfg.palletId shares).nftOwner cid
      k).isSome := by
    rw [State.mintNft_nftOwner old, State.burnNfts_nftOwner, if_neg unburnt, owned]
    rfl
  have burnt : (v.burnNfts cfg cid requests).liveShares cid + v.sharesIn cid requests =
      v.liveShares cid :=
    State.liveShares_burnNfts nodup fun n mem => tidy.minted cid n (by rw [kept n mem]; rfl)
  have own : ((v.burnNfts cfg cid requests).mintNft cid cfg.palletId shares).sharesAt cid k =
      nft.shares := by
    rw [State.sharesAt_mintNft, if_neg old, State.sharesAt_burnNfts unburnt,
      State.sharesAt_of_attr (by rw [owned]; rfl) found]
  set x := (v.burnNfts cfg cid requests).mintNft cid cfg.palletId shares with hx
  have minted : x.liveShares cid = (v.burnNfts cfg cid requests).liveShares cid + shares :=
    State.liveShares_mintNft
  have moved : (x.setNftAttr cid k ⟨nft.shares + v.sharesIn cid requests - shares⟩).liveShares cid +
      x.sharesAt cid k = x.liveShares cid + (nft.shares + v.sharesIn cid requests - shares) :=
    State.liveShares_setNftAttr live
      (by rw [hx, State.mintNft_nextNftId, State.burnNfts_nextNftId]; omega)
  omega

end Live

/-! ## Effects -/

section Effects

variable [DecidableEq A] {cfg : Config A W} {v v' : State A W} {l : Label A} {rel : ℕ → ℕ → Prop}

theorem ShareEffect.shares (effect : ShareEffect cfg l v v') (tidy : Tidy cfg v)
    (queues : QueuesOk cfg v) (zero : rel 0 0)
    (shift : ∀ {x y x' y'}, x' + y = x + y' → rel x y → rel x' y')
    (lost : ∀ pid q x x', l = .reduce pid → v.pools pid = some q → x' < x →
      rel x q.basepool.totalShares → rel x' q.basepool.totalShares)
    (h : Everywhere (PoolProxy.Shares rel) v) : Everywhere (PoolProxy.Shares rel) v' := by
  have loc : Local (PoolProxy.Shares (A := A) (W := W) rel) := local_shares rel
  -- The two sides of the pool change from `x` and `b` to `x'` and `b'`.
  have step : ∀ {pid q b b'} {x : State A W}, v.pools pid = some (PoolProxy.withBase b q) →
      b'.cid = b.cid → x.liveShares b.cid + b.totalShares = v.liveShares b.cid + b'.totalShares →
      (q.withBase b').Shares rel x := by
    intro pid q b b' x stored cid balance
    have old := h _ _ stored
    unfold PoolProxy.Shares State.heldBy at old ⊢
    rw [PoolProxy.basepool_withBase, PoolProxy.ownerShares_withBase] at old ⊢
    rw [cid]
    exact shift (by omega) old
  cases effect with
  | @merge _ pid q b a stored =>
    have merged : Merged cfg b.cid a v (v.mergeNfts cfg b.cid a) := .inr rfl
    refine loc.everywhere_nfts tidy stored ?_ merged.pools (fun c ne => merged.sameNfts ne) h ?_
    · rw [merged.eq]
    · exact step stored rfl (by rw [State.liveShares_mergeNfts])
  | @contribute _ pid q b a amount shares stored =>
    refine loc.everywhere_withBase tidy stored le_rfl rfl
      (fun c ne => (SameNfts.mintNft ne a shares).trans (.move cfg _ _ _)) h ?_
    have minted : ((v.mintNft b.cid a shares).move cfg a b.poolAccountId amount).liveShares b.cid =
        v.liveShares b.cid + shares := State.liveShares_mintNft
    exact step stored rfl (by rw [minted]; simp only; omega)
  | @request _ pid q b a shares k nft requests stored client found owned _ nodup kept _ enough =>
    refine loc.everywhere_withBase tidy stored ?_ (State.burnNfts_pools _)
      (fun c ne => ((SameNfts.burnNfts cfg ne _).trans (.mintNft ne _ _)).trans
        (.setNftAttr ne _)) h ?_
    · change v.now ≤ (v.burnNfts cfg b.cid requests).now
      rw [State.burnNfts_now]
    · exact step stored rfl (by rw [State.liveShares_request tidy found owned
        (client.holder tidy).ne_palletId nodup kept enough])
  | @reduce _ pid q b a shares k nft stored client found owned _ nondust enough =>
    refine loc.everywhere_nfts tidy stored le_rfl rfl (fun c ne => .setNftAttr ne _) h ?_
    have live : (v.nftOwner b.cid k).isSome := by rw [owned]; rfl
    have set : (v.setNftAttr b.cid k ⟨nft.shares - shares⟩).liveShares b.cid +
        v.sharesAt b.cid k = v.liveShares b.cid + (nft.shares - shares) :=
      State.liveShares_setNftAttr live (tidy.minted _ _ live)
    rw [State.sharesAt_of_attr live found] at set
    refine lost pid _ _ _ rfl stored ?_ (h _ _ stored)
    unfold State.heldBy
    rw [PoolProxy.basepool_withBase]
    omega
  | @dust _ pid q b w rest nft stored queue found owned covered =>
    refine loc.everywhere_withBase tidy stored le_rfl rfl (fun c ne => .burnNft cfg ne) h ?_
    have live : (v.nftOwner b.cid w.nftId).isSome := by rw [owned]; rfl
    have burnt : (v.burnNft cfg b.cid w.nftId).liveShares b.cid + v.sharesAt b.cid w.nftId =
        v.liveShares b.cid := State.liveShares_burnNft (tidy.minted _ _ live)
    rw [State.sharesAt_of_attr live found] at burnt
    exact step stored rfl (by simp only; omega)
  | @part _ pid q b w rest nft price n value amount stored queue found _ _ _ _ _ left covered =>
    refine loc.everywhere_withBase tidy stored le_rfl rfl
      (fun c ne => (SameNfts.setNftAttr ne _).trans (.move cfg _ _ _)) h ?_
    have owned := (PoolProxy.queueOk_withBase.1 (queues _ _ stored)).owned w
      (by rw [queue]; exact List.mem_cons_self)
    have live : (v.nftOwner b.cid w.nftId).isSome := by rw [owned]; rfl
    have set : (v.setNftAttr b.cid w.nftId ⟨nft.shares - n⟩).liveShares b.cid +
        v.sharesAt b.cid w.nftId = v.liveShares b.cid + (nft.shares - n) :=
      State.liveShares_setNftAttr live (tidy.minted _ _ live)
    rw [State.sharesAt_of_attr live found] at set
    refine step stored rfl ?_
    change (v.setNftAttr b.cid w.nftId ⟨nft.shares - n⟩).liveShares b.cid + _ = _ + (_ - _)
    omega
  | @full _ pid q b w rest nft price n value amount stored queue found owned _ _ _ _ _ _ covered =>
    refine loc.everywhere_withBase tidy stored le_rfl rfl (fun c ne =>
      ((SameNfts.setNftAttr ne _).trans (.burnNft cfg ne)).trans (.move cfg _ _ _)) h ?_
    have live : (v.nftOwner b.cid w.nftId).isSome := by rw [owned]; rfl
    have lt := tidy.minted _ _ live
    have set : (v.setNftAttr b.cid w.nftId ⟨0⟩).liveShares b.cid + v.sharesAt b.cid w.nftId =
        v.liveShares b.cid + 0 := State.liveShares_setNftAttr live lt
    have burnt : ((v.setNftAttr b.cid w.nftId ⟨0⟩).burnNft cfg b.cid w.nftId).liveShares b.cid +
        (v.setNftAttr b.cid w.nftId ⟨0⟩).sharesAt b.cid w.nftId =
        (v.setNftAttr b.cid w.nftId ⟨0⟩).liveShares b.cid := State.liveShares_burnNft lt
    rw [State.sharesAt_setNftAttr live, if_pos rfl] at burnt
    rw [State.sharesAt_of_attr live found] at set
    refine step stored rfl ?_
    change ((v.setNftAttr b.cid w.nftId ⟨0⟩).burnNft cfg b.cid w.nftId).liveShares b.cid + _ =
      _ + (_ - _)
    simp only at burnt
    omega
  | @gain _ pid u price divisor current shares stored =>
    refine loc.everywhere_putPool tidy stored le_rfl rfl (fun c _ => .refl c v) h ?_
    refine shift ?_ (h _ _ stored)
    change v.liveShares u.basepool.cid + (u.ownerShares + _) + u.basepool.totalShares =
      v.liveShares u.basepool.cid + u.ownerShares + (u.basepool.totalShares + _)
    omega
  | @claim _ pid u target shares stored enough =>
    refine loc.everywhere_putPool tidy stored le_rfl rfl (fun c ne => .mintNft ne _ _) h ?_
    refine shift ?_ (h _ _ stored)
    change (v.mintNft u.basepool.cid target shares).liveShares u.basepool.cid +
      (u.ownerShares - shares) + u.basepool.totalShares =
      v.liveShares u.basepool.cid + u.ownerShares + u.basepool.totalShares
    rw [State.liveShares_mintNft]
    omega
  | createStakePool =>
    refine loc.everywhere_addPool h ?_
    change rel (v.liveShares v.nextCid + 0) 0
    rwa [tidy.liveShares_nextCid]
  | createVault =>
    refine loc.everywhere_addPool h ?_
    change rel (v.liveShares v.nextCid + 0) 0
    rwa [tidy.liveShares_nextCid]

variable [DecidableEq W]

theorem Effect.shares (effect : Effect cfg l v v') (tidy : Tidy cfg v)
    (queues : QueuesOk cfg v) (zero : rel 0 0)
    (shift : ∀ {x y x' y'}, x' + y = x + y' → rel x y → rel x' y')
    (lost : ∀ pid q x x', l = .reduce pid → v.pools pid = some q → x' < x →
      rel x q.basepool.totalShares → rel x' q.basepool.totalShares)
    (h : Everywhere (PoolProxy.Shares rel) v) : Everywhere (PoolProxy.Shares rel) v' := by
  cases effect with
  | share effect => exact effect.shares tidy queues zero shift lost h
  | side effect => exact (local_shares rel).everywhere_of_sameShares effect.sameShares h

abbrev SharesCovered (v : State A W) : Prop := Everywhere (PoolProxy.Shares (· ≤ ·)) v

theorem Effect.sharesCovered (effect : Effect cfg l v v') (tidy : Tidy cfg v)
    (queues : QueuesOk cfg v) (h : SharesCovered v) : SharesCovered v' :=
  effect.shares tidy queues le_rfl (fun balance h => by omega)
    (fun _ _ _ _ _ _ less h => less.le.trans h) h

end Effects

/-! ## Runs -/

def State.priceless (s : State A W) (pid : ℕ) : Bool :=
  (s.pools pid).any fun q => q.basepool.sharePrice = some none ∧ q.basepool.totalShares ≠ 0

def State.invested (s : State A W) (pid : ℕ) : List ℕ :=
  match s.pools pid with
  | some (.vault u) => u.investPools
  | _ => []

def KeepsShares (cfg : Config A W) : State A W → Label A → Prop
  | v, .reduce pid => ∀ q, v.pools pid = some q → q.basepool.totalShares = 0
  | v, l => SparesPallet cfg v l

def Event.KeepsShares (cfg : Config A W) (s : State A W) : Event A W → Prop
  | .signed _ (.withdrawStakePool pid _ _) => s.priceless pid = false
  | .signed _ (.withdrawVault pid _) => s.priceless pid = false
  | .signed _ (.forceWithdrawVault pid) => ∀ pid' ∈ s.invested pid, s.priceless pid' = false
  | .signed _ (.claimOwnerShares _ target _) => target ≠ cfg.palletId
  | _ => True

instance [DecidableEq A] (cfg : Config A W) (s : State A W) (e : Event A W) :
    Decidable (e.KeepsShares cfg s) := by
  rcases e with ⟨who, call⟩ | m
  · apply @Call.casesOn _ _ _ call <;> intros <;> dsimp only [Event.KeepsShares] <;> infer_instance
  · exact isTrue trivial

theorem State.totalShares_eq_zero {s : State A W} {pid : ℕ} {q : PoolProxy A W}
    (priced : s.priceless pid = false) (stored : s.pools pid = some q)
    (none : q.basepool.sharePrice = some none) : q.basepool.totalShares = 0 := by
  unfold State.priceless at priced
  rw [stored, Option.any_some, decide_eq_false_iff_not] at priced
  by_contra nonzero
  exact priced ⟨none, nonzero⟩

theorem VaultPallet.Settles.sharePrice {u u' : Vault A} (h : VaultPallet.Settles u u')
    (none : u'.basepool.sharePrice = some none) : u'.basepool = u.basepool := by
  cases h with
  | idle => rfl
  | mark => rfl
  | @gain price _ current shares gains =>
    -- More shares only lower the price, which fits already.
    exfalso
    obtain ⟨-, -, nonzero, bits⟩ := BasePool.sharePrice_eq_some.1 gains.1
    obtain ⟨-, -, zero | large⟩ := BasePool.sharePrice_eq_none.1 none
    · exact nonzero (Nat.eq_zero_of_add_eq_zero_right zero)
    · have smaller : scale u.basepool.totalValue * 2 ^ 64 /
          scale (u.basepool.totalShares + (shares - u.basepool.totalShares)) ≤ price.bits := by
        rw [bits]
        exact Nat.div_le_div_left (scale_mono (Nat.le_add_right _ _))
          (Nat.pos_of_ne_zero (scale_eq_zero.not.2 nonzero))
      exact absurd price.bits_lt (Nat.not_lt.2 (large.trans smaller))

variable [DecidableEq A] {cfg : Config A W} {s : State A W} {e : Event A W}

omit [DecidableEq A] in
theorem KeepsShares.sparesPallet {v : State A W} {l : Label A} (h : KeepsShares cfg v l) :
    SparesPallet cfg v l := by
  cases l <;> first | exact h | trivial

theorem Event.KeepsShares.permits (h : e.KeepsShares cfg s) :
    Permits cfg (Cyrux.KeepsShares cfg) s e := by
  -- A pool without a price is one without shares, in every state that is like `s`.
  have reduce : ∀ {s : State A W} {pid q}, s.pools pid = some q → q.basepool.totalShares = 0 →
      ∀ v, Alike cfg pid s v → Cyrux.KeepsShares cfg v (.reduce pid) := by
    intro s pid q stored zero v alike q' stored'
    rw [alike.pool, stored] at stored'
    cases stored'
    exact zero
  unfold Permits
  split
  case h_2 =>
    refine ⟨fun _ _ _ _ => trivial, fun p stored none => ?_, fun _ => trivial⟩
    exact reduce stored (State.totalShares_eq_zero h stored none)
  case h_8 => exact ⟨fun _ => h, fun _ => h⟩
  case h_10 pid _ =>
    refine ⟨fun _ _ _ _ _ => trivial, fun _ _ _ _ => trivial, ?_, fun _ => trivial⟩
    intro s₁ settled u₁ stored₁ none
    obtain ⟨u, u', stored, settles, rfl⟩ :=
      (VaultPallet.doGainOwnerShare_settles pid s).of_ok settled
    obtain rfl : u₁ = u' := by
      rw [State.putPool_self] at stored₁
      cases stored₁
      rfl
    have same := settles.sharePrice none
    refine reduce stored₁ ?_
    rw [same] at none
    have zero := State.totalShares_eq_zero h stored none
    exact (congrArg BasePool.totalShares same).trans zero
  case h_11 pid =>
    refine ⟨fun _ _ _ _ _ => trivial, fun u stored pid' mem => ?_⟩
    refine ⟨fun _ _ _ _ => trivial, fun p stored' none => ?_, fun _ _ _ => trivial,
      fun _ _ _ _ _ _ => trivial⟩
    have invested : s.invested pid = u.investPools := by simp only [State.invested, stored]
    exact reduce stored' (State.totalShares_eq_zero (h pid' (invested ▸ mem)) stored' none)
  case h_14 => exact allowsRewards fun _ _ => trivial
  all_goals simp [AllowsGain, Cyrux.KeepsShares, Cyrux.SparesPallet]

variable [DecidableEq W]

def SharesConserved (cfg : Config A W) (v : State A W) : Prop :=
  QueuesOk cfg v ∧ Everywhere (PoolProxy.Shares (· = ·)) v

theorem sharesConserved_invariant :
    Invariant cfg (fun s e => e.KeepsShares cfg s) (SharesConserved cfg) (KeepsShares cfg) where
  genesis s h := ⟨fun pid q stored => by simp [h.pools pid] at stored,
    fun pid q stored => by simp [h.pools pid] at stored⟩
  lenient := ⟨fun _ => trivial, fun _ _ holder => holder.ne_palletId⟩
  permits _ _ _ _ _ ok := ok.permits
  preserved v v' l tidy h allowed effect := by
    refine ⟨effect.queuesOk tidy allowed.sparesPallet h.1, ?_⟩
    refine effect.shares tidy h.1 rfl (fun balance h => by omega) ?_ h.2
    rintro pid q x x' rfl stored less equal
    rw [allowed q stored] at equal
    omega

/-- The total shares of a pool are those in its NFTs and those of its owner. -/
theorem total_shares_conserved (reached : Reachable cfg (fun s e => e.KeepsShares cfg s) s) :
    ∀ pid q, s.pools pid = some q →
      q.basepool.totalShares = s.liveShares q.basepool.cid + q.ownerShares :=
  fun pid q stored => ((sharesConserved_invariant.reachable reached).2 pid q stored).symm

theorem total_shares_conserved_paid : ∃ s,
    Reachable Mock.runtime (fun s e => e.KeepsShares Mock.runtime s) s ∧ ∃ q,
      s.pools 0 = some q ∧ q.basepool.totalShares = 2000 ∧
      q.basepool.totalShares = s.liveShares q.basepool.cid + q.ownerShares := by
  obtain ⟨s, reached, paid⟩ := Mock.exists_reachable Mock.runtime
    (fun s e => e.KeepsShares Mock.runtime s)
    (Mock.opening (10 ^ 15) (10 ^ 15) ++ [
      .signed Mock.alice (.contributeStakePool 0 (10 ^ 12) none),
      .signed Mock.alice (.withdrawStakePool 0 (10 ^ 12 - 2000) none)])
    (fun s => (s.pools 0).any fun q => q.basepool.totalShares = 2000) (by decide +kernel)
  obtain ⟨q, stored, total⟩ := (Option.any_eq_true _ _).1 paid
  exact ⟨s, reached, q, stored, of_decide_eq_true total, total_shares_conserved reached 0 q stored⟩

theorem shares_lost_without_price : ∃ s, Reachable Mock.runtime (fun _ _ => True) s ∧ ∃ q,
    s.pools 0 = some q ∧ q.basepool.totalShares = 2000 ∧
      s.liveShares q.basepool.cid + q.ownerShares = 500 := by
  obtain ⟨s, reached, lost⟩ := Mock.exists_reachable Mock.runtime (fun _ _ => True)
    (Mock.opening (10 ^ 15) (10 ^ 15) ++ [
      .signed Mock.alice (.contributeStakePool 0 (10 ^ 12) none),
      .signed Mock.alice (.withdrawStakePool 0 (10 ^ 12 - 2000) none),
      Mock.settle 7 (4 * 10 ^ 10 * 2 ^ 64),
      .signed Mock.alice (.withdrawStakePool 0 1500 none)])
    (fun s => (s.pools 0).any fun q => q.basepool.totalShares = 2000 ∧
      s.liveShares q.basepool.cid + q.ownerShares = 500) (by decide +kernel)
  obtain ⟨q, stored, loss⟩ := (Option.any_eq_true _ _).1 lost
  exact ⟨s, reached, q, stored, of_decide_eq_true loss⟩

end Cyrux
