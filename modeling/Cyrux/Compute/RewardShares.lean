import Cyrux.Compute.Mock
import Cyrux.Compute.RewardSpec
import Cyrux.Compute.ShareConservation

/-!
# The parts of a reward
-/

namespace Cyrux

open Exec

variable {A W : Type} [DecidableEq A]

/-! ## Rounding -/

theorem scale_unscale_le (u : ℕ) : scale (unscale u) ≤ u := by
  have h := scale_add_unscale_le 0 u
  rwa [Nat.zero_add, scale_eq_zero.2 rfl, Nat.zero_add] at h

theorem sum_scale_le {α : Type} (f : α → ℕ) (l : List α) :
    (l.map fun a => scale (f a)).sum ≤ scale (l.map f).sum := by
  induction l with
  | nil => exact Nat.zero_le _
  | cons a l ih =>
    exact (Nat.add_le_add_left ih _).trans (scale_add_le _ _)

theorem sum_parts_le {α : Type} (c : α → ℕ) (r t : ℕ) (l : List α) :
    (l.map fun a => unscale (c a * r / t)).sum ≤ unscale ((l.map c).sum * r / t) := by
  induction l with
  | nil => exact Nat.zero_le _
  | cons a l ih =>
    rw [List.map_cons, List.sum_cons, List.map_cons, List.sum_cons, Nat.add_mul]
    calc unscale (c a * r / t) + (l.map fun a => unscale (c a * r / t)).sum
        ≤ unscale (c a * r / t) + unscale ((l.map c).sum * r / t) := Nat.add_le_add_left ih _
      _ ≤ unscale (c a * r / t + (l.map c).sum * r / t) := unscale_add_le _ _
      _ ≤ unscale ((c a * r + (l.map c).sum * r) / t) := unscale_mono Nat.div_add_div_le_add_div

theorem part_of_ratio {c t r : ℕ} (within : c ≤ t) (small : r < 2 ^ 80) {shares total : FixedPoint}
    (counted : shares.bits = c * 2 ^ 16) (all : total.bits = t * 2 ^ 16) {ratio : FixedPoint}
    (divided : shares.checkedDiv total = some ratio) {reward : FixedPoint}
    (converted : toFixed r = some reward) :
    ∃ stakeRatio settled, fromFixed ratio = some stakeRatio ∧
      Balance.mul stakeRatio reward = some settled ∧ settled ≤ unscale (c * scale r / t) := by
  obtain ⟨nonzero, bits⟩ := Fixed.checkedDiv_eq_some.1 divided
  rw [counted, all] at bits
  have pos : 0 < t := by omega
  have exact : ratio.bits = c * 2 ^ 64 / t := by
    rw [bits, Nat.mul_right_comm]
    exact Nat.mul_div_mul_right _ _ (by norm_num)
  have one : ratio.bits ≤ 2 ^ 64 := by
    rw [exact]
    refine Nat.div_le_of_le_mul ?_
    exact Nat.mul_le_mul_right _ within
  have short : ratio.bits / 2 ^ 16 ≤ 2 ^ 48 := by omega
  have product : ratio.bits / 2 ^ 16 * 2 ^ 16 * t ≤ c * 2 ^ 64 := by
    calc ratio.bits / 2 ^ 16 * 2 ^ 16 * t ≤ ratio.bits * t :=
          Nat.mul_le_mul_right _ (Nat.div_mul_le_self _ _)
      _ ≤ c * 2 ^ 64 := by
          rw [exact]
          exact Nat.div_mul_le_self _ _
  obtain ⟨-, rewardBits⟩ := toFixed_eq_some.1 converted
  set u := ratio.bits / 2 ^ 16 with hu
  -- In scaled units, the part is at most the product of the exact ratio and the reward.
  have part : scale (unscale u) * reward.bits / 2 ^ 64 ≤ c * scale r / t := by
    rw [Nat.le_div_iff_mul_le pos, rewardBits]
    have cut : scale (unscale u) * (scale r * 2 ^ 16) / 2 ^ 64 * 2 ^ 64 ≤
        u * (scale r * 2 ^ 16) :=
      (Nat.div_mul_le_self _ _).trans (Nat.mul_le_mul_right _ (scale_unscale_le u))
    refine Nat.le_of_mul_le_mul_right ?_ (show 0 < 2 ^ 64 by norm_num)
    calc scale (unscale u) * (scale r * 2 ^ 16) / 2 ^ 64 * t * 2 ^ 64
        = scale (unscale u) * (scale r * 2 ^ 16) / 2 ^ 64 * 2 ^ 64 * t := by ring
      _ ≤ u * (scale r * 2 ^ 16) * t := Nat.mul_le_mul_right _ cut
      _ = u * 2 ^ 16 * t * scale r := by ring
      _ ≤ c * 2 ^ 64 * scale r := Nat.mul_le_mul_right _ product
      _ = c * scale r * 2 ^ 64 := by ring
  have ratioSmall : unscale u ≤ PHA := by
    calc unscale u ≤ unscale (2 ^ 48) := unscale_mono short
      _ = PHA := Nat.mul_div_cancel_left _ (by norm_num)
  have rewardLe : scale (unscale u) * reward.bits / 2 ^ 64 ≤ scale r := by
    refine part.trans (Nat.div_le_of_le_mul ?_)
    exact Nat.mul_le_mul_right _ within
  refine ⟨unscale u, _, fromFixed_eq_some.2 ⟨?_, rfl⟩, Balance.mul_of_fits ?_ ?_,
    unscale_mono part⟩
  · calc u * PHA ≤ 2 ^ 48 * PHA := Nat.mul_le_mul_right _ short
      _ < 2 ^ 128 := by norm_num [PHA]
  · exact ratioSmall.trans_lt (by norm_num [PHA])
  · calc scale (unscale u) * reward.bits / 2 ^ 64 * PHA ≤ scale r * PHA :=
          Nat.mul_le_mul_right _ rewardLe
      _ ≤ r * 2 ^ 48 := scale_mul_le r
      _ < 2 ^ 128 := by
          exact Nat.mul_lt_mul_of_pos_right small (by norm_num)

/-! ## What is counted -/

def BasePool.requestsOf (b : BasePool A) (a : A) : List (WithdrawInfo A) :=
  b.withdrawQueue.filter fun w => w.user = a

def State.nftsOf (s : State A W) (b : BasePool A) (a : A) : List ℕ :=
  s.ownedInCollection b.cid a ++ (b.requestsOf a).map WithdrawInfo.nftId

def State.counted (s : State A W) (b : BasePool A) (a : A) : ℕ :=
  scale (s.heldShares b.cid a) +
    ((b.requestsOf a).map fun w => scale (s.sharesAt b.cid w.nftId)).sum

structure Rewardable (cfg : Config A W) (b : BasePool A) (s : State A W) : Prop where
  ready : Ready cfg s
  stored : ∃ pid p, s.pools pid = some (.stakePool p) ∧ p.basepool.cid = b.cid
  known : b.cid ∈ s.collections
  nfts : (b.withdrawQueue.map WithdrawInfo.nftId).Nodup
  owned : ∀ w ∈ b.withdrawQueue, s.nftOwner b.cid w.nftId = some cfg.palletId
  covered : s.liveShares b.cid ≤ b.totalShares
  small : b.totalShares < 2 ^ 80

section Counted

variable {cfg : Config A W} {s : State A W} {b : BasePool A} {a : A}

theorem State.counted_le_scale : s.counted b a ≤ scale (s.sharesIn b.cid (s.nftsOf b a)) := by
  have split : s.sharesIn b.cid (s.nftsOf b a) = s.heldShares b.cid a +
      ((b.requestsOf a).map fun w => s.sharesAt b.cid w.nftId).sum := by
    unfold State.sharesIn State.nftsOf State.heldShares State.sharesIn
    rw [List.map_append, List.sum_append, List.map_map]
    rfl
  rw [split]
  exact (Nat.add_le_add_left (sum_scale_le _ _) _).trans (scale_add_le _ _)

theorem Rewardable.nftsOf_nodup (h : Rewardable cfg b s) {accounts : List A}
    (nodup : accounts.Nodup) (foreign : ∀ a ∈ accounts, a ≠ cfg.palletId) :
    (accounts.flatMap (s.nftsOf b)).Nodup := by
  have request : ∀ {a n}, n ∈ (b.requestsOf a).map WithdrawInfo.nftId →
      ∃ w ∈ b.withdrawQueue, w.user = a ∧ w.nftId = n := by
    intro a n mem
    obtain ⟨w, requested, rfl⟩ := List.mem_map.1 mem
    obtain ⟨queued, user⟩ := List.mem_filter.1 requested
    exact ⟨w, queued, of_decide_eq_true user, rfl⟩
  have apart : ∀ {a n a'}, a ∈ accounts → n ∈ s.ownedInCollection b.cid a →
      n ∉ (b.requestsOf a').map WithdrawInfo.nftId := by
    intro a n a' listed own queued
    obtain ⟨w, mem, -, rfl⟩ := request queued
    have := (State.mem_ownedInCollection.1 own).2
    rw [h.owned w mem] at this
    exact foreign a listed (Option.some.inj this).symm
  rw [List.nodup_flatMap]
  refine ⟨fun a listed => ?_, nodup.imp_of_mem fun {a a'} listed listed' ne => ?_⟩
  · refine List.nodup_append'.2 ⟨State.ownedInCollection_nodup, ?_, fun n own => apart listed own⟩
    exact h.nfts.sublist (List.filter_sublist.map _)
  · intro n mem mem'
    rcases List.mem_append.1 mem with own | queued
    · rcases List.mem_append.1 mem' with own' | queued'
      · have owner := (State.mem_ownedInCollection.1 own).2
        rw [(State.mem_ownedInCollection.1 own').2] at owner
        exact ne (Option.some.inj owner).symm
      · exact apart listed own queued'
    · rcases List.mem_append.1 mem' with own' | queued'
      · exact apart listed' own' queued
      · obtain ⟨w, first, rfl, rfl⟩ := request queued
        obtain ⟨w', second, rfl, same⟩ := request queued'
        have same : w = w' := List.inj_on_of_nodup_map h.nfts first second same.symm
        exact ne (congrArg WithdrawInfo.user same)

theorem Rewardable.sum_counted_le (h : Rewardable cfg b s) {accounts : List A}
    (nodup : accounts.Nodup) (foreign : ∀ a ∈ accounts, a ≠ cfg.palletId) :
    (accounts.map (s.counted b)).sum ≤ scale b.totalShares := by
  have minted : ∀ n ∈ accounts.flatMap (s.nftsOf b), n < s.nextNftId b.cid := by
    intro n mem
    obtain ⟨a, -, mem⟩ := List.mem_flatMap.1 mem
    rcases List.mem_append.1 mem with own | queued
    · exact (State.mem_ownedInCollection.1 own).1
    · obtain ⟨w, requested, rfl⟩ := List.mem_map.1 queued
      refine h.ready.tidy.minted _ _ ?_
      rw [h.owned w (List.mem_filter.1 requested).1]
      rfl
  have live : (s.burnNfts cfg b.cid (accounts.flatMap (s.nftsOf b))).liveShares b.cid +
      s.sharesIn b.cid (accounts.flatMap (s.nftsOf b)) = s.liveShares b.cid :=
    State.liveShares_burnNfts (h.nftsOf_nodup nodup foreign) minted
  have all : s.sharesIn b.cid (accounts.flatMap (s.nftsOf b)) =
      (accounts.map fun a => s.sharesIn b.cid (s.nftsOf b a)).sum := by
    unfold State.sharesIn
    rw [List.map_flatMap, List.flatMap_def, List.sum_flatten, List.map_map]
    rfl
  calc (accounts.map (s.counted b)).sum
      ≤ (accounts.map fun a => scale (s.sharesIn b.cid (s.nftsOf b a))).sum :=
        List.sum_le_sum fun a _ => State.counted_le_scale
    _ ≤ scale (accounts.map fun a => s.sharesIn b.cid (s.nftsOf b a)).sum := sum_scale_le _ _
    _ ≤ scale b.totalShares := scale_mono (by have := h.covered; omega)

end Counted

omit [DecidableEq A] in
theorem sat_convert_bind {α β : Type} {o : Option α} {a : α} {k : α → Pallet A W β}
    {s : State A W} {Q : β → State A W → Prop} {E : Fault → Prop} (converted : o = some a)
    (h : Sat (k a) s Q E) : Sat (convert o >>= k) s Q E := by
  rw [converted]
  exact Sat.pure_bind h

/-! ## Merging succeeds -/

section Merging

variable {cfg : Config A W} {s : State A W} {cid : ℕ} {a : A}

theorem burnNfts_returns {onRead : Fault → Fault} {site : PanicSite} {nfts : List ℕ} (total : ℕ)
    (nodup : nfts.Nodup) (unlocked : s.nftLocks = ∅)
    (owned : ∀ n ∈ nfts, s.nftOwner cid n = some a ∧ (s.nftAttr cid n).isSome) :
    Sat (burnNfts cfg onRead site a cid nfts total) s (fun _ _ => True) (fun _ => False) := by
  unfold burnNfts
  induction nfts generalizing s total with
  | nil => trivial
  | cons n nfts ih =>
    obtain ⟨fresh, nodup⟩ := List.nodup_cons.1 nodup
    obtain ⟨owner, found⟩ := owned n List.mem_cons_self
    rw [List.foldlM_cons, bind_assoc]
    refine (Sat.mapFault (readNftAttr_spec cid n s) (E := fun _ => False) ?_).bind
      (fun _ h => h) ?_
    · rintro _ (⟨-, missing⟩ | ⟨-, locked⟩)
      · rw [missing] at found
        cases found
      · simp [unlocked] at locked
    rintro attr s ⟨-, -, rfl⟩
    rw [bind_assoc]
    refine (Sat.mapFault (burnNft_spec a cid n s) (E := fun _ => False) ?_).bind
      (fun _ h => h) ?_
    · rintro _ ⟨-, foreign⟩
      exact foreign owner
    rintro _ _ ⟨-, rfl⟩
    refine Sat.pure_bind (ih (s := s.burnNft cfg cid n) _ nodup unlocked fun m mem => ?_)
    have ne : m ≠ n := ne_of_mem_of_not_mem mem fresh
    rw [State.burnNft_nftOwner ne, State.burnNft_nftAttr ne]
    exact owned m (List.mem_cons_of_mem _ mem)

theorem mergeNftForStaker_returns (ready : Ready cfg s) (known : cid ∈ s.collections) :
    Sat (mergeNftForStaker cfg cid a) s (fun _ _ => True)
      (fun f => f = .error (.basePool .nftIdNotFound)) := by
  refine Sat.get_bind ?_
  split
  · trivial
  · trivial
  · have owned : ∀ n ∈ s.ownedInCollection cid a,
        s.nftOwner cid n = some a ∧ (s.nftAttr cid n).isSome := by
      intro n mem
      have owner := (State.mem_ownedInCollection.1 mem).2
      exact ⟨owner, ready.tidy.attr cid n (by rw [owner]; rfl)⟩
    refine ((burnNfts_spec a cid _ 0 s).and (burnNfts_returns 0 State.ownedInCollection_nodup
      ready.unlocked owned)).bind (fun _ h => h.2.elim) ?_
    rintro total _ ⟨⟨-, -, -, rfl⟩, -⟩
    have collections : (s.burnNfts cfg cid (s.ownedInCollection cid a)).collections =
        s.collections := by rw [State.burnNfts_eq]
    have vacant : (s.burnNfts cfg cid (s.ownedInCollection cid a)).nftOwner cid
        ((s.burnNfts cfg cid (s.ownedInCollection cid a)).nextNftId cid) = none := by
      rw [State.burnNfts_nextNftId, State.burnNfts_nftOwner, ready.tidy.vacant, ite_self]
    refine Sat.bind (R := fun _ _ => True)
      (F := fun f => f = .error (.basePool .nftIdNotFound)) ?_ (fun _ h => h) fun _ _ _ => trivial
    refine Sat.get_bind (Sat.ensure_bind (fun _ => ?_) fun unknown => ?_)
    · refine Sat.bind (R := fun n s' => n = s'.nextNftId cid ∧
          s' = s.burnNfts cfg cid (s.ownedInCollection cid a))
        (F := fun f => f = .error (.basePool .nftIdNotFound)) ?_ (fun _ h => h) ?_
      · exact Sat.get_bind (Sat.ensure_bind (fun _ => ⟨rfl, rfl⟩) fun _ => rfl)
      · rintro n _ ⟨rfl, rfl⟩
        refine Sat.ensure_bind (fun _ => Sat.alter_bind trivial) fun taken => ?_
        rw [vacant] at taken
        exact absurd rfl taken
    · rw [collections] at unknown
      exact absurd known unknown

theorem Merged.heldShares_le {s' : State A W} (h : Merged cfg cid a s s') (tidy : Tidy cfg s)
    {o : A} (ne : o ≠ a) : s'.heldShares cid o ≤ s.heldShares cid o := by
  rcases h with rfl | rfl
  · exact le_rfl
  refine State.heldShares_le tidy fun n owned => ?_
  unfold State.mergeNfts at owned ⊢
  by_cases new : n = (s.burnNfts cfg cid (s.ownedInCollection cid a)).nextNftId cid
  · subst new
    rw [State.mintNft_nftOwner_new] at owned
    exact absurd (Option.some.inj owned).symm ne
  · rw [State.mintNft_nftOwner new, State.burnNfts_nftOwner] at owned
    split_ifs at owned with burnt
    rw [State.sharesAt_mintNft, if_neg new, State.sharesAt_burnNfts burnt]
    exact ⟨owned, le_rfl⟩

end Merging

/-! ## One subscriber -/

namespace BasePool

variable {cfg : Config A W} {s : State A W} {b : BasePool A}

omit [DecidableEq A] in
theorem queuedShares_counts {x bound : ℕ} {own : FixedPoint} {requests : List (WithdrawInfo A)}
    (unlocked : s.nftLocks = ∅) (start : own.bits = x * 2 ^ 16) (fits : bound * 2 ^ 16 < 2 ^ 128)
    (live : ∀ w ∈ requests, ∃ nft, (s.nftOwner b.cid w.nftId).isSome ∧
      s.nftAttr b.cid w.nftId = some nft ∧ nft.shares < 2 ^ 80)
    (within : x + (requests.map fun w => scale (s.sharesAt b.cid w.nftId)).sum ≤ bound) :
    Sat (queuedShares b.cid own requests) s
      (fun total s' => s' = s ∧ total.bits =
        (x + (requests.map fun w => scale (s.sharesAt b.cid w.nftId)).sum) * 2 ^ 16)
      (fun _ => False) := by
  unfold queuedShares
  induction requests generalizing x own with
  | nil => exact ⟨rfl, start⟩
  | cons w requests ih =>
    obtain ⟨nft, alive, found, few⟩ := live w List.mem_cons_self
    have shares : s.sharesAt b.cid w.nftId = nft.shares := State.sharesAt_of_attr alive found
    rw [List.map_cons, List.sum_cons, shares, ← Nat.add_assoc] at within ⊢
    rw [List.foldlM_cons, bind_assoc]
    refine (Sat.mapFault (readNftAttr_spec b.cid w.nftId s) (E := fun _ => False) ?_).bind
      (fun _ h => h) ?_
    · rintro _ (⟨-, missing⟩ | ⟨-, locked⟩)
      · rw [missing] at found
        cases found
      · simp [unlocked] at locked
    rintro attr s ⟨-, same, rfl⟩
    cases found.symm.trans same
    obtain ⟨v, converted⟩ := Balance.toFixed_of_lt few
    obtain ⟨-, bits⟩ := toFixed_eq_some.1 converted
    rw [bind_assoc]
    refine sat_convert_bind converted (Sat.pure_bind ?_)
    refine ih ?_ (fun w mem => live w (List.mem_cons_of_mem _ mem)) within
    have sum : (own.add v).bits = own.bits + v.bits := by
      refine Fixed.wrap_bits_of_lt ?_
      rw [start, bits, ← Nat.add_mul]
      exact (Nat.mul_le_mul_right _ (Nat.le_of_add_right_le within)).trans_lt fits
    rw [sum, start, bits, Nat.add_mul]

end BasePool

section Step

variable {cfg : Config A W} {s s' : State A W} {b : BasePool A} {a : A}

theorem Merged.requests (h : Merged cfg b.cid a s s') (rewardable : Rewardable cfg b s)
    (foreign : a ≠ cfg.palletId) (o : A) :
    ((b.requestsOf o).map fun w => scale (s'.sharesAt b.cid w.nftId)) =
      (b.requestsOf o).map fun w => scale (s.sharesAt b.cid w.nftId) := by
  refine List.map_congr_left fun w mem => ?_
  have queued : w ∈ b.withdrawQueue := (List.mem_filter.1 mem).1
  obtain ⟨owner, attr⟩ := h.keeps rewardable.ready.tidy foreign (rewardable.owned w queued)
  unfold State.sharesAt
  rw [owner, attr, rewardable.owned w queued]

theorem Merged.counted_le (h : Merged cfg b.cid a s s') (rewardable : Rewardable cfg b s)
    (foreign : a ≠ cfg.palletId) {o : A} (ne : o ≠ a) : s'.counted b o ≤ s.counted b o := by
  unfold State.counted
  rw [h.requests rewardable foreign]
  exact Nat.add_le_add_right (scale_mono (h.heldShares_le rewardable.ready.tidy ne)) _

variable [DecidableEq W]

theorem Rewardable.merged (h : Rewardable cfg b s) (merged : Merged cfg b.cid a s s')
    (foreign : a ≠ cfg.palletId) : Rewardable cfg b s' := by
  obtain ⟨pid, p, stored, cid⟩ := h.stored
  have run : Run cfg (fun _ _ => True) s s' :=
    merged.run h.ready.tidy trivial (q := .stakePool p) (b := p.basepool) stored cid
  refine ⟨run.ready h.ready, ⟨pid, p, by rw [merged.pools, stored], cid⟩, ?_, h.nfts,
    fun w mem => (merged.keeps h.ready.tidy foreign (h.owned w mem)).1, ?_, h.small⟩
  · rw [merged.eq]
    exact h.known
  · rcases merged with rfl | rfl
    · exact h.covered
    · rw [State.liveShares_mergeNfts]
      exact h.covered

theorem Rewardable.vaultReward (h : Rewardable cfg b s) {v x : ℕ} {u : Vault A}
    (vault : s.pools v = some (.vault u)) : Rewardable cfg b
      (s.putPool v (.vault { u with basepool := u.basepool.rewarded x })) := by
  obtain ⟨pid, p, stored, cid⟩ := h.stored
  have run : Run cfg (fun _ _ => True) s
      (s.putPool v (.vault { u with basepool := u.basepool.rewarded x })) :=
    .single ⟨_, trivial, .side (.vaultReward vault)⟩
  have ne : pid ≠ v := by
    rintro rfl
    rw [stored] at vault
    cases vault
  exact ⟨run.ready h.ready, ⟨pid, p, (State.putPool_of_ne ne).trans stored, cid⟩, h.known, h.nfts,
    h.owned, h.covered, h.small⟩

omit [DecidableEq A] [DecidableEq W] in
theorem ensureVault_returns {v : ℕ} {u : Vault A} (vault : s.pools v = some (.vault u)) :
    Sat (ensureVault v) s (fun u' s' => u' = u ∧ s' = s) (fun _ => False) := by
  refine Sat.get_bind ?_
  rw [vault]
  exact ⟨rfl, rfl⟩

def State.vaultAccount (s : State A W) (v : ℕ) : Option A :=
  match s.pools v with
  | some (.vault u) => some u.basepool.poolAccountId
  | _ => none

omit [DecidableEq A] [DecidableEq W] in
theorem State.vaultAccount_of_stored {v : ℕ} {u : Vault A} (vault : s.pools v = some (.vault u)) :
    s.vaultAccount v = some u.basepool.poolAccountId := by
  unfold State.vaultAccount
  rw [vault]

omit [DecidableEq A] [DecidableEq W] in
theorem State.vaultAccount_eq_some {v : ℕ} : s.vaultAccount v = some a ↔
    ∃ u, s.pools v = some (.vault u) ∧ u.basepool.poolAccountId = a := by
  constructor
  · intro account
    unfold State.vaultAccount at account
    split at account
    · exact ⟨_, by assumption, Option.some.inj account⟩
    · cases account
  · rintro ⟨u, vault, rfl⟩
    exact State.vaultAccount_of_stored vault

omit [DecidableEq A] [DecidableEq W] in
theorem Tidy.vaultAccount_inj (tidy : Tidy cfg s) {v w : ℕ} (hv : s.vaultAccount v = some a)
    (hw : s.vaultAccount w = some a) : v = w := by
  obtain ⟨u, stored, rfl⟩ := State.vaultAccount_eq_some.1 hv
  obtain ⟨u', stored', same⟩ := State.vaultAccount_eq_some.1 hw
  have role : cfg.role u'.basepool.poolAccountId = .staker w := (tidy.pool w _ stored').account
  have role' : cfg.role u.basepool.poolAccountId = .staker v := (tidy.pool v _ stored).account
  rw [same, role'] at role
  exact Role.staker.inj role

omit [DecidableEq W] in
theorem Rewardable.counted_le (h : Rewardable cfg b s) (foreign : a ≠ cfg.palletId) :
    s.counted b a ≤ scale b.totalShares := by
  have sum := h.sum_counted_le (List.nodup_singleton a) fun o mem =>
    List.mem_singleton.1 mem ▸ foreign
  rwa [List.map_singleton, List.sum_singleton] at sum

omit [DecidableEq A] [DecidableEq W] in
theorem Rewardable.nft (h : Rewardable cfg b s) {n : ℕ}
    (live : (s.nftOwner b.cid n).isSome) :
    ∃ nft, (s.nftOwner b.cid n).isSome ∧ s.nftAttr b.cid n = some nft ∧ nft.shares < 2 ^ 80 := by
  obtain ⟨nft, found⟩ := Option.isSome_iff_exists.1 (h.ready.tidy.attr b.cid n live)
  refine ⟨nft, live, found, ?_⟩
  have part : s.sharesAt b.cid n ≤ s.liveShares b.cid :=
    Finset.single_le_sum (f := s.sharesAt b.cid) (fun _ _ => Nat.zero_le _)
      (Finset.mem_range.2 (h.ready.tidy.minted b.cid n live))
  rw [State.sharesAt_of_attr live found] at part
  exact (part.trans h.covered).trans_lt h.small

namespace BasePool

omit [DecidableEq W] in
theorem distributeReward_vault {b : BasePool A} (depth rewards : ℕ)
    (leaf : b.valueSubscribers = []) :
    Sat (distributeReward cfg (depth + 1) b rewards) s
      (fun b' s' => b' = b.rewarded rewards ∧ s' = s) (fun _ => False) := by
  unfold distributeReward
  rw [leaf]
  exact ⟨by rw [rewarded, leaf], rfl⟩

theorem rewardSubscriber_credits {v r : ℕ} (depth : ℕ) {u : Vault A} (h : Rewardable cfg b s)
    (vault : s.pools v = some (.vault u)) (small : r < 2 ^ 80) :
    Sat (rewardSubscriber cfg (distributeReward cfg (depth + 1)) b r v) s
      (fun _ s' => Rewardable cfg b s' ∧
        (∀ o, o ≠ u.basepool.poolAccountId → s'.counted b o ≤ s.counted b o) ∧
        ∃ x ≤ unscale (s.counted b u.basepool.poolAccountId * scale r / scale b.totalShares),
          s'.pools = (s.putPool v (.vault { u with basepool := u.basepool.rewarded x })).pools)
      (fun f => f = .panic .rewardMerge (some (.basePool .nftIdNotFound))) := by
  have foreign : u.basepool.poolAccountId ≠ cfg.palletId :=
    (h.ready.tidy.holder vault).ne_palletId
  refine (Sat.mapFault (ensureVault_returns vault) (E := fun _ => False) fun _ h => h).bind
    (fun _ h => h.elim) ?_
  rintro u s ⟨rfl, rfl⟩
  refine (Sat.mapFault ((mergeNftForStaker_spec b.cid u.basepool.poolAccountId
    h.ready.unlocked).and (mergeNftForStaker_returns h.ready h.known))
    (E := fun f => f = .panic .rewardMerge (some (.basePool .nftIdNotFound))) ?_).bind
    (fun _ h => h) ?_
  · rintro f ⟨-, rfl⟩
    rfl
  rintro nft? s₁ ⟨⟨merged, kept, -⟩, -⟩
  have h₁ : Rewardable cfg b s₁ := h.merged merged foreign
  have others : ∀ o, o ≠ u.basepool.poolAccountId → s₁.counted b o ≤ s.counted b o :=
    fun o ne => merged.counted_le h foreign ne
  have same : s₁.pools =
      (s.putPool v (.vault { u with basepool := u.basepool.rewarded 0 })).pools := by
    rw [merged.pools]
    exact congrArg State.pools (State.putPool_stored vault).symm
  cases nft? with
  | none => exact ⟨h₁, others, 0, Nat.zero_le _, same⟩
  | some k =>
    obtain ⟨owned, shares⟩ := kept k rfl
    obtain ⟨nft, live, found, few⟩ := h₁.nft (n := k) (by rw [owned]; rfl)
    refine (Sat.mapFault (readNftAttr_spec b.cid k s₁) (E := fun _ => False) ?_).bind
      (fun _ h => h.elim) ?_
    · rintro _ (⟨-, missing⟩ | ⟨-, locked⟩)
      · rw [missing] at found
        cases found
      · simp [h₁.ready.unlocked] at locked
    rintro attr s₁ ⟨-, found', rfl⟩
    cases found.symm.trans found'
    rw [State.sharesAt_of_attr live found] at shares
    obtain ⟨own, ownConverted⟩ := Balance.toFixed_of_lt few
    obtain ⟨total, totalConverted⟩ := Balance.toFixed_of_lt h.small
    obtain ⟨reward, rewardConverted⟩ := Balance.toFixed_of_lt small
    obtain ⟨-, ownBits⟩ := toFixed_eq_some.1 ownConverted
    obtain ⟨-, totalBits⟩ := toFixed_eq_some.1 totalConverted
    have counted : scale nft.shares + ((b.requestsOf u.basepool.poolAccountId).map fun w =>
        scale (s₁.sharesAt b.cid w.nftId)).sum = s.counted b u.basepool.poolAccountId := by
      rw [shares, merged.requests h foreign]
      rfl
    have within : s.counted b u.basepool.poolAccountId ≤ scale b.totalShares :=
      h.counted_le foreign
    refine sat_convert_bind ownConverted ?_
    refine (queuedShares_counts h₁.ready.unlocked ownBits (totalBits ▸ total.bits_lt)
      (fun w mem => h₁.nft ?_) (counted.trans_le within)).bind (fun _ h => h.elim) ?_
    · rw [h₁.owned w (List.mem_filter.1 mem).1]
      rfl
    rintro sum s₁ ⟨rfl, sumBits⟩
    refine sat_convert_bind totalConverted ?_
    split
    · exact ⟨h₁, others, 0, Nat.zero_le _, same⟩
    · rename_i ratio divided
      obtain ⟨stakeRatio, settled, ratioConverted, multiplied, part⟩ :=
        part_of_ratio within small (sumBits.trans (by rw [counted])) totalBits divided
          rewardConverted
      refine sat_convert_bind ratioConverted (sat_convert_bind rewardConverted ?_)
      refine sat_convert_bind multiplied ?_
      have vault₁ : s₁.pools v = some (.vault u) := by rw [merged.pools, vault]
      have leaf := (h.ready.tidy.pool v _ vault).kind.1
      refine (distributeReward_vault depth settled leaf).bind (fun _ h => h.elim) ?_
      rintro _ s₁ ⟨rfl, rfl⟩
      refine sat_alter.2 ⟨h₁.vaultReward vault₁, others, settled, part, ?_⟩
      unfold State.putPool
      rw [merged.pools]

/-! ## All subscribers -/

def part (b : BasePool A) (r : ℕ) (s : State A W) (v : ℕ) : ℕ :=
  (s.vaultAccount v).elim 0 fun a => unscale (s.counted b a * scale r / scale b.totalShares)

omit [DecidableEq W] in
theorem part_of_stored {r v : ℕ} {u : Vault A} (vault : s.pools v = some (.vault u)) :
    b.part r s v =
      unscale (s.counted b u.basepool.poolAccountId * scale r / scale b.totalShares) := by
  unfold part
  rw [State.vaultAccount_of_stored vault, Option.elim_some]

theorem rewardSubscribers_credit {r : ℕ} (depth : ℕ) (small : r < 2 ^ 80) {subscribers : List ℕ}
    (nodup : subscribers.Nodup) (h : Rewardable cfg b s)
    (vaults : ∀ v ∈ subscribers, ∃ u, s.pools v = some (.vault u)) :
    Sat (each (rewardSubscriber cfg (distributeReward cfg (depth + 1)) b r) subscribers) s
      (fun _ s' => (∀ pid, pid ∉ subscribers → s'.pools pid = s.pools pid) ∧
        ∃ rise : ℕ → ℕ, (∀ v ∈ subscribers, ∃ u, s.pools v = some (.vault u) ∧
          s'.pools v = some (.vault { u with basepool := u.basepool.rewarded (rise v) })) ∧
          (subscribers.map rise).sum ≤ (subscribers.map (b.part r s)).sum)
      (fun f => f = .panic .rewardMerge (some (.basePool .nftIdNotFound))) := by
  induction subscribers generalizing s with
  | nil => exact ⟨fun _ _ => rfl, fun _ => 0, by simp, le_rfl⟩
  | cons v subscribers ih =>
    obtain ⟨fresh, nodup⟩ := List.nodup_cons.1 nodup
    obtain ⟨u, vault⟩ := vaults v List.mem_cons_self
    refine (rewardSubscriber_credits depth h vault small).bind (fun _ h => h) ?_
    rintro _ s₁ ⟨h₁, others, x, part, pools⟩
    have frame : ∀ pid, pid ≠ v → s₁.pools pid = s.pools pid := fun pid ne => by
      rw [pools]
      exact State.putPool_of_ne ne
    have apart : ∀ w ∈ subscribers, w ≠ v := fun w mem => ne_of_mem_of_not_mem mem fresh
    refine (ih nodup h₁ fun w mem => ?_).mono ?_ fun _ h => h
    · rw [frame w (apart w mem)]
      exact vaults w (List.mem_cons_of_mem _ mem)
    rintro _ s₂ ⟨frame₂, rise, raised, parts⟩
    have raise : ∀ w ∈ subscribers, Function.update rise v x w = rise w :=
      fun w mem => Function.update_of_ne (apart w mem) _ _
    refine ⟨fun pid out => ?_, Function.update rise v x, fun w mem => ?_, ?_⟩
    · rw [frame₂ pid fun mem => out (List.mem_cons_of_mem _ mem)]
      exact frame pid fun same => out (same ▸ List.mem_cons_self)
    · rcases List.mem_cons.1 mem with rfl | mem
      · refine ⟨u, vault, ?_⟩
        rw [frame₂ w fresh, pools, Function.update_self]
        exact State.putPool_self _ _ _
      · obtain ⟨u', stored, raised⟩ := raised w mem
        rw [frame w (apart w mem)] at stored
        exact ⟨u', stored, by rw [raised, raise w mem]⟩
    · have later : ∀ w ∈ subscribers, b.part r s₁ w ≤ b.part r s w := by
        intro w mem
        obtain ⟨u', stored⟩ := vaults w (List.mem_cons_of_mem _ mem)
        have stored₁ : s₁.pools w = some (.vault u') := (frame w (apart w mem)).trans stored
        rw [part_of_stored stored, part_of_stored stored₁]
        refine unscale_mono (Nat.div_le_div_right (Nat.mul_le_mul_right _ ?_))
        refine others _ fun same => ?_
        exact apart w mem (h.ready.tidy.vaultAccount_inj (State.vaultAccount_of_stored stored)
          (same ▸ State.vaultAccount_of_stored vault))
      have first : x ≤ b.part r s v := by
        rw [part_of_stored vault]
        exact part
      rw [List.map_cons, List.sum_cons, List.map_cons, List.sum_cons, Function.update_self,
        List.map_congr_left raise]
      exact Nat.add_le_add first (parts.trans (List.sum_le_sum later))

omit [DecidableEq W] in
theorem sum_part_le {r : ℕ} {subscribers : List ℕ} (nodup : subscribers.Nodup)
    (h : Rewardable cfg b s) : (subscribers.map (b.part r s)).sum ≤ r := by
  have tidy := h.ready.tidy
  have accounts : (subscribers.filterMap s.vaultAccount).Nodup := by
    refine nodup.filterMap fun v w a hv hw => ?_
    exact tidy.vaultAccount_inj hv hw
  have foreign : ∀ a ∈ subscribers.filterMap s.vaultAccount, a ≠ cfg.palletId := by
    intro a mem
    obtain ⟨v, -, account⟩ := List.mem_filterMap.1 mem
    obtain ⟨u, stored, rfl⟩ := State.vaultAccount_eq_some.1 account
    exact (tidy.holder stored).ne_palletId
  have parts : (subscribers.map (b.part r s)).sum =
      ((subscribers.filterMap s.vaultAccount).map fun a =>
        unscale (s.counted b a * scale r / scale b.totalShares)).sum := by
    clear nodup accounts foreign
    induction subscribers with
    | nil => rfl
    | cons v subscribers ih =>
      rw [List.map_cons, List.sum_cons, ih]
      cases account : s.vaultAccount v with
      | none => rw [List.filterMap_cons_none account, part, account, Option.elim_none, Nat.zero_add]
      | some a => rw [List.filterMap_cons_some account, List.map_cons, List.sum_cons, part, account,
          Option.elim_some]
  calc (subscribers.map (b.part r s)).sum
      ≤ unscale (((subscribers.filterMap s.vaultAccount).map (s.counted b)).sum * scale r /
          scale b.totalShares) := parts.trans_le (sum_parts_le _ _ _ _)
    _ ≤ unscale (scale r) := by
        refine unscale_mono (Nat.div_le_of_le_mul ?_)
        exact Nat.mul_le_mul_right _ (h.sum_counted_le accounts foreign)
    _ ≤ r := unscale_scale_le r

end BasePool

end Step

open BasePool in
/-- The parts of a reward are at most the reward. -/
theorem reward_parts_le [DecidableEq W] {cfg : Config A W} {s : State A W} {p : StakePool A W}
    {pid r : ℕ} (depth : ℕ) (ready : Ready cfg s) (stored : s.pools pid = some (.stakePool p))
    (known : p.basepool.cid ∈ s.collections)
    (nfts : (p.basepool.withdrawQueue.map WithdrawInfo.nftId).Nodup)
    (owned : ∀ w ∈ p.basepool.withdrawQueue,
      s.nftOwner p.basepool.cid w.nftId = some cfg.palletId)
    (conserved : s.liveShares p.basepool.cid = p.basepool.totalShares)
    (distinct : p.basepool.valueSubscribers.Nodup)
    (vaults : ∀ v ∈ p.basepool.valueSubscribers, ∃ u, s.pools v = some (.vault u))
    (shares : p.basepool.totalShares < 2 ^ 80) (reward : r < 2 ^ 80) :
    Sat (distributeReward cfg (depth + 2) p.basepool r) s
      (fun b' s' => b' = { p.basepool with totalValue := p.basepool.totalValue + r } ∧
        (∀ pid', pid' ∉ p.basepool.valueSubscribers → s'.pools pid' = s.pools pid') ∧
        ∃ rise : ℕ → ℕ, (∀ v ∈ p.basepool.valueSubscribers, ∃ u, s.pools v = some (.vault u) ∧
          s'.pools v = some (.vault { u with basepool := { u.basepool with
            totalValue := u.basepool.totalValue + rise v } })) ∧
          (p.basepool.valueSubscribers.map rise).sum ≤ r)
      (fun f => f = .panic .rewardMerge (some (.basePool .nftIdNotFound))) := by
  have rewardable : Rewardable cfg (p.basepool.rewarded r) s :=
    ⟨ready, ⟨pid, p, stored, rfl⟩, known, nfts, owned, conserved.le, shares⟩
  unfold distributeReward
  refine (rewardSubscribers_credit depth reward distinct rewardable vaults).bind (fun _ h => h) ?_
  rintro _ s' ⟨frame, rise, raised, parts⟩
  exact ⟨rfl, frame, rise, raised, parts.trans (sum_part_le distinct rewardable)⟩

theorem reward_parts_le_two : ∃ s s' : State Mock.Account ℕ, ∃ p b',
    s.pools 0 = some (.stakePool p) ∧ p.basepool.valueSubscribers = [1, 2] ∧
      p.basepool.distributeReward Mock.runtime 2 (10 ^ 12) s = .ok (b', s') ∧
      b'.totalValue = p.basepool.totalValue + 10 ^ 12 ∧
      ∃ rise : ℕ → ℕ, (∀ v ∈ [1, 2], ∃ u, s.pools v = some (.vault u) ∧
        s'.pools v = some (.vault { u with basepool := { u.basepool with
          totalValue := u.basepool.totalValue + rise v } })) ∧ rise 1 + rise 2 ≤ 10 ^ 12 := by
  obtain ⟨s, reached, good⟩ := Mock.exists_reachable Mock.runtime (fun _ _ => True)
    (Mock.opening (10 ^ 15) (10 ^ 15) ++ [
      .signed Mock.alice .createVault,
      .signed Mock.bob .createVault,
      .signed Mock.alice (.contributeVault 1 (10 ^ 13)),
      .signed Mock.bob (.contributeVault 2 (10 ^ 13)),
      .signed Mock.alice (.contributeStakePool 0 (10 ^ 13) (some 1)),
      .signed Mock.bob (.contributeStakePool 0 (10 ^ 12) (some 2)),
      .signed Mock.bob (.contributeStakePool 0 (10 ^ 12) none)])
    (fun s => (Mock.stakePoolOf s).any fun p => p.basepool.cid ∈ s.collections ∧
      (p.basepool.withdrawQueue.map WithdrawInfo.nftId).Nodup ∧
      (∀ w ∈ p.basepool.withdrawQueue,
        s.nftOwner p.basepool.cid w.nftId = some Mock.runtime.palletId) ∧
      s.liveShares p.basepool.cid = p.basepool.totalShares ∧
      p.basepool.valueSubscribers = [1, 2] ∧ (s.vaultAccount 1).isSome ∧
      (s.vaultAccount 2).isSome ∧ p.basepool.totalShares < 2 ^ 80 ∧
      Mock.yields (p.basepool.distributeReward Mock.runtime 2 (10 ^ 12)) s fun _ => true)
    (by decide +kernel)
  obtain ⟨p, stored, good⟩ := (Option.any_eq_true _ _).1 good
  obtain ⟨known, nfts, owned, conserved, subscribers, first, second, shares, run⟩ :=
    of_decide_eq_true good
  obtain ⟨b', s', run, -⟩ := Mock.exists_of_yields run
  have stored : s.pools 0 = some (.stakePool p) := Mock.pools_of_stakePoolOf stored
  have vaults : ∀ v ∈ p.basepool.valueSubscribers, ∃ u, s.pools v = some (.vault u) := by
    have both : ∀ v ∈ [1, 2], (s.vaultAccount v).isSome := by simp [first, second]
    intro v mem
    obtain ⟨a, account⟩ := Option.isSome_iff_exists.1 (both v (subscribers ▸ mem))
    obtain ⟨u, vault, -⟩ := State.vaultAccount_eq_some.1 account
    exact ⟨u, vault⟩
  have bounds := reward_parts_le 0 reached.ready stored known nfts owned conserved
    (by rw [subscribers]; decide) vaults shares (show 10 ^ 12 < 2 ^ 80 by norm_num)
  obtain ⟨rfl, -, rise, raised, sum⟩ := bounds.of_ok run
  rw [subscribers] at raised sum
  exact ⟨s, s', p, _, stored, subscribers, run, rfl, rise, raised, sum⟩

end Cyrux
