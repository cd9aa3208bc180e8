import Cyrux.Compute.Tidy

/-!
# Calls in progress
-/

namespace Cyrux

variable {A W : Type}

structure Frame (A W : Type) where
  pid : ℕ
  proxy : PoolProxy A W
  held : Option (ℕ × NftAttr)

namespace Frame

def view (F : Frame A W) (b : BasePool A) (s : State A W) : State A W :=
  match F.held with
  | none => s.putPool F.pid (F.proxy.withBase b)
  | some (k, attr) =>
    ((s.setNftAttr b.cid k attr).unlockNft b.cid k).putPool F.pid (F.proxy.withBase b)

structure Fits (cfg : Config A W) (F : Frame A W) (b : BasePool A) (s : State A W) : Prop where
  locks : s.nftLocks = F.held.elim ∅ fun h => {(b.cid, h.1)}
  owner : ∀ k attr, F.held = some (k, attr) → ∃ a, cfg.Holder a ∧ s.nftOwner b.cid k = some a

end Frame

structure SameNfts (c : ℕ) (s s' : State A W) : Prop where
  owner : s'.nftOwner c = s.nftOwner c
  attr : s'.nftAttr c = s.nftAttr c
  next : s'.nextNftId c = s.nextNftId c

theorem SameNfts.refl (c : ℕ) (s : State A W) : SameNfts c s s := ⟨rfl, rfl, rfl⟩

theorem SameNfts.trans {c : ℕ} {s s' s'' : State A W} (h : SameNfts c s s')
    (h' : SameNfts c s' s'') : SameNfts c s s'' :=
  ⟨h'.owner.trans h.owner, h'.attr.trans h.attr, h'.next.trans h.next⟩

section SameNfts

variable {c cid n : ℕ} {s : State A W}

theorem SameNfts.mintNft (other : c ≠ cid) (a : A) (x : ℕ) : SameNfts c s (s.mintNft cid a x) := by
  obtain ⟨owner, attr, next⟩ := State.mintNft_other (s := s) (a := a) (x := x) other
  exact ⟨owner, attr, next⟩

theorem SameNfts.burnNft (cfg : Config A W) (other : c ≠ cid) :
    SameNfts c s (s.burnNft cfg cid n) :=
  ⟨(State.burnNft_other other).1, (State.burnNft_other other).2, rfl⟩

theorem SameNfts.burnNfts (cfg : Config A W) (other : c ≠ cid) (nfts : List ℕ) :
    SameNfts c s (s.burnNfts cfg cid nfts) :=
  ⟨(State.burnNfts_other other).1, (State.burnNfts_other other).2,
    by rw [State.burnNfts_nextNftId]⟩

theorem SameNfts.setNftAttr (other : c ≠ cid) (attr : NftAttr) :
    SameNfts c s (s.setNftAttr cid n attr) :=
  ⟨rfl, State.setNftAttr_other other, rfl⟩

theorem SameNfts.move [DecidableEq A] (cfg : Config A W) (source dest : A) (amount : ℕ) :
    SameNfts c s (s.move cfg source dest amount) :=
  ⟨rfl, rfl, rfl⟩

end SameNfts

def BasePool.Keeps (b b' : BasePool A) : Prop :=
  b' = { b with
    totalShares := b'.totalShares
    totalValue := b'.totalValue
    withdrawQueue := b'.withdrawQueue }

theorem BasePool.Keeps.refl (b : BasePool A) : b.Keeps b := rfl

theorem BasePool.Keeps.trans {b b' b'' : BasePool A} (h : b.Keeps b') (h' : b'.Keeps b'') :
    b.Keeps b'' := by
  unfold BasePool.Keeps at h h' ⊢
  rw [h']
  rw [h]

theorem BasePool.Keeps.cid {b b' : BasePool A} (h : b.Keeps b') : b'.cid = b.cid := by
  rw [h]

theorem Config.Holder.ne_palletId {cfg : Config A W} {a : A} (h : cfg.Holder a) :
    a ≠ cfg.palletId := by
  rintro rfl
  rcases h with h | ⟨pid, h⟩ <;> simp [cfg.role_palletId] at h

/-! ## Views -/

section View

variable {cfg : Config A W} {F : Frame A W} {b b' : BasePool A} {s : State A W} {n : ℕ}

@[simp] theorem Frame.view_pools : (F.view b s).pools F.pid = some (F.proxy.withBase b) := by
  unfold Frame.view
  split <;> exact State.putPool_self _ _ _

@[simp] theorem Frame.view_nftOwner : (F.view b s).nftOwner = s.nftOwner := by
  unfold Frame.view
  split <;> rfl

@[simp] theorem Frame.view_nextNftId : (F.view b s).nextNftId = s.nextNftId := by
  unfold Frame.view
  split <;> rfl

@[simp] theorem Frame.view_now : (F.view b s).now = s.now := by
  unfold Frame.view
  split <;> rfl

@[simp] theorem Frame.view_wpha : (F.view b s).wpha = s.wpha := by
  unfold Frame.view
  split <;> rfl

@[simp] theorem Frame.view_balance (a : A) : (F.view b s).balance a = s.balance a := by
  unfold State.balance
  rw [Frame.view_wpha]

theorem Frame.Fits.ne_held (fits : F.Fits cfg b s) (free : (b.cid, n) ∉ s.nftLocks) :
    ∀ k attr, F.held = some (k, attr) → n ≠ k := by
  rintro k attr held rfl
  rw [fits.locks, held] at free
  simp at free

theorem Frame.view_nftAttr (h : ∀ k attr, F.held = some (k, attr) → n ≠ k) :
    (F.view b s).nftAttr b.cid n = s.nftAttr b.cid n := by
  unfold Frame.view
  split
  · rfl
  · rename_i k attr held
    exact State.setNftAttr_nftAttr (h k attr held)

theorem Frame.view_putPool (cid : b'.cid = b.cid) :
    (F.view b s).putPool F.pid (F.proxy.withBase b') = F.view b' s := by
  unfold Frame.view State.putPool
  split
  · simp
  · simp [State.unlockNft, State.setNftAttr, cid]

theorem Frame.view_hold {pid k : ℕ} {q : PoolProxy A W} (x y : NftAttr) :
    (Frame.view ⟨pid, q, some (k, x)⟩ b s).setNftAttr b.cid k y =
      Frame.view ⟨pid, q, some (k, y)⟩ b s := by
  simp [Frame.view, State.setNftAttr, State.unlockNft, State.putPool]

/-! ### What the functions of `base_pool` do, seen through a view -/

theorem Frame.view_move [DecidableEq A] (source dest : A) (amount : ℕ) :
    (F.view b s).move cfg source dest amount = F.view b (s.move cfg source dest amount) := by
  unfold Frame.view
  split <;> rfl

theorem Frame.view_setNftAttr (h : ∀ k attr, F.held = some (k, attr) → n ≠ k) (x : NftAttr) :
    (F.view b s).setNftAttr b.cid n x = F.view b (s.setNftAttr b.cid n x) := by
  unfold Frame.view
  split
  · rfl
  · rename_i k attr held
    have comm := Function.update_comm (h k attr held) (some x) (some attr) (s.nftAttr b.cid)
    simp [State.unlockNft, State.setNftAttr, State.putPool, comm]

theorem Frame.view_burnNft (h : ∀ k attr, F.held = some (k, attr) → n ≠ k) :
    (F.view b s).burnNft cfg b.cid n = F.view b (s.burnNft cfg b.cid n) := by
  unfold Frame.view
  split
  · rfl
  · rename_i k attr held
    have comm := Function.update_comm (h k attr held) none (some attr) (s.nftAttr b.cid)
    cases hk : cfg.keepsAttr <;>
      simp [State.unlockNft, State.setNftAttr, State.putPool, State.burnNft, hk, comm]

theorem Frame.view_burnNfts {nfts : List ℕ}
    (h : ∀ n ∈ nfts, ∀ k attr, F.held = some (k, attr) → n ≠ k) :
    (F.view b s).burnNfts cfg b.cid nfts = F.view b (s.burnNfts cfg b.cid nfts) := by
  induction nfts generalizing s with
  | nil => rfl
  | cons n nfts ih =>
    change ((F.view b s).burnNft cfg b.cid n).burnNfts cfg b.cid nfts = _
    rw [Frame.view_burnNft (h n List.mem_cons_self),
      ih fun m hm => h m (List.mem_cons_of_mem _ hm)]
    rfl

theorem Frame.view_mintNft (h : ∀ k attr, F.held = some (k, attr) → s.nextNftId b.cid ≠ k) (a : A)
    (shares : ℕ) :
    (F.view b s).mintNft b.cid a shares = F.view b (s.mintNft b.cid a shares) := by
  unfold Frame.view
  split
  · rfl
  · rename_i k attr held
    have comm := Function.update_comm (h k attr held) (some ⟨shares⟩) (some attr) (s.nftAttr b.cid)
    simp [State.unlockNft, State.setNftAttr, State.putPool, State.mintNft, comm]

theorem Frame.view_sharesIn {nfts : List ℕ}
    (h : ∀ n ∈ nfts, ∀ k attr, F.held = some (k, attr) → n ≠ k) :
    (F.view b s).sharesIn b.cid nfts = s.sharesIn b.cid nfts := by
  unfold State.sharesIn
  congr 1
  refine List.map_congr_left fun n hn => ?_
  unfold State.sharesAt
  rw [Frame.view_nftOwner, Frame.view_nftAttr (h n hn)]

end View

/-! ## Failures -/

def Stuck [DecidableEq A] (cfg : Config A W) (v : State A W) (b : BasePool A) (w : WithdrawInfo A) :
    Prop :=
  v.nftOwner b.cid w.nftId ≠ some cfg.palletId ∨ v.nftAttr b.cid w.nftId = none ∨
  ∃ nft, v.nftAttr b.cid w.nftId = some nft ∧
    (b.totalShares < nft.shares ∨ b.sharePrice = some none ∨
      (∃ n price value, n ≤ nft.shares ∧ b.sharePrice = some (some price) ∧
        Balance.mul n price = some value ∧ b.totalValue < value) ∨
      ∃ amount, v.belowMinimum cfg w.user amount)

inductive Blame [DecidableEq A] (cfg : Config A W) (P : State A W → Label A → Prop)
    (v : State A W) : Fault → Prop
  /-- An NFT in a withdraw queue does not belong to the pallet. -/
  | locked {f : Fault} {pid : ℕ} {q : PoolProxy A W} {w : WithdrawInfo A}
      (cause : f.cause? = some (.basePool .attrLocked)) (stored : v.pools pid = some q)
      (queued : w ∈ q.basepool.withdrawQueue)
      (foreign : v.nftOwner q.basepool.cid w.nftId ≠ some cfg.palletId) : Blame cfg P v f
  /-- A pool has shares but no value. -/
  | bankrupt {pid : ℕ} {q : PoolProxy A W} (stored : v.pools pid = some q)
      (shares : q.basepool.totalShares ≠ 0) (value : q.basepool.totalValue = 0) :
      Blame cfg P v (.error (.basePool .poolBankrupt))
  /-- The front request of a queue that may be processed cannot be. -/
  | stuck {f : Fault} {pid : ℕ} {q : PoolProxy A W} {w : WithdrawInfo A}
      {rest : List (WithdrawInfo A)} (panic : f.isStuckPanic = true)
      (allowed : P v (.fill pid)) (stored : v.pools pid = some q)
      (queue : q.basepool.withdrawQueue = w :: rest)
      (stuck : Stuck cfg v q.basepool w) : Blame cfg P v f
  /-- A worker in cool down has no stake. -/
  | releasing {pid : ℕ} {p : StakePool A W} {w : W} (stored : v.pools pid = some (.stakePool p))
      (cooling : w ∈ p.cdWorkers) (unstaked : v.stakes (cfg.poolSubAccount pid w) = none) :
      Blame cfg P v (.panic .releasingStake none)
  /-- A bound worker is not assigned to a pool. -/
  | unassigned {session : A} {w : W} (bound : v.sessionBindings session = some w)
      (unassigned : v.workerAssignments w = none) : Blame cfg P v (.panic .removeWorker none)

def Excused [DecidableEq A] [DecidableEq W] (cfg : Config A W) (P : State A W → Label A → Prop)
    (v : State A W) (f : Fault) : Prop :=
  f.plain = true ∨ ∃ v', Run cfg P v v' ∧ Blame cfg P v' f

section Excused

variable [DecidableEq A] [DecidableEq W] {cfg : Config A W} {P : State A W → Label A → Prop}
  {v v' : State A W} {f : Fault}

theorem Excused.plain (h : f.plain = true) : Excused cfg P v f := .inl h

theorem Excused.blame (h : Blame cfg P v f) : Excused cfg P v f := .inr ⟨v, .refl, h⟩

theorem Excused.after (run : Run cfg P v v') (h : Excused cfg P v' f) : Excused cfg P v f := by
  rcases h with h | ⟨v'', run', h⟩
  · exact .inl h
  · exact .inr ⟨v'', run.trans run', h⟩

end Excused

end Cyrux
