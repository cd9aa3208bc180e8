import Cyrux.Compute.Frame

/-!
# The withdraw queue as a run of effects
-/

namespace Cyrux

open Exec

variable {A W : Type} [DecidableEq A] {cfg : Config A W}

namespace BasePool

/-! ## Single requests -/

omit [DecidableEq A] in
theorem getFreeStakes_spec (b : BasePool A) (s : State A W) :
    Sat b.getFreeStakes s (fun free s' => free = s.balance b.poolAccountId ∧ s' = s)
      (fun _ => False) := by
  exact Sat.get_bind ⟨rfl, rfl⟩

theorem fst_extractDust (x : ℕ) : (extractDust x).1 = if x ≤ 1000 then 0 else x := by
  unfold extractDust balanceCloseToZero
  by_cases h : x ≤ 1000 <;> simp [h]

theorem snd_extractDust (x : ℕ) : (extractDust x).2 = if x ≤ 1000 then x else 0 := by
  unfold extractDust balanceCloseToZero
  by_cases h : x ≤ 1000 <;> simp [h]

omit [DecidableEq A] in
theorem maybeRemoveDust_spec (b : BasePool A) (nft : NftAttr) (s : State A W) :
    Sat (maybeRemoveDust cfg b nft) s
      (fun r s' => s' = s ∧ ∀ b', r = some b' → nft.shares ≤ b.totalShares ∧
        b' = { b with totalShares := b.totalShares - nft.shares })
      (fun f => f.plain = true ∨ f.isStuckPanic = true ∧ b.totalShares < nft.shares) := by
  refine (convert_spec _ s).bind (fun _ h => .inl h) ?_
  rintro (_ | price) _ ⟨-, rfl⟩
  · exact ⟨rfl, by simp⟩
  · refine (convert_spec _ _).bind (fun _ h => .inl h) ?_
    rintro current _ ⟨-, rfl⟩
    refine Sat.ite (fun _ => ⟨rfl, by simp⟩) fun _ => ?_
    refine Sat.ensure_bind (fun covered => ⟨rfl, ?_⟩) fun h => .inr ⟨rfl, Nat.not_le.1 h⟩
    rintro _ ⟨⟩
    exact ⟨covered, rfl⟩

structure Removed (cfg : Config A W) (b : BasePool A) (shares : ℕ) (nft : NftAttr) (user : A)
    (s : State A W) (amount removed : ℕ) (b' : BasePool A) (nft' : NftAttr) (s' : State A W) :
    Prop where
  price : ∃ price value, b.sharePrice = some (some price) ∧
    Balance.mul shares price = some value ∧ amount = min value (s.balance b.poolAccountId)
  within : shares ≤ nft.shares
  valued : amount ≤ b.totalValue
  opened : ¬ s.belowMinimum cfg user amount
  dust : removed = shares + (extractDust (nft.shares - shares)).2
  covered : removed ≤ b.totalShares
  pool : b' = b.paid amount removed
  attr : nft' = ⟨(extractDust (nft.shares - shares)).1⟩
  state : s' = s.move cfg b.poolAccountId user amount

theorem removeStakeFromNft_spec (b : BasePool A) (shares : ℕ) (nft : NftAttr) (user : A)
    (s : State A W) :
    Sat (removeStakeFromNft cfg b shares nft user) s
      (fun r s' => match r with
        | none => b.sharePrice = some none ∨ nft.shares < shares ∨
            b.totalShares < shares + (extractDust (nft.shares - shares)).2
        | some (amount, removed, b', nft') =>
          Removed cfg b shares nft user s amount removed b' nft' s')
      (fun f => f.plain = true ∨ f.isStuckPanic = true ∧
        ((∃ price value, shares ≤ nft.shares ∧ b.sharePrice = some (some price) ∧
          Balance.mul shares price = some value ∧ b.totalValue < value) ∨
        ∃ amount, s.belowMinimum cfg user amount)) := by
  refine (convert_spec _ s).bind (fun _ h => .inl h) ?_
  rintro (_ | price) _ ⟨priced, rfl⟩
  · exact .inl priced
  · refine (convert_spec _ _).bind (fun _ h => .inl h) ?_
    rintro value s ⟨worth, rfl⟩
    refine (getFreeStakes_spec b s).bind (fun _ h => h.elim) ?_
    rintro free s ⟨rfl, rfl⟩
    refine Sat.ite (fun less => .inr (.inl less)) fun less => ?_
    refine Sat.ite (fun short => .inr (.inr short)) fun short => ?_
    refine Sat.ensure_bind (fun valued => ?_) fun unvalued => ?_
    · refine (Sat.mapFault (Assets.transfer_spec _ _ _ _)
        (E := fun f => f.plain = true ∨ f.isStuckPanic = true ∧
          ∃ amount, s.belowMinimum cfg user amount) ?_).bind
        (fun f h => h.imp_right fun h => ⟨h.1, .inr h.2⟩) ?_
      · rintro _ (⟨rfl, broke⟩ | ⟨rfl, below⟩)
        · exact absurd broke (Nat.not_lt.2 (Nat.min_le_right _ _))
        · exact .inr ⟨rfl, _, below⟩
      · rintro _ _ ⟨-, opened, rfl⟩
        refine ⟨⟨price, value, priced, worth, rfl⟩, Nat.not_lt.1 less, valued, opened, rfl,
          Nat.not_lt.1 short, ?_, rfl, rfl⟩
        unfold paid
        rw [fst_extractDust]
        congr 1
        split_ifs <;> omega
    · exact .inr ⟨rfl, .inl ⟨price, value, Nat.not_lt.1 less, priced, worth,
        (Nat.not_le.1 unvalued).trans_le (Nat.min_le_left _ _)⟩⟩

theorem popFront_spec (b : BasePool A) (w : WithdrawInfo A) (rest : List (WithdrawInfo A))
    (s : State A W) :
    Sat (popFront cfg b w rest) s
      (fun b' s' => s.nftOwner b.cid w.nftId = some cfg.palletId ∧
        b' = { b with withdrawQueue := rest } ∧ s' = s.burnNft cfg b.cid w.nftId)
      (fun f => f.isStuckPanic = true ∧ s.nftOwner b.cid w.nftId ≠ some cfg.palletId) := by
  refine (Sat.mapFault (burnNft_spec _ _ _ _) (E := fun f => f.isStuckPanic = true ∧
    s.nftOwner b.cid w.nftId ≠ some cfg.palletId) ?_).bind (fun _ h => h) ?_
  · rintro _ ⟨rfl, foreign⟩
    exact ⟨rfl, foreign⟩
  · rintro _ _ ⟨owned, rfl⟩
    exact ⟨owned, rfl, rfl⟩

end BasePool

/-! ## Progress of a call -/

section Progress

variable [DecidableEq W]

structure Progress (cfg : Config A W) (P : State A W → Label A → Prop) (F : Frame A W)
    (b : BasePool A) (s : State A W) (b' : BasePool A) (s' : State A W) : Prop where
  run : Run cfg P (F.view b s) (F.view b' s')
  fits : F.Fits cfg b' s'
  pools : s'.pools = s.pools
  nfts : ∀ c, c ≠ b.cid → SameNfts c s s'
  keeps : b.Keeps b'

variable {P : State A W → Label A → Prop} {F : Frame A W} {b b' b'' : BasePool A}
  {s s' s'' : State A W} {w : WithdrawInfo A} {rest : List (WithdrawInfo A)} {nft : NftAttr}

theorem Progress.refl (fits : F.Fits cfg b s) : Progress cfg P F b s b s :=
  ⟨.refl, fits, rfl, fun c _ => .refl c s, .refl b⟩

theorem Progress.trans (h : Progress cfg P F b s b' s') (h' : Progress cfg P F b' s' b'' s'') :
    Progress cfg P F b s b'' s'' :=
  ⟨h.run.trans h'.run, h'.fits, h'.pools.trans h.pools,
    fun c ne => (h.nfts c ne).trans (h'.nfts c (h.keeps.cid.symm ▸ ne)), h.keeps.trans h'.keeps⟩

omit [DecidableEq A] [DecidableEq W] in
theorem Frame.Fits.of_same (fits : F.Fits cfg b s) (locks : s'.nftLocks = s.nftLocks)
    (cid : b'.cid = b.cid)
    (owner : ∀ k attr, F.held = some (k, attr) → s'.nftOwner b.cid k = s.nftOwner b.cid k) :
    F.Fits cfg b' s' := by
  refine ⟨by rw [locks, fits.locks, cid], fun k attr held => ?_⟩
  rw [cid, owner k attr held]
  exact fits.owner k attr held

theorem Progress.dust (fits : F.Fits cfg b s) (allowed : P (F.view b s) (.fill F.pid))
    (queue : b.withdrawQueue = w :: rest) (free : (b.cid, w.nftId) ∉ s.nftLocks)
    (found : s.nftAttr b.cid w.nftId = some nft)
    (owned : s.nftOwner b.cid w.nftId = some cfg.palletId) (covered : nft.shares ≤ b.totalShares) :
    Progress cfg P F b s
      { b with totalShares := b.totalShares - nft.shares, withdrawQueue := rest }
      (s.burnNft cfg b.cid w.nftId) := by
  have ne := fits.ne_held free
  refine ⟨.share allowed ?_, fits.of_same rfl rfl fun k attr held => ?_, rfl,
    fun c other => .burnNft cfg other, rfl⟩
  · have effect : ShareEffect cfg (.fill F.pid) (F.view b s) _ :=
      .dust Frame.view_pools queue ((Frame.view_nftAttr ne).trans found)
        ((congrFun₂ Frame.view_nftOwner _ _).trans owned) covered
    rw [Frame.view_burnNft ne, Frame.view_putPool] at effect
    exacts [effect, rfl]
  · exact State.burnNft_nftOwner (ne k attr held).symm

theorem Progress.part {price : FixedPoint} {n value amount : ℕ} (fits : F.Fits cfg b s)
    (allowed : P (F.view b s) (.fill F.pid)) (queue : b.withdrawQueue = w :: rest)
    (free : (b.cid, w.nftId) ∉ s.nftLocks) (found : s.nftAttr b.cid w.nftId = some nft)
    (priced : b.sharePrice = some (some price)) (worth : Balance.mul n price = some value)
    (paid : amount = min value (s.balance b.poolAccountId)) (valued : amount ≤ b.totalValue)
    (opened : ¬ s.belowMinimum cfg w.user amount) (left : 1000 < nft.shares - n)
    (covered : n ≤ b.totalShares) :
    Progress cfg P F b s (b.paid amount n)
      ((s.setNftAttr b.cid w.nftId ⟨nft.shares - n⟩).move cfg b.poolAccountId w.user amount) := by
  have ne := fits.ne_held free
  refine ⟨.share allowed ?_, fits.of_same rfl rfl fun _ _ _ => rfl, rfl,
    fun c other => (SameNfts.setNftAttr other _).trans (.move cfg _ _ _), rfl⟩
  have effect : ShareEffect cfg (.fill F.pid) (F.view b s) _ :=
    .part Frame.view_pools queue ((Frame.view_nftAttr ne).trans found) priced worth
      (paid.trans (by rw [Frame.view_balance])) valued
      (by rwa [State.belowMinimum, Frame.view_wpha]) left covered
  rw [Frame.view_setNftAttr ne, Frame.view_move, Frame.view_putPool] at effect
  exacts [effect, rfl]

theorem Progress.full {price : FixedPoint} {n value amount : ℕ} (fits : F.Fits cfg b s)
    (allowed : P (F.view b s) (.fill F.pid)) (queue : b.withdrawQueue = w :: rest)
    (free : (b.cid, w.nftId) ∉ s.nftLocks) (found : s.nftAttr b.cid w.nftId = some nft)
    (owned : s.nftOwner b.cid w.nftId = some cfg.palletId)
    (priced : b.sharePrice = some (some price)) (worth : Balance.mul n price = some value)
    (paid : amount = min value (s.balance b.poolAccountId)) (valued : amount ≤ b.totalValue)
    (opened : ¬ s.belowMinimum cfg w.user amount) (within : n ≤ nft.shares)
    (covered : nft.shares ≤ b.totalShares) :
    Progress cfg P F b s { b.paid amount nft.shares with withdrawQueue := rest }
      (((s.setNftAttr b.cid w.nftId ⟨0⟩).burnNft cfg b.cid w.nftId).move cfg b.poolAccountId w.user
        amount) := by
  have ne := fits.ne_held free
  refine ⟨.share allowed ?_, fits.of_same rfl rfl fun k attr held => ?_, rfl,
    fun c other => ((SameNfts.setNftAttr other _).trans (.burnNft cfg other)).trans
      (.move cfg _ _ _), rfl⟩
  · have effect : ShareEffect cfg (.fill F.pid) (F.view b s) _ :=
      .full Frame.view_pools queue ((Frame.view_nftAttr ne).trans found)
        ((congrFun₂ Frame.view_nftOwner _ _).trans owned) priced worth
        (paid.trans (by rw [Frame.view_balance])) valued
        (by rwa [State.belowMinimum, Frame.view_wpha]) within covered
    rw [Frame.view_setNftAttr ne, Frame.view_burnNft ne, Frame.view_move,
      Frame.view_putPool] at effect
    exacts [effect, rfl]
  · change ((s.setNftAttr b.cid w.nftId ⟨0⟩).burnNft cfg b.cid w.nftId).nftOwner b.cid k = _
    exact State.burnNft_nftOwner (ne k attr held).symm

end Progress

namespace BasePool

/-! ## The queue loop -/

variable [DecidableEq W] {P : State A W → Label A → Prop} {F : Frame A W} {b : BasePool A}
  {s : State A W} {w : WithdrawInfo A} {rest : List (WithdrawInfo A)}

omit [DecidableEq A] [DecidableEq W] in
theorem foreign_of_locked {n : ℕ} (fits : F.Fits cfg b s) (locked : (b.cid, n) ∈ s.nftLocks) :
    s.nftOwner b.cid n ≠ some cfg.palletId := by
  rw [fits.locks] at locked
  rcases held : F.held with _ | ⟨k, attr⟩
  · simp [held] at locked
  · obtain ⟨a, holder, owner⟩ := fits.owner k attr held
    obtain rfl : n = k := by simpa [held] using locked
    rw [owner]
    exact fun h => holder.ne_palletId (Option.some.inj h)

omit [DecidableEq W] in
theorem blame_locked {f : Fault} (cause : f.cause? = some (.basePool .attrLocked))
    (fits : F.Fits cfg b s) (queued : w ∈ b.withdrawQueue)
    (locked : (b.cid, w.nftId) ∈ s.nftLocks) : Blame cfg P (F.view b s) f :=
  .locked (w := w) cause Frame.view_pools (by rwa [PoolProxy.basepool_withBase])
    (by rw [PoolProxy.basepool_withBase, Frame.view_nftOwner]; exact foreign_of_locked fits locked)

omit [DecidableEq W] in
theorem blame_stuck {f : Fault} (panic : f.isStuckPanic = true)
    (allowed : P (F.view b s) (.fill F.pid)) (queue : b.withdrawQueue = w :: rest)
    (stuck : Stuck cfg (F.view b s) b w) : Blame cfg P (F.view b s) f :=
  .stuck panic allowed Frame.view_pools (by rwa [PoolProxy.basepool_withBase])
    (by rwa [PoolProxy.basepool_withBase])

theorem finishFront_spec {n amount removed : ℕ} {attr nft : NftAttr} {b' : BasePool A}
    {s' : State A W} (fits : F.Fits cfg b s) (allowed : ∀ v, P v (.fill F.pid))
    (queue : b.withdrawQueue = w :: rest) (free : (b.cid, w.nftId) ∉ s.nftLocks)
    (found : s.nftAttr b.cid w.nftId = some attr)
    (h : Removed cfg b n attr w.user (s.lockNft b.cid w.nftId) amount removed b' nft s') :
    Sat (do
        NftGuard.save ⟨b.cid, w.nftId, attr⟩ nft
        if nft.shares = 0 then
          popFront cfg b' w rest
        else
          match ← maybeRemoveDust cfg b' nft with
          | some pool => popFront cfg pool w rest
          | none => pure b') s'
      (fun b'' s'' => Progress cfg P F b s b'' s'') (Excused cfg P (F.view b s)) := by
  obtain ⟨⟨price, value, priced, worth, paid⟩, within, valued, opened, hremoved, covered, rfl, rfl,
    rfl⟩ := h
  rw [snd_extractDust] at hremoved
  rw [fst_extractDust]
  refine (NftGuard.save_spec _ _ _).bind (fun _ h => h.elim) ?_
  rintro _ _ rfl
  have saved : ∀ x : NftAttr, (((s.lockNft b.cid w.nftId).move cfg b.poolAccountId w.user
      amount).setNftAttr b.cid w.nftId x).unlockNft b.cid w.nftId =
      (s.setNftAttr b.cid w.nftId x).move cfg b.poolAccountId w.user amount :=
    fun x => State.unlockNft_lockNft (s := (s.setNftAttr b.cid w.nftId x).move cfg _ _ _) free
  rw [saved]
  by_cases small : attr.shares - n ≤ 1000
  · -- Only dust is left of the request.
    rw [if_pos small] at hremoved ⊢
    have all : removed = attr.shares := by omega
    subst all
    refine (popFront_spec _ _ _ _).mono ?_ ?_
    · rintro b'' s'' ⟨owned, rfl, rfl⟩
      exact Progress.full fits (allowed _) queue free found owned priced worth paid valued opened
        within covered
    · rintro f ⟨panic, foreign⟩
      exact .blame (blame_stuck panic (allowed _) queue (.inl (by rwa [Frame.view_nftOwner])))
  · rw [if_neg small] at hremoved ⊢
    have part : Progress cfg P F b s (b.paid amount n)
        ((s.setNftAttr b.cid w.nftId ⟨attr.shares - n⟩).move cfg b.poolAccountId w.user amount) :=
      Progress.part fits (allowed _) queue free found priced worth paid valued opened
        (Nat.not_le.1 small) (by omega)
    obtain rfl : removed = n := by omega
    have found' : ((s.setNftAttr b.cid w.nftId ⟨attr.shares - removed⟩).move cfg b.poolAccountId
        w.user amount).nftAttr b.cid w.nftId = some ⟨attr.shares - removed⟩ :=
      State.setNftAttr_nftAttr_self
    rw [if_neg (by simp only; omega)]
    refine (maybeRemoveDust_spec _ _ _).bind ?_ ?_
    · rintro f (plain | ⟨panic, short⟩)
      · exact .plain plain
      · refine .after part.run
          (.blame (blame_stuck panic (allowed _) queue (.inr (.inr ⟨_, ?_, .inl short⟩))))
        exact (Frame.view_nftAttr (fits.ne_held free)).trans found'
    · rintro (_ | pool) _ ⟨rfl, dropped⟩
      · exact part
      · obtain ⟨covered', rfl⟩ := dropped pool rfl
        refine (popFront_spec _ _ _ _).mono ?_ ?_
        · rintro b'' s'' ⟨owned, rfl, rfl⟩
          exact part.trans (Progress.dust part.fits (allowed _) queue free found' owned covered')
        · rintro f ⟨panic, foreign⟩
          exact .after part.run
            (.blame (blame_stuck panic (allowed _) queue (.inl (by rwa [Frame.view_nftOwner]))))

theorem processFront_spec {price : FixedPoint} (fits : F.Fits cfg b s)
    (allowed : ∀ v, P v (.fill F.pid)) (queue : b.withdrawQueue = w :: rest) :
    Sat (processFront cfg price b w rest) s (fun b' s' => Progress cfg P F b s b' s')
      (Excused cfg P (F.view b s)) := by
  have stuck : ∀ f, f.isStuckPanic = true → Stuck cfg (F.view b s) b w →
      Excused cfg P (F.view b s) f :=
        fun f panic h => .blame (blame_stuck panic (allowed _) queue h)
  have foreign : s.nftOwner b.cid w.nftId ≠ some cfg.palletId → Stuck cfg (F.view b s) b w :=
    fun h => .inl (by rwa [Frame.view_nftOwner])
  refine (Sat.mapFault (getNftAttrGuard_spec _ _ _) (E := Excused cfg P (F.view b s)) ?_).bind
    (fun _ h => h) ?_
  · rintro _ (⟨rfl, missing⟩ | ⟨rfl, locked⟩)
    · refine stuck _ rfl ?_
      by_cases locked : (b.cid, w.nftId) ∈ s.nftLocks
      · exact foreign (foreign_of_locked fits locked)
      · exact .inr (.inl ((Frame.view_nftAttr (fits.ne_held locked)).trans missing))
    · exact .blame (blame_locked (w := w) rfl fits (by rw [queue]; exact List.mem_cons_self) locked)
  rintro ⟨_, _, attr⟩ _ ⟨free, found, rfl, rfl, rfl⟩
  have ne := fits.ne_held free
  have foundView : (F.view b s).nftAttr b.cid w.nftId = some attr :=
    (Frame.view_nftAttr ne).trans found
  refine (maybeRemoveDust_spec b attr _).bind ?_ ?_
  · rintro f (plain | ⟨panic, short⟩)
    · exact .plain plain
    · exact stuck f panic (.inr (.inr ⟨_, foundView, .inl short⟩))
  rintro (_ | pool) _ ⟨rfl, dropped⟩
  · refine (getFreeStakes_spec b _).bind (fun _ h => h.elim) ?_
    rintro free' _ ⟨rfl, rfl⟩
    refine (convert_spec _ _).bind (fun _ h => .plain h) ?_
    rintro payable _ ⟨-, rfl⟩
    have within : min payable attr.shares ≤ attr.shares := Nat.min_le_right _ _
    refine (removeStakeFromNft_spec b (min payable attr.shares) attr w.user _).bind
      ?_ ?_
    · rintro f (plain | ⟨panic, ⟨price, value, -, priced, worth, poor⟩ | ⟨amount, below⟩⟩)
      · exact .plain plain
      · exact stuck f panic (.inr (.inr ⟨_, foundView, .inr (.inr (.inl
          ⟨_, price, value, within, priced, worth, poor⟩))⟩))
      · refine stuck f panic (.inr (.inr ⟨_, foundView, .inr (.inr (.inr ⟨amount, ?_⟩))⟩))
        rwa [State.belowMinimum, Frame.view_wpha]
    rintro (_ | ⟨amount, removed, pool, nft⟩) s' h
    · refine stuck _ rfl (.inr (.inr ⟨_, foundView, ?_⟩))
      rcases h with priceless | less | short
      · exact .inr (.inl priceless)
      · exact absurd less (Nat.not_lt.2 within)
      · rw [snd_extractDust] at short
        split_ifs at short <;> omega
    · exact finishFront_spec fits allowed queue free found h
  · -- The request is dust.
    obtain ⟨covered, rfl⟩ := dropped pool rfl
    refine (NftGuard.unlock_spec _ _).bind (fun _ h => h.elim) ?_
    rintro _ _ rfl
    rw [State.unlockNft_lockNft free]
    refine (popFront_spec _ _ _ _).mono ?_ ?_
    · rintro b' s' ⟨owned, rfl, rfl⟩
      exact Progress.dust fits (allowed _) queue free found owned covered
    · rintro f ⟨panic, h⟩
      exact stuck f panic (foreign h)

theorem processQueue_spec {price : FixedPoint} (fuel : ℕ) (fits : F.Fits cfg b s)
    (allowed : cfg.wphaMin < s.balance b.poolAccountId → b.withdrawQueue ≠ [] →
      ∀ v, P v (.fill F.pid)) :
    Sat (processQueue cfg price fuel b) s (fun b' s' => Progress cfg P F b s b' s')
      (Excused cfg P (F.view b s)) := by
  induction fuel generalizing b s with
  | zero => exact .plain rfl
  | succ fuel ih =>
    refine (getFreeStakes_spec b s).bind (fun _ h => h.elim) ?_
    rintro free s ⟨rfl, rfl⟩
    refine Sat.ite (fun _ => .refl fits) fun large => ?_
    split
    · exact .refl fits
    · rename_i w rest queue
      have allowed' : ∀ v, P v (.fill F.pid) :=
        allowed (Nat.not_le.1 large) (by rw [queue]; exact List.cons_ne_nil _ _)
      refine (processFront_spec fits allowed' queue).bind (fun _ h => h) ?_
      intro b' s' first
      refine (ih first.fits fun _ _ => allowed').mono ?_ ?_
      · intro b'' s'' later
        exact first.trans later
      · intro f h
        exact h.after first.run

theorem tryProcessWithdrawQueue_spec (fits : F.Fits cfg b s)
    (allowed : cfg.wphaMin < s.balance b.poolAccountId → b.withdrawQueue ≠ [] →
      ∀ v, P v (.fill F.pid)) :
    Sat (tryProcessWithdrawQueue cfg b) s (fun b' s' => Progress cfg P F b s b' s')
      (Excused cfg P (F.view b s)) := by
  refine (convert_spec _ s).bind (fun _ h => .plain h) ?_
  rintro (_ | price) _ ⟨-, rfl⟩
  · exact .refl fits
  · exact processQueue_spec cfg.fuel fits allowed

/-! ## Requests -/

abbrev requestIds (b : BasePool A) (a : A) : List ℕ :=
  (b.withdrawQueue.filter fun w => w.user = a).map WithdrawInfo.nftId

variable {pid k shares : ℕ} {q : PoolProxy A W} {nft : NftAttr} {a : A}
  (fits : Frame.Fits cfg ⟨pid, q, some (k, nft)⟩ b s) (holder : cfg.Holder a)
  (client : q.Client cfg (Frame.view ⟨pid, q, some (k, nft)⟩ b s) a)
  (owned : s.nftOwner b.cid k = some a) (nondust : 1000 < shares)
  (vacant : s.nftOwner b.cid (s.nextNftId b.cid) = none)
  (priced : ∀ price, b.sharePrice = some (some price) →
    P (Frame.view ⟨pid, q, some (k, nft)⟩ b s) (.request pid a shares))
  (priceless : b.sharePrice = some none →
    P (Frame.view ⟨pid, q, some (k, nft)⟩ b s) (.reduce pid))

include fits holder client owned nondust vacant priced priceless

theorem pushWithdrawInQueue_spec :
    Sat (pushWithdrawInQueue cfg b nft a shares) s
      (fun r s' => Run cfg P (Frame.view ⟨pid, q, some (k, nft)⟩ b s)
          (Frame.view ⟨pid, q, some (k, r.2.2)⟩ r.2.1 s') ∧
        Frame.Fits cfg ⟨pid, q, some (k, r.2.2)⟩ r.2.1 s' ∧ s'.pools = s.pools ∧
        (∀ c, c ≠ b.cid → SameNfts c s s') ∧ b.Keeps r.2.1)
      (Excused cfg P (Frame.view ⟨pid, q, some (k, nft)⟩ b s)) := by
  have foundView : (Frame.view ⟨pid, q, some (k, nft)⟩ b s).nftAttr b.cid k = some nft :=
    State.setNftAttr_nftAttr_self
  refine (convert_spec _ s).bind (fun _ h => .plain h) ?_
  rintro (_ | price) s ⟨hprice, rfl⟩
  · refine Sat.ensure_bind (fun enough => ⟨?_, ⟨fits.locks, ?_⟩, rfl, fun c _ => .refl c s, rfl⟩)
      fun _ => .plain rfl
    · have effect : ShareEffect cfg (.reduce pid) (Frame.view ⟨pid, q, some (k, nft)⟩ b s) _ :=
        .reduce Frame.view_pools client foundView owned hprice nondust enough
      rw [Frame.view_hold] at effect
      exact .share (priceless hprice) effect
    · rintro _ _ ⟨⟩
      exact fits.owner k nft rfl
  · refine (burnNfts_spec _ _ _ _ _).bind ?_ ?_
    · rintro f (⟨n, hn, _, ⟨rfl, -⟩ | ⟨rfl, locked⟩, rfl⟩ | ⟨_, rfl, -⟩ | rfl)
      · exact .plain rfl
      · obtain ⟨w, hw, rfl⟩ := List.mem_map.1 hn
        exact .blame (blame_locked rfl fits (List.mem_filter.1 hw).1 locked)
      · exact .plain rfl
      · exact .plain rfl
    rintro total _ ⟨nodup, kept, rfl, rfl⟩
    refine (Sat.mapFault (mintNft_spec _ _ _ _) (E := Excused cfg P _)
      fun f plain => .plain (Fault.plain_expect plain rfl)).bind (fun _ h => h) ?_
    rintro split _ ⟨rfl, rfl⟩
    refine Sat.ensure_bind (fun enough => Sat.get_bind ?_) fun _ => .plain rfl
    have ne : ∀ n ∈ requestIds b a, ∀ k' attr, some (k, nft) = some (k', attr) → n ≠ k' :=
      fun n hn => fits.ne_held (kept n hn).2.2
    have next : s.nextNftId b.cid ≠ k := by
      rintro rfl
      rw [owned] at vacant
      cases vacant
    refine ⟨.share (priced price hprice) ?_, ⟨?_, ?_⟩, ?_, fun c other => ?_, rfl⟩
    · have effect : ShareEffect cfg (.request pid a shares)
          (Frame.view ⟨pid, q, some (k, nft)⟩ b s) _ :=
        .request Frame.view_pools client foundView owned rfl nodup
          (fun n hn => (kept n hn).1) nondust (by rwa [Frame.view_sharesIn ne]) vacant
      rw [Frame.view_burnNfts ne, Frame.view_mintNft, Frame.view_hold, Frame.view_sharesIn ne,
        Frame.view_now, Frame.view_nextNftId] at effect
      · have now : ((s.burnNfts cfg b.cid (requestIds b a)).mintNft b.cid cfg.palletId shares).now =
            s.now := State.burnNfts_now _
        convert effect using 1
        rw [State.burnNfts_nextNftId, now]
        refine (Frame.view_putPool ?_).symm
        rfl
      · rintro _ _ ⟨⟩
        rwa [State.burnNfts_nextNftId]
    · exact (State.burnNfts_nftLocks _).trans fits.locks
    · rintro _ _ ⟨⟩
      refine ⟨a, holder, ?_⟩
      have unburnt : k ∉ requestIds b a := fun h => ne k h k nft rfl rfl
      have :=
        State.mintNft_nftOwner (s := s.burnNfts cfg b.cid (requestIds b a)) (a := cfg.palletId)
        (x := shares) (n := k) (by rw [State.burnNfts_nextNftId]; exact next.symm)
      exact this.trans (by rw [State.burnNfts_nftOwner, if_neg unburnt, owned])
    · exact State.burnNfts_pools _
    · exact (SameNfts.burnNfts cfg other _).trans (.mintNft other _ _)

theorem tryWithdraw_spec (allowed : ∀ v, P v (.fill pid)) :
    Sat (tryWithdraw cfg b nft a shares) s
      (fun r s' => Run cfg P (Frame.view ⟨pid, q, some (k, nft)⟩ b s)
          (Frame.view ⟨pid, q, some (k, r.2)⟩ r.1 s') ∧
        Frame.Fits cfg ⟨pid, q, some (k, r.2)⟩ r.1 s' ∧ s'.pools = s.pools ∧
        (∀ c, c ≠ b.cid → SameNfts c s s') ∧ b.Keeps r.1)
      (Excused cfg P (Frame.view ⟨pid, q, some (k, nft)⟩ b s)) := by
  refine (pushWithdrawInQueue_spec fits holder client owned nondust vacant priced priceless).bind
    (fun _ h => h) ?_
  rintro ⟨_ | split, b', nft'⟩ s' ⟨run, fits', pools, nfts, keeps⟩
  · exact ⟨run, fits', pools, nfts, keeps⟩
  · refine (tryProcessWithdrawQueue_spec fits' fun _ _ => allowed).bind (fun _ h => h.after run) ?_
    intro b'' s'' later
    exact ⟨run.trans later.run, later.fits, later.pools.trans pools,
      fun c other => (nfts c other).trans (later.nfts c (keeps.cid.symm ▸ other)),
      keeps.trans later.keeps⟩

end BasePool

end Cyrux
