import Cyrux.Compute.QueueSpec
import Cyrux.Compute.Price
import Cyrux.Compute.Mock
import Mathlib.Algebra.Order.BigOperators.Group.Finset

/-!
# Termination of the queue loop
-/

namespace Cyrux

open Exec

variable {A W : Type}

/-! ## The faults of an iteration -/

structure Ordinary (E : Fault → Prop) : Prop where
  error : ∀ e, E (.error e)
  panic : ∀ site cause, site ≠ .reclaimTransfer → E (.panic site cause)

namespace Ordinary

variable {α τ : Type} {E : Fault → Prop} {g : State A W → τ}

theorem expect (h : Ordinary E) {m : Pallet A W α} {site : PanicSite} (faults : Leaves g E m)
    (other : site ≠ .reclaimTransfer) : Leaves g E (Cyrux.expect site m) := by
  refine Leaves.mapFault faults fun f hf => ?_
  cases f with
  | error e => exact h.panic site _ other
  | panic => exact hf
  | outOfFuel => exact hf

theorem convert (h : Ordinary E) (o : Option α) : Leaves g E (Cyrux.convert o : Pallet A W α) :=
  .demand (h.panic _ _ (by decide))

theorem getFreeStakes (b : BasePool A) : Leaves g E (b.getFreeStakes : Pallet A W ℕ) :=
  .bind .get fun _ => .pure _

theorem maybeRemoveDust (h : Ordinary E) (cfg : Config A W) (b : BasePool A) (nft : NftAttr) :
    Leaves g E (BasePool.maybeRemoveDust cfg b nft) := by
  refine .bind (h.convert _) fun price => ?_
  cases price with
  | none => exact .pure _
  | some price =>
    refine .bind (h.convert _) fun _ => .ite (.pure _) (.bind (.ensure ?_) fun _ => .pure _)
    exact h.panic _ _ (by decide)

variable [DecidableEq A] (cfg : Config A W)

theorem transfer (h : Ordinary E) (source dest : A) (amount : ℕ) :
    Leaves (fun _ => ()) E (Assets.transfer cfg source dest amount) :=
  .bind .get fun _ => .bind (.ensure (h.error _)) fun _ => .bind (.ensure (h.error _)) fun _ =>
    .alter fun _ => rfl

theorem popFront (h : Ordinary E) (b : BasePool A) (w : WithdrawInfo A)
    (rest : List (WithdrawInfo A)) :
    Leaves (fun _ => ()) E (BasePool.popFront cfg b w rest) := by
  refine .bind (h.expect (.bind .get fun _ => ?_) (by decide)) fun _ => .pure _
  exact .bind (.ensure (h.error _)) fun _ => .alter fun _ => rfl

theorem removeStakeFromNft (h : Ordinary E) (b : BasePool A) (shares : ℕ) (nft : NftAttr)
    (user : A) : Leaves (fun _ => ()) E (BasePool.removeStakeFromNft cfg b shares nft user) := by
  refine .bind (h.convert _) fun price => ?_
  cases price with
  | none => exact .pure _
  | some price =>
    refine .bind (h.convert _) fun _ => .bind (getFreeStakes _) fun _ => .ite (.pure _) ?_
    refine .ite (.pure _) (.bind (.ensure (h.panic _ _ (by decide))) fun _ => ?_)
    exact .bind (h.expect (h.transfer cfg _ _ _) (by decide)) fun _ => .pure _

theorem processFront (h : Ordinary E) (price : FixedPoint) (b : BasePool A) (w : WithdrawInfo A)
    (rest : List (WithdrawInfo A)) :
    Leaves (fun _ => ()) E (BasePool.processFront cfg price b w rest) := by
  refine .bind (h.expect (.bind (.bind .get fun _ => .demand (h.error _)) fun _ => ?_) (by decide))
    fun guard => .bind (h.maybeRemoveDust cfg _ _) fun dust => ?_
  · refine .bind .get fun _ => .bind (.ensure (h.error _)) fun _ => ?_
    exact .bind (.alter fun _ => rfl) fun _ => .pure _
  cases dust with
  | some b => exact .bind (.alter fun _ => rfl) fun _ => h.popFront cfg _ _ _
  | none =>
    refine .bind (getFreeStakes _) fun _ => .bind (h.convert _) fun _ => ?_
    refine .bind (h.removeStakeFromNft cfg _ _ _ _) fun removed => ?_
    cases removed with
    | none => exact .throw (h.panic _ _ (by decide))
    | some r =>
      refine .bind (.bind (.alter fun _ => rfl) fun _ => .alter fun _ => rfl) fun _ => ?_
      refine .ite (h.popFront cfg _ _ _) (.bind (h.maybeRemoveDust cfg _ _) fun dust => ?_)
      cases dust with
      | some b => exact h.popFront cfg _ _ _
      | none => exact .pure _

end Ordinary

theorem ordinary_fuel : Ordinary fun f => f ≠ .outOfFuel :=
  ⟨fun _ => by rintro ⟨⟩, fun _ _ _ => by rintro ⟨⟩⟩

/-! ## Shrinking requests -/

def Shrinks (cid : ℕ) (s s' : State A W) : Prop :=
  ∀ n attr', s'.nftAttr cid n = some attr' →
    ∃ attr, s.nftAttr cid n = some attr ∧ attr'.shares ≤ attr.shares

section Shrinks

variable {cid n : ℕ} {s s' s'' : State A W} {attr attr' : NftAttr}

theorem Shrinks.of_same (same : s'.nftAttr = s.nftAttr) : Shrinks cid s s' := by
  intro n attr' found
  exact ⟨attr', by rwa [same] at found, le_rfl⟩

theorem Shrinks.trans (h : Shrinks cid s s') (h' : Shrinks cid s' s'') : Shrinks cid s s'' := by
  intro n attr'' found
  obtain ⟨attr', found', le'⟩ := h' n attr'' found
  obtain ⟨attr, found, le⟩ := h n attr' found'
  exact ⟨attr, found, le'.trans le⟩

theorem Shrinks.setNftAttr (found : s.nftAttr cid n = some attr) (le : attr'.shares ≤ attr.shares) :
    Shrinks cid s (s.setNftAttr cid n attr') := by
  intro m attr'' found'
  by_cases e : m = n
  · subst e
    rw [State.setNftAttr_nftAttr_self] at found'
    cases found'
    exact ⟨attr, found, le⟩
  · rw [State.setNftAttr_nftAttr e] at found'
    exact ⟨attr'', found', le_rfl⟩

theorem Shrinks.burnNft (cfg : Config A W) : Shrinks cid s (s.burnNft cfg cid n) := by
  intro m attr' found
  refine ⟨attr', ?_, le_rfl⟩
  unfold State.burnNft at found
  split_ifs at found
  · exact found
  · by_cases e : m = n
    · simp [e] at found
    · simpa [e] using found

end Shrinks

/-! ## Progress -/

def BasePool.work (b : BasePool A) : ℕ := b.totalShares + b.withdrawQueue.length

def Pays (cfg : Config A W) (price : FixedPoint) (free : ℕ) : Prop :=
  price.bits = 0 ∨ ∀ x, cfg.wphaMin < x → x ≤ free → Balance.div x price ≠ some 0

def Moving (cfg : Config A W) (price : FixedPoint) (b : BasePool A) (s : State A W) : Prop :=
  Pays cfg price (s.balance b.poolAccountId) ∨
    ∀ w ∈ b.withdrawQueue, ∀ attr, s.nftAttr b.cid w.nftId = some attr → attr.shares ≤ 1000

section Moving

variable {cfg : Config A W} {price : FixedPoint} {b b' : BasePool A} {s s' : State A W}
  {w : WithdrawInfo A} {rest : List (WithdrawInfo A)}

theorem Moving.next (h : Moving cfg price b s) (cid : b'.cid = b.cid)
    (account : b'.poolAccountId = b.poolAccountId)
    (queue : ∀ w ∈ b'.withdrawQueue, w ∈ b.withdrawQueue)
    (balance : s'.balance b.poolAccountId ≤ s.balance b.poolAccountId)
    (shrinks : Shrinks b.cid s s') : Moving cfg price b' s' := by
  rcases h with (zero | pays) | dust
  · exact .inl (.inl zero)
  · refine .inl (.inr fun x least most => pays x least (most.trans ?_))
    rw [account]
    exact balance
  · refine .inr fun w mem attr' found => ?_
    rw [cid] at found
    obtain ⟨attr, found, le⟩ := shrinks _ attr' found
    exact le.trans (dust w (queue w mem) attr found)

theorem Moving.payable_pos (h : Moving cfg price b s) (queued : w ∈ b.withdrawQueue)
    {attr : NftAttr} {payable : ℕ} (found : s.nftAttr b.cid w.nftId = some attr)
    (large : 1000 < attr.shares) (free : cfg.wphaMin < s.balance b.poolAccountId)
    (pays : BasePool.freeShares price (s.balance b.poolAccountId) attr.shares = some payable) :
    0 < payable := by
  unfold BasePool.freeShares at pays
  split_ifs at pays with zero
  · cases pays
    omega
  · rcases h with (zero' | paying) | dust
    · exact absurd zero' zero
    · refine Nat.pos_of_ne_zero fun none => ?_
      rw [none] at pays
      exact paying _ free le_rfl pays
    · exact absurd (dust w queued attr found) (Nat.not_le.2 large)

variable [DecidableEq A]

theorem BasePool.processFront_moves (moving : Moving cfg price b s)
    (queue : b.withdrawQueue = w :: rest) (free : cfg.wphaMin < s.balance b.poolAccountId) :
    Sat (BasePool.processFront cfg price b w rest) s
      (fun b' s' => b'.work < b.work ∧ Moving cfg price b' s') (fun _ => True) := by
  have queued : w ∈ b.withdrawQueue := by
    rw [queue]
    exact List.mem_cons_self
  have tail : ∀ w' ∈ rest, w' ∈ b.withdrawQueue := by
    rw [queue]
    exact fun w' mem => List.mem_cons_of_mem _ mem
  have length : b.withdrawQueue.length = rest.length + 1 := by rw [queue]; rfl
  refine (Sat.mapFault (getNftAttrGuard_spec _ _ _) (E := fun _ => True)
    fun _ _ => trivial).bind (fun _ h => h) ?_
  rintro ⟨_, _, attr⟩ _ ⟨unlocked, found, rfl, rfl, rfl⟩
  refine (BasePool.maybeRemoveDust_spec b attr _).bind (fun _ _ => trivial) ?_
  rintro (_ | pool) _ ⟨rfl, dropped⟩
  swap
  · -- The request is dust.
    obtain ⟨covered, rfl⟩ := dropped pool rfl
    refine Sat.alter_bind ((BasePool.popFront_spec _ _ _ _).mono ?_ fun _ _ => trivial)
    rintro b' s' ⟨-, rfl, rfl⟩
    refine ⟨?_, moving.next rfl rfl tail le_rfl (.trans (.of_same rfl) (.burnNft cfg))⟩
    unfold BasePool.work
    simp only [length]
    omega
  refine (BasePool.getFreeStakes_spec b _).bind (fun _ h => h.elim) ?_
  rintro free' _ ⟨rfl, rfl⟩
  refine (convert_spec _ _).bind (fun _ _ => trivial) ?_
  rintro payable _ ⟨pays, rfl⟩
  refine (BasePool.removeStakeFromNft_spec b (min payable attr.shares) attr w.user _).bind
    (fun _ _ => trivial) ?_
  rintro (_ | ⟨amount, removed, pool, nft⟩) s' h
  · trivial
  obtain ⟨-, -, -, -, hremoved, covered, rfl, rfl, rfl⟩ := h
  rw [BasePool.fst_extractDust]
  refine (NftGuard.save_spec _ _ _).bind (fun _ h => h.elim) ?_
  rintro _ s₁ saved
  have shrinks : Shrinks b.cid s s₁ := by
    rw [saved]
    refine .trans (.setNftAttr found ?_) (.of_same rfl)
    split_ifs
    · exact Nat.zero_le _
    · exact Nat.sub_le _ _
  have balance : s₁.balance b.poolAccountId ≤ s.balance b.poolAccountId := by
    rw [saved]
    exact Ledger.balance_move_source_le
  -- Where the request leaves the queue, the queue is shorter.
  have popped : ∀ shares, shares ≤ b.totalShares →
      Sat (BasePool.popFront cfg { b.paid amount removed with totalShares := shares } w rest) s₁
        (fun b' s' => b'.work < b.work ∧ Moving cfg price b' s') (fun _ => True) := by
    intro shares le
    refine (BasePool.popFront_spec _ _ _ _).mono ?_ fun _ _ => trivial
    rintro b' s' ⟨-, rfl, rfl⟩
    refine ⟨?_, moving.next rfl rfl tail balance (shrinks.trans (.burnNft cfg))⟩
    unfold BasePool.work
    simp only [length]
    omega
  refine Sat.ite (fun _ => popped _ (Nat.sub_le _ _)) fun left => ?_
  refine (BasePool.maybeRemoveDust_spec _ _ _).bind (fun _ _ => trivial) ?_
  rintro (_ | pool) _ ⟨rfl, dropped⟩
  · -- It stays with fewer shares.
    have large : 1000 < attr.shares - min payable attr.shares := by
      by_contra small
      exact left (by simp only [if_pos (Nat.not_lt.1 small)])
    have many : 1000 < attr.shares := by omega
    have pos := moving.payable_pos queued found many free pays
    refine ⟨?_, moving.next rfl rfl (fun w' mem => mem) balance shrinks⟩
    unfold BasePool.work BasePool.paid
    simp only
    omega
  · obtain ⟨-, rfl⟩ := dropped pool rfl
    exact popped _ ((Nat.sub_le _ _).trans (Nat.sub_le _ _))

theorem BasePool.processQueue_halts {fuel : ℕ} (moving : Moving cfg price b s)
    (enough : b.work < fuel) :
    Sat (BasePool.processQueue cfg price fuel b) s
      (fun b' s' => b'.withdrawQueue = [] ∨ s'.balance b'.poolAccountId ≤ cfg.wphaMin)
      (fun f => f ≠ .outOfFuel) := by
  induction fuel generalizing b s with
  | zero => exact absurd enough (Nat.not_lt_zero _)
  | succ fuel ih =>
    refine (BasePool.getFreeStakes_spec b s).bind (fun _ h => h.elim) ?_
    rintro free s ⟨rfl, rfl⟩
    refine Sat.ite (fun small => .inr small) fun large => ?_
    split
    · rename_i empty
      exact .inl empty
    · rename_i w rest queue
      have faults := ordinary_fuel.processFront cfg price b w rest s
      have moves := BasePool.processFront_moves moving queue (Nat.not_le.1 large)
      refine (moves.and faults).bind (fun _ h => h.2) ?_
      rintro b' s' ⟨⟨less, moving'⟩, -⟩
      exact ih moving' (by omega)

end Moving

/-! ## Stalling -/

section Stalling

variable {cfg : Config A W} {price : FixedPoint} {b : BasePool A} {s : State A W}
  {w : WithdrawInfo A} {rest : List (WithdrawInfo A)} {attr : NftAttr} {value : ℕ}

theorem Balance.mul_zero (y : FixedPoint) : Balance.mul 0 y = some 0 := by
  rw [Balance.mul_of_small (by norm_num)]
  simp [scale, unscale]

variable [DecidableEq A]

theorem BasePool.processFront_stalls (unlocked : (b.cid, w.nftId) ∉ s.nftLocks)
    (found : s.nftAttr b.cid w.nftId = some attr) (large : 1000 < attr.shares)
    (priced : b.sharePrice = some (some price)) (valued : 1000 < b.totalValue)
    (worth : Balance.mul attr.shares price = some value) (nondust : cfg.wphaMin < value)
    (nonzero : price.bits ≠ 0)
    (nothing : Balance.div (s.balance b.poolAccountId) price = some 0)
    (opened : s.wpha w.user ≠ none) :
    Sat (BasePool.processFront cfg price b w rest) s (fun b' s' => b' = b ∧ s' = s)
      (fun _ => False) := by
  have convert_some : ∀ {α : Type} {o : Option α} {a : α} {s : State A W}, o = some a →
      Sat (convert o : Pallet A W α) s (fun a' s' => a' = a ∧ s' = s) (fun _ => False) := by
    rintro α _ a s rfl
    exact ⟨rfl, rfl⟩
  have kept : ∀ s' : State A W,
      Sat (BasePool.maybeRemoveDust cfg b attr) s' (fun r s'' => r = none ∧ s'' = s')
        (fun _ => False) := by
    intro s'
    refine (convert_some priced).bind (fun _ h => h) ?_
    rintro _ _ ⟨rfl, rfl⟩
    refine (convert_some worth).bind (fun _ h => h) ?_
    rintro _ _ ⟨rfl, rfl⟩
    rw [if_pos nondust]
    exact ⟨rfl, rfl⟩
  have whole : ∀ {n}, 1000 < n → extractDust (n - 0) = (n, 0) := by
    intro n h
    refine Prod.ext ?_ ?_
    · rw [BasePool.fst_extractDust, Nat.sub_zero, if_neg (Nat.not_le.2 h)]
    · rw [BasePool.snd_extractDust, Nat.sub_zero, if_neg (Nat.not_le.2 h)]
  have removal : Sat (BasePool.removeStakeFromNft cfg b 0 attr w.user) (s.lockNft b.cid w.nftId)
      (fun r s' => r = some (0, 0, b, attr) ∧ s' = s.lockNft b.cid w.nftId) (fun _ => False) := by
    refine (convert_some priced).bind (fun _ h => h) ?_
    rintro _ _ ⟨rfl, rfl⟩
    refine (convert_some (Balance.mul_zero price)).bind (fun _ h => h) ?_
    rintro _ _ ⟨rfl, rfl⟩
    refine (BasePool.getFreeStakes_spec b _).bind (fun _ h => h) ?_
    rintro free _ ⟨-, rfl⟩
    rw [Nat.zero_min, whole large]
    refine Sat.ensure_bind (fun _ => ?_) fun h => absurd (Nat.zero_le _) h
    refine (Sat.mapFault (Assets.transfer_spec _ _ _ _) (E := fun _ => False) ?_).bind
      (fun _ h => h) ?_
    · rintro _ (⟨-, short⟩ | ⟨-, below⟩)
      · exact absurd short (Nat.not_lt_zero _)
      · exact opened below.1
    · rintro _ _ ⟨-, -, rfl⟩
      refine ⟨?_, ?_⟩
      · have pos : 0 < b.totalValue := by omega
        have value : extractDust b.totalValue = (b.totalValue, 0) := whole valued
        simp [value, pos]
      · simp [State.move, Ledger.move]
  refine (Sat.mapFault (getNftAttrGuard_spec _ _ _) (E := fun _ => False) ?_).bind
    (fun _ h => h) ?_
  · rintro _ (⟨-, missing⟩ | ⟨-, locked⟩)
    · rw [found] at missing
      cases missing
    · exact unlocked locked
  rintro ⟨_, _, attr'⟩ _ ⟨-, found', rfl, rfl, rfl⟩
  obtain rfl : attr' = attr := Option.some.inj (found'.symm.trans found)
  refine (kept _).bind (fun _ h => h) ?_
  rintro _ _ ⟨rfl, rfl⟩
  refine (BasePool.getFreeStakes_spec b _).bind (fun _ h => h) ?_
  rintro _ _ ⟨rfl, rfl⟩
  have free : BasePool.freeShares price ((s.lockNft b.cid w.nftId).balance b.poolAccountId)
      attr'.shares = some 0 := by
    unfold BasePool.freeShares
    rw [if_neg nonzero]
    exact nothing
  refine (convert_some free).bind (fun _ h => h) ?_
  rintro _ _ ⟨rfl, rfl⟩
  refine removal.bind (fun _ h => h) ?_
  rintro _ _ ⟨rfl, rfl⟩
  refine (NftGuard.save_spec _ _ _).bind (fun _ h => h) ?_
  rintro _ _ rfl
  -- The attribute is written back as it was.
  have same : ((s.lockNft b.cid w.nftId).setNftAttr b.cid w.nftId attr').unlockNft b.cid w.nftId =
      s := by
    have attrs : Function.update (s.nftAttr b.cid) w.nftId (some attr') = s.nftAttr b.cid :=
      Function.update_eq_self_iff.2 found.symm
    simp [State.lockNft, State.setNftAttr, State.unlockNft, attrs, Finset.erase_insert unlocked]
  rw [same, if_neg (by omega)]
  refine (kept s).bind (fun _ h => h) ?_
  rintro _ _ ⟨rfl, rfl⟩
  exact ⟨rfl, rfl⟩

theorem BasePool.processQueue_stalls (queue : b.withdrawQueue = w :: rest)
    (free : cfg.wphaMin < s.balance b.poolAccountId)
    (stalls : Sat (BasePool.processFront cfg price b w rest) s (fun b' s' => b' = b ∧ s' = s)
      (fun _ => False)) (fuel : ℕ) :
    Sat (BasePool.processQueue cfg price fuel b) s (fun _ _ => False)
      (fun f => f = .outOfFuel) := by
  induction fuel with
  | zero => rfl
  | succ fuel ih =>
    refine (BasePool.getFreeStakes_spec b s).bind (fun _ h => h.elim) ?_
    rintro _ _ ⟨rfl, rfl⟩
    rw [if_neg (Nat.not_le.2 free), queue]
    refine stalls.bind (fun _ h => h.elim) ?_
    rintro _ _ ⟨rfl, rfl⟩
    exact ih

end Stalling

/-! ## Which pools the loop terminates for -/

structure QueueLive (cfg : Config A W) (b : BasePool A) (s : State A W) : Prop where
  conserved : s.liveShares b.cid ≤ b.totalShares
  live : ∀ w ∈ b.withdrawQueue, s.nftOwner b.cid w.nftId = some cfg.palletId ∧
    (s.nftAttr b.cid w.nftId).isSome
  minted : ∀ n, (s.nftOwner b.cid n).isSome → n < s.nextNftId b.cid
  unlocked : s.nftLocks = ∅

def BasePool.Quotable (b : BasePool A) (free : ℕ) : Prop :=
  ∀ price, b.sharePrice = some (some price) → price.bits ≠ 0 →
    scale free * 2 ^ 16 * 2 ^ 64 / price.bits < 2 ^ 128

def BasePool.Drains [DecidableEq A] (cfg : Config A W) (b : BasePool A) (s : State A W) : Prop :=
  ∃ n, ∀ fuel, n ≤ fuel →
    Sat (BasePool.tryProcessWithdrawQueue { cfg with fuel := fuel } b) s
      (fun b' s' => (∃ price, b.sharePrice = some (some price)) →
        b'.withdrawQueue = [] ∨ s'.balance b'.poolAccountId ≤ cfg.wphaMin)
      (fun f => f ≠ .outOfFuel)

def State.stalled (cfg : Config A W) (shares free : ℕ) : State A W where
  now := 0
  pools _ := none
  poolCount := 0
  collectionIndex := 1
  whitelists _ := none
  nftLocks := ∅
  nextNftId _ := 1
  collections := {0}
  nftOwner _ n := if n = 0 then some cfg.palletId else none
  nftAttr _ n := if n = 0 then some ⟨shares⟩ else none
  workerAssignments _ := none
  vaultLocks := ∅
  sessions _ := none
  sessionBindings _ := none
  workerBindings _ := none
  stakes _ := none
  onlineWorkers := 0
  nextSessionId := 0
  coolDownPeriod := 0
  tokenomicParameters := none
  workers _ := none
  stakerAccounts _ := none
  voteAccountMap _ := []
  accountVoteMap _ := []
  unmintableDust := 0
  ongoing _ := false
  native _ := 0
  frozen _ := 0
  wpha _ := some free
  wphaSupply := 0

def BasePool.stalled (cfg : Config A W) (b : BasePool A) : BasePool A :=
  { b with
    withdrawQueue := [⟨cfg.wrappedBalancesAccountId, 0, 0⟩]
    cid := 0
    poolAccountId := cfg.palletId }

section Termination

variable [DecidableEq A] {cfg : Config A W} {price : FixedPoint} {b : BasePool A} {s : State A W}

omit [DecidableEq A] in
theorem queueLive_stalled (cfg : Config A W) (b : BasePool A) (free : ℕ) :
    QueueLive cfg (b.stalled cfg) (State.stalled cfg b.totalShares free) := by
  refine ⟨?_, ?_, ?_, rfl⟩
  · simp [State.liveShares, State.stalled, State.sharesAt, BasePool.stalled]
  · intro w mem
    obtain rfl := List.mem_singleton.1 mem
    exact ⟨rfl, rfl⟩
  · intro n live
    by_cases e : n = 0
    · simp [e, State.stalled]
    · simp [State.stalled, e] at live

theorem BasePool.tryProcessWithdrawQueue_stalls {w : WithdrawInfo A}
    {rest : List (WithdrawInfo A)} (priced : b.sharePrice = some (some price))
    (queue : b.withdrawQueue = w :: rest) (unlocked : (b.cid, w.nftId) ∉ s.nftLocks)
    (found : s.nftAttr b.cid w.nftId = some ⟨b.totalShares⟩) (opened : s.wpha w.user ≠ none)
    (many : 1000 < b.totalShares) (nonzero : price.bits ≠ 0)
    (large : cfg.wphaMin < s.balance b.poolAccountId)
    (fits : b.Quotable (s.balance b.poolAccountId))
    (nothing : Balance.div (s.balance b.poolAccountId) price = some 0) :
    Sat (BasePool.tryProcessWithdrawQueue cfg b) s (fun _ _ => False)
      (fun f => f = .outOfFuel) := by
  have least := cfg.wphaMin_pos
  obtain ⟨value, worth, rich⟩ : ∃ value, Balance.mul b.totalShares price = some value ∧
      997 * s.balance b.poolAccountId ≤ value :=
    ⟨_, BasePool.worth_eq priced le_rfl,
      Balance.worth_of_div_eq_zero nonzero (fits price priced nonzero) nothing many⟩
  have value_le := BasePool.worth_le_totalValue priced worth le_rfl
  have stalls : Sat (BasePool.processFront cfg price b w rest) s (fun b' s' => b' = b ∧ s' = s)
      (fun _ => False) :=
    BasePool.processFront_stalls unlocked found many priced (by omega) worth (by omega) nonzero
      nothing opened
  have converted : Sat (convert b.sharePrice : Pallet A W _) s
      (fun o s' => o = some price ∧ s' = s) (fun _ => False) := by
    rw [priced]
    exact ⟨rfl, rfl⟩
  refine converted.bind (fun _ h => h.elim) ?_
  rintro _ _ ⟨rfl, rfl⟩
  exact BasePool.processQueue_stalls queue large stalls cfg.fuel

omit [DecidableEq A] in
theorem BasePool.sharePrice_congr {b b' : BasePool A} (value : b'.totalValue = b.totalValue)
    (shares : b'.totalShares = b.totalShares) : b'.sharePrice = b.sharePrice := by
  unfold BasePool.sharePrice
  rw [value, shares]

omit [DecidableEq A] in
theorem QueueLive.request_le {w : WithdrawInfo A} {attr : NftAttr} (h : QueueLive cfg b s)
    (queued : w ∈ b.withdrawQueue) (found : s.nftAttr b.cid w.nftId = some attr) :
    attr.shares ≤ b.totalShares := by
  have live : (s.nftOwner b.cid w.nftId).isSome := by
    rw [(h.live w queued).1]
    rfl
  rw [← State.sharesAt_of_attr live found]
  refine le_trans ?_ h.conserved
  exact Finset.single_le_sum (f := s.sharesAt b.cid) (fun _ _ => Nat.zero_le _)
    (Finset.mem_range.2 (h.minted _ live))

omit [DecidableEq A] in
theorem BasePool.Quotable.mono {x y : ℕ} (h : b.Quotable y) (le : x ≤ y) : b.Quotable x := by
  intro price priced nonzero
  refine lt_of_le_of_lt (Nat.div_le_div_right ?_) (h price priced nonzero)
  exact Nat.mul_le_mul_right _ (Nat.mul_le_mul_right _ (scale_mono le))

omit [DecidableEq A] in
theorem QueueLive.moving (h : QueueLive cfg b s) (priced : b.sharePrice = some (some price))
    (fits : b.Quotable (s.balance b.poolAccountId))
    (pays : b.Quotable (cfg.wphaMin + 1) → b.totalShares ≤ 1000 ∨ price.bits = 0 ∨
      Balance.div (cfg.wphaMin + 1) price ≠ some 0) : Moving cfg price b s := by
  by_cases small : b.totalShares ≤ 1000
  · exact .inr fun w queued attr found => (h.request_le queued found).trans small
  by_cases zero : price.bits = 0
  · exact .inl (.inl zero)
  refine .inl (.inr fun x least most => ?_)
  have quotable := fits.mono most
  rcases pays (quotable.mono least) with small' | zero' | buys
  · exact absurd small' small
  · exact absurd zero' zero
  · exact Balance.div_ne_zero_of_le zero (quotable price priced zero) least buys

omit [DecidableEq A] in
theorem BasePool.sharePrice_stalled (b : BasePool A) : (b.stalled cfg).sharePrice = b.sharePrice :=
  BasePool.sharePrice_congr rfl rfl

omit [DecidableEq A] in
theorem BasePool.quotable_stalled {free : ℕ} (b : BasePool A) (h : b.Quotable free) :
    (b.stalled cfg).Quotable ((State.stalled cfg b.totalShares free).balance
      (b.stalled cfg).poolAccountId) := by
  intro price priced
  exact h price priced

theorem BasePool.stalled_stalls {c : Config A W} (b : BasePool A) (cfg : Config A W) {free : ℕ}
    (priced : b.sharePrice = some (some price)) (many : 1000 < b.totalShares)
    (nonzero : price.bits ≠ 0) (large : c.wphaMin < free) (fits : b.Quotable free)
    (nothing : Balance.div free price = some 0) :
    Sat (BasePool.tryProcessWithdrawQueue c (b.stalled cfg))
      (State.stalled cfg b.totalShares free) (fun _ _ => False) (fun f => f = .outOfFuel) := by
  have balance : ∀ a, (State.stalled cfg b.totalShares free).balance a = free := fun _ => rfl
  refine BasePool.tryProcessWithdrawQueue_stalls ?_ rfl (Finset.notMem_empty _) rfl
    (Option.some_ne_none _) many nonzero ?_ (b.quotable_stalled fits) ?_
  · rw [BasePool.sharePrice_stalled, priced]
  · rwa [balance]
  · rwa [balance]

end Termination

end Cyrux
