import Cyrux.Compute.WithdrawQueue

/-!
# Expired withdrawals
-/

namespace Cyrux

open Exec

variable {A W : Type}

/-! ## The loop -/

def WithdrawInfo.late (w : WithdrawInfo A) (period : Option ℕ) (now : ℕ) : Bool :=
  period.any fun period => period < now - w.startTime

def expires (worth : WithdrawInfo A → Option ℕ) (now grace : ℕ) (period : Option ℕ) :
    ℕ → List (WithdrawInfo A) → Option Bool
  | _, [] => some false
  | budget, w :: rest =>
    if w.late period now then
      some true
    else do
      let amount ← worth w
      if budget < amount then
        some (grace < now - w.startTime)
      else
        expires worth now grace period (budget - amount) rest

variable {worth : WithdrawInfo A → Option ℕ} {now now' grace : ℕ} {period : Option ℕ}

theorem WithdrawInfo.late_mono {w w' : WithdrawInfo A} (h : w.late period now = true)
    (older : w'.startTime ≤ w.startTime) (later : now ≤ now') : w'.late period now' = true := by
  unfold WithdrawInfo.late at *
  cases period with
  | none => cases h
  | some period =>
    simp only [Option.any_some, decide_eq_true_eq] at *
    omega

theorem exists_of_expires {budget : ℕ} {queue : List (WithdrawInfo A)}
    (h : expires worth now grace period budget queue = some true) :
    ∃ w ∈ queue, w.late period now = true ∨ grace < now - w.startTime := by
  induction queue generalizing budget with
  | nil => cases h
  | cons w rest ih =>
    unfold expires at h
    split at h
    case isTrue late => exact ⟨w, List.mem_cons_self, .inl late⟩
    case isFalse =>
      obtain ⟨amount, -, h⟩ := Option.bind_eq_some_iff.1 h
      split at h
      case isTrue =>
        exact ⟨w, List.mem_cons_self, .inr (of_decide_eq_true (Option.some.inj h))⟩
      case isFalse =>
        obtain ⟨w', mem, expired⟩ := ih h
        exact ⟨w', List.mem_cons_of_mem _ mem, expired⟩

theorem expires_mono {budget budget' : ℕ} {queue : List (WithdrawInfo A)}
    (ordered : queue.Pairwise fun w w' => w.startTime ≤ w'.startTime) (later : now ≤ now')
    (less : budget' ≤ budget) (h : expires worth now grace period budget queue = some true) :
    expires worth now' grace period budget' queue = some true := by
  induction queue generalizing budget budget' with
  | nil => cases h
  | cons w rest ih =>
    obtain ⟨first, ordered⟩ := List.pairwise_cons.1 ordered
    unfold expires at h ⊢
    by_cases late' : w.late period now' = true
    · rw [if_pos late']
    · have late : ¬ w.late period now = true := fun late =>
        late' (WithdrawInfo.late_mono late le_rfl later)
      rw [if_neg late']
      rw [if_neg late] at h
      obtain ⟨amount, valued, h⟩ := Option.bind_eq_some_iff.1 h
      rw [valued, Option.bind_eq_bind, Option.bind_some]
      by_cases short : budget < amount
      · rw [if_pos short] at h
        rw [if_pos (less.trans_lt short)]
        have waited := of_decide_eq_true (Option.some.inj h)
        simp only [Option.some.injEq, decide_eq_true_eq]
        omega
      · rw [if_neg short] at h
        by_cases short' : budget' < amount
        · -- The smaller budget ends here; a request behind this one has waited for too long.
          rw [if_pos short']
          obtain ⟨w', mem, expired⟩ := exists_of_expires h
          have older := first w' mem
          have waited : grace < now - w'.startTime :=
            expired.resolve_left fun late => late' (WithdrawInfo.late_mono late older later)
          simp only [Option.some.injEq, decide_eq_true_eq]
          omega
        · rw [if_neg short']
          exact ih ordered (Nat.sub_le_sub_right less _) h

/-! ## The program -/

def State.worthAt (s : State A W) (cid : ℕ) (price : FixedPoint) (w : WithdrawInfo A) : Option ℕ :=
  if (cid, w.nftId) ∈ s.nftLocks then none
  else do
    let nft ← s.nftAttr cid w.nftId
    Balance.mul nft.shares price

namespace BasePool

variable {b : BasePool A} {s : State A W}

theorem elapsed_of_le {startTime : ℕ} (past : startTime ≤ now) :
    Sat (elapsed now startTime) s (fun age s' => age = now - startTime ∧ s' = s)
      (fun _ => False) := by
  exact Sat.ensure_bind (fun _ => ⟨rfl, rfl⟩) fun future => future past

theorem overdue_eq {w : WithdrawInfo A} (past : w.startTime ≤ now) :
    Sat (overdue period now w.startTime) s (fun late s' => late = w.late period now ∧ s' = s)
      (fun _ => False) := by
  cases period with
  | none => exact ⟨rfl, rfl⟩
  | some period =>
    refine (elapsed_of_le past).bind (fun _ h => h) ?_
    rintro age _ ⟨rfl, rfl⟩
    exact ⟨rfl, rfl⟩

theorem readNft_eq (price : FixedPoint) (w : WithdrawInfo A) :
    Sat (expect .expiryNft (readNftAttr b.cid w.nftId)) s
      (fun nft s' => s.worthAt b.cid price w = Balance.mul nft.shares price ∧ s' = s)
      (fun _ => s.worthAt b.cid price w = none) := by
  refine sat_mapFault.2 ((readNftAttr_spec b.cid w.nftId s).mono ?_ ?_)
  · rintro nft s' ⟨free, found, same⟩
    refine ⟨?_, same⟩
    unfold State.worthAt
    rw [if_neg free, found, Option.bind_eq_bind, Option.bind_some]
  · rintro f (⟨-, missing⟩ | ⟨-, locked⟩)
    · unfold State.worthAt
      rw [missing, Option.bind_eq_bind, Option.bind_none, ite_self]
    · unfold State.worthAt
      rw [if_pos locked]

theorem expiredFrom_eq (price : FixedPoint) (budget : ℕ) {queue : List (WithdrawInfo A)}
    (past : ∀ w ∈ queue, w.startTime ≤ now) :
    Sat (b.expiredFrom price now grace period budget queue) s
      (fun expired s' =>
        expires (s.worthAt b.cid price) now grace period budget queue = some expired ∧ s' = s)
      (fun _ => expires (s.worthAt b.cid price) now grace period budget queue = none) := by
  induction queue generalizing budget with
  | nil => exact ⟨rfl, rfl⟩
  | cons w rest ih =>
    have past_w := past w List.mem_cons_self
    unfold expiredFrom expires
    refine (overdue_eq past_w).bind (fun _ h => h.elim) ?_
    rintro late s ⟨rfl, rfl⟩
    by_cases late : w.late period now = true
    · rw [if_pos late, if_pos late]
      exact ⟨rfl, rfl⟩
    rw [if_neg late, if_neg late]
    refine (readNft_eq price w).bind (fun _ none => by rw [none]; rfl) ?_
    rintro nft _ ⟨valued, rfl⟩
    rw [valued]
    refine Sat.demand_bind (fun amount product => ?_) fun overflow => by rw [overflow]; rfl
    rw [product, Option.bind_eq_bind, Option.bind_some]
    by_cases short : budget < amount
    · rw [if_pos short, if_pos short]
      refine (elapsed_of_le past_w).bind (fun _ h => h.elim) ?_
      rintro age _ ⟨rfl, rfl⟩
      exact ⟨rfl, rfl⟩
    · rw [if_neg short, if_neg short]
      exact ih _ fun w mem => past w (List.mem_cons_of_mem _ mem)

theorem hasExpiredWithdrawal_iff {s' : State A W} {releasing : ℕ}
    (past : ∀ w ∈ b.withdrawQueue, w.startTime ≤ now) :
    b.hasExpiredWithdrawal now grace period releasing s = .ok (true, s') ↔
      s' = s ∧ ∃ price, b.sharePrice = some (some price) ∧ price.bits ≠ 0 ∧
        expires (s.worthAt b.cid price) now grace period (s.balance b.poolAccountId + releasing)
          b.withdrawQueue = some true := by
  have spec : Sat (b.hasExpiredWithdrawal now grace period releasing) s
      (fun expired s' => s' = s ∧ (expired = true ↔ ∃ price, b.sharePrice = some (some price) ∧
        price.bits ≠ 0 ∧ expires (s.worthAt b.cid price) now grace period
          (s.balance b.poolAccountId + releasing) b.withdrawQueue = some true))
      (fun _ => ∀ price, b.sharePrice = some (some price) →
        expires (s.worthAt b.cid price) now grace period (s.balance b.poolAccountId + releasing)
          b.withdrawQueue = none) := by
    refine Sat.demand_bind (fun o priced => ?_) fun overflow price priced => ?_
    · cases o with
      | none => simp [priced]
      | some price =>
        by_cases zero : price.bits = 0
        · simp [priced, zero]
        · dsimp only
          rw [if_neg zero]
          refine (getFreeStakes_spec b s).bind (fun _ h => h.elim) ?_
          rintro _ s ⟨rfl, rfl⟩
          refine (expiredFrom_eq price _ past).mono ?_ ?_
          · rintro expired _ ⟨computed, rfl⟩
            simp [priced, zero, computed]
          · rintro _ none price' priced'
            cases priced.symm.trans priced'
            exact none
    · cases overflow.symm.trans priced
  constructor
  · intro run
    obtain ⟨same, answer⟩ := spec.of_ok run
    exact ⟨same, answer.1 rfl⟩
  · rintro ⟨rfl, price, priced, nonzero, expired⟩
    cases run : b.hasExpiredWithdrawal now grace period releasing s' with
    | error f =>
      have none := spec.of_error run price priced
      rw [expired] at none
      cases none
    | ok r =>
      obtain ⟨answer, s''⟩ := r
      obtain ⟨rfl, iff_⟩ := spec.of_ok run
      rw [iff_.2 ⟨price, priced, nonzero, expired⟩]

end BasePool

theorem expired_withdrawal_mono {s s' : State A W} {b : BasePool A} {releasing releasing' : ℕ}
    (ordered : b.withdrawQueue.Pairwise fun w w' => w.startTime ≤ w'.startTime)
    (past : ∀ w ∈ b.withdrawQueue, w.startTime ≤ now) (later : now ≤ now')
    (less : releasing' ≤ releasing)
    (expired : b.hasExpiredWithdrawal now grace period releasing s = .ok (true, s')) :
    b.hasExpiredWithdrawal now' grace period releasing' s = .ok (true, s') := by
  have past' : ∀ w ∈ b.withdrawQueue, w.startTime ≤ now' := fun w mem => (past w mem).trans later
  rw [BasePool.hasExpiredWithdrawal_iff past] at expired
  rw [BasePool.hasExpiredWithdrawal_iff past']
  obtain ⟨same, price, priced, nonzero, expired⟩ := expired
  exact ⟨same, price, priced, nonzero,
    expires_mono ordered later (Nat.add_le_add_left less _) expired⟩

theorem expired_withdrawal_mono_waiting :
    ∃ (s s' : State Mock.Account ℕ) (b : BasePool Mock.Account), b.withdrawQueue ≠ [] ∧
      b.hasExpiredWithdrawal 604801 604800 none 10 s = .ok (true, s') ∧
      b.hasExpiredWithdrawal 700000 604800 none 5 s = .ok (true, s') := by
  obtain ⟨s, -, waits⟩ := Mock.exists_reachable Mock.runtime (fun _ _ => True)
    (Mock.opening (10 ^ 15) (10 ^ 15) ++ [
      .signed Mock.alice .createVault,
      .signed Mock.bob (.contributeVault 1 (10 ^ 13)),
      .signed Mock.alice (.contributeStakePool 0 (10 ^ 13) (some 1)),
      .signed Mock.bob (.withdrawVault 1 (10 ^ 12))])
    (fun s => (Mock.vaultOf s).any fun u => u.basepool.withdrawQueue ≠ [] ∧
      (u.basepool.withdrawQueue.Pairwise fun w w' => w.startTime ≤ w'.startTime) ∧
      (∀ w ∈ u.basepool.withdrawQueue, w.startTime ≤ 604801) ∧
      Mock.returns (u.basepool.hasExpiredWithdrawal 604801 604800 none 10) s true)
    (by decide +kernel)
  obtain ⟨u, -, waits⟩ := (Option.any_eq_true _ _).1 waits
  obtain ⟨nonempty, ordered, past, answer⟩ := of_decide_eq_true waits
  obtain ⟨s', expired⟩ := Mock.exists_of_returns answer
  exact ⟨s, s', u.basepool, nonempty, expired,
    expired_withdrawal_mono ordered past (by norm_num) (by norm_num) expired⟩

end Cyrux
