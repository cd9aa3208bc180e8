import Cyrux.Compute.Agreement
import Cyrux.Compute.QueueLoop
import Mathlib.Algebra.Order.BigOperators.Group.Finset

/-!
# Solvency of the stake pools
-/

namespace Cyrux

open Exec

variable {A W : Type} {cfg : Config A W} {v x : State A W} {pid : ℕ}

def State.stakeOf (v : State A W) (session : A) : ℕ := (v.stakes session).getD 0

structure StakePool.Solvent (cfg : Config A W) (v : State A W) (pid : ℕ) (p : StakePool A W) :
    Prop where
  locked : ∀ F : Finset W,
    ∑ w ∈ F, v.stakeOf (cfg.poolSubAccount pid w) ≤ v.balance p.lockAccount
  value : p.basepool.totalValue ≤ v.balance p.basepool.poolAccountId + v.balance p.lockAccount

structure Solvent (cfg : Config A W) (v : State A W) : Prop where
  pool : ∀ pid p, v.pools pid = some (.stakePool p) → p.Solvent cfg v pid
  idle : ∀ pid w, v.pools pid = none → v.stakes (cfg.poolSubAccount pid w) = none

/-! ## Frames -/

theorem StakePool.Solvent.frame {p p' : StakePool A W} (h : p.Solvent cfg v pid)
    (stakes : ∀ w, x.stakes (cfg.poolSubAccount pid w) = v.stakes (cfg.poolSubAccount pid w))
    (lock : p'.lockAccount = p.lockAccount)
    (account : p'.basepool.poolAccountId = p.basepool.poolAccountId)
    (locked : v.balance p.lockAccount ≤ x.balance p.lockAccount)
    (value : p'.basepool.totalValue + v.balance p.basepool.poolAccountId ≤
      p.basepool.totalValue + x.balance p.basepool.poolAccountId) : p'.Solvent cfg x pid := by
  have same : ∀ w, x.stakeOf (cfg.poolSubAccount pid w) = v.stakeOf (cfg.poolSubAccount pid w) := by
    intro w
    unfold State.stakeOf
    rw [stakes]
  refine ⟨fun F => ?_, ?_⟩
  · rw [lock, Finset.sum_congr rfl fun w _ => same w]
    exact (h.locked F).trans locked
  · have := h.value
    rw [lock, account]
    omega

structure Undrained (cfg : Config A W) (v x : State A W) (pid : ℕ) : Prop where
  stakes : ∀ w, x.stakes (cfg.poolSubAccount pid w) = v.stakes (cfg.poolSubAccount pid w)
  balance : ∀ p, v.pools pid = some (.stakePool p) →
    v.balance p.lockAccount ≤ x.balance p.lockAccount ∧
      v.balance p.basepool.poolAccountId ≤ x.balance p.basepool.poolAccountId

theorem Undrained.of_same (stakes : x.stakes = v.stakes) (wpha : x.wpha = v.wpha) (pid : ℕ) :
    Undrained cfg v x pid := by
  have same : ∀ a, v.balance a ≤ x.balance a := fun a => by
    unfold State.balance
    rw [wpha]
  exact ⟨fun w => by rw [stakes], fun p _ => ⟨same _, same _⟩⟩

theorem Undrained.of_payer (payer : A) (tidy : Tidy cfg v)
    (stakes : ∀ w, x.stakes (cfg.poolSubAccount pid w) = v.stakes (cfg.poolSubAccount pid w))
    (balance : ∀ a, a ≠ payer → v.balance a ≤ x.balance a)
    (other : ∀ p, v.pools pid = some (.stakePool p) →
      cfg.role payer ≠ .staker pid ∧ cfg.role payer ≠ .lock pid) : Undrained cfg v x pid := by
  refine ⟨stakes, fun p stored => ?_⟩
  obtain ⟨notStaker, notLock⟩ := other p stored
  have ok := tidy.pool pid _ stored
  refine ⟨balance _ ?_, balance _ ?_⟩
  · rintro rfl
    exact notLock ok.kind.1
  · rintro rfl
    exact notStaker ok.account

theorem Solvent.frame (h : Solvent cfg v) (touched : ℕ → Prop)
    (rest : ∀ pid, ¬ touched pid → Undrained cfg v x pid)
    (old : ∀ pid p', ¬ touched pid → x.pools pid = some (.stakePool p') →
      ∃ p, v.pools pid = some (.stakePool p) ∧ p'.lockAccount = p.lockAccount ∧
        p'.basepool = p.basepool)
    (new : ∀ pid p', touched pid → x.pools pid = some (.stakePool p') → p'.Solvent cfg x pid)
    (none : ∀ pid, x.pools pid = none → ¬ touched pid ∧ v.pools pid = none) : Solvent cfg x := by
  refine ⟨fun pid p' stored' => ?_, fun pid w empty => ?_⟩
  · by_cases ht : touched pid
    · exact new pid p' ht stored'
    · obtain ⟨p, stored, lock, base⟩ := old pid p' ht stored'
      obtain ⟨locked, paid⟩ := (rest pid ht).balance p stored
      refine (h.pool pid p stored).frame (rest pid ht).stakes lock (by rw [base]) locked ?_
      rw [base]
      omega
  · obtain ⟨ht, empty⟩ := none pid empty
    rw [(rest pid ht).stakes, h.idle pid w empty]

theorem Solvent.same (h : Solvent cfg v) (pools : x.pools = v.pools)
    (rest : ∀ pid, Undrained cfg v x pid) : Solvent cfg x :=
  h.frame (fun _ => False) (fun pid _ => rest pid)
    (fun pid p' _ stored' => ⟨p', by rw [← pools, stored'], rfl, rfl⟩)
    (fun _ _ touched => touched.elim) fun pid none =>
    ⟨fun touched => touched, by rw [← pools, none]⟩

theorem Solvent.putPool (h : Solvent cfg v) {q' : PoolProxy A W} (pools : x.pools = v.pools)
    (rest : ∀ pid', pid' ≠ pid → Undrained cfg v x pid')
    (new : ∀ p', q' = .stakePool p' → p'.Solvent cfg x pid) :
    Solvent cfg (x.putPool pid q') := by
  refine h.frame (fun pid' => pid' = pid) (fun pid' ne => ?_) ?_ ?_ ?_
  · obtain ⟨stakes, balance⟩ := rest pid' ne
    exact ⟨stakes, balance⟩
  · intro pid' p' ne stored'
    rw [State.putPool_of_ne ne, pools] at stored'
    exact ⟨p', stored', rfl, rfl⟩
  · rintro pid' p' rfl stored'
    rw [State.putPool_self] at stored'
    obtain ⟨locked, value⟩ := new p' (Option.some.inj stored')
    exact ⟨locked, value⟩
  · intro pid' none
    by_cases e : pid' = pid
    · subst e
      rw [State.putPool_self] at none
      cases none
    · rw [State.putPool_of_ne e, pools] at none
      exact ⟨e, none⟩

/-! ## Who pays -/

theorem PoolProxy.Client.not_stakePool {q : PoolProxy A W} {a : A} (tidy : Tidy cfg v)
    (client : q.Client cfg v a) {p : StakePool A W} (stored : v.pools pid = some (.stakePool p)) :
    cfg.role a ≠ .staker pid ∧ cfg.role a ≠ .lock pid := by
  rcases client with signer | ⟨-, pid', u, vault, rfl⟩
  · rw [signer]
    exact ⟨by rintro ⟨⟩, by rintro ⟨⟩⟩
  · have role : cfg.role u.basepool.poolAccountId = .staker pid' :=
      (tidy.pool pid' _ vault).account
    rw [role]
    refine ⟨fun same => ?_, by rintro ⟨⟩⟩
    cases same
    rw [stored] at vault
    cases vault

section Payers

variable [DecidableEq A] {source dest : A} {amount : ℕ}

theorem State.balance_le_move {a : A} (ne : a ≠ source) :
    v.balance a ≤ (v.move cfg source dest amount).balance a :=
  Ledger.balance_le_move ne

theorem State.balance_le_move_add (lossless : cfg.reapsDust = false) :
    v.balance source ≤ (v.move cfg source dest amount).balance source + amount :=
  Ledger.balance_le_move_add lossless

theorem State.balance_move_dest (ne : source ≠ dest) :
    (v.move cfg source dest amount).balance dest = v.balance dest + amount :=
  Ledger.balance_move_dest ne

theorem State.balance_le_mintOrDust (a : A) :
    v.balance a ≤ (v.mintOrDust cfg dest amount).balance a := by
  unfold State.mintOrDust
  split_ifs
  · exact le_rfl
  · exact le_rfl
  · by_cases e : a = dest
    · subst e
      exact (Nat.le_add_right _ _).trans_eq Ledger.balance_credit_self.symm
    · exact (Ledger.balance_congr (Ledger.credit_of_ne e)).ge

theorem State.balance_mintOrDust (opened : ¬ v.belowMinimum cfg dest amount) :
    (v.mintOrDust cfg dest amount).balance dest = v.balance dest + amount := by
  unfold State.mintOrDust
  split_ifs with zero
  · rw [zero, Nat.add_zero]
  · exact Ledger.balance_credit_self

theorem Undrained.of_move {x : State A W} (tidy : Tidy cfg v)
    (stakes : ∀ w, x.stakes (cfg.poolSubAccount pid w) = v.stakes (cfg.poolSubAccount pid w))
    (wpha : x.wpha = v.wpha) (other : ∀ p, v.pools pid = some (.stakePool p) →
      cfg.role source ≠ .staker pid ∧ cfg.role source ≠ .lock pid) :
    Undrained cfg v (x.move cfg source dest amount) pid := by
  refine .of_payer source tidy (fun w => stakes w) (fun a ne => ?_) other
  have same : v.balance a = x.balance a := by
    unfold State.balance
    rw [wpha]
  rw [same]
  exact State.balance_le_move ne

end Payers

/-! ## Effects on shares -/

section ShareEffects

variable [DecidableEq A] {l : Label A} {v' : State A W}

theorem Solvent.pay {q : PoolProxy A W} {b b' : BasePool A} {user : A} {amount : ℕ}
    (lossless : cfg.reapsDust = false) (tidy : Tidy cfg v) (h : Solvent cfg v)
    (stored : v.pools pid = some (q.withBase b)) (pools : x.pools = v.pools)
    (stakes : x.stakes = v.stakes) (wpha : x.wpha = v.wpha)
    (account : b'.poolAccountId = b.poolAccountId) (value : b'.totalValue + amount ≤ b.totalValue) :
    Solvent cfg ((x.move cfg b.poolAccountId user amount).putPool pid (q.withBase b')) := by
  have ok := tidy.pool pid _ stored
  have role : cfg.role b.poolAccountId = .staker pid := by
    rw [← ok.account, PoolProxy.basepool_withBase]
  have same : ∀ a, x.balance a = v.balance a := fun a => by
    unfold State.balance
    rw [wpha]
  refine h.putPool pools (fun pid' ne => ?_) ?_
  · refine .of_move tidy (fun w => by rw [stakes]) wpha fun p _ => ?_
    rw [role]
    refine ⟨fun e => ?_, by rintro ⟨⟩⟩
    cases e
    exact ne rfl
  · intro p' hp
    cases q with
    | vault u => cases hp
    | stakePool p =>
      cases hp
      have lock : p.lockAccount ≠ b.poolAccountId := fun e => by
        have := ok.kind.1
        rw [show (StakePool.lockAccount { p with basepool := b }) = b.poolAccountId from e,
          role] at this
        cases this
      refine (h.pool pid _ stored).frame (fun w => ?_) rfl account ?_ ?_
      · exact congrFun stakes _
      · rw [← same]
        exact State.balance_le_move lock
      · have paid : x.balance b.poolAccountId ≤
            (x.move cfg b.poolAccountId user amount).balance b.poolAccountId + amount :=
          State.balance_le_move_add lossless
        rw [same] at paid
        change b'.totalValue + v.balance b.poolAccountId ≤
          b.totalValue + (x.move cfg b.poolAccountId user amount).balance b.poolAccountId
        omega

omit [DecidableEq A] in
theorem Solvent.withBase {q : PoolProxy A W} {b b' : BasePool A} (h : Solvent cfg v)
    (stored : v.pools pid = some (q.withBase b)) (pools : x.pools = v.pools)
    (stakes : x.stakes = v.stakes) (wpha : x.wpha = v.wpha)
    (account : b'.poolAccountId = b.poolAccountId) (value : b'.totalValue = b.totalValue) :
    Solvent cfg (x.putPool pid (q.withBase b')) := by
  have rest : ∀ pid', Undrained cfg v x pid' := .of_same stakes wpha
  refine h.putPool pools (fun pid' _ => rest pid') ?_
  intro p' hp
  cases q with
  | vault u => cases hp
  | stakePool p =>
    cases hp
    obtain ⟨locked, paid⟩ := (rest pid).balance _ stored
    refine (h.pool pid _ stored).frame (rest pid).stakes rfl account locked ?_
    exact Nat.add_le_add value.le paid

theorem Solvent.contribute {q : PoolProxy A W} {b b' : BasePool A} {a : A} {amount : ℕ}
    (tidy : Tidy cfg v) (h : Solvent cfg v) (stored : v.pools pid = some (q.withBase b))
    (client : q.Client cfg v a) (pools : x.pools = v.pools) (stakes : x.stakes = v.stakes)
    (wpha : x.wpha = v.wpha) (account : b'.poolAccountId = b.poolAccountId)
    (value : b'.totalValue = b.totalValue + amount) :
    Solvent cfg ((x.move cfg a b.poolAccountId amount).putPool pid (q.withBase b')) := by
  have rest : ∀ pid', Undrained cfg v (x.move cfg a b.poolAccountId amount) pid' := fun pid' =>
    .of_move tidy (fun w => by rw [stakes]) wpha fun p stored' => client.not_stakePool tidy stored'
  refine h.putPool pools (fun pid' _ => rest pid') ?_
  intro p' hp
  cases q with
  | vault u => cases hp
  | stakePool p =>
    cases hp
    have ne : a ≠ b.poolAccountId := fun e =>
      (client.not_stakePool tidy stored).1 (e ▸ (tidy.pool pid _ stored).account)
    obtain ⟨locked, -⟩ := (rest pid).balance _ stored
    refine (h.pool pid _ stored).frame (rest pid).stakes rfl account locked ?_
    change b'.totalValue + v.balance b.poolAccountId ≤
      b.totalValue + (x.move cfg a b.poolAccountId amount).balance b.poolAccountId
    have same : x.balance b.poolAccountId = v.balance b.poolAccountId := by
      unfold State.balance
      rw [wpha]
    rw [State.balance_move_dest ne, same]
    omega

omit [DecidableEq A] in
theorem Solvent.addPool {q : PoolProxy A W} (tidy : Tidy cfg v) (h : Solvent cfg v)
    (empty : q.basepool.totalValue = 0) : Solvent cfg (v.addPool q) := by
  have fresh := tidy.fresh v.poolCount le_rfl
  have put : Solvent cfg (v.putPool v.poolCount q) := by
    refine h.putPool rfl (fun pid' _ => .of_same rfl rfl pid') ?_
    rintro p' rfl
    refine ⟨fun F => ?_, ?_⟩
    · refine (Finset.sum_eq_zero fun w _ => ?_).trans_le (Nat.zero_le _)
      unfold State.stakeOf
      rw [h.idle _ w fresh]
      rfl
    · rw [show p'.basepool.totalValue = 0 from empty]
      exact Nat.zero_le _
  exact put.same rfl (.of_same rfl rfl)

theorem ShareEffect.solvent (lossless : cfg.reapsDust = false) (tidy : Tidy cfg v)
    (effect : ShareEffect cfg l v v') (h : Solvent cfg v) : Solvent cfg v' := by
  have value : ∀ b : BasePool A, ∀ {amount}, amount ≤ b.totalValue →
      (extractDust (b.totalValue - amount)).1 + amount ≤ b.totalValue := by
    intro b amount le
    rw [BasePool.fst_extractDust]
    split_ifs <;> omega
  cases effect with
  | merge =>
    refine h.same ?_ (.of_same ?_ ?_) <;>
    · unfold State.mergeNfts
      rw [State.burnNfts_eq]
      rfl
  | contribute stored client => exact h.contribute tidy stored client rfl rfl rfl rfl rfl
  | request stored =>
    rw [State.burnNfts_eq]
    exact h.withBase stored rfl rfl rfl rfl rfl
  | reduce => exact h.same rfl (.of_same rfl rfl)
  | dust stored => exact h.withBase stored rfl rfl rfl rfl rfl
  | part stored queue found priced worth paid valued =>
    exact h.pay lossless tidy stored rfl rfl rfl rfl (value _ valued)
  | full stored queue found owned priced worth paid valued =>
    exact h.pay lossless tidy stored rfl rfl rfl rfl (value _ valued)
  | gain => exact h.putPool rfl (fun _ _ => .of_same rfl rfl _) (by rintro p' ⟨⟩)
  | claim => refine h.putPool rfl (fun _ _ => .of_same ?_ ?_ _) (by rintro p' ⟨⟩) <;> rfl
  | createStakePool => exact h.addPool tidy rfl
  | createVault => exact h.addPool tidy rfl

end ShareEffects

/-! ## Stakes -/

section Stakes

variable [DecidableEq W] {p : StakePool A W} {w : W} {stake : ℕ}

theorem StakePool.Solvent.sum_erase (h : p.Solvent cfg v pid) (w : W) (F : Finset W) :
    ∑ w' ∈ F.erase w, v.stakeOf (cfg.poolSubAccount pid w') +
      v.stakeOf (cfg.poolSubAccount pid w) ≤ v.balance p.lockAccount := by
  have := h.locked (insert w (F.erase w))
  rw [Finset.sum_insert (Finset.notMem_erase w F)] at this
  omega

theorem State.sum_stakeOf_update [DecidableEq A] {o : Option ℕ}
    (stakes : x.stakes = Function.update v.stakes (cfg.poolSubAccount pid w) o) (F : Finset W) :
    ∑ w' ∈ F, x.stakeOf (cfg.poolSubAccount pid w') ≤
      ∑ w' ∈ F.erase w, v.stakeOf (cfg.poolSubAccount pid w') + o.getD 0 := by
  have own : x.stakeOf (cfg.poolSubAccount pid w) = o.getD 0 := by
    simp [State.stakeOf, stakes]
  have other : ∀ w' ∈ F.erase w,
      x.stakeOf (cfg.poolSubAccount pid w') = v.stakeOf (cfg.poolSubAccount pid w') := by
    intro w' mem
    have ne : cfg.poolSubAccount pid w' ≠ cfg.poolSubAccount pid w := fun e =>
      Finset.ne_of_mem_erase mem (Config.poolSubAccount_inj e).2
    simp [State.stakeOf, stakes, ne]
  rw [← Finset.sum_congr rfl other, ← own]
  by_cases mem : w ∈ F
  · rw [Finset.sum_erase_add _ _ mem]
  · rw [Finset.erase_eq_of_notMem mem]
    exact Nat.le_add_right _ _

omit [DecidableEq W] in
theorem Undrained.of_session [DecidableEq A] (tidy : Tidy cfg v) {o : Option ℕ} {pid' : ℕ}
    {source dest : A} {amount : ℕ} (ne : pid' ≠ pid)
    (stakes : x.stakes = Function.update v.stakes (cfg.poolSubAccount pid w) o)
    (wpha : x.wpha = v.wpha)
    (source_role : cfg.role source = .staker pid ∨ cfg.role source = .lock pid) :
    Undrained cfg v (x.move cfg source dest amount) pid' := by
  refine .of_move tidy (fun w' => ?_) wpha fun p _ => ?_
  · rw [stakes]
    exact Function.update_of_ne (fun e => ne (Config.poolSubAccount_inj e).1) _ _
  · rcases source_role with role | role <;> rw [role] <;>
      exact ⟨by rintro ⟨⟩ <;> exact ne rfl, by rintro ⟨⟩ <;> exact ne rfl⟩

theorem Solvent.start [DecidableEq A] (lossless : cfg.reapsDust = false) (tidy : Tidy cfg v)
    (h : Solvent cfg v) (stored : v.pools pid = some (.stakePool p)) (pools : x.pools = v.pools)
    (stakes : x.stakes = Function.update v.stakes (cfg.poolSubAccount pid w) (some stake))
    (wpha : x.wpha = v.wpha) :
    Solvent cfg (x.move cfg p.basepool.poolAccountId p.lockAccount stake) := by
  have ok := tidy.pool pid _ stored
  have staker : cfg.role p.basepool.poolAccountId = .staker pid := ok.account
  have ne : p.basepool.poolAccountId ≠ p.lockAccount := fun e => by
    have := ok.kind.1
    rw [← e, staker] at this
    cases this
  have same : ∀ a, x.balance a = v.balance a := fun a => by
    unfold State.balance
    rw [wpha]
  have put : (x.move cfg p.basepool.poolAccountId p.lockAccount stake).putPool pid (.stakePool p) =
      x.move cfg p.basepool.poolAccountId p.lockAccount stake :=
    State.putPool_stored (by rw [← stored, ← pools]; rfl)
  rw [← put]
  refine h.putPool pools (fun pid' other => .of_session tidy other stakes wpha (.inl staker)) ?_
  rintro _ ⟨⟩
  have solvent := h.pool pid p stored
  have lock : (x.move cfg p.basepool.poolAccountId p.lockAccount stake).balance p.lockAccount =
      x.balance p.lockAccount + stake := State.balance_move_dest ne
  have account : x.balance p.basepool.poolAccountId ≤ (x.move cfg p.basepool.poolAccountId
      p.lockAccount stake).balance p.basepool.poolAccountId + stake :=
    State.balance_le_move_add lossless
  rw [same] at lock account
  refine ⟨fun F => ?_, ?_⟩
  · have sum := State.sum_stakeOf_update stakes F
    have rest := solvent.locked (F.erase w)
    rw [lock]
    exact sum.trans (Nat.add_le_add_right rest _)
  · have value := solvent.value
    omega

theorem Solvent.reclaim [DecidableEq A] (lossless : cfg.reapsDust = false) (tidy : Tidy cfg v)
    (h : Solvent cfg v) (stored : v.pools pid = some (.stakePool p)) (pools : x.pools = v.pools)
    (stakes : x.stakes = Function.update v.stakes (cfg.poolSubAccount pid w) none)
    (wpha : x.wpha = v.wpha) {p' : StakePool A W} (lockAccount : p'.lockAccount = p.lockAccount)
    (base : p'.basepool = p.basepool) :
    Solvent cfg ((x.move cfg p.lockAccount p.basepool.poolAccountId
      (v.stakeOf (cfg.poolSubAccount pid w))).putPool pid (.stakePool p')) := by
  have ok := tidy.pool pid _ stored
  have locker : cfg.role p.lockAccount = .lock pid := ok.kind.1
  have ne : p.lockAccount ≠ p.basepool.poolAccountId := fun e => by
    have : cfg.role p.basepool.poolAccountId = .staker pid := ok.account
    rw [← e, locker] at this
    cases this
  have same : ∀ a, x.balance a = v.balance a := fun a => by
    unfold State.balance
    rw [wpha]
  refine h.putPool pools (fun pid' other => .of_session tidy other stakes wpha (.inr locker)) ?_
  rintro _ ⟨⟩
  have solvent := h.pool pid p stored
  set amount := v.stakeOf (cfg.poolSubAccount pid w) with hamount
  have account : (x.move cfg p.lockAccount p.basepool.poolAccountId amount).balance
      p.basepool.poolAccountId = x.balance p.basepool.poolAccountId + amount :=
    State.balance_move_dest ne
  have lock : x.balance p.lockAccount ≤ (x.move cfg p.lockAccount p.basepool.poolAccountId
      amount).balance p.lockAccount + amount := State.balance_le_move_add lossless
  rw [same] at lock account
  refine ⟨fun F => ?_, ?_⟩
  · have sum := State.sum_stakeOf_update stakes F
    have rest := solvent.sum_erase w F
    rw [lockAccount]
    change _ ≤ (x.move cfg p.lockAccount p.basepool.poolAccountId amount).balance p.lockAccount
    change ∑ w' ∈ F, x.stakeOf _ ≤ _
    simp only [Option.getD_none] at sum
    omega
  · have value := solvent.value
    rw [lockAccount, base, account]
    omega

end Stakes

/-! ## Other effects -/

section SideEffects

variable [DecidableEq A] [DecidableEq W] {l : Label A} {v' : State A W}

omit [DecidableEq A] [DecidableEq W] in
theorem Solvent.setStakePool {p p' : StakePool A W} (h : Solvent cfg v)
    (stored : v.pools pid = some (.stakePool p)) (pools : x.pools = v.pools)
    (stakes : x.stakes = v.stakes) (wpha : x.wpha = v.wpha)
    (lock : p'.lockAccount = p.lockAccount)
    (account : p'.basepool.poolAccountId = p.basepool.poolAccountId)
    (value : p'.basepool.totalValue = p.basepool.totalValue) :
    Solvent cfg (x.putPool pid (.stakePool p')) := by
  have rest : ∀ pid', Undrained cfg v x pid' := .of_same stakes wpha
  refine h.putPool pools (fun pid' _ => rest pid') ?_
  rintro _ ⟨⟩
  obtain ⟨locked, paid⟩ := (rest pid).balance _ stored
  exact (h.pool pid p stored).frame (rest pid).stakes lock account locked
    (Nat.add_le_add value.le paid)

omit [DecidableEq A] [DecidableEq W] in
theorem Solvent.setVault {u : Vault A} (h : Solvent cfg v) :
    Solvent cfg (v.putPool pid (.vault u)) :=
  h.putPool rfl (fun _ _ => .of_same rfl rfl _) (by rintro p' ⟨⟩)

omit [DecidableEq W] in
theorem Solvent.reward {minted : State A W} {p : StakePool A W} {distributed bonus : ℕ}
    (h : Solvent cfg v) (stored : v.pools pid = some (.stakePool p))
    (pools : minted.pools = v.pools) (stakes : minted.stakes = v.stakes)
    (balance : ∀ a, v.balance a ≤ minted.balance a)
    (covered : bonus = 0 ∨
      bonus = distributed ∧ ¬ minted.belowMinimum cfg p.basepool.poolAccountId distributed) :
    Solvent cfg ((minted.mintOrDust cfg p.basepool.poolAccountId distributed).putPool pid
      (.stakePool { p with
        basepool := { p.basepool with totalValue := p.basepool.totalValue + bonus } })) := by
  set x := minted.mintOrDust cfg p.basepool.poolAccountId distributed with hx
  have balance' : ∀ a, v.balance a ≤ x.balance a := fun a =>
    (balance a).trans (State.balance_le_mintOrDust a)
  have eq : x.pools = minted.pools ∧ x.stakes = minted.stakes := by
    rw [hx, State.mintOrDust_eq]
    exact ⟨rfl, rfl⟩
  have rest : ∀ pid', Undrained cfg v x pid' := fun pid' =>
    ⟨fun w => by rw [eq.2, stakes], fun p _ => ⟨balance' _, balance' _⟩⟩
  refine h.putPool (eq.1.trans pools) (fun pid' _ => rest pid') ?_
  rintro _ ⟨⟩
  refine (h.pool pid p stored).frame (rest pid).stakes rfl rfl (balance' _) ?_
  change p.basepool.totalValue + bonus + _ ≤ _
  rcases covered with rfl | ⟨rfl, opened⟩
  · exact Nat.add_le_add le_rfl (balance' _)
  · have received : x.balance p.basepool.poolAccountId =
        minted.balance p.basepool.poolAccountId + bonus := State.balance_mintOrDust opened
    have := balance p.basepool.poolAccountId
    omega

omit [DecidableEq A] in
theorem Solvent.unassign {w : W} (h : Solvent cfg v) (pools : x.pools = v.pools)
    (stakes : x.stakes = v.stakes) (wpha : x.wpha = v.wpha) :
    Solvent cfg (x.unassign pid w) := by
  have rest : ∀ pid', Undrained cfg v x pid' := .of_same stakes wpha
  refine h.frame (fun _ => False)
    (fun pid' _ => ⟨(rest pid').stakes, (rest pid').balance⟩) ?_
    (fun _ _ touched => touched.elim) fun pid' none => ⟨fun touched => touched, ?_⟩
  · intro pid' p' _ stored'
    obtain kept | ⟨p, stored, left⟩ := State.unassign_pools pools pid w
    · exact ⟨p', by rwa [← kept], rfl, rfl⟩
    · rw [left] at stored'
      by_cases e : pid' = pid
      · subst e
        rw [Function.update_self] at stored'
        cases stored'
        exact ⟨p, stored, rfl, rfl⟩
      · rw [Function.update_of_ne e] at stored'
        exact ⟨p', stored', rfl, rfl⟩
  · obtain kept | ⟨p, stored, left⟩ := State.unassign_pools pools pid w
    · rwa [← kept]
    · rw [left] at none
      by_cases e : pid' = pid
      · subst e
        rw [Function.update_self] at none
        cases none
      · rwa [Function.update_of_ne e] at none

theorem SideEffect.solvent (lossless : cfg.reapsDust = false) (tidy : Tidy cfg v)
    (effect : SideEffect cfg l v v') (h : Solvent cfg v) : Solvent cfg v' := by
  cases effect with
  | other same | voted same => exact h.same same.pools (.of_same same.stakes same.wpha)
  | mark => exact h.setVault
  | setStakePool stored => exact h.setStakePool stored rfl rfl rfl rfl rfl rfl
  | setVault => exact h.setVault
  | forget => exact h.setVault
  | vaultReward => exact h.setVault
  | @poolReward _ minted pid p commission distributed bonus stored funded owner covered =>
    subst owner
    refine h.reward stored ?_ ?_ (fun a => ?_) covered
    · rw [State.mintOrDust_eq]
      rfl
    · rw [State.mintOrDust_eq]
      rfl
    · exact State.balance_le_mintOrDust (v := v.moveNative _ _ _) a
  | payOwner stored =>
    have role := (tidy.pool _ _ stored).kind.2
    refine h.same rfl fun pid' => .of_move tidy (fun _ => rfl) rfl fun p _ => ?_
    rw [role]
    exact ⟨by rintro ⟨⟩, by rintro ⟨⟩⟩
  | @bind _ pid p w stored =>
    have put : Solvent cfg ((v.bindSession (cfg.poolSubAccount pid w) w).putPool pid
        (.stakePool { p with workers := p.workers ++ [w] })) :=
      h.setStakePool stored rfl rfl rfl rfl rfl rfl
    exact put.same rfl (.of_same rfl rfl)
  | start stored => exact h.start lossless tidy stored rfl rfl rfl
  | stop stored => exact h.setStakePool stored rfl rfl rfl rfl rfl rfl
  | @reclaim _ pid p w stake info info' stored found cooling ready staked =>
    subst staked
    exact h.reclaim (w := w) (x := v.reclaimSession (cfg.poolSubAccount pid w) info') lossless tidy
      stored rfl rfl rfl rfl rfl
  | unbind assigned binding same found stopped =>
    obtain ⟨-, rfl⟩ | ⟨-, -, -, -, -, rfl⟩ := stopped <;> exact h.unassign rfl rfl rfl
  | report => exact h.same rfl (.of_same rfl rfl)
  | wrap =>
    refine h.same ?_ fun pid' => ⟨fun w => ?_, fun p _ => ?_⟩
    · rw [State.mintOrDust_eq]
      rfl
    · rw [State.mintOrDust_eq]
      rfl
    · exact ⟨State.balance_le_mintOrDust (v := v.moveNative _ _ _) _,
        State.balance_le_mintOrDust (v := v.moveNative _ _ _) _⟩
  | @unwrap _ user _ signer =>
    refine h.same rfl fun pid' => .of_payer user tidy (fun _ => rfl) (fun a ne => ?_) fun p _ => ?_
    · exact (Ledger.balance_congr (Ledger.debit_of_ne ne)).ge
    · rw [signer]
      exact ⟨by rintro ⟨⟩, by rintro ⟨⟩⟩

theorem Effect.solvent (lossless : cfg.reapsDust = false) (tidy : Tidy cfg v)
    (effect : Effect cfg l v v') (h : Solvent cfg v) : Solvent cfg v' := by
  cases effect with
  | share effect => exact effect.solvent lossless tidy h
  | side effect => exact effect.solvent lossless tidy h

end SideEffects

/-! ## Refunds -/

def Fault.isRefund : Fault → Bool
  | .panic .reclaimTransfer _ => true
  | _ => false

abbrev Unrefunding {α : Type} (m : Pallet A W α) : Prop :=
  Leaves (fun _ => ()) (fun f : Fault => f.isRefund = false) m

namespace Unrefunding

variable {α : Type}

theorem ordinary : Ordinary fun f => f.isRefund = false :=
  ⟨fun _ => rfl, fun site _ other => by cases site <;> first | rfl | exact absurd rfl other⟩

theorem ensureStakePool (pid : ℕ) : Unrefunding (Cyrux.ensureStakePool pid : Pallet A W _) := by
  refine .bind .get fun s => ?_
  split
  exacts [.pure _, .throw rfl, .throw rfl]

theorem putPool (pid : ℕ) (q : PoolProxy A W) : Unrefunding (Cyrux.putPool pid q) :=
  .alter fun _ => rfl

variable [DecidableEq A] (cfg : Config A W)

theorem tryProcessWithdrawQueue (b : BasePool A) :
    Unrefunding (BasePool.tryProcessWithdrawQueue cfg b) := by
  have loop : ∀ price fuel (b : BasePool A),
      Unrefunding (BasePool.processQueue cfg price fuel b) := by
    intro price fuel
    induction fuel with
    | zero => exact fun _ => .throw rfl
    | succ fuel ih =>
      refine fun b => .bind (Ordinary.getFreeStakes b) fun _ => .ite (.pure _) ?_
      split
      · exact .pure _
      · exact .bind (ordinary.processFront cfg _ _ _ _) fun _ => ih _
  refine .bind (ordinary.convert _) fun price => ?_
  cases price with
  | none => exact .pure _
  | some price => exact loop price _ _

theorem reclaim (session : A) (check : Bool) :
    Unrefunding (Computation.reclaim session check : Pallet A W _) := by
  refine .bind .get fun _ => .bind (.demand rfl) fun _ => .bind ?_ fun _ => ?_
  · refine .ite (.pure _) (.ite (.bind .get fun _ => ?_) (.pure _))
    exact .bind (.ensure rfl) fun _ => .pure _
  · exact .bind (.ensure rfl) fun _ => .bind (.alter fun _ => rfl) fun _ => .pure _

variable [DecidableEq W]

theorem doStopComputing (owner : A) (pid : ℕ) (w : W) :
    Unrefunding (StakePoolV2.doStopComputing cfg owner pid w) := by
  refine .bind (ensureStakePool _) fun _ => .bind (.ensure rfl) fun _ => .bind (.ensure rfl) ?_
  refine fun _ => .bind (.ensure rfl) fun _ => .bind (.bind .get fun _ => ?_) fun _ => putPool _ _
  refine .bind (.demand rfl) fun _ => .bind (.demand rfl) fun _ => .bind (.ensure rfl) fun _ => ?_
  exact .bind (.ensure rfl) fun _ => .alter fun _ => rfl

theorem doStartComputing (owner : A) (pid : ℕ) (w : W) (stake : ℕ) :
    Unrefunding (StakePoolV2.doStartComputing cfg owner pid w stake) := by
  refine .bind (ensureStakePool _) fun _ => .bind (.ensure rfl) fun _ => ?_
  refine .bind (Ordinary.getFreeStakes _) fun _ => .bind (.ensure rfl) fun _ => ?_
  refine .bind (.ensure rfl) fun _ => .bind ?_ fun _ => .bind (ordinary.transfer cfg _ _ _) ?_
  swap
  · exact fun _ => putPool _ _
  refine .bind .get fun _ => .bind (.demand rfl) fun _ => .bind (.demand rfl) fun _ => ?_
  refine .bind (.ensure rfl) fun _ => .bind (.ensure rfl) fun _ => .bind (.demand rfl) fun _ => ?_
  refine .bind (.demand rfl) fun _ => .bind (.ensure rfl) fun _ => .bind (.demand rfl) fun _ => ?_
  refine .bind (.demand rfl) fun _ => .bind (.ensure rfl) fun _ => .bind (.demand rfl) fun _ => ?_
  exact .bind (.ensure rfl) fun _ => .alter fun _ => rfl

end Unrefunding

section Refunds

def Refundable (cfg : Config A W) (s : State A W) (pid : ℕ) (w : W) : Prop :=
  ∀ p, s.pools pid = some (.stakePool p) →
    ¬ s.belowMinimum cfg p.basepool.poolAccountId (s.stakeOf (cfg.poolSubAccount pid w))

theorem refundable_iff {s : State A W} {p : StakePool A W} {w : W}
    (stored : s.pools pid = some (.stakePool p)) : Refundable cfg s pid w ↔
      ¬ s.belowMinimum cfg p.basepool.poolAccountId (s.stakeOf (cfg.poolSubAccount pid w)) := by
  refine ⟨fun h => h p stored, fun h p' stored' => ?_⟩
  rw [stored] at stored'
  cases stored'
  exact h

variable [DecidableEq A] [DecidableEq W] {s : State A W} {p : StakePool A W} {w : W} {stake : ℕ}

omit [DecidableEq W] in
theorem StakePoolV2.handleReclaim_refund (stored : s.pools pid = some (.stakePool p))
    (owned : stake ≤ s.balance p.lockAccount) :
    Sat (StakePoolV2.handleReclaim cfg pid stake 0) s
      (fun _ _ => ¬ s.belowMinimum cfg p.basepool.poolAccountId stake)
      (fun f => f.isRefund = true ↔ s.belowMinimum cfg p.basepool.poolAccountId stake) := by
  set E : Fault → Prop := fun f =>
    f.isRefund = true ↔ s.belowMinimum cfg p.basepool.poolAccountId stake with hE
  have calm : ∀ {f : Fault}, ¬ s.belowMinimum cfg p.basepool.poolAccountId stake →
      f.isRefund = false → E f := by
    intro f opened hf
    rw [hE]
    simp [hf, opened]
  have lookup : Sat (ensureStakePool pid) s (fun p' s' => p' = p ∧ s' = s) (fun _ => False) := by
    refine Sat.get_bind ?_
    rw [stored]
    exact ⟨rfl, rfl⟩
  refine (Sat.mapFault lookup (E := E) fun _ h => h.elim).bind (fun _ h => h) ?_
  rintro _ _ ⟨rfl, rfl⟩
  refine Sat.ensure_bind (fun _ => ?_) fun h => absurd (Nat.zero_le _) h
  refine (Sat.mapFault (Assets.transfer_spec _ _ _ _) (E := E) ?_).bind (fun _ h => h) ?_
  · rintro _ (⟨rfl, short⟩ | ⟨rfl, below⟩)
    · exact absurd owned (Nat.not_le.2 short)
    · exact ⟨fun _ => below, fun _ => rfl⟩
  rintro _ s₁ ⟨-, opened, -⟩
  refine (Unrefunding.tryProcessWithdrawQueue cfg _ s₁).bind (fun _ hf => calm opened hf) ?_
  exact fun _ _ _ => sat_alter.2 opened

theorem StakePoolV2.doReclaim_refund {check : Bool} (solvent : Solvent cfg s)
    (stored : s.pools pid = some (.stakePool p)) :
    Sat (StakePoolV2.doReclaim cfg pid (cfg.poolSubAccount pid w) w check) s
      (fun _ _ => Refundable cfg s pid w)
      (fun f => f.isRefund = true ↔
        (∃ r, Computation.reclaim (cfg.poolSubAccount pid w) check s = .ok r) ∧
          ¬ Refundable cfg s pid w) := by
  have owned : s.stakeOf (cfg.poolSubAccount pid w) ≤ s.balance p.lockAccount := by
    have := (solvent.pool pid p stored).locked {w}
    rwa [Finset.sum_singleton] at this
  set released := ∃ r, Computation.reclaim (cfg.poolSubAccount pid w) check s = .ok r with hr
  rw [refundable_iff stored, not_not]
  set below := s.belowMinimum cfg p.basepool.poolAccountId
    (s.stakeOf (cfg.poolSubAccount pid w)) with hb
  unfold StakePoolV2.doReclaim
  rcases run : Computation.reclaim (cfg.poolSubAccount pid w) check s with f | ⟨r, s₁⟩
  · have hf := (Unrefunding.reclaim (cfg.poolSubAccount pid w) check s).of_error run
    have stays : ¬ released := by
      rw [hr, run]
      rintro ⟨r, ⟨⟩⟩
    unfold Sat
    rw [bind_apply, run]
    simp [hf, stays]
  have goes : released := ⟨_, run⟩
  obtain ⟨info, info', -, -, -, rfl, rfl⟩ := (Computation.reclaim_spec _ check s).of_ok run
  have reclaimed : Sat (Computation.reclaim (cfg.poolSubAccount pid w) check) s
      (fun r s' => r = (s.stakeOf (cfg.poolSubAccount pid w), 0) ∧
        s' = s.reclaimSession (cfg.poolSubAccount pid w) info') (fun _ => False) := by
    unfold Sat
    rw [run]
    exact ⟨rfl, rfl⟩
  refine reclaimed.bind (fun _ h => h.elim) ?_
  rintro _ _ ⟨rfl, rfl⟩
  rw [and_iff_right goes]
  refine (StakePoolV2.handleReclaim_refund (s := s.reclaimSession _ info') stored owned).bind
    (fun _ h => h) fun _ s₂ opened => ?_
  have lookup : Sat (ensureStakePool pid) s₂ (fun _ _ => True)
      (fun f => f.isRefund = true ↔ below) := by
    refine (Unrefunding.ensureStakePool pid s₂).mono (fun _ _ _ => trivial) fun f hf => ?_
    rw [hf]
    exact ⟨fun h => absurd h (by decide), fun h => absurd h opened⟩
  exact lookup.bind (fun _ h => h) fun _ _ _ => Sat.alter_bind opened

theorem StakePoolV2.reclaimPoolWorker_refund (solvent : Solvent cfg s) (pid : ℕ) (w : W) :
    Sat (StakePoolV2.reclaimPoolWorker cfg pid w) s (fun _ _ => Refundable cfg s pid w)
      (fun f => f.isRefund = true ↔
        (∃ r, Computation.reclaim (cfg.poolSubAccount pid w) true s = .ok r) ∧
          ¬ Refundable cfg s pid w) := by
  by_cases stored : ∃ p, s.pools pid = some (.stakePool p)
  · obtain ⟨p, stored⟩ := stored
    have lookup : Sat (ensureStakePool pid) s (fun _ s' => s' = s) (fun _ => False) := by
      refine Sat.get_bind ?_
      rw [stored]
      rfl
    refine lookup.bind (fun _ h => h.elim) ?_
    rintro _ _ rfl
    exact (StakePoolV2.doReclaim_refund solvent stored).bind (fun _ h => h) fun _ _ h => h
  · have vacuous : Refundable cfg s pid w := fun p h => absurd ⟨p, h⟩ stored
    refine ((ensureStakePool_spec pid s).and (Unrefunding.ensureStakePool pid s)).bind
      (fun f h => ?_) ?_
    · rw [h.2]
      exact ⟨fun h => absurd h (by decide), fun h => absurd vacuous h.2⟩
    · rintro p _ ⟨⟨found, -⟩, -⟩
      exact absurd ⟨p, found⟩ stored

theorem StakePoolV2.restartComputing_refund {owner : A} (solvent : Solvent cfg s)
    (refundable : Refundable cfg s pid w) :
    Sat (StakePoolV2.restartComputing cfg owner pid w stake) s (fun _ _ => True)
      (fun f => f.isRefund = false) := by
  refine ((ensureStakePool_spec pid s).and (Unrefunding.ensureStakePool pid s)).bind
    (fun _ h => h.2) ?_
  rintro p _ ⟨⟨-, rfl⟩, -⟩
  refine Sat.ensure_bind (fun _ => ?_) fun _ => rfl
  refine ((StakePoolV2.doStopComputing_stopped owner pid w _).and
    (Unrefunding.doStopComputing cfg owner pid w _)).bind (fun _ h => h.2) ?_
  rintro _ s₁ ⟨⟨p', info', stored, -, rfl⟩, -⟩
  refine (StakePoolV2.doReclaim_refund ?_ (State.putPool_self _ _ _)).bind ?_ ?_
  · exact solvent.setStakePool stored rfl rfl rfl rfl rfl rfl
  · intro f refund
    rw [← Bool.not_eq_true, refund]
    exact fun h => h.2 ((refundable_iff (State.putPool_self _ _ _)).2 (refundable p' stored))
  · rintro ⟨stake', slashed⟩ s₂ -
    refine Sat.ensure_bind (fun _ => ?_) fun _ => rfl
    refine Sat.ensure_bind (fun _ => ?_) fun _ => rfl
    exact (Unrefunding.doStartComputing cfg owner pid w stake s₂).mono (fun _ _ _ => trivial)
      fun _ h => h

end Refunds

/-! ## Runs -/

section Runs

variable [DecidableEq A] [DecidableEq W]

theorem solvent_invariant {Ok : State A W → Event A W → Prop} (lossless : cfg.reapsDust = false) :
    Invariant cfg Ok (Solvent cfg) fun _ _ => True := by
  refine .unrestricted (fun s h => ⟨fun pid p stored => ?_, fun pid w _ => h.stakes _⟩)
    fun v v' l tidy h effect => effect.solvent lossless tidy h
  rw [h.pools pid] at stored
  cases stored

theorem Fault.isRefund_iff {f : Fault} :
    f.isRefund = true ↔ ∃ c, f = .panic .reclaimTransfer c := by
  constructor
  · intro h
    unfold Fault.isRefund at h
    split at h
    · exact ⟨_, rfl⟩
    · cases h
  · rintro ⟨c, rfl⟩
    rfl

/-- Stake pools are solvent, and when reclaiming a worker fails. -/
theorem stake_pools_solvent {s : State A W} (lossless : cfg.reapsDust = false)
    (reached : Reachable cfg (fun _ _ => True) s) :
    (∀ pid p, s.pools pid = some (.stakePool p) →
      (∀ F : Finset W, ∑ w ∈ F, s.stakeOf (cfg.poolSubAccount pid w) ≤ s.balance p.lockAccount) ∧
        p.basepool.totalValue ≤ s.balance p.basepool.poolAccountId + s.balance p.lockAccount) ∧
    ∀ who pid w,
      ((∀ c, (Event.signed who (.reclaimPoolWorker pid w)).exec cfg s ≠
          .error (.panic .reclaimTransfer c)) ↔
        ((∃ r, Computation.reclaim (cfg.poolSubAccount pid w) true s = .ok r) →
          Refundable cfg s pid w)) ∧
      (Refundable cfg s pid w → ∀ stake c,
        (Event.signed who (.restartComputing pid w stake)).exec cfg s ≠
          .error (.panic .reclaimTransfer c)) := by
  have solvent := (solvent_invariant lossless).reachable reached
  refine ⟨fun pid p stored => ?_, fun who pid w => ⟨⟨fun safe released => ?_, fun cond c run => ?_⟩,
    fun refundable stake c run => ?_⟩⟩
  · exact ⟨(solvent.pool pid p stored).locked, (solvent.pool pid p stored).value⟩
  · -- A failing refund is the panic that is excluded.
    have spec := StakePoolV2.reclaimPoolWorker_refund solvent pid w
    by_contra stuck
    unfold Sat at spec
    split at spec
    · exact stuck spec
    · rename_i f run
      obtain ⟨c, rfl⟩ := Fault.isRefund_iff.1 (spec.2 ⟨released, stuck⟩)
      exact safe c run
  · have spec := (StakePoolV2.reclaimPoolWorker_refund solvent pid w).of_error run
    obtain ⟨released, stuck⟩ := spec.1 rfl
    exact stuck (cond released)
  · have spec := (StakePoolV2.restartComputing_refund solvent refundable).of_error run
    cases spec

end Runs

theorem stake_pools_solvent_started : ∃ s,
    Reachable (Mock.lossless 100 (by decide)) (fun _ _ => True) s ∧
    s.stakeOf (.worker 0 7) = 4 * 10 ^ 11 ∧ s.stakeOf (.worker 0 8) = 10 ^ 11 ∧
      (∀ F : Finset ℕ, ∑ w ∈ F, s.stakeOf (.worker 0 w) ≤ s.balance (.lock 0)) ∧
      ∀ c, (Event.signed Mock.bob (.restartComputing 0 7 (5 * 10 ^ 11))).exec
        (Mock.lossless 100 (by decide)) s ≠ .error (.panic .reclaimTransfer c) := by
  obtain ⟨s, reached, holds⟩ := Mock.exists_reachable (Mock.lossless 100 (by decide))
    (fun _ _ => True)
    (Mock.opening (10 ^ 15) (10 ^ 15) ++ [
      .signed Mock.alice (.contributeStakePool 0 (10 ^ 12) none),
      .signed Mock.alice (.startComputing 0 7 (4 * 10 ^ 11)),
      .signed Mock.alice (.startComputing 0 8 (10 ^ 11)),
      Mock.settle 7 (2 ^ 64 / 4)])
    (fun s => s.stakeOf (.worker 0 7) = 4 * 10 ^ 11 ∧ s.stakeOf (.worker 0 8) = 10 ^ 11 ∧
      (s.wpha (.staker 0)).isSome ∧
      ((s.pools 0).any fun q => match q with
        | .stakePool p => p.lockAccount = .lock 0 ∧ p.basepool.poolAccountId = .staker 0
        | .vault _ => false) = true) (by decide +kernel)
  obtain ⟨stake, stake', open_, pool⟩ := of_decide_eq_true holds
  obtain ⟨q, stored, accounts⟩ := (Option.any_eq_true _ _).1 pool
  obtain ⟨solvent, refunds⟩ := stake_pools_solvent rfl reached
  cases q with
  | vault u => cases accounts
  | stakePool p =>
    obtain ⟨lock, account⟩ := of_decide_eq_true accounts
    refine ⟨s, reached, stake, stake', fun F => ?_, fun c => ?_⟩
    · rw [← lock]
      exact (solvent 0 p stored).1 F
    · refine (refunds Mock.bob 0 7).2 ((refundable_iff stored).2 fun below => ?_) _ c
      rw [account] at below
      rw [below.1] at open_
      cases open_

theorem refund_below_minimum : ∃ s,
    Reachable (Mock.lossless 10000 (by decide)) (fun _ _ => True) s ∧
    (Event.signed Mock.alice (.reclaimPoolWorker 0 8)).exec
      (Mock.lossless 10000 (by decide)) s =
        .error (.panic .reclaimTransfer (some (.token .belowMinimum))) := by
  obtain ⟨s, reached, holds⟩ := Mock.exists_reachable
    (Mock.lossless 10000 (by decide)) (fun _ _ => True)
    (Mock.opening (10 ^ 15) (10 ^ 15) ++ [
      .move (.register 9 ⟨some Mock.alice, some 100, 1, true⟩),
      .signed Mock.alice (.addWorker 0 9),
      .signed Mock.alice (.contributeStakePool 0 (10 ^ 12) none),
      .signed Mock.alice (.startComputing 0 7 (10 ^ 12 - 20000)),
      .signed Mock.alice (.startComputing 0 8 9999),
      .signed Mock.alice (.startComputing 0 9 10001),
      .signed Mock.alice (.stopComputing 0 8)])
    (fun s => Mock.failsWith (Mock.lossless 10000 (by decide)) s
      (.signed Mock.alice (.reclaimPoolWorker 0 8))
      (.panic .reclaimTransfer (some (.token .belowMinimum)))) (by decide +kernel)
  exact ⟨s, reached, Mock.error_of_failsWith holds⟩

end Cyrux
