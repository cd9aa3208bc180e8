import Cyrux.Lib.Exec
import Cyrux.Lib.Ledger
import Mathlib

/-!
# Gas of contract transactions

`crates/pink/runtime/src/runtime/pallet_pink.rs`
-/

namespace Cyrux.Pink

open Exec

variable {A T : Type}

/-! ## The currency -/

inductive ExistenceRequirement
  | keepAlive
  | allowDeath
deriving DecidableEq

inductive DispatchError
  | insufficientBalance
  | keepAlive
  | other (code : ℕ)
deriving DecidableEq

def existentialDeposit : ℕ := 1

def dustPolicy : DustPolicy := ⟨existentialDeposit, false⟩

structure Config (A : Type) where
  treasuryAccount : Option A
  gasPrice : ℕ
  depositPerByte : ℕ
  pinned : A → Bool

variable [DecidableEq A]

def Config.transfer (cfg : Config A) (source dest : A) (amount : ℕ)
    (requirement : ExistenceRequirement) (l : Ledger A) : Except DispatchError (Ledger A) :=
  if amount = 0 ∨ source = dest then .ok l
  else if l.balance source < amount then .error .insufficientBalance
  else if (requirement = .keepAlive ∨ cfg.pinned source) ∧
      l.balance source - amount < existentialDeposit then .error .keepAlive
  else .ok (l.move dustPolicy source dest amount)

/-! ## The price of gas -/

structure Weight where
  refTime : ℕ
  proofSize : ℕ
deriving DecidableEq

def Weight.checkedSub (a b : Weight) : Option Weight :=
  if b.refTime ≤ a.refTime ∧ b.proofSize ≤ a.proofSize then
    some ⟨a.refTime - b.refTime, a.proofSize - b.proofSize⟩
  else none

namespace Config

variable (cfg : Config A)

def convert (w : Weight) : ℕ := min (w.refTime * cfg.gasPrice) (2 ^ 128 - 1)

def pay (user : A) (amount : ℕ) (l : Ledger A) : Except DispatchError (Ledger A) :=
  match cfg.treasuryAccount with
  | none => .ok l
  | some treasury => cfg.transfer user treasury amount .keepAlive l

def refund (user : A) (amount : ℕ) (l : Ledger A) : Except DispatchError (Ledger A) :=
  match cfg.treasuryAccount with
  | none => .ok l
  | some treasury => cfg.transfer treasury user amount .allowDeath l

def payForGas (user : A) (gas : Weight) (l : Ledger A) : Except DispatchError (Ledger A) :=
  cfg.pay user (cfg.convert gas) l

def refundGas (user : A) (gas : Weight) (l : Ledger A) : Except DispatchError (Ledger A) :=
  cfg.refund user (cfg.convert gas) l

end Config

/-! ## Contract transactions -/

inductive StorageDeposit
  | charge (v : ℕ)
  | refund (v : ℕ)
deriving DecidableEq

structure ContractResult (T : Type) where
  gasConsumed : Weight
  gasRequired : Weight
  storageDeposit : StorageDeposit
  result : Except DispatchError T

structure Transfer (A : Type) where
  source : A
  dest : A
  amount : ℕ
  requirement : ExistenceRequirement

structure Execution (A T : Type) where
  transfers : List (Transfer A)
  result : ContractResult T

def Config.tryTransfer (cfg : Config A) (l : Ledger A) (t : Transfer A) : Ledger A :=
  match cfg.transfer t.source t.dest t.amount t.requirement l with
  | .ok l' => l'
  | .error _ => l

def Config.runTransfers (cfg : Config A) (transfers : List (Transfer A)) (l : Ledger A) :
    Ledger A := transfers.foldl cfg.tryTransfer l

inductive Panic
  | consumedMoreThanLimit
  | failedToRefund
  | clampBounds
deriving DecidableEq

def unpaid (err : DispatchError) : ContractResult T :=
  ⟨⟨0, 0⟩, ⟨0, 0⟩, .charge 0, .error err⟩

def contractTx (cfg : Config A) (origin : A) (gasLimit : Weight) (gasFree : Bool)
    (tx : Ledger A → Execution A T) : Exec (Ledger A) Panic (ContractResult T) := fun l =>
  if gasFree then
    .ok ((tx l).result, cfg.runTransfers (tx l).transfers l)
  else
    match cfg.payForGas origin gasLimit l with
    | .error err => .ok (unpaid err, l)
    | .ok l₁ =>
      match gasLimit.checkedSub (tx l₁).result.gasConsumed with
      | none => .error .consumedMoreThanLimit
      | some rest =>
        match cfg.refundGas origin rest (cfg.runTransfers (tx l₁).transfers l₁) with
        | .error _ => .error .failedToRefund
        | .ok l₃ => .ok ((tx l₁).result, l₃)

def maskLowBits (bits v minMaskBits : ℕ) : Option ℕ :=
  let pos := max v.size 9 - 9
  if minMaskBits ≤ bits - 1 then
    let pos := min (max pos minMaskBits) (bits - 1)
    some (v ||| (2 ^ pos - 1))
  else none

def maskGas (w : Weight) : Option Weight := (maskLowBits 64 w.refTime 28).map fun v => ⟨v, 0⟩

def minMaskBits (depositPerByte : ℕ) : ℕ :=
  let minMaskedValue := min (depositPerByte * 256) (2 ^ 128 - 1) - 1
  minMaskedValue.size

def maskDeposit (deposit depositPerByte : ℕ) : Option ℕ :=
  maskLowBits 128 deposit (minMaskBits depositPerByte)

def coarseGrained (r : ContractResult T) (depositPerByte : ℕ) : Option (ContractResult T) := do
  let gasConsumed ← maskGas r.gasConsumed
  let gasRequired ← maskGas r.gasRequired
  let storageDeposit ← match r.storageDeposit with
    | .charge v => (maskDeposit v depositPerByte).map .charge
    | .refund v => (maskDeposit v depositPerByte).map .refund
  some { r with gasConsumed, gasRequired, storageDeposit }

inductive ExecutionMode
  | query
  | estimating
  | transaction
deriving DecidableEq

def ExecutionMode.shouldReturnCoarseGas : ExecutionMode → Bool
  | query | estimating => true
  | transaction => false

def bareTx (cfg : Config A) (mode : ExecutionMode) (origin : A) (gasLimit : ℕ) (gasFree : Bool)
    (tx : Ledger A → Execution A T) : Exec (Ledger A) Panic (ContractResult T) := do
  let result ← contractTx cfg origin ⟨gasLimit, 2 ^ 64 - 1⟩ gasFree tx
  if mode.shouldReturnCoarseGas then demand (coarseGrained result cfg.depositPerByte) .clampBounds
  else pure result

structure ExecReturnValue where
  flags : ℕ
  data : List UInt8

def bareCall (cfg : Config A) (mode : ExecutionMode) (origin : A) (gasLimit : ℕ) (gasFree : Bool)
    (call : Ledger A → Execution A ExecReturnValue) :
    Exec (Ledger A) Panic (ContractResult ExecReturnValue) :=
  bareTx cfg mode origin gasLimit gasFree call

def bareInstantiate (cfg : Config A) (mode : ExecutionMode) (origin : A) (gasLimit : ℕ)
    (gasFree : Bool) (instantiate : Ledger A → Execution A (ExecReturnValue × A)) :
    Exec (Ledger A) Panic (ContractResult (ExecReturnValue × A)) :=
  bareTx cfg mode origin gasLimit gasFree instantiate

/-! ## Transfers -/

section

variable {cfg : Config A} {l l' : Ledger A} {source dest a origin treasury : A} {amount : ℕ}
  {requirement : ExistenceRequirement}

theorem transfer_ok (ne : source ≠ dest)
    (h : cfg.transfer source dest amount requirement l = .ok l') :
    l'.balance source + amount = l.balance source ∧
      l'.balance dest = l.balance dest + amount ∧
      ∀ a, a ≠ source → a ≠ dest → l' a = l a := by
  unfold Config.transfer at h
  split_ifs at h with htriv hlow hdead
  · cases h
    have hzero : amount = 0 := htriv.resolve_right ne
    exact ⟨by rw [hzero, Nat.add_zero], by rw [hzero, Nat.add_zero], fun _ _ _ => rfl⟩
  · cases h
    refine ⟨?_, Ledger.balance_move_dest ne, fun a hs hd => Ledger.move_of_ne hs hd⟩
    rw [Ledger.balance_move_source rfl ne]
    omega

theorem transfer_keepAlive (ne : source ≠ dest)
    (h : cfg.transfer source dest amount .keepAlive l = .ok l') :
    amount = 0 ∨ amount < l.balance source := by
  unfold Config.transfer at h
  split_ifs at h with htriv hlow hdead
  · exact Or.inl (htriv.resolve_right ne)
  · by_contra hge
    exact hdead ⟨Or.inl rfl, by unfold existentialDeposit; omega⟩

def Config.CanPay (cfg : Config A) (l : Ledger A) (a : A) (amount : ℕ) : Prop :=
  amount = 0 ∨ amount ≤ l.balance a ∧ (cfg.pinned a → amount < l.balance a)

theorem transfer_allowDeath_iff (ne : source ≠ dest) :
    (∃ l', cfg.transfer source dest amount .allowDeath l = .ok l') ↔
      cfg.CanPay l source amount := by
  unfold Config.transfer Config.CanPay existentialDeposit
  split_ifs with htriv hlow hdead
  · exact ⟨fun _ => Or.inl (htriv.resolve_right ne), fun _ => ⟨l, rfl⟩⟩
  · constructor
    · rintro ⟨_, h⟩
      cases h
    · rintro (h | h)
      · exact absurd (Or.inl h) htriv
      · omega
  · obtain ⟨hpin, hlt⟩ := hdead
    have hpinned : cfg.pinned source := hpin.resolve_left (by decide)
    constructor
    · rintro ⟨_, h⟩
      cases h
    · rintro (h | h)
      · exact absurd (Or.inl h) htriv
      · have := h.2 hpinned
        omega
  · refine ⟨fun _ => Or.inr ⟨by omega, fun hpin => ?_⟩, fun _ => ⟨_, rfl⟩⟩
    by_contra hge
    exact hdead ⟨Or.inr hpin, by omega⟩

theorem balance_le_runTransfers {transfers : List (Transfer A)}
    (h : ∀ t ∈ transfers, t.source ≠ a) :
    l.balance a ≤ (cfg.runTransfers transfers l).balance a := by
  unfold Config.runTransfers
  induction transfers generalizing l with
  | nil => exact le_rfl
  | cons t transfers ih =>
    rw [List.foldl_cons]
    refine le_trans ?_ (ih fun t' ht' => h t' (List.mem_cons_of_mem _ ht'))
    unfold Config.tryTransfer Config.transfer
    split_ifs
    · exact le_rfl
    · exact le_rfl
    · exact le_rfl
    · exact Ledger.balance_le_move (h t List.mem_cons_self).symm

/-! ## Prepayment and refund -/

theorem payForGas_ok {gas : Weight} (ht : cfg.treasuryAccount = some treasury)
    (ne : origin ≠ treasury) (word : l.balance origin < 2 ^ 128)
    (h : cfg.payForGas origin gas l = .ok l') :
    gas.refTime * cfg.gasPrice < 2 ^ 128 ∧
      l'.balance origin + gas.refTime * cfg.gasPrice = l.balance origin ∧
      l'.balance treasury = l.balance treasury + gas.refTime * cfg.gasPrice ∧
      ∀ a, a ≠ origin → a ≠ treasury → l' a = l a := by
  unfold Config.payForGas Config.pay at h
  rw [ht] at h
  have hfit : gas.refTime * cfg.gasPrice < 2 ^ 128 := by
    have hkeep := transfer_keepAlive ne h
    unfold Config.convert at hkeep
    omega
  have hprice : cfg.convert gas = gas.refTime * cfg.gasPrice := by
    unfold Config.convert
    omega
  have := transfer_ok ne h
  rw [hprice] at this
  exact ⟨hfit, this⟩

omit [DecidableEq A] in
theorem convert_rest {gasLimit rest consumed : Weight}
    (hfit : gasLimit.refTime * cfg.gasPrice < 2 ^ 128)
    (hrest : gasLimit.checkedSub consumed = some rest) :
    cfg.convert rest = (gasLimit.refTime - consumed.refTime) * cfg.gasPrice := by
  unfold Weight.checkedSub at hrest
  split_ifs at hrest
  cases hrest
  have hle : (gasLimit.refTime - consumed.refTime) * cfg.gasPrice ≤
      gasLimit.refTime * cfg.gasPrice := Nat.mul_le_mul_right _ (Nat.sub_le _ _)
  show min ((gasLimit.refTime - consumed.refTime) * cfg.gasPrice) _ = _
  omega

/-! ## Exact payment -/

def Config.Refundable (cfg : Config A) (origin treasury : A) (gasLimit : ℕ)
    (tx : Ledger A → Execution A T) (l : Ledger A) : Prop :=
  ∀ l₁, cfg.payForGas origin ⟨gasLimit, 2 ^ 64 - 1⟩ l = .ok l₁ →
    cfg.CanPay (cfg.runTransfers (tx l₁).transfers l₁) treasury
      ((gasLimit - (tx l₁).result.gasConsumed.refTime) * cfg.gasPrice)

theorem refundable_of_spared {gasLimit : ℕ} {tx : Ledger A → Execution A T}
    (ht : cfg.treasuryAccount = some treasury) (ne : origin ≠ treasury)
    (word : l.balance origin < 2 ^ 128) (hpin : cfg.pinned treasury → 0 < l.balance treasury)
    (spared : ∀ l₁, ∀ t ∈ (tx l₁).transfers, t.source ≠ treasury) :
    cfg.Refundable origin treasury gasLimit tx l := by
  intro l₁ hpay
  obtain ⟨-, -, hgot, -⟩ := payForGas_ok ht ne word hpay
  have hkept : l₁.balance treasury ≤ (cfg.runTransfers (tx l₁).transfers l₁).balance treasury :=
    balance_le_runTransfers (spared l₁)
  have hle : (gasLimit - (tx l₁).result.gasConsumed.refTime) * cfg.gasPrice ≤
      gasLimit * cfg.gasPrice := Nat.mul_le_mul_right _ (Nat.sub_le _ _)
  change l₁.balance treasury = l.balance treasury + gasLimit * cfg.gasPrice at hgot
  refine Or.inr ⟨by omega, fun hp => ?_⟩
  have := hpin hp
  omega

theorem contractTx_ok {gasLimit : ℕ} {tx : Ledger A → Execution A T} {l₁ : Ledger A}
    (ht : cfg.treasuryAccount = some treasury) (ne : origin ≠ treasury)
    (word : l.balance origin < 2 ^ 128)
    (hpay : cfg.payForGas origin ⟨gasLimit, 2 ^ 64 - 1⟩ l = .ok l₁)
    (hle : (tx l₁).result.gasConsumed.refTime ≤ gasLimit ∧
      (tx l₁).result.gasConsumed.proofSize ≤ 2 ^ 64 - 1)
    (hcan : cfg.CanPay (cfg.runTransfers (tx l₁).transfers l₁) treasury
      ((gasLimit - (tx l₁).result.gasConsumed.refTime) * cfg.gasPrice)) :
    ∃ l₃, contractTx cfg origin ⟨gasLimit, 2 ^ 64 - 1⟩ false tx l = .ok ((tx l₁).result, l₃) ∧
      cfg.transfer treasury origin ((gasLimit - (tx l₁).result.gasConsumed.refTime) * cfg.gasPrice)
        .allowDeath (cfg.runTransfers (tx l₁).transfers l₁) = .ok l₃ := by
  obtain ⟨hfit, -⟩ := payForGas_ok ht ne word hpay
  obtain ⟨rest, hrest⟩ : ∃ rest, Weight.checkedSub ⟨gasLimit, 2 ^ 64 - 1⟩
      (tx l₁).result.gasConsumed = some rest := by
    unfold Weight.checkedSub
    rw [if_pos hle]
    exact ⟨_, rfl⟩
  have hprice := convert_rest hfit hrest
  obtain ⟨l₃, hl₃⟩ := (transfer_allowDeath_iff ne.symm).mpr hcan
  refine ⟨l₃, ?_, hl₃⟩
  have hrefund : cfg.refundGas origin rest (cfg.runTransfers (tx l₁).transfers l₁) = .ok l₃ := by
    unfold Config.refundGas Config.refund
    rw [ht, hprice]
    exact hl₃
  unfold contractTx
  simp only [Bool.false_eq_true, if_false, hpay, hrest, hrefund]

end

inductive Party
  | origin
  | contract
  | third
deriving DecidableEq

def contractTreasury : Config Party := ⟨some .contract, 2, 0, fun _ => false⟩

def funded : Ledger Party
  | .origin => some 1000
  | .contract => some 10
  | .third => none

def sending (amount : ℕ) : Ledger Party → Execution Party Unit := fun _ =>
  ⟨[⟨.contract, .third, amount, .allowDeath⟩], ⟨⟨40, 0⟩, ⟨40, 0⟩, .charge 0, .ok ()⟩⟩

section Masks

variable {bits m v w p q : ℕ}

theorem or_mask (v p : ℕ) : v ||| (2 ^ p - 1) = 2 ^ p * (v / 2 ^ p) + (2 ^ p - 1) := by
  apply Nat.eq_of_testBit_eq
  intro i
  rw [Nat.testBit_or, Nat.testBit_two_pow_sub_one,
    Nat.testBit_two_pow_mul_add _ (Nat.sub_lt (by positivity) Nat.one_pos),
    Nat.testBit_two_pow_sub_one, Nat.testBit_div_two_pow]
  split_ifs with hi
  · simp [hi]
  · rw [Nat.sub_add_cancel (Nat.le_of_not_lt hi)]
    simp [hi]

theorem or_mask_lt {c : ℕ} (h : v < 2 ^ p * c) : v ||| (2 ^ p - 1) < 2 ^ p * c := by
  have hpos : 0 < 2 ^ p := by positivity
  have hmul : 2 ^ p * (v / 2 ^ p + 1) ≤ 2 ^ p * c :=
    Nat.mul_le_mul_left _ (Nat.div_lt_of_lt_mul h)
  rw [or_mask]
  rw [Nat.mul_add] at hmul
  omega

theorem or_mask_mono (h : v ≤ w) (hpq : p ≤ q) : v ||| (2 ^ p - 1) ≤ w ||| (2 ^ q - 1) := by
  have hpos : 0 < 2 ^ q := by positivity
  have hnext : w < 2 ^ q * (w / 2 ^ q + 1) := Nat.lt_mul_div_succ w hpos
  obtain ⟨k, rfl⟩ := Nat.exists_eq_add_of_le hpq
  have hlt : v ||| (2 ^ p - 1) < 2 ^ p * (2 ^ k * (w / 2 ^ (p + k) + 1)) := by
    apply or_mask_lt
    rw [← Nat.mul_assoc, ← Nat.pow_add]
    exact h.trans_lt hnext
  rw [← Nat.mul_assoc, ← Nat.pow_add, Nat.mul_add] at hlt
  rw [or_mask w]
  omega

theorem size_or_mask_le {n : ℕ} (hv : v.size ≤ n) (hp : p ≤ n) :
    (v ||| (2 ^ p - 1)).size ≤ n := by
  obtain ⟨k, rfl⟩ := Nat.exists_eq_add_of_le hp
  rw [Nat.size_le, Nat.pow_add] at hv ⊢
  exact or_mask_lt hv

theorem maskLowBits_eq (hbits : 9 ≤ bits) (hm : m < bits) (hv : v < 2 ^ bits) :
    maskLowBits bits v m = some (v ||| (2 ^ max (v.size - 9) m - 1)) := by
  have hsize := Nat.size_le.2 hv
  have hpos : min (max (max v.size 9 - 9) m) (bits - 1) = max (v.size - 9) m := by omega
  unfold maskLowBits
  rw [if_pos (by omega), hpos]

structure HidesLowBits (bits minMaskBits : ℕ) (mask : ℕ → Option ℕ) : Prop where
  reports : ∀ v < 2 ^ bits, ∃ r, mask v = some r ∧ v ≤ r ∧ r < 2 ^ bits ∧ mask r = some r
  mono : ∀ v w r r', v ≤ w → w < 2 ^ bits → mask v = some r → mask w = some r' → r ≤ r'
  top : ∀ v w, v < 2 ^ bits → w < 2 ^ bits → v.size = w.size →
    v / 2 ^ (v.size - 9) = w / 2 ^ (w.size - 9) → mask v = mask w
  low : ∀ v w, v < 2 ^ minMaskBits → w < 2 ^ minMaskBits → mask v = mask w

theorem hidesLowBits_maskLowBits (hbits : 9 ≤ bits) (hm : m < bits) :
    HidesLowBits bits m fun v => maskLowBits bits v m where
  reports v hv := by
    have hsize := Nat.size_le.2 hv
    have hlt : v ||| (2 ^ max (v.size - 9) m - 1) < 2 ^ bits :=
      Nat.size_le.1 (size_or_mask_le hsize (by omega))
    refine ⟨_, maskLowBits_eq hbits hm hv, Nat.left_le_or, hlt, ?_⟩
    rw [maskLowBits_eq hbits hm hlt]
    -- the report is not longer than the number or the mask, so its mask is the same
    have hlong := size_or_mask_le (le_max_left v.size (max (v.size - 9) m)) (le_max_right _ _)
    have hmore : v.size ≤ (v ||| (2 ^ max (v.size - 9) m - 1)).size :=
      Nat.size_le_size Nat.left_le_or
    have hsame : max ((v ||| (2 ^ max (v.size - 9) m - 1)).size - 9) m = max (v.size - 9) m := by
      omega
    rw [hsame, Nat.or_assoc, Nat.or_self]
  mono v w r r' hvw hw hr hr' := by
    rw [maskLowBits_eq hbits hm (hvw.trans_lt hw), Option.some.injEq] at hr
    rw [maskLowBits_eq hbits hm hw, Option.some.injEq] at hr'
    rw [← hr, ← hr']
    have hsize := Nat.size_le_size hvw
    exact or_mask_mono hvw (by omega)
  top v w hv hw hsize htop := by
    rw [maskLowBits_eq hbits hm hv, maskLowBits_eq hbits hm hw, or_mask, or_mask, hsize]
    rw [hsize] at htop
    obtain ⟨k, hk⟩ := Nat.exists_eq_add_of_le (le_max_left (w.size - 9) m)
    rw [hk, Nat.pow_add, ← Nat.div_div_eq_div_mul, ← Nat.div_div_eq_div_mul, htop]
  low v w hv hw := by
    have hle : 2 ^ m ≤ 2 ^ bits := Nat.pow_le_pow_right Nat.two_pos hm.le
    have hall : ∀ u, u < 2 ^ m → maskLowBits bits u m = some (2 ^ m - 1) := by
      intro u hu
      have hsize := Nat.size_le.2 hu
      rw [maskLowBits_eq hbits hm (hu.trans_le hle), max_eq_right (by omega), or_mask,
        Nat.div_eq_of_lt hu, Nat.mul_zero, Nat.zero_add]
    exact (hall v hv).trans (hall w hw).symm

theorem minMaskBits_lt {depositPerByte : ℕ} (h : depositPerByte ≤ 2 ^ 119) :
    minMaskBits depositPerByte < 128 := by
  unfold minMaskBits
  rw [Nat.lt_succ_iff, Nat.size_le]
  omega

end Masks

end Cyrux.Pink
