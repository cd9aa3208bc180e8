import Mathlib.Data.Nat.Basic
import Mathlib.Logic.Function.Basic

/-!
# Asset ledgers with a minimum balance
-/

namespace Cyrux

abbrev Ledger (A : Type) := A → Option ℕ

structure DustPolicy where
  min : ℕ
  reaps : Bool

def DustPolicy.settle (p : DustPolicy) (rest : ℕ) : Option ℕ :=
  if rest = 0 ∨ (p.reaps = true ∧ rest < p.min) then none else some rest

namespace Ledger

variable {A : Type}

def balance (l : Ledger A) (a : A) : ℕ := (l a).getD 0

variable [DecidableEq A]

def debit (p : DustPolicy) (l : Ledger A) (a : A) (amount : ℕ) : Ledger A :=
  Function.update l a (p.settle (l.balance a - amount))

def credit (l : Ledger A) (a : A) (amount : ℕ) : Ledger A :=
  Function.update l a (some (l.balance a + amount))

def move (p : DustPolicy) (l : Ledger A) (source dest : A) (amount : ℕ) : Ledger A :=
  if source = dest ∨ amount = 0 then l else (l.debit p source amount).credit dest amount

variable {p : DustPolicy} {l : Ledger A} {a b c : A} {amount : ℕ}

theorem balance_credit_self : (l.credit a amount).balance a = l.balance a + amount := by
  simp [credit, balance]

theorem credit_of_ne (h : c ≠ a) : l.credit a amount c = l c := Function.update_of_ne h _ _

theorem debit_of_ne (h : c ≠ a) : l.debit p a amount c = l c := Function.update_of_ne h _ _

omit [DecidableEq A] in
theorem balance_congr {l' : Ledger A} (h : l' c = l c) : l'.balance c = l.balance c := by
  unfold balance
  rw [h]

theorem balance_debit_le : (l.debit p a amount).balance a ≤ l.balance a - amount := by
  unfold debit balance DustPolicy.settle
  rw [Function.update_self]
  split_ifs
  · exact Nat.zero_le _
  · exact le_rfl

theorem balance_debit_of_kept
    (kept : p.reaps = false ∨ l.balance a - amount = 0 ∨ p.min ≤ l.balance a - amount) :
    (l.debit p a amount).balance a = l.balance a - amount := by
  generalize rest : l.balance a - amount = n at kept
  unfold debit DustPolicy.settle
  rw [rest]
  unfold balance
  rw [Function.update_self]
  split_ifs with closed
  · rcases closed with rfl | ⟨reaps, small⟩
    · rfl
    · simp only [reaps, Bool.true_eq_false, false_or] at kept
      exact (kept.resolve_right (Nat.not_le.2 small)).symm
  · rfl

theorem balance_debit_self (lossless : p.reaps = false) :
    (l.debit p a amount).balance a = l.balance a - amount :=
  balance_debit_of_kept (.inl lossless)

theorem move_of_ne (source : c ≠ a) (dest : c ≠ b) : l.move p a b amount c = l c := by
  unfold move
  split_ifs
  · rfl
  · rw [credit_of_ne dest, debit_of_ne source]

theorem credit_ne_none (h : l c ≠ none) : l.credit a amount c ≠ none := by
  by_cases e : c = a
  · subst e
    simp [credit]
  · rwa [credit_of_ne e]

theorem move_ne_none (h : l c ≠ none) (source : c = a → l.debit p a amount a ≠ none) :
    l.move p a b amount c ≠ none := by
  unfold move
  split_ifs
  · exact h
  · refine credit_ne_none ?_
    by_cases e : c = a
    · subst e
      exact source rfl
    · rwa [debit_of_ne e]

theorem balance_move_dest (ne : a ≠ b) :
    (l.move p a b amount).balance b = l.balance b + amount := by
  unfold move
  split_ifs with h
  · rw [h.resolve_left ne, Nat.add_zero]
  · rw [balance_credit_self, balance_congr (debit_of_ne ne.symm)]

theorem balance_move_source (lossless : p.reaps = false) (ne : a ≠ b) :
    (l.move p a b amount).balance a = l.balance a - amount := by
  unfold move
  split_ifs with h
  · rw [h.resolve_left ne, Nat.sub_zero]
  · rw [balance_congr (credit_of_ne ne), balance_debit_self lossless]

theorem balance_le_move_add (lossless : p.reaps = false) :
    l.balance a ≤ (l.move p a b amount).balance a + amount := by
  by_cases ne : a = b
  · unfold move
    rw [if_pos (.inl ne)]
    exact Nat.le_add_right _ _
  · rw [balance_move_source lossless ne]
    omega

theorem balance_move_source_le : (l.move p a b amount).balance a ≤ l.balance a := by
  unfold move
  split_ifs with h
  · exact le_rfl
  · rw [balance_congr (credit_of_ne fun e => h (.inl e))]
    exact Nat.le_trans balance_debit_le (Nat.sub_le _ _)

theorem balance_le_move (source : c ≠ a) : l.balance c ≤ (l.move p a b amount).balance c := by
  by_cases dest : c = b
  · subst dest
    rw [balance_move_dest source.symm]
    exact Nat.le_add_right _ _
  · rw [balance_congr (move_of_ne source dest)]

end Ledger

end Cyrux
