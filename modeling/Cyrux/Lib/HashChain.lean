import Mathlib.Data.List.Chain
import Mathlib.Data.List.Intervals

/-!
# Hash chains
-/

namespace Cyrux

variable {B H : Type}

structure Linkage (B H : Type) where
  hash : B → H
  parent : B → H
  number : B → ℕ

namespace Linkage

variable (L : Linkage B H)

def Linked (blocks : List B) : Prop :=
  blocks.IsChain fun a b => L.hash a = L.parent b

instance [DecidableEq H] (blocks : List B) : Decidable (L.Linked blocks) :=
  inferInstanceAs (Decidable (blocks.IsChain _))

structure CanonicalChain where
  block : ℕ → B
  number_block : ∀ n, L.number (block n) = n
  parent_succ : ∀ n, L.parent (block (n + 1)) = L.hash (block n)
  genesis : ∀ b, L.hash b ≠ L.parent (block 0)
  unique : ∀ b n, L.hash b = L.hash (block n) → b = block n

namespace CanonicalChain

variable {L} (chain : L.CanonicalChain)

def interval (a b : ℕ) : List B := (List.Ico a b).map chain.block

theorem interval_of_le {a b : ℕ} (h : b ≤ a) : chain.interval a b = [] := by
  simp [interval, List.Ico.eq_nil_of_le h]

theorem interval_eq_cons {a b : ℕ} (h : a < b) :
    chain.interval a b = chain.block a :: chain.interval (a + 1) b := by
  simp [interval, List.Ico.eq_cons h]

theorem interval_append {a b c : ℕ} (hab : a ≤ b) (hbc : b ≤ c) :
    chain.interval a b ++ chain.interval b c = chain.interval a c := by
  simp [interval, ← List.map_append, List.Ico.append_consecutive hab hbc]

theorem filter_interval (a b k : ℕ) :
    (chain.interval a b).filter (fun x => k ≤ L.number x) = chain.interval (max a k) b := by
  have key : ((fun x => decide (k ≤ L.number x)) ∘ chain.block) = fun n => decide (k ≤ n) := by
    funext n
    simp [chain.number_block]
  rw [interval, List.filter_map, key, List.Ico.filter_le]
  rfl

theorem eq_block_of_hash {b : B} {n : ℕ} (h : L.hash b = L.parent (chain.block n)) :
    ∃ m, n = m + 1 ∧ b = chain.block m := by
  cases n with
  | zero => exact absurd h (chain.genesis b)
  | succ m =>
    rw [chain.parent_succ] at h
    exact ⟨m, rfl, chain.unique b m h⟩

theorem eq_interval_of_linked {n : ℕ} {blocks : List B} (linked : L.Linked blocks)
    (last : blocks.getLast? = some (chain.block n)) :
    ∃ k ≤ n, blocks = chain.interval k (n + 1) := by
  induction blocks with
  | nil => simp at last
  | cons b rest ih =>
    cases rest with
    | nil =>
      refine ⟨n, le_rfl, ?_⟩
      simp only [List.getLast?_singleton, Option.some.injEq] at last
      simp [interval, last]
    | cons c rest =>
      obtain ⟨hb, linked⟩ := List.isChain_cons_cons.1 linked
      obtain ⟨k, hk, hrest⟩ := ih linked last
      rw [interval_eq_cons _ (by omega)] at hrest
      have hc : c = chain.block k := (List.cons.inj hrest).1
      rw [hc] at hb
      obtain ⟨m, rfl, hm⟩ := chain.eq_block_of_hash hb
      refine ⟨m, by omega, ?_⟩
      rw [interval_eq_cons _ (by omega), interval_eq_cons _ (by omega), hm, hrest]

theorem eq_interval {k n : ℕ} {b : B} {blocks : List B} (linked : L.Linked (b :: blocks))
    (first : L.number b = k) (last : (b :: blocks).getLast? = some (chain.block n)) :
    k ≤ n ∧ b :: blocks = chain.interval k (n + 1) := by
  obtain ⟨j, hj, h⟩ := chain.eq_interval_of_linked linked last
  rw [interval_eq_cons _ (by omega)] at h
  have hb : b = chain.block j := (List.cons.inj h).1
  have hjk : j = k := by
    rw [← first, hb, chain.number_block]
  subst hjk
  exact ⟨hj, by rw [h, ← interval_eq_cons _ (by omega)]⟩

theorem interval_concat {a b : ℕ} (h : a ≤ b) :
    chain.interval a b ++ [chain.block b] = chain.interval a (b + 1) := by
  rw [← chain.interval_append h (Nat.le_succ b), chain.interval_eq_cons (Nat.lt_succ_self b),
    chain.interval_of_le le_rfl]

theorem eq_interval_between {k n : ℕ} {between : List B}
    (linked : L.Linked (chain.block k :: (between ++ [chain.block n]))) :
    k < n ∧ between = chain.interval (k + 1) n := by
  obtain ⟨hle, h⟩ := chain.eq_interval linked (chain.number_block k)
    (by rw [List.getLast?_cons, List.getLast?_concat]; rfl)
  rw [chain.interval_eq_cons (by omega)] at h
  have hrest := (List.cons.inj h).2
  rcases hle.lt_or_eq with hlt | rfl
  · rw [← chain.interval_concat hlt] at hrest
    exact ⟨hlt, (List.append_inj' hrest rfl).1⟩
  · simp [chain.interval_of_le le_rfl] at hrest

end CanonicalChain

end Linkage

end Cyrux
