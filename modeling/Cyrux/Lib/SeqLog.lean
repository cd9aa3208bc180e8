import Mathlib.Data.List.Basic
import Mathlib.Data.List.Induction
import Mathlib.Data.List.Nodup
import Mathlib.Data.List.TakeDrop

/-!
# Numbered logs
-/

namespace Cyrux

variable {M : Type} {seq : M → ℕ} {log : List M} {m : M}

def Numbered (seq : M → ℕ) (log : List M) : Prop :=
  ∀ i (h : i < log.length), seq log[i] = i

namespace Numbered

theorem nil : Numbered seq [] := by
  intro i h
  simp at h

theorem append (h : Numbered seq log) (next : seq m = log.length) :
    Numbered seq (log ++ [m]) := by
  intro i hi
  simp only [List.length_append, List.length_singleton] at hi
  by_cases old : i < log.length
  · rw [List.getElem_append_left old]
    exact h i old
  · obtain rfl : i = log.length := by omega
    simpa using next

theorem getElem?_seq (h : Numbered seq log) (mem : m ∈ log) : log[seq m]? = some m := by
  obtain ⟨i, hi, rfl⟩ := List.getElem_of_mem mem
  rw [h i hi]
  exact List.getElem?_eq_getElem hi

theorem seq_lt (h : Numbered seq log) (mem : m ∈ log) : seq m < log.length := by
  obtain ⟨i, hi, rfl⟩ := List.getElem_of_mem mem
  rwa [h i hi]

theorem take_succ (h : Numbered seq log) (mem : m ∈ log) :
    log.take (seq m + 1) = log.take (seq m) ++ [m] := by
  rw [List.take_add_one, h.getElem?_seq mem]
  rfl

theorem mem_take_iff (h : Numbered seq log) (mem : m ∈ log) {n : ℕ} :
    m ∈ log.take n ↔ seq m < n := by
  constructor
  · intro taken
    obtain ⟨i, hi, rfl⟩ := List.getElem_of_mem taken
    rw [List.length_take] at hi
    rw [List.getElem_take, h i (by omega)]
    omega
  · intro small
    rw [List.mem_iff_getElem?]
    refine ⟨seq m, ?_⟩
    rw [List.getElem?_take_of_lt small]
    exact h.getElem?_seq mem

theorem nodup (h : Numbered seq log) : log.Nodup := by
  rw [List.nodup_iff_injective_get]
  intro i j same
  have hi := h i i.isLt
  have hj := h j j.isLt
  simp only [List.get_eq_getElem] at same
  rw [same, hj] at hi
  exact Fin.ext hi.symm

theorem filter_drop (h : Numbered seq log) (p n : ℕ) :
    (log.drop p).filter (fun m => n ≤ seq m) = log.drop (max p n) := by
  induction log using List.reverseRecOn with
  | nil => simp
  | append_singleton log m ih =>
    have init : Numbered seq log := by
      intro i hi
      have := h i (by simp; omega)
      rwa [List.getElem_append_left hi] at this
    have last : seq m = log.length := by
      have := h log.length (by simp)
      simpa using this
    by_cases hp : p ≤ log.length
    · rw [List.drop_append_of_le_length hp, List.filter_append, ih init]
      by_cases hn : n ≤ log.length
      · rw [List.drop_append_of_le_length (by omega)]
        simp [last, hn]
      · rw [List.drop_eq_nil_of_le (by omega), List.drop_eq_nil_of_le (by simp; omega)]
        simp [last, hn]
    · rw [List.drop_eq_nil_of_le (by simp; omega), List.drop_eq_nil_of_le (by simp; omega)]
      rfl

end Numbered

end Cyrux
