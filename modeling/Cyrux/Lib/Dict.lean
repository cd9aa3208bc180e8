import Mathlib.Algebra.BigOperators.Group.List.Basic
import Mathlib.Data.List.AList
import Mathlib.Tactic.Ring

/-!
# Finite maps with totals
-/

namespace AList

variable {K V : Type} {f g : K → V → ℕ} {m m' : AList fun _ : K => V} {k : K} {v : V}

def total (f : K → V → ℕ) (m : AList fun _ : K => V) : ℕ := (m.entries.map fun e => f e.1 e.2).sum

def retain (p : K → V → Bool) (m : AList fun _ : K => V) : AList fun _ : K => V where
  entries := m.entries.filter fun e => p e.1 e.2
  nodupKeys := m.nodupKeys.sublist List.filter_sublist

theorem total_retain (p : K → V → Bool) :
    total f (m.retain p) + total f (m.retain fun k v => !p k v) = total f m := by
  unfold total retain
  dsimp only
  induction m.entries with
  | nil => rfl
  | cons e l ih =>
    cases hp : p e.1 e.2 with
    | true =>
      simp only [List.filter_cons, hp, if_true, Bool.not_true, Bool.false_eq_true, if_false,
        List.map_cons, List.sum_cons]
      omega
    | false =>
      simp only [List.filter_cons, hp, Bool.false_eq_true, if_false, Bool.not_false, if_true,
        List.map_cons, List.sum_cons]
      omega

theorem total_retain_le (p : K → V → Bool) : total f (m.retain p) ≤ total f m := by
  have hsplit := total_retain (f := f) (m := m) p
  omega

theorem total_share_mul_le (T n : ℕ) :
    m.total (fun k v => T * f k v / n) * n ≤ T * m.total f := by
  unfold total
  induction m.entries with
  | nil => exact (Nat.zero_mul n).le.trans (Nat.zero_le _)
  | cons e l ih =>
    rw [List.map_cons, List.sum_cons, List.map_cons, List.sum_cons, Nat.add_mul, Nat.mul_add]
    exact Nat.add_le_add (Nat.div_mul_le_self _ _) ih

theorem total_share_le (T : ℕ) : m.total (fun k v => T * f k v / max (m.total f) 1) ≤ T := by
  have hpos : 0 < max (m.total f) 1 := lt_max_of_lt_right Nat.one_pos
  refine Nat.le_of_mul_le_mul_right ?_ hpos
  calc m.total (fun k v => T * f k v / max (m.total f) 1) * max (m.total f) 1
      ≤ T * m.total f := total_share_mul_le T _
    _ ≤ T * max (m.total f) 1 := Nat.mul_le_mul_left T (le_max_left _ _)

variable [DecidableEq K]

theorem total_of_lookup (h : ∀ k, m.lookup k = m'.lookup k) : total f m = total f m' := by
  have hperm : m.entries.Perm m'.entries := by
    apply List.lookup_ext m.nodupKeys m'.nodupKeys
    intro x y
    change y ∈ m.lookup x ↔ y ∈ m'.lookup x
    rw [h x]
  exact (hperm.map _).sum_eq

theorem total_insert_of_notMem (h : k ∉ m) : total f (m.insert k v) = f k v + total f m := by
  unfold total
  rw [entries_insert_of_notMem h, List.map_cons, List.sum_cons]

theorem total_erase (h : m.lookup k = some v) : f k v + total f (m.erase k) = total f m := by
  have hgone : k ∉ m.erase k := fun hmem => (mem_erase.1 hmem).1 rfl
  rw [← total_insert_of_notMem hgone]
  apply total_of_lookup
  intro x
  by_cases hx : x = k
  · rw [hx, lookup_insert, h]
  · rw [lookup_insert_ne hx, lookup_erase_ne hx]

theorem total_erase_of_none (h : m.lookup k = none) : total f (m.erase k) = total f m := by
  apply total_of_lookup
  intro x
  by_cases hx : x = k
  · rw [hx, lookup_erase, h]
  · rw [lookup_erase_ne hx]

theorem total_insert_of_lookup {w : V} (h : m.lookup k = some w) :
    f k w + total f (m.insert k v) = f k v + total f m := by
  have hgone : k ∉ m.erase k := fun hmem => (mem_erase.1 hmem).1 rfl
  have hsame : total f (m.insert k v) = total f ((m.erase k).insert k v) := by
    apply total_of_lookup
    intro x
    by_cases hx : x = k
    · rw [hx, lookup_insert, lookup_insert]
    · rw [lookup_insert_ne hx, lookup_insert_ne hx, lookup_erase_ne hx]
  rw [hsame, total_insert_of_notMem hgone, ← total_erase h]
  ring

@[simp] theorem lookup_retain (p : K → V → Bool) :
    (m.retain p).lookup k = (m.lookup k).filter (p k) := by
  apply Option.ext
  intro v
  rw [← Option.mem_def, mem_lookup_iff, Option.filter_eq_some_iff]
  unfold retain
  rw [List.mem_filter, ← mem_lookup_iff, Option.mem_def]

def alter (k : K) (h : Option V → Option V) (m : AList fun _ : K => V) : AList fun _ : K => V :=
  match h (m.lookup k) with
  | none => m.erase k
  | some v => m.insert k v

theorem lookup_alter (h : Option V → Option V) (k' : K) :
    (m.alter k h).lookup k' = if k' = k then h (m.lookup k) else m.lookup k' := by
  unfold alter
  by_cases heq : k' = k
  · subst heq
    rw [if_pos rfl]
    split
    · rename_i hnone
      rw [lookup_erase, hnone]
    · rename_i v hsome
      rw [lookup_insert, hsome]
  · rw [if_neg heq]
    split
    · rw [lookup_erase_ne heq]
    · rw [lookup_insert_ne heq]

theorem total_le_total {W : Type} {g : K → W → ℕ} {n : AList fun _ : K => W}
    (h : ∀ k v, m.lookup k = some v → ∃ w, n.lookup k = some w ∧ f k v ≤ g k w) :
    total f m ≤ total g n := by
  induction m using insertRec generalizing n with
  | H0 => exact Nat.zero_le _
  | IH k v m hk ih =>
    obtain ⟨w, hw, hle⟩ := h k v (lookup_insert m)
    rw [total_insert_of_notMem hk, ← total_erase hw]
    apply Nat.add_le_add hle
    apply ih
    intro x u hx
    have hne : x ≠ k := by
      rintro rfl
      exact hk (lookup_isSome.1 (Option.isSome_of_eq_some hx))
    obtain ⟨w', hw', hle'⟩ := h x u (by rw [lookup_insert_ne hne, hx])
    exact ⟨w', by rw [lookup_erase_ne hne, hw'], hle'⟩

end AList
