import Mathlib

/-!
# Ordered key-value stores
-/

namespace Cyrux

structure OrderedStore (K V : Type) [LinearOrder K] where
  entries : List (K × V)
  sorted : entries.Pairwise fun a b => a.1 < b.1

namespace OrderedStore

variable {K V : Type} [LinearOrder K] {s : OrderedStore K V} {k : K} {v : V} {l : List (K × V)}

def empty : OrderedStore K V := ⟨[], List.Pairwise.nil⟩

def values (s : OrderedStore K V) : List V := s.entries.map Prod.snd

def iterFrom (s : OrderedStore K V) (k : K) : List (K × V) := s.entries.filter fun e => k ≤ e.1

def put (s : OrderedStore K V) (k : K) (v : V) : OrderedStore K V where
  entries := s.entries.filter (fun e => e.1 < k) ++ (k, v) :: s.entries.filter fun e => k < e.1
  sorted := by
    rw [List.pairwise_append, List.pairwise_cons]
    refine ⟨s.sorted.filter _, ⟨fun b hb => ?_, s.sorted.filter _⟩, fun a ha b hb => ?_⟩
    · exact of_decide_eq_true (List.mem_filter.1 hb).2
    · have ha := of_decide_eq_true (List.mem_filter.1 ha).2
      obtain rfl | hb := List.mem_cons.1 hb
      · exact ha
      · exact ha.trans (of_decide_eq_true (List.mem_filter.1 hb).2)

def delete (s : OrderedStore K V) (k : K) : OrderedStore K V where
  entries := s.entries.filter fun e => e.1 ≠ k
  sorted := s.sorted.filter _

theorem entries_put_of_lt (h : ∀ e ∈ s.entries, e.1 < k) :
    (s.put k v).entries = s.entries ++ [(k, v)] := by
  have hbefore : s.entries.filter (fun e => e.1 < k) = s.entries :=
    List.filter_eq_self.2 fun e he => decide_eq_true (h e he)
  have hbehind : s.entries.filter (fun e => k < e.1) = [] :=
    List.filter_eq_nil_iff.2 fun e he => by simpa using (h e he).le
  change s.entries.filter (fun e => e.1 < k) ++ (k, v) :: s.entries.filter (fun e => k < e.1) = _
  rw [hbefore, hbehind]

theorem entries_delete_of_lt {o : Option V} (hs : s.entries = l ++ o.toList.map fun v => (k, v))
    (h : ∀ e ∈ l, e.1 < k) : (s.delete k).entries = l := by
  have hkept : l.filter (fun e => e.1 ≠ k) = l :=
    List.filter_eq_self.2 fun e he => decide_eq_true (h e he).ne
  change s.entries.filter (fun e => e.1 ≠ k) = l
  rw [hs, List.filter_append, hkept]
  cases o with
  | none => exact List.append_nil l
  | some v => simp

theorem entries_foldl_delete (keys : List K) (s : OrderedStore K V) :
    (keys.foldl delete s).entries = s.entries.filter fun e => e.1 ∉ keys := by
  induction keys generalizing s with
  | nil => simp
  | cons k keys ih =>
    rw [List.foldl_cons, ih]
    change (s.entries.filter fun e => e.1 ≠ k).filter _ = _
    rw [List.filter_filter]
    apply List.filter_congr
    intro e _
    by_cases he : e.1 = k
    · simp [he]
    · simp [he]

theorem entries_delete_from {l' : List (K × V)} (hs : s.entries = l ++ l')
    (hl : ∀ e ∈ l, e.1 < k) (hl' : ∀ e ∈ l', k ≤ e.1) :
    (((s.iterFrom k).map Prod.fst).foldl delete s).entries = l := by
  have hiter : s.iterFrom k = l' := by
    unfold iterFrom
    rw [hs, List.filter_append, List.filter_eq_nil_iff.2 fun e he => by simpa using hl e he,
      List.filter_eq_self.2 fun e he => by simpa using hl' e he, List.nil_append]
  rw [entries_foldl_delete, hiter, hs, List.filter_append]
  have hkept : l.filter (fun e => e.1 ∉ l'.map Prod.fst) = l := by
    apply List.filter_eq_self.2
    intro e he
    apply decide_eq_true
    intro hmem
    obtain ⟨e', he', heq⟩ := List.mem_map.1 hmem
    have hle := hl' e' he'
    rw [heq] at hle
    exact absurd (hl e he) hle.not_gt
  have hgone : l'.filter (fun e => e.1 ∉ l'.map Prod.fst) = [] := by
    apply List.filter_eq_nil_iff.2
    intro e he hout
    exact of_decide_eq_true hout (List.mem_map_of_mem he)
  rw [hkept, hgone, List.append_nil]

end OrderedStore

/-! ## Big-endian keys -/

def bigEndian : ℕ → ℕ → List (Fin 256)
  | 0, _ => []
  | n + 1, v => Fin.ofNat 256 (v / 256 ^ n) :: bigEndian n (v % 256 ^ n)

theorem bigEndian_lt_iff {n a b : ℕ} (ha : a < 256 ^ n) (hb : b < 256 ^ n) :
    bigEndian n a < bigEndian n b ↔ a < b := by
  induction n generalizing a b with
  | zero =>
    rw [Nat.pow_zero, Nat.lt_one_iff] at ha hb
    rw [ha, hb]
    exact iff_of_false (lt_irrefl _) (lt_irrefl _)
  | succ n ih =>
    have hpos : 0 < 256 ^ n := Nat.pow_pos (by decide)
    have hbyte : ∀ v, v < 256 ^ (n + 1) → (Fin.ofNat 256 (v / 256 ^ n)).val = v / 256 ^ n := by
      intro v hv
      apply Nat.mod_eq_of_lt
      rw [Nat.div_lt_iff_lt_mul hpos, ← Nat.pow_succ']
      exact hv
    have hda := Nat.div_add_mod a (256 ^ n)
    have hdb := Nat.div_add_mod b (256 ^ n)
    have hra := Nat.mod_lt a hpos
    have hrb := Nat.mod_lt b hpos
    unfold bigEndian
    rw [List.cons_lt_cons_iff, ih hra hrb, Fin.lt_def, Fin.ext_iff, hbyte a ha, hbyte b hb]
    generalize 256 ^ n = q at *
    constructor
    · rintro (hlt | ⟨heq, hlt⟩)
      · have hle : q * (a / q + 1) ≤ q * (b / q) := Nat.mul_le_mul_left q hlt
        rw [Nat.mul_add, Nat.mul_one] at hle
        omega
      · rw [heq] at hda
        omega
    · intro hlt
      have hle : a / q ≤ b / q := Nat.div_le_div_right hlt.le
      obtain hlt' | heq := Nat.lt_or_eq_of_le hle
      · exact Or.inl hlt'
      · rw [heq] at hda
        exact Or.inr ⟨heq, by omega⟩

def fromBigEndian (bytes : List (Fin 256)) : ℕ := bytes.foldl (fun v b => 256 * v + b.val) 0

theorem bigEndian_length (n v : ℕ) : (bigEndian n v).length = n := by
  induction n generalizing v with
  | zero => rfl
  | succ n ih => rw [bigEndian, List.length_cons, ih]

theorem foldl_bigEndian {n v : ℕ} (hv : v < 256 ^ n) (high : ℕ) :
    (bigEndian n v).foldl (fun v b => 256 * v + b.val) high = 256 ^ n * high + v := by
  induction n generalizing v high with
  | zero =>
    rw [Nat.pow_zero, Nat.lt_one_iff] at hv
    rw [hv, bigEndian, List.foldl_nil, Nat.pow_zero, Nat.one_mul, Nat.add_zero]
  | succ n ih =>
    have hpos : 0 < 256 ^ n := Nat.pow_pos (by decide)
    have hbyte : v / 256 ^ n % 256 = v / 256 ^ n := by
      apply Nat.mod_eq_of_lt
      rw [Nat.div_lt_iff_lt_mul hpos, ← Nat.pow_succ']
      exact hv
    have hdiv := Nat.div_add_mod v (256 ^ n)
    rw [bigEndian, List.foldl_cons, ih (Nat.mod_lt v hpos), Fin.val_ofNat, hbyte, Nat.pow_succ,
      Nat.mul_add]
    rw [Nat.add_assoc, hdiv, Nat.mul_assoc]

theorem fromBigEndian_bigEndian {n v : ℕ} (hv : v < 256 ^ n) :
    fromBigEndian (bigEndian n v) = v := by
  unfold fromBigEndian
  rw [foldl_bigEndian hv, Nat.mul_zero, Nat.zero_add]

end Cyrux
