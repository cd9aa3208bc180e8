import Cyrux.Lib.Dict
import Cyrux.Lib.Machine
import Mathlib.Data.List.Infix

/-!
# Reference counts
-/

namespace Cyrux.RefCount

structure Counted (V : Type) where
  value : V
  count : ℤ
  deriving DecidableEq

variable {K V : Type} {right : V → Prop} {cell : Option (Counted V)} {e : Counted V} {v : V}
  {w : ℕ} {n rc : ℤ} {replace : Bool}

def count (cell : Option (Counted V)) : ℤ := (cell.map Counted.count).getD 0

def adjust (w : ℕ) (replace : Bool) (v : V) (rc : ℤ) (e : Counted V) : Option (Counted V) :=
  let count := Signed.wrappingAdd w e.count rc
  if count = 0 then none else some ⟨if replace then v else e.value, count⟩

structure Sound (right : V → Prop) (cell : Option (Counted V)) (n : ℤ) : Prop where
  count_eq : count cell = n
  value_right : ∀ e, cell = some e → 0 ≤ e.count → right e.value

theorem Sound.none : Sound right none 0 := ⟨rfl, nofun⟩

theorem Sound.fresh (h : Sound right Option.none n) (hvalue : 0 ≤ rc → right v) :
    Sound right (some ⟨v, rc⟩) (n + rc) := by
  refine ⟨?_, ?_⟩
  · rw [← h.count_eq]
    exact (Int.zero_add rc).symm
  · rintro _ ⟨⟩ hrc
    exact hvalue hrc

theorem Sound.adjust (h : Sound right (some e) n) (hrange : Signed.InRange w (n + rc))
    (hreplace : e.count < 0 → 0 < rc → replace = true)
    (hvalue : replace = true → 0 ≤ e.count + rc → right v) :
    Sound right (adjust w replace v rc e) (n + rc) := by
  obtain rfl : e.count = n := h.count_eq
  unfold RefCount.adjust
  rw [Signed.wrappingAdd_eq hrange]
  dsimp only
  split
  · rename_i hzero
    rw [hzero]
    exact Sound.none
  · refine ⟨rfl, ?_⟩
    rintro _ ⟨⟩ hcount
    dsimp only at hcount ⊢
    split
    · rename_i hnew
      exact hvalue hnew hcount
    · rename_i hold
      apply h.value_right e rfl
      by_contra hneg
      exact hold (hreplace (by omega) (by omega))

theorem count_ne_zero_of_adjust {e' : Counted V} (h : adjust w replace v rc e = some e') :
    e'.count ≠ 0 := by
  unfold RefCount.adjust at h
  dsimp only at h
  split at h
  · cases h
  · rename_i hne
    cases h
    exact hne

/-! ## Sequences of changes -/

variable [DecidableEq K]

def net (k : K) (changes : List (K × ℤ)) : ℤ :=
  (changes.map fun c => if c.1 = k then c.2 else 0).sum

theorem net_append (k : K) (l l' : List (K × ℤ)) : net k (l ++ l') = net k l + net k l' := by
  unfold net
  rw [List.map_append, List.sum_append]

theorem net_concat (k k' : K) (rc : ℤ) (l : List (K × ℤ)) :
    net k (l ++ [(k', rc)]) = net k l + if k' = k then rc else 0 := by
  rw [net_append]
  unfold net
  rw [List.map_singleton, List.sum_singleton]

def Within (w : ℕ) (k : K) (changes : List (K × ℤ)) : Prop :=
  ∀ pre ∈ changes.inits, Signed.InRange w (net k pre)

instance (w : ℕ) (k : K) (changes : List (K × ℤ)) : Decidable (Within w k changes) :=
  inferInstanceAs (Decidable (∀ pre ∈ changes.inits, Signed.InRange w (net k pre)))

theorem Within.inRange {k : K} {l : List (K × ℤ)} (h : Within w k l) :
    Signed.InRange w (net k l) := h l ((List.mem_inits l l).2 (List.prefix_refl l))

theorem Within.append_left {k : K} {l l' : List (K × ℤ)} (h : Within w k (l ++ l')) :
    Within w k l := by
  intro pre hpre
  apply h pre
  rw [List.mem_inits] at hpre ⊢
  exact hpre.trans (List.prefix_append l l')

theorem Sound.alter {m : AList fun _ : K => Counted V} {k k' : K} {done : List (K × ℤ)}
    {f : Option (Counted V) → Option (Counted V)} (h : Sound right (m.lookup k) (net k done))
    (hf : k' = k → Sound right (f (m.lookup k)) (net k done + rc)) :
    Sound right ((m.alter k' f).lookup k) (net k (done ++ [(k', rc)])) := by
  rw [AList.lookup_alter, net_concat]
  by_cases hk : k' = k
  · subst hk
    rw [if_pos rfl, if_pos rfl]
    exact hf rfl
  · rw [if_neg (Ne.symm hk), if_neg hk, Int.add_zero]
    exact h

theorem Within.foldl {σ Op : Type} {R : σ → List (K × ℤ) → Prop} {step : σ → Op → σ}
    {changes : Op → List (K × ℤ)} {k : K} {ops : List Op}
    (hstep : ∀ s, ∀ op ∈ ops, ∀ done, R s done → Within w k (done ++ changes op) →
      R (step s op) (done ++ changes op))
    {s : σ} {done : List (K × ℤ)} (h : R s done)
    (hwithin : Within w k (done ++ ops.flatMap changes)) :
    R (ops.foldl step s) (done ++ ops.flatMap changes) := by
  induction ops generalizing s done with
  | nil =>
    rw [List.flatMap_nil, List.append_nil]
    exact h
  | cons op ops ih =>
    rw [List.flatMap_cons, ← List.append_assoc] at hwithin ⊢
    apply ih
    · exact fun s' op' hop' => hstep s' op' (List.mem_cons_of_mem op hop')
    · exact hstep s op List.mem_cons_self done h hwithin.append_left
    · exact hwithin

end Cyrux.RefCount
