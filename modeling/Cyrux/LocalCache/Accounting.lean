import Cyrux.LocalCache.Storage

/-!
# The sizes of the storages
-/

namespace Cyrux.Cache

open Proc

/-! ## One storage -/

namespace Storage

variable {s : Storage} {kvs : KVs} {maxSize : ℕ} {key value : Bytes} {now : ℕ}

def of (maxSize : ℕ) (kvs : KVs) : Storage where
  size := kvs.total weigh
  maxSize := maxSize
  kvs := kvs

@[simp] theorem of_kvs : (of maxSize kvs).kvs = kvs := rfl

structure Accounted (s : Storage) : Prop where
  size_eq : s.size = s.kvs.total weigh
  size_le : s.size ≤ s.maxSize

theorem Accounted.eq_of (h : s.Accounted) : s = of s.maxSize s.kvs := by
  unfold of
  rw [← h.size_eq]

theorem accounted_of (h : kvs.total weigh ≤ maxSize) : (of maxSize kvs).Accounted := ⟨rfl, h⟩

theorem runs_shrink {n : ℕ} {Q : Unit → Storage → Prop} {E : Fault → Storage → Prop}
    (hn : n ≤ s.size) (h : Q () { s with size := s.size - n }) : Runs (shrink n) s Q E := by
  apply Runs.ensure_bind
  case fails => exact fun hnot => absurd hn hnot
  intro _
  exact h

def live (now : ℕ) (kvs : KVs) : KVs := kvs.retain fun _ v => now < v.expireAt

@[simp] theorem lookup_live :
    (live now kvs).lookup key = (kvs.lookup key).filter fun v => now < v.expireAt :=
  AList.lookup_retain _

theorem total_live_le : (live now kvs).total weigh ≤ kvs.total weigh := AList.total_retain_le _

def expired (now : ℕ) (entries : List (Σ _ : Bytes, StorageValue)) : ℕ :=
  ((entries.filter fun e => !decide (now < e.2.expireAt)).map fun e => weigh e.1 e.2).sum

theorem expired_cons (e : Σ _ : Bytes, StorageValue) (l : List (Σ _ : Bytes, StorageValue)) :
    expired now (e :: l) = (if e.2.expireAt ≤ now then weigh e.1 e.2 else 0) + expired now l := by
  unfold expired
  by_cases he : e.2.expireAt ≤ now
  · rw [if_pos he, List.filter_cons_of_pos (by simpa using he), List.map_cons, List.sum_cons]
  · rw [if_neg he, List.filter_cons_of_neg (by simpa using he), Nat.zero_add]

theorem runs_clearExpired {Q : Unit → Storage → Prop} {E : Fault → Storage → Prop}
    (h : Q () (of maxSize (live now kvs))) : Runs (clearExpired now) (of maxSize kvs) Q E := by
  apply Runs.get_bind
  apply Runs.bind
  -- What the loop still has to subtract is the size of the expired entries ahead of it.
  have hloop := Runs.each (E := E) (s := of maxSize kvs) (l := kvs.entries)
    (f := fun e => when (e.2.expireAt ≤ now) (shrink (weigh e.1 e.2)))
    (I := fun l s => s = ⟨(live now kvs).total weigh + expired now l, maxSize, kvs⟩)
    (by
      rintro e l _ rfl
      rw [expired_cons]
      apply Runs.when
      · intro he
        rw [if_pos he]
        apply runs_shrink
        · dsimp only
          omega
        · simp only [Storage.mk.injEq, and_self, and_true]
          omega
      · intro he
        rw [if_neg he, Nat.zero_add])
    (by
      unfold of
      rw [← AList.total_retain fun _ v => decide (now < v.expireAt)]
      rfl)
  refine hloop.mono ?_ fun _ _ he => he
  rintro _ _ rfl
  exact h

theorem runs_remove {Q : Option Bytes → Storage → Prop} {E : Fault → Storage → Prop}
    (h : Q ((kvs.lookup key).map StorageValue.value) (of maxSize (kvs.erase key))) :
    Runs (remove key) (of maxSize kvs) Q E := by
  apply Runs.get_bind
  apply Runs.alter_bind
  unfold of
  cases found : kvs.lookup key with
  | none =>
    rw [found] at h
    unfold of at h
    rw [AList.total_erase_of_none found] at h
    exact h
  | some v =>
    have hsize := AList.total_erase (f := weigh) found
    rw [found] at h
    apply Runs.bind
    apply runs_shrink
    · dsimp only
      omega
    · have heq : kvs.total weigh - weigh key v = (kvs.erase key).total weigh := by omega
      rw [heq]
      exact h

def makeRoom (maxSize clearAt : ℕ) (key value : Bytes) (kvs : KVs) : KVs :=
  if maxSize < (kvs.erase key).total weigh + (key.length + value.length) then
    live clearAt (kvs.erase key)
  else kvs.erase key

theorem makeRoom_absent {clearAt : ℕ} : key ∉ makeRoom maxSize clearAt key value kvs := by
  rw [← AList.lookup_eq_none]
  unfold makeRoom
  split
  · rw [lookup_live, AList.lookup_erase]
    rfl
  · exact AList.lookup_erase key kvs

theorem total_erase_le : (kvs.erase key).total weigh ≤ kvs.total weigh := by
  cases found : kvs.lookup key with
  | none => exact (AList.total_erase_of_none found).le
  | some v => exact (Nat.le_add_left _ _).trans (AList.total_erase found).le

theorem total_makeRoom_le {clearAt : ℕ} :
    (makeRoom maxSize clearAt key value kvs).total weigh ≤ kvs.total weigh := by
  unfold makeRoom
  split
  · exact total_live_le.trans total_erase_le
  · exact total_erase_le

theorem runs_set {lifetime clearAt insertAt : ℕ}
    {Q : Except StorageQuotaExceeded Unit → Storage → Prop} {E : Fault → Storage → Prop}
    (full : maxSize < (makeRoom maxSize clearAt key value kvs).total weigh +
      (key.length + value.length) →
      Q (.error {}) (of maxSize (makeRoom maxSize clearAt key value kvs)))
    (room : ¬ maxSize < (makeRoom maxSize clearAt key value kvs).total weigh +
      (key.length + value.length) → Q (.ok ()) (of maxSize
        ((makeRoom maxSize clearAt key value kvs).insert key
          ⟨Unsigned.saturatingAdd 64 insertAt lifetime, value⟩))) :
    Runs (set key value lifetime clearAt insertAt) (of maxSize kvs) Q E := by
  apply Runs.bind
  apply runs_remove
  apply Runs.get_bind
  apply Runs.bind
  have hroom : Runs (when (maxSize < (kvs.erase key).total weigh + (key.length + value.length))
      (clearExpired clearAt)) (of maxSize (kvs.erase key))
      (fun _ s => s = of maxSize (makeRoom maxSize clearAt key value kvs)) E := by
    unfold makeRoom
    apply Runs.when
    · intro hfull
      rw [if_pos hfull]
      exact runs_clearExpired rfl
    · intro hfits
      rw [if_neg hfits]
  refine hroom.mono ?_ fun _ _ he => he
  rintro _ _ rfl
  apply Runs.get_bind
  split
  · rename_i hfull
    exact full hfull
  · rename_i hfits
    have hinsert := room hfits
    unfold of at hinsert
    rw [AList.total_insert_of_notMem makeRoom_absent, Nat.add_comm] at hinsert
    exact hinsert

def weighAll (entries : List (Σ _ : Bytes, StorageValue)) : ℕ :=
  (entries.map fun e => weigh e.1 e.2).sum

theorem weighAll_append (l l' : List (Σ _ : Bytes, StorageValue)) :
    weighAll (l ++ l') = weighAll l + weighAll l' := by
  unfold weighAll
  rw [List.map_append, List.sum_append]

theorem weighAll_take_add_drop (l : List (Σ _ : Bytes, StorageValue)) (k : ℕ) :
    weighAll (l.take k) + weighAll (l.drop k) = weighAll l := by
  rw [← weighAll_append, List.take_append_drop]

theorem total_eq_weighAll {l : List (Σ _ : Bytes, StorageValue)} (h : kvs.entries.Perm l) :
    kvs.total weigh = weighAll l := (h.map _).sum_eq

structure Fitting (order : List (Σ _ : Bytes, StorageValue)) (maxSize : ℕ)
    (l : List (Σ _ : Bytes, StorageValue)) (s : Storage) : Prop where
  maxSize_eq : s.maxSize = maxSize
  kept : ∃ done k, order = done ++ l ∧ k ≤ done.length ∧ s.kvs.entries.Perm (done.drop k) ∧
    s.size = weighAll (order.drop k) ∧ (∀ j < k, maxSize < weighAll (order.drop j)) ∧
    (maxSize < s.size → k = done.length)

theorem Fitting.step {order l : List (Σ _ : Bytes, StorageValue)} {e : Σ _ : Bytes, StorageValue}
    {E : Fault → Storage → Prop} (distinct : order.NodupKeys)
    (h : Fitting order maxSize (e :: l) s) :
    Runs (keepIfFits e) s (fun _ s' => Fitting order maxSize l s') E := by
  obtain ⟨hmax, done, k, horder, hk, hperm, hsize, hdropped, hall⟩ := h
  have hdone : order = done ++ [e] ++ l := by rw [horder, List.append_assoc, List.singleton_append]
  apply Runs.get_bind
  split
  · rename_i hfits
    have hnew : e.1 ∉ s.kvs := by
      intro hmem
      obtain ⟨v, hv⟩ := List.exists_of_mem_keys (show e.1 ∈ s.kvs.keys from hmem)
      have hold : (⟨e.1, v⟩ : Σ _ : Bytes, StorageValue) ∈ done :=
        List.mem_of_mem_drop (hperm.mem_iff.1 hv)
      rw [horder, List.nodupKeys_iff_pairwise, List.pairwise_append] at distinct
      exact distinct.2.2 _ hold e List.mem_cons_self rfl
    refine ⟨hmax, done ++ [e], k, hdone, hk.trans (by simp), ?_, hsize, hdropped, ?_⟩
    · rw [AList.entries_insert_of_notMem hnew, List.drop_append_of_le_length hk]
      exact (hperm.cons e).trans (List.perm_append_singleton e _).symm
    · intro hlarge
      exact absurd hlarge (Nat.not_lt.2 (hmax ▸ hfits))
  · rename_i hlarge
    obtain rfl := hall (hmax ▸ Nat.not_le.1 hlarge)
    have hrest : order.drop (done.length + 1) = l := by rw [hdone, List.drop_left' (by simp)]
    have hhere : weighAll (order.drop done.length) = weigh e.1 e.2 + weighAll l := by
      rw [horder, List.drop_left]
      rfl
    apply runs_shrink
    · omega
    · refine ⟨hmax, done ++ [e], done.length + 1, hdone, by simp, ?_, ?_, ?_, fun _ => by simp⟩
      · rw [List.drop_of_length_le (by simp)]
        rwa [List.drop_length] at hperm
      · dsimp only
        rw [hrest]
        omega
      · intro j hj
        obtain hj | rfl := Nat.lt_succ_iff_lt_or_eq.1 hj
        · exact hdropped j hj
        · omega

theorem weighAll_drop_le_iff {order : List (Σ _ : Bytes, StorageValue)} {k : ℕ}
    (dropped : ∀ j < k, maxSize < weighAll (order.drop j))
    (fits : weighAll (order.drop k) ≤ maxSize) (j : ℕ) :
    weighAll (order.drop j) ≤ maxSize ↔ k ≤ j := by
  refine ⟨fun hj => Nat.not_lt.1 fun hlt => Nat.not_lt.2 hj (dropped j hlt), fun hj => ?_⟩
  have hsplit := weighAll_take_add_drop (order.drop k) (j - k)
  rw [List.drop_drop, Nat.add_sub_cancel' hj] at hsplit
  omega

theorem byExpiration_perm (kvs : KVs) : (byExpiration kvs.entries).Perm kvs.entries :=
  List.mergeSort_perm _ _

theorem runs_fitSize_drop {Q : Unit → Storage → Prop} {E : Fault → Storage → Prop}
    (h : ∀ k (kept : KVs), kept.entries.Perm ((byExpiration kvs.entries).drop k) →
      (∀ j, weighAll ((byExpiration kvs.entries).drop j) ≤ maxSize ↔ k ≤ j) →
      Q () (of maxSize kept)) :
    Runs fitSize (of maxSize kvs) Q E := by
  have hperm := byExpiration_perm kvs
  have htotal := total_eq_weighAll hperm.symm
  apply Runs.when
  · intro _
    have hstart : Fitting (byExpiration kvs.entries) maxSize (byExpiration kvs.entries)
        { of maxSize kvs with kvs := ∅ } :=
      ⟨rfl, [], 0, rfl, le_rfl, List.Perm.refl _, htotal, nofun, fun _ => rfl⟩
    have hloop := Runs.each (E := E) (f := keepIfFits)
      (I := Fitting (byExpiration kvs.entries) maxSize)
      (fun e l s hs => hs.step ((List.perm_nodupKeys hperm).2 kvs.nodupKeys)) hstart
    refine hloop.mono ?_ fun _ _ he => he
    intro _ s ⟨hmax, done, k, horder, _, hkept, hsize, hdropped, hall⟩
    rw [List.append_nil] at horder
    rw [← horder] at hkept hall
    have hfits : weighAll ((byExpiration kvs.entries).drop k) ≤ maxSize := by
      by_contra hlarge
      rw [hall (hsize ▸ Nat.not_le.1 hlarge), List.drop_length] at hlarge
      exact hlarge (Nat.zero_le _)
    have hof : s = of maxSize s.kvs := by
      unfold of
      rw [total_eq_weighAll hkept, ← hsize, ← hmax]
    rw [hof]
    exact h k s.kvs hkept (weighAll_drop_le_iff hdropped hfits)
  · intro hfits
    apply h 0 kvs hperm.symm
    apply weighAll_drop_le_iff fun j hj => absurd hj (Nat.not_lt_zero j)
    exact htotal.symm.trans_le (Nat.not_lt.1 hfits)

theorem runs_fitSize {Q : Unit → Storage → Prop} {E : Fault → Storage → Prop}
    (h : ∀ kept : KVs, (∀ key v, kept.lookup key = some v → kvs.lookup key = some v) →
      kept.total weigh ≤ maxSize → Q () (of maxSize kept)) :
    Runs fitSize (of maxSize kvs) Q E := by
  apply runs_fitSize_drop
  intro k kept hkept hk
  apply h
  · intro key v hv
    have hmem := List.mem_of_mem_drop (hkept.mem_iff.1 (AList.mem_lookup_iff.1 hv))
    exact AList.mem_lookup_iff.2 ((byExpiration_perm kvs).mem_iff.1 hmem)
  · rw [total_eq_weighAll hkept]
    exact (hk k).2 le_rfl

theorem byExpiration_pairwise (kvs : KVs) : (byExpiration kvs.entries).Pairwise fun a b =>
    a.2.expireAt < b.2.expireAt ∨ a.2.expireAt = b.2.expireAt ∧ a.1 < b.1 := by
  have hdistinct := (List.perm_nodupKeys (byExpiration_perm kvs)).2 kvs.nodupKeys
  rw [List.nodupKeys_iff_pairwise] at hdistinct
  have hsorted := @List.pairwise_mergeSort _ (fun a b : Σ _ : Bytes, StorageValue =>
    a.2.expireAt < b.2.expireAt ∨ a.2.expireAt = b.2.expireAt ∧ a.1 ≤ b.1) ?_ ?_ kvs.entries
  · refine (hsorted.and hdistinct).imp fun {a b} ⟨hle, hne⟩ => ?_
    refine (of_decide_eq_true hle).imp_right fun ⟨htie, hkey⟩ => ⟨htie, ?_⟩
    exact (List.le_iff_lt_or_eq.1 hkey).resolve_right hne
  · intro a b c hab hbc
    simp only [decide_eq_true_eq] at hab hbc ⊢
    obtain hab | ⟨hab, hkey⟩ := hab
    · exact Or.inl (by omega)
    · obtain hbc | ⟨hbc, hkey'⟩ := hbc
      · exact Or.inl (by omega)
      · exact Or.inr ⟨hab.trans hbc, List.le_trans hkey hkey'⟩
  · intro a b
    simp only [Bool.or_eq_true, decide_eq_true_eq]
    obtain hlt | heq | hlt := Nat.lt_trichotomy a.2.expireAt b.2.expireAt
    · exact Or.inl (Or.inl hlt)
    · exact (List.le_total a.1 b.1).imp (fun h => Or.inr ⟨heq, h⟩) fun h => Or.inr ⟨heq.symm, h⟩
    · exact Or.inr (Or.inl hlt)

/-- `fit_size` drops the fewest entries that expire first. -/
theorem fitSize_drops_shortest (maxSize : ℕ) (kvs : KVs) :
    (byExpiration kvs.entries).Perm kvs.entries ∧
    ((byExpiration kvs.entries).Pairwise fun a b =>
      a.2.expireAt < b.2.expireAt ∨ a.2.expireAt = b.2.expireAt ∧ a.1 < b.1) ∧
    ∃ k, (∀ j, weighAll ((byExpiration kvs.entries).drop j) ≤ maxSize ↔ k ≤ j) ∧
      Runs fitSize (of maxSize kvs) (fun _ s => s.maxSize = maxSize ∧
        s.kvs.entries.Perm ((byExpiration kvs.entries).drop k) ∧
        s.size + weighAll ((byExpiration kvs.entries).take k) = kvs.total weigh)
        fun _ _ => False := by
  refine ⟨byExpiration_perm kvs, byExpiration_pairwise kvs, ?_⟩
  have hfits : ∃ k, weighAll ((byExpiration kvs.entries).drop k) ≤ maxSize := by
    refine ⟨(byExpiration kvs.entries).length, ?_⟩
    rw [List.drop_length]
    exact Nat.zero_le _
  have hshortest := weighAll_drop_le_iff (fun _ hj => Nat.not_le.1 (Nat.find_min hfits hj))
    (Nat.find_spec hfits)
  refine ⟨Nat.find hfits, hshortest, runs_fitSize_drop fun k kept hkept hk => ?_⟩
  obtain rfl : k = Nat.find hfits :=
    le_antisymm ((hk _).1 (Nat.find_spec hfits)) ((hshortest k).1 ((hk k).2 le_rfl))
  refine ⟨rfl, hkept, ?_⟩
  change kept.total weigh + _ = _
  rw [total_eq_weighAll hkept, Nat.add_comm, weighAll_take_add_drop]
  exact (total_eq_weighAll (byExpiration_perm kvs).symm).symm

end Storage

/-! ## The cache -/

namespace LocalCache

variable {c : LocalCache} {id key value : Bytes}

def Accounted (c : LocalCache) : Prop :=
  ∀ id s, c.storages.lookup id = some s → s.Accounted

def setStorage (c : LocalCache) (id : Bytes) (s : Storage) : LocalCache :=
  { c with storages := c.storages.insert id s }

theorem Accounted.setStorage (h : c.Accounted) {s : Storage} (hs : s.Accounted) :
    (c.setStorage id s).Accounted := by
  intro id' s' hs'
  unfold LocalCache.setStorage at hs'
  by_cases heq : id' = id
  · subst heq
    rw [AList.lookup_insert] at hs'
    cases hs'
    exact hs
  · rw [AList.lookup_insert_ne heq] at hs'
    exact h id' s' hs'

theorem runs_onStorage {α : Type} {m : Storage.Program α} {Q : Option α → LocalCache → Prop}
    {E : Fault → LocalCache → Prop} (missing : c.storages.lookup id = none → Q none c)
    (found : ∀ s, c.storages.lookup id = some s →
      Runs m s (fun a s' => Q (some a) (c.setStorage id s'))
        (fun e s' => E e (c.setStorage id s'))) :
    Runs (onStorage id m) c Q E := by
  unfold Runs onStorage
  cases hs : c.storages.lookup id with
  | none => exact missing hs
  | some s =>
    have hrun := found s hs
    unfold Runs at hrun
    dsimp only
    cases run : m s with
    | ok a s' =>
      rw [run] at hrun
      exact hrun
    | error e s' =>
      rw [run] at hrun
      exact hrun

theorem runs_onStorage_accounted {α : Type} {m : Storage.Program α} (h : c.Accounted)
    (hm : ∀ maxSize kvs, (Storage.of maxSize kvs).Accounted →
      Runs m (Storage.of maxSize kvs) (fun _ s => s.Accounted) (fun _ _ => False)) :
    Runs (onStorage id m) c (fun _ c' => c'.Accounted) (fun _ _ => False) := by
  apply runs_onStorage
  · exact fun _ => h
  · intro s hs
    have haccounted := h id s hs
    obtain ⟨maxSize, kvs, rfl⟩ : ∃ maxSize kvs, s = Storage.of maxSize kvs :=
      ⟨_, _, haccounted.eq_of⟩
    exact (hm maxSize kvs haccounted).mono (fun _ s' hs' => h.setStorage hs')
      fun _ _ hfalse => hfalse

theorem runs_clearExpired (h : c.Accounted) (now : ℕ) :
    Runs (clearExpired now) c (fun _ c' => c'.Accounted) (fun _ _ => False) := by
  refine Runs.each (I := fun _ => LocalCache.Accounted) ?_ h
  intro id _ c' hc'
  apply Runs.bind
  exact runs_onStorage_accounted hc' fun maxSize kvs hs => Storage.runs_clearExpired
    (Storage.accounted_of (Storage.total_live_le.trans hs.size_le))

theorem runs_maybeClearExpired (h : c.Accounted) (now : ℕ) :
    Runs (maybeClearExpired now) c (fun _ c' => c'.Accounted) (fun _ _ => False) := by
  apply Runs.when
  · intro _
    exact runs_clearExpired h now
  · exact fun _ => h

theorem runs_set (h : c.Accounted) (r : Readings) :
    Runs (set id key value r) c (fun _ c' => c'.Accounted) (fun _ _ => False) := by
  apply Runs.bind
  refine (runs_maybeClearExpired h r.first).mono ?_ fun _ _ hfalse => hfalse
  intro _ c' hc'
  apply Runs.get_bind
  apply Runs.bind
  refine (runs_onStorage_accounted hc' ?_).mono (fun _ _ h' => h') fun _ _ hfalse => hfalse
  intro maxSize kvs hs
  apply Storage.runs_set
  · exact fun _ => Storage.accounted_of (Storage.total_makeRoom_le.trans hs.size_le)
  · intro hfits
    apply Storage.accounted_of
    rw [AList.total_insert_of_notMem Storage.makeRoom_absent]
    change key.length + value.length + _ ≤ maxSize
    omega

theorem runs_remove (h : c.Accounted) (now : ℕ) :
    Runs (remove id key now) c (fun _ c' => c'.Accounted) (fun _ _ => False) := by
  apply Runs.bind
  refine (runs_maybeClearExpired h now).mono ?_ fun _ _ hfalse => hfalse
  intro _ c' hc'
  apply Runs.bind
  refine (runs_onStorage_accounted hc' ?_).mono (fun _ _ h' => h') fun _ _ hfalse => hfalse
  intro maxSize kvs hs
  apply Storage.runs_remove
  apply Storage.accounted_of
  exact Storage.total_erase_le.trans hs.size_le

theorem runs_setExpire (h : c.Accounted) (expire : ℕ) (r : Readings) :
    Runs (setExpire id key expire r) c (fun _ c' => c'.Accounted) (fun _ _ => False) := by
  apply Runs.bind
  refine (runs_maybeClearExpired h r.first).mono ?_ fun _ _ hfalse => hfalse
  intro _ c' hc'
  apply Runs.get_bind
  split
  · apply Runs.bind
    exact runs_remove hc' r.second
  · cases hentry : c'.entry id key with
    | none => exact hc'
    | some v =>
      dsimp only
      split
      · apply Runs.bind
        apply runs_onStorage
        · exact fun _ => hc'
        · intro s hs
          have haccounted := hc' id s hs
          have hfound : s.kvs.lookup key = some v := by
            unfold entry at hentry
            rw [hs] at hentry
            exact hentry
          have htotal := AList.total_insert_of_lookup (f := weigh)
            (v := { v with expireAt := Unsigned.saturatingAdd 64 r.second expire }) hfound
          apply hc'.setStorage
          refine ⟨?_, haccounted.size_le⟩
          rw [haccounted.size_eq]
          exact (Nat.add_left_cancel htotal).symm
      · apply Runs.bind
        exact runs_remove hc' r.third

theorem runs_applyQuota (h : c.Accounted) (contract : Bytes) (maxSize : ℕ) :
    Runs (applyQuota contract maxSize) c (fun _ c' => c'.Accounted) (fun _ _ => False) := by
  apply Runs.get_bind
  split
  · intro id s hs
    by_cases heq : id = contract
    · subst heq
      rw [AList.lookup_erase] at hs
      cases hs
    · rw [AList.lookup_erase_ne heq] at hs
      exact h id s hs
  · split
    · apply Runs.bind
      apply runs_onStorage_accounted h
      intro _ kvs _
      exact Storage.runs_fitSize fun kept _ hle => Storage.accounted_of hle
    · exact h.setStorage ⟨rfl, Nat.zero_le _⟩

theorem runs_applyQuotas (h : c.Accounted) (quotas : List (Bytes × ℕ)) :
    Runs (applyQuotas quotas) c (fun _ c' => c'.Accounted) (fun _ _ => False) := by
  refine Runs.each (I := fun _ => LocalCache.Accounted) ?_ h
  exact fun quota _ _ hc' => runs_applyQuota hc' quota.1 quota.2

end LocalCache

theorem Call.runs {c : LocalCache} (h : c.Accounted) (call : Call) :
    Runs call.run c (fun _ c' => c'.Accounted) (fun _ _ => False) := by
  unfold Call.run
  split
  · apply Runs.map
    exact LocalCache.runs_set h call.readings
  · apply Runs.bind
    exact LocalCache.runs_setExpire h _ call.readings
  · apply Runs.map
    exact LocalCache.runs_remove h _
  · exact h
  · apply Runs.bind
    exact LocalCache.runs_applyQuotas h _
  · apply Runs.bind
    exact LocalCache.runs_clearExpired h _

/-- The size of a storage is that of its entries, within its quota. -/
theorem sizes_accounted (gcInterval defaultValueLifetime : ℕ) (calls : List Call) :
    let c : LocalCache := { gcInterval, defaultValueLifetime }
    (∀ id s, (afterCalls Call.run c calls).storages.lookup id = some s →
        s.size = s.kvs.total weigh ∧ s.size ≤ s.maxSize) ∧
      ∀ reply ∈ resultsOf Call.run c calls, reply ≠ .error .underflow := by
  intro c
  have hnew : c.Accounted := nofun
  have hstep : ∀ (c : LocalCache) (call : Call), c.Accounted → True →
      Runs call.run c (fun _ c' => c'.Accounted) (fun _ _ => False) :=
    fun _ call h _ => Call.runs h call
  have hall : Throughout Call.run (fun _ _ => True) c calls :=
    throughout_of_forall (fun _ _ => trivial) c calls
  have haccounted := Runs.afterCalls (fun c call h hcall => (hstep c call h hcall).mono
    (fun _ _ h' => h') fun _ _ hfalse => hfalse.elim) hnew hall
  refine ⟨fun id s hs => ⟨(haccounted id s hs).size_eq, (haccounted id s hs).size_le⟩, ?_⟩
  intro reply hreply
  obtain ⟨_, rfl⟩ := Runs.resultsOf hstep hnew hall reply hreply
  nofun

end Cyrux.Cache
