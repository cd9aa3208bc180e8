import Cyrux.LocalCache.Accounting

/-!
# Collecting expired entries
-/

namespace Cyrux.Cache

open Proc

namespace LocalCache

variable {c c' c₁ : LocalCache} {id key value : Bytes} {t now : ℕ} {r : Readings}

/-! ## What can be seen -/

def visible (c : LocalCache) (t : ℕ) (id key : Bytes) : Option StorageValue :=
  (c.entry id key).filter fun v => t < v.expireAt

def quota (c : LocalCache) (id : Bytes) : Option ℕ := (c.storages.lookup id).map Storage.maxSize

theorem get_eq : c.get id key now = (c.visible now id key).map StorageValue.value := by
  unfold LocalCache.get visible
  cases c.entry id key with
  | none => rfl
  | some v =>
    dsimp only
    by_cases hv : v.expireAt ≤ now
    · rw [if_pos hv, Option.filter_some_neg (by simpa using hv)]
      rfl
    · rw [if_neg hv, Option.filter_some_pos (by simpa using hv)]
      rfl

theorem visible_later (h : t ≤ now) :
    c.visible now id key = (c.visible t id key).filter fun v => now < v.expireAt := by
  unfold visible
  rw [Option.filter_filter]
  congr 1
  funext v
  by_cases hv : now < v.expireAt
  · have : t < v.expireAt := by omega
    simp [hv, this]
  · simp [hv]

structure Same (t : ℕ) (c c' : LocalCache) : Prop where
  lifetime : c'.defaultValueLifetime = c.defaultValueLifetime
  quota : ∀ id, c'.quota id = c.quota id
  visible : ∀ id key, c'.visible t id key = c.visible t id key

theorem Same.refl (c : LocalCache) : Same t c c := ⟨rfl, fun _ => rfl, fun _ _ => rfl⟩

theorem Same.counter (c : LocalCache) (n : ℕ) : Same t c { c with setsSinceLastGc := n } :=
  ⟨rfl, fun _ => rfl, fun _ _ => rfl⟩

theorem Same.symm (h : Same t c c') : Same t c' c :=
  ⟨h.lifetime.symm, fun id => (h.quota id).symm, fun id key => (h.visible id key).symm⟩

theorem Same.trans (h : Same t c c₁) (h' : Same t c₁ c') : Same t c c' :=
  ⟨h'.lifetime.trans h.lifetime, fun id => (h'.quota id).trans (h.quota id),
    fun id key => (h'.visible id key).trans (h.visible id key)⟩

theorem Same.later (h : Same t c c') (ht : t ≤ now) : Same now c c' := by
  refine ⟨h.lifetime, h.quota, fun id key => ?_⟩
  rw [visible_later ht, visible_later ht, h.visible]

structure Put (t : ℕ) (id key : Bytes) (o : Option StorageValue) (c c' : LocalCache) : Prop where
  lifetime : c'.defaultValueLifetime = c.defaultValueLifetime
  quota : ∀ id', c'.quota id' = c.quota id'
  visible : ∀ id' key', c'.visible t id' key' =
    if id' = id ∧ key' = key then o.filter fun v => t < v.expireAt else c.visible t id' key'

theorem Put.of_same {o : Option StorageValue} (h : Same t c c₁) (h' : Put t id key o c₁ c') :
    Put t id key o c c' := by
  refine ⟨h'.lifetime.trans h.lifetime, fun id' => (h'.quota id').trans (h.quota id'),
    fun id' key' => ?_⟩
  rw [h'.visible, h.visible]

theorem Put.same {o : Option StorageValue} {d d' : LocalCache} (h : Same t c d)
    (hc : Put t id key o c c') (hd : Put t id key o d d') : Same t c' d' := by
  refine ⟨?_, fun id' => ?_, fun id' key' => ?_⟩
  · rw [hd.lifetime, hc.lifetime, h.lifetime]
  · rw [hd.quota, hc.quota, h.quota]
  · rw [hd.visible, hc.visible, h.visible]

/-! ## One storage in the cache -/

theorem entry_setStorage {s : Storage} (id' key' : Bytes) :
    (c.setStorage id s).entry id' key' =
      if id' = id then s.kvs.lookup key' else c.entry id' key' := by
  unfold entry setStorage
  by_cases heq : id' = id
  · rw [if_pos heq, heq, AList.lookup_insert]
    rfl
  · rw [if_neg heq, AList.lookup_insert_ne heq]

theorem quota_setStorage {s s' : Storage} (found : c.storages.lookup id = some s)
    (hmax : s'.maxSize = s.maxSize) (id' : Bytes) :
    (c.setStorage id s').quota id' = c.quota id' := by
  unfold quota setStorage
  by_cases heq : id' = id
  · rw [heq, AList.lookup_insert, found]
    exact congrArg some hmax
  · rw [AList.lookup_insert_ne heq]

theorem same_setStorage {s s' : Storage} (found : c.storages.lookup id = some s)
    (hmax : s'.maxSize = s.maxSize)
    (hvisible : ∀ key, (s'.kvs.lookup key).filter (fun v => t < v.expireAt) =
      (s.kvs.lookup key).filter fun v => t < v.expireAt) :
    Same t c (c.setStorage id s') := by
  refine ⟨rfl, quota_setStorage found hmax, fun id' key' => ?_⟩
  unfold visible
  rw [entry_setStorage]
  split
  · rename_i heq
    subst heq
    unfold entry
    rw [found]
    exact hvisible key'
  · rfl

theorem put_setStorage {s s' : Storage} {o : Option StorageValue}
    (found : c.storages.lookup id = some s) (hmax : s'.maxSize = s.maxSize)
    (hkey : (s'.kvs.lookup key).filter (fun v => t < v.expireAt) = o.filter fun v => t < v.expireAt)
    (hvisible : ∀ key', key' ≠ key → (s'.kvs.lookup key').filter (fun v => t < v.expireAt) =
      (s.kvs.lookup key').filter fun v => t < v.expireAt) :
    Put t id key o c (c.setStorage id s') := by
  refine ⟨rfl, quota_setStorage found hmax, fun id' key' => ?_⟩
  unfold visible
  rw [entry_setStorage]
  by_cases hid : id' = id
  · subst hid
    rw [if_pos rfl]
    by_cases heq : key' = key
    · rw [if_pos ⟨rfl, heq⟩, heq]
      exact hkey
    · rw [if_neg fun hboth => heq hboth.2]
      unfold entry
      rw [found]
      exact hvisible key' heq
  · rw [if_neg hid, if_neg fun hboth => hid hboth.1]

theorem put_hidden (h : c.visible t id key = none) : Put t id key none c c := by
  refine ⟨rfl, fun _ => rfl, fun id' key' => ?_⟩
  split
  · rename_i hboth
    rw [hboth.1, hboth.2, h]
    rfl
  · rfl

theorem put_missing (missing : c.storages.lookup id = none) : Put t id key none c c := by
  apply put_hidden
  unfold visible entry
  rw [missing]
  rfl

theorem filter_live {kvs : KVs} (h : now ≤ t) (key : Bytes) :
    ((Storage.live now kvs).lookup key).filter (fun v => decide (t < v.expireAt)) =
      (kvs.lookup key).filter fun v => decide (t < v.expireAt) := by
  rw [Storage.lookup_live, Option.filter_filter]
  congr 1
  funext v
  by_cases hv : t < v.expireAt
  · have : now < v.expireAt := by omega
    simp [hv, this]
  · simp [hv]

/-! ## Calls -/

structure Collected (now : ℕ) (c c' : LocalCache) : Prop where
  same : Same now c c'
  kept : ∀ id key v, c'.entry id key = some v → c.entry id key = some v

theorem Collected.counter (c : LocalCache) (n : ℕ) :
    Collected now c { c with setsSinceLastGc := n } := ⟨Same.counter c n, fun _ _ _ h => h⟩

theorem Collected.trans (h : Collected now c c₁) (h' : Collected now c₁ c') : Collected now c c' :=
  ⟨h.same.trans h'.same, fun id key v hv => h.kept id key v (h'.kept id key v hv)⟩

theorem collected_setStorage {s : Storage} (found : c.storages.lookup id = some s) :
    Collected now c (c.setStorage id (Storage.of s.maxSize (Storage.live now s.kvs))) := by
  refine ⟨same_setStorage found rfl fun key => filter_live le_rfl key, fun id' key' v hv => ?_⟩
  rw [entry_setStorage] at hv
  split at hv
  · rename_i heq
    subst heq
    rw [Storage.of_kvs, Storage.lookup_live] at hv
    unfold entry
    rw [found]
    exact (Option.filter_eq_some_iff.1 hv).1
  · exact hv

theorem runs_clearExpired_collected (h : c.Accounted) (now : ℕ) :
    Runs (clearExpired now) c (fun _ c' => c'.Accounted ∧ Collected now c c')
      (fun _ _ => False) := by
  refine Runs.each (I := fun _ c' => c'.Accounted ∧ Collected now c c') ?_
    ⟨h, Collected.counter c 0⟩
  rintro id _ c₁ ⟨hc₁, hcollected⟩
  have hruns : Runs (onStorage id (Storage.clearExpired now)) c₁
      (fun _ c' => c'.Accounted ∧ Collected now c₁ c') (fun _ _ => False) := by
    apply runs_onStorage
    · exact fun _ => ⟨hc₁, Collected.counter c₁ _⟩
    · intro s hs
      have haccounted := hc₁ id s hs
      obtain ⟨maxSize, kvs, rfl⟩ : ∃ maxSize kvs, s = Storage.of maxSize kvs :=
        ⟨_, _, haccounted.eq_of⟩
      apply Storage.runs_clearExpired
      exact ⟨hc₁.setStorage (Storage.accounted_of (Storage.total_live_le.trans haccounted.size_le)),
        collected_setStorage hs⟩
  apply Runs.bind
  exact hruns.mono (fun _ _ h' => ⟨h'.1, hcollected.trans h'.2⟩) fun _ _ hfalse => hfalse

theorem runs_maybeClearExpired_collected (h : c.Accounted) (now : ℕ) :
    Runs (maybeClearExpired now) c (fun _ c' => c'.Accounted ∧ Collected now c c')
      (fun _ _ => False) := by
  apply Runs.when
  · intro _
    exact (runs_clearExpired_collected (c := { c with setsSinceLastGc := c.setsSinceLastGc + 1 }) h
      now).mono (fun _ _ h' => ⟨h'.1, (Collected.counter c _).trans h'.2⟩) fun _ _ hfalse => hfalse
  · exact fun _ => ⟨h, Collected.counter c _⟩

def fits (c : LocalCache) (id key value : Bytes) (now : ℕ) : Bool :=
  match c.storages.lookup id with
  | none => false
  | some s => (Storage.live now (s.kvs.erase key)).total weigh + (key.length + value.length) ≤
      s.maxSize

theorem Same.fits (h : Same t c c') (ht : t ≤ now) :
    c'.fits id key value now = c.fits id key value now := by
  have hquota := h.quota id
  unfold LocalCache.quota at hquota
  unfold LocalCache.fits
  cases hs : c.storages.lookup id with
  | none =>
    rw [hs] at hquota
    rw [Option.map_eq_none_iff.1 hquota]
  | some s =>
    rw [hs] at hquota
    obtain ⟨s', hs', hmax⟩ := Option.map_eq_some_iff.1 hquota
    have htotal : (Storage.live now (s'.kvs.erase key)).total weigh =
        (Storage.live now (s.kvs.erase key)).total weigh := by
      apply AList.total_of_lookup
      intro y
      rw [Storage.lookup_live, Storage.lookup_live]
      by_cases hy : y = key
      · rw [hy, AList.lookup_erase, AList.lookup_erase]
      · rw [AList.lookup_erase_ne hy, AList.lookup_erase_ne hy]
        have hvisible := (h.later ht).visible id y
        unfold LocalCache.visible entry at hvisible
        rw [hs, hs'] at hvisible
        exact hvisible
    rw [hs']
    dsimp only
    rw [htotal, hmax]

def setEntry (c : LocalCache) (id key value : Bytes) (r : Readings) : Option StorageValue :=
  if c.fits id key value r.second then
    some ⟨Unsigned.saturatingAdd 64 r.third c.defaultValueLifetime, value⟩
  else none

def setReply (c : LocalCache) (id key value : Bytes) (r : Readings) :
    Except StorageQuotaExceeded Unit :=
  if c.fits id key value r.second then .ok () else .error {}

theorem filter_makeRoom {kvs : KVs} {maxSize : ℕ} (h : now ≤ t) {key' : Bytes} (hne : key' ≠ key) :
    ((Storage.makeRoom maxSize now key value kvs).lookup key').filter
        (fun v => decide (t < v.expireAt)) =
      (kvs.lookup key').filter fun v => decide (t < v.expireAt) := by
  unfold Storage.makeRoom
  split
  · rw [filter_live h, AList.lookup_erase_ne hne]
  · rw [AList.lookup_erase_ne hne]

theorem makeRoom_fits {kvs : KVs} {maxSize : ℕ} :
    maxSize < (Storage.makeRoom maxSize now key value kvs).total weigh +
        (key.length + value.length) ↔
      ¬ (Storage.live now (kvs.erase key)).total weigh + (key.length + value.length) ≤ maxSize := by
  have hle : (Storage.live now (kvs.erase key)).total weigh ≤ (kvs.erase key).total weigh :=
    Storage.total_live_le
  unfold Storage.makeRoom
  split
  · exact Nat.not_le.symm
  · rename_i hfits
    constructor
    · intro hfull
      exact absurd hfull hfits
    · omega

theorem runs_set_put (h : c.Accounted) :
    Runs (set id key value r) c
      (fun reply c' => reply = c.setReply id key value r ∧
        Put r.third id key (c.setEntry id key value r) c c') (fun _ _ => False) := by
  apply Runs.bind
  refine (runs_maybeClearExpired_collected h r.first).mono ?_ fun _ _ hfalse => hfalse
  rintro _ c₁ ⟨hc₁, hsame, hkept⟩
  have hthird : r.first ≤ r.third := r.first_le.trans r.second_le
  have hfits : c₁.fits id key value r.second = c.fits id key value r.second := hsame.fits r.first_le
  unfold setReply setEntry
  rw [← hfits, ← hsame.lifetime]
  apply Runs.get_bind
  apply Runs.bind
  apply runs_onStorage
  · intro hmissing
    have hno : c₁.fits id key value r.second = false := by
      unfold fits
      rw [hmissing]
    rw [hno]
    exact ⟨rfl, (put_missing hmissing).of_same (hsame.later hthird)⟩
  · intro s hs
    have haccounted := hc₁ id s hs
    obtain ⟨maxSize, kvs, rfl⟩ : ∃ maxSize kvs, s = Storage.of maxSize kvs :=
      ⟨_, _, haccounted.eq_of⟩
    have hvalue : c₁.fits id key value r.second =
        decide ((Storage.live r.second (kvs.erase key)).total weigh +
          (key.length + value.length) ≤ maxSize) := by
      unfold fits
      rw [hs]
      rfl
    apply Storage.runs_set
    · intro hfull
      have hno : c₁.fits id key value r.second = false := by
        rw [hvalue]
        exact decide_eq_false (makeRoom_fits.1 hfull)
      rw [hno]
      refine ⟨rfl, Put.of_same (hsame.later hthird) (put_setStorage hs rfl ?_ ?_)⟩
      · rw [Storage.of_kvs, AList.lookup_eq_none.2 Storage.makeRoom_absent]
        rfl
      · exact fun key' hne => filter_makeRoom r.second_le hne
    · intro hroom
      have hyes : c₁.fits id key value r.second = true := by
        rw [hvalue]
        exact decide_eq_true (not_not.1 fun hno => hroom (makeRoom_fits.2 hno))
      rw [hyes]
      refine ⟨rfl, Put.of_same (hsame.later hthird) (put_setStorage hs rfl ?_ ?_)⟩
      · rw [Storage.of_kvs, AList.lookup_insert]
        rfl
      · intro key' hne
        rw [Storage.of_kvs, AList.lookup_insert_ne hne]
        exact filter_makeRoom r.second_le hne

theorem runs_remove_put (h : c.Accounted) (ht : now ≤ t) :
    Runs (remove id key now) c (fun _ c' => Put t id key none c c') (fun _ _ => False) := by
  apply Runs.bind
  refine (runs_maybeClearExpired_collected h now).mono ?_ fun _ _ hfalse => hfalse
  rintro _ c₁ ⟨hc₁, hsame, hkept⟩
  apply Runs.bind
  apply runs_onStorage
  · intro hmissing
    exact (put_missing hmissing).of_same (hsame.later ht)
  · intro s hs
    have haccounted := hc₁ id s hs
    obtain ⟨maxSize, kvs, rfl⟩ : ∃ maxSize kvs, s = Storage.of maxSize kvs :=
      ⟨_, _, haccounted.eq_of⟩
    apply Storage.runs_remove
    refine Put.of_same (hsame.later ht) (put_setStorage hs rfl ?_ ?_)
    · rw [Storage.of_kvs, AList.lookup_erase]
    · intro key' hne
      rw [Storage.of_kvs, AList.lookup_erase_ne hne]
      rfl

def Punctual (c : LocalCache) (id key : Bytes) (expire : ℕ) (r : Readings) : Prop :=
  expire ≠ 0 → ∀ v ∈ c.entry id key, v.expireAt ≠ r.second

instance (c : LocalCache) (id key : Bytes) (expire : ℕ) (r : Readings) :
    Decidable (c.Punctual id key expire r) :=
  inferInstanceAs (Decidable (expire ≠ 0 → ∀ v ∈ c.entry id key, v.expireAt ≠ r.second))

def expireEntry (c : LocalCache) (id key : Bytes) (expire : ℕ) (r : Readings) :
    Option StorageValue :=
  if expire = 0 then none
  else (c.visible r.second id key).map fun v =>
    { v with expireAt := Unsigned.saturatingAdd 64 r.second expire }

theorem runs_setExpire_put (h : c.Accounted) {expire : ℕ} (hpunctual : c.Punctual id key expire r) :
    Runs (setExpire id key expire r) c
      (fun _ c' => Put r.third id key (c.expireEntry id key expire r) c c') (fun _ _ => False) := by
  unfold expireEntry
  apply Runs.bind
  refine (runs_maybeClearExpired_collected h r.first).mono ?_ fun _ _ hfalse => hfalse
  rintro _ c₁ ⟨hc₁, hsame, hkept⟩
  have hthird : Same r.third c c₁ := hsame.later (r.first_le.trans r.second_le)
  have hsecond : c₁.visible r.second id key = c.visible r.second id key :=
    (hsame.later r.first_le).visible id key
  apply Runs.get_bind
  split
  · apply Runs.bind
    exact (runs_remove_put hc₁ r.second_le).mono (fun _ _ hput => hput.of_same hthird)
      fun _ _ hfalse => hfalse
  · rename_i hexpire
    rw [← hsecond]
    cases hentry : c₁.entry id key with
    | none =>
      have hhidden : ∀ t, c₁.visible t id key = none := by
        intro t
        unfold visible
        rw [hentry]
        rfl
      rw [hhidden]
      exact (put_hidden (hhidden r.third)).of_same hthird
    | some v =>
      have hne : v.expireAt ≠ r.second := hpunctual hexpire v (hkept id key v hentry)
      unfold visible
      rw [hentry]
      dsimp only
      split
      · rename_i hle
        rw [Option.filter_some_pos (by simpa using lt_of_le_of_ne hle hne.symm)]
        apply Runs.bind
        apply runs_onStorage
        · intro hmissing
          unfold entry at hentry
          rw [hmissing] at hentry
          cases hentry
        · intro s hs
          refine Put.of_same hthird (put_setStorage hs rfl ?_ ?_)
          · rw [AList.lookup_insert]
            rfl
          · intro key' hkey
            rw [AList.lookup_insert_ne hkey]
      · rename_i hlate
        rw [Option.filter_some_neg (by simpa using (Nat.not_le.1 hlate).le)]
        apply Runs.bind
        exact (runs_remove_put hc₁ le_rfl).mono (fun _ _ hput => hput.of_same hthird)
          fun _ _ hfalse => hfalse

end LocalCache

/-! ## Runs -/

open LocalCache

def Call.effect (c : LocalCache) (call : Call) : Option (Bytes × Bytes × Option StorageValue) :=
  match call.op with
  | .set id key value => some (id, key, c.setEntry id key value call.readings)
  | .setExpire id key expire => some (id, key, c.expireEntry id key expire call.readings)
  | .remove id key => some (id, key, none)
  | _ => none

def Call.KeepsQuotas : Call → Prop
  | ⟨.applyQuotas _, _⟩ => False
  | _ => True

def Call.Punctual (c : LocalCache) : Call → Prop
  | ⟨.setExpire id key expire, r⟩ => c.Punctual id key expire r
  | _ => True

instance (c : LocalCache) (call : Call) : Decidable (call.Punctual c) :=
  match call with
  | ⟨.setExpire id key expire, r⟩ => inferInstanceAs (Decidable (c.Punctual id key expire r))
  | ⟨.set .., _⟩ | ⟨.remove .., _⟩ | ⟨.get .., _⟩ | ⟨.applyQuotas _, _⟩ | ⟨.clearExpired, _⟩ =>
    inferInstanceAs (Decidable True)

def Becomes (t : ℕ) : Option (Bytes × Bytes × Option StorageValue) → LocalCache → LocalCache → Prop
  | none => Same t
  | some (id, key, o) => Put t id key o

def Call.told (c : LocalCache) (call : Call) : Option Reply :=
  match call.op with
  | .set id key value => some (.stored (c.setReply id key value call.readings))
  | .get id key => some (.found (c.get id key call.readings.first))
  | _ => none

theorem Call.runs_effect {c : LocalCache} (h : c.Accounted) {call : Call}
    (hkeeps : call.KeepsQuotas) (hpunctual : call.Punctual c) :
    Runs call.run c
      (fun reply c' => Becomes call.readings.third (call.effect c) c c' ∧
        ∀ r, call.told c = some r → reply = r) (fun _ _ => False) := by
  have hthird : call.readings.first ≤ call.readings.third :=
    call.readings.first_le.trans call.readings.second_le
  obtain ⟨op, r⟩ := call
  cases op with
  | set id key value =>
    apply Runs.map
    refine (runs_set_put h).mono ?_ fun _ _ hfalse => hfalse
    rintro _ c' ⟨rfl, hput⟩
    exact ⟨hput, fun r hr => Option.some.inj hr⟩
  | setExpire id key expire =>
    apply Runs.bind
    exact (runs_setExpire_put h hpunctual).mono
      (fun _ _ hput => ⟨hput, nofun⟩) fun _ _ hfalse => hfalse
  | remove id key =>
    apply Runs.map
    exact (runs_remove_put h hthird).mono (fun _ _ hput => ⟨hput, nofun⟩) fun _ _ hfalse => hfalse
  | get id key => exact ⟨Same.refl c, fun r hr => Option.some.inj hr⟩
  | applyQuotas quotas => exact hkeeps.elim
  | clearExpired =>
    apply Runs.bind
    exact (runs_clearExpired_collected h _).mono
      (fun _ _ hc' => ⟨hc'.2.same.later hthird, nofun⟩) fun _ _ hfalse => hfalse

theorem Same.effect {t : ℕ} {c c' : LocalCache} (h : Same t c c') {call : Call}
    (ht : t ≤ call.readings.first) :
    call.effect c' = call.effect c ∧ call.told c' = call.told c := by
  have hsecond : t ≤ call.readings.second := ht.trans call.readings.first_le
  obtain ⟨op, r⟩ := call
  cases op with
  | set id key value =>
    unfold Call.effect Call.told setEntry setReply
    dsimp only
    rw [h.fits hsecond, h.lifetime]
    exact ⟨rfl, rfl⟩
  | setExpire id key expire =>
    unfold Call.effect expireEntry
    dsimp only
    rw [(h.later hsecond).visible]
    exact ⟨rfl, rfl⟩
  | get id key =>
    unfold Call.told
    dsimp only
    rw [get_eq, get_eq, (h.later ht).visible]
    exact ⟨rfl, rfl⟩
  | remove id key => exact ⟨rfl, rfl⟩
  | applyQuotas quotas => exact ⟨rfl, rfl⟩
  | clearExpired => exact ⟨rfl, rfl⟩

theorem Becomes.same {t : ℕ} {effect : Option (Bytes × Bytes × Option StorageValue)}
    {c c' d d' : LocalCache} (h : Same t c d) (hc : Becomes t effect c c')
    (hd : Becomes t effect d d') : Same t c' d' := by
  match effect with
  | none => exact hc.symm.trans (h.trans hd)
  | some (id, key, o) => exact Put.same h hc hd

def Ordered (calls : List Call) : Prop :=
  calls.Pairwise fun a b => a.readings.third ≤ b.readings.first

instance (calls : List Call) : Decidable (Ordered calls) :=
  inferInstanceAs (Decidable (calls.Pairwise fun a b => a.readings.third ≤ b.readings.first))

def observed (c : LocalCache) : List Call → List (Except Fault Reply)
  | [] => []
  | call :: calls =>
    match call.op with
    | .set .. | .get .. => call.run.result c :: observed (call.run.after c) calls
    | _ => observed (call.run.after c) calls

def Call.IsCollection (call : Call) : Prop := call.op = .clearExpired

instance (call : Call) : Decidable call.IsCollection :=
  inferInstanceAs (Decidable (call.op = .clearExpired))

def withoutCollections (calls : List Call) : List Call :=
  calls.filter fun call => ¬ call.IsCollection

theorem Call.after_effect {c : LocalCache} (h : c.Accounted) {call : Call}
    (hkeeps : call.KeepsQuotas) (hpunctual : call.Punctual c) :
    (call.run.after c).Accounted ∧
      Becomes call.readings.third (call.effect c) c (call.run.after c) ∧
      ∀ reply, call.told c = some reply → call.run.result c = .ok reply := by
  obtain ⟨reply, hreply, haccounted, hbecomes, htold⟩ | ⟨_, _, hfalse, _⟩ :=
    ((Call.runs h call).and (Call.runs_effect h hkeeps hpunctual)).outcome
  · refine ⟨haccounted, hbecomes, fun r hr => ?_⟩
    rw [hreply, htold r hr]
  · exact hfalse.elim

theorem observed_cons (c : LocalCache) (call : Call) (calls : List Call) :
    observed c (call :: calls) =
      (if (call.told c).isSome then [call.run.result c] else []) ++
        observed (call.run.after c) calls := by
  obtain ⟨op, r⟩ := call
  cases op <;> rfl

theorem observed_same {calls : List Call} (hkeeps : ∀ call ∈ calls, call.KeepsQuotas)
    (hordered : Ordered calls) {t : ℕ} (ht : ∀ call ∈ calls, t ≤ call.readings.first)
    {c d : LocalCache} (hc : c.Accounted) (hd : d.Accounted) (hsame : Same t c d)
    (hpunctual : Throughout Call.run Call.Punctual c (withoutCollections calls))
    (hpunctual' : Throughout Call.run Call.Punctual d calls) :
    observed c (withoutCollections calls) = observed d calls := by
  induction calls generalizing t c d with
  | nil => rfl
  | cons call calls ih =>
    obtain ⟨hfirst, hlater⟩ := List.pairwise_cons.1 hordered
    obtain ⟨hkeep, hrest⟩ := List.forall_mem_cons.1 hkeeps
    have hcall := ht call List.mem_cons_self
    have hthird : t ≤ call.readings.third :=
      hcall.trans (call.readings.first_le.trans call.readings.second_le)
    obtain ⟨hd', hbecomes, htold⟩ :=
      Call.after_effect hd hkeep hpunctual'.1
    obtain ⟨heffect, hreply⟩ := Same.effect hsame hcall
    by_cases hgc : call.IsCollection
    · -- Only one of the two runs collects, and it looks the same afterwards.
      have hskip : withoutCollections (call :: calls) = withoutCollections calls :=
        List.filter_cons_of_neg (by simpa using hgc)
      have hsame' : Same call.readings.third c (call.run.after d) := by
        have hnone : call.effect d = none := by
          unfold Call.effect
          rw [hgc]
        rw [hnone] at hbecomes
        exact (hsame.later hthird).trans hbecomes
      have hquiet : call.told d = none := by
        unfold Call.told
        rw [hgc]
      rw [hskip] at hpunctual ⊢
      rw [observed_cons, hquiet]
      exact ih hrest hlater hfirst hc hd' hsame' hpunctual hpunctual'.2
    · have hboth : withoutCollections (call :: calls) = call :: withoutCollections calls :=
        List.filter_cons_of_pos (by simpa using hgc)
      rw [hboth] at hpunctual ⊢
      obtain ⟨hc', hbecomes', htold'⟩ :=
        Call.after_effect hc hkeep hpunctual.1
      rw [heffect] at hbecomes
      have hsame' : Same call.readings.third (call.run.after c) (call.run.after d) :=
        Becomes.same (hsame.later hthird) hbecomes' hbecomes
      rw [observed_cons, observed_cons, hreply,
        ih hrest hlater hfirst hc' hd' hsame' hpunctual.2 hpunctual'.2]
      cases hr : call.told c with
      | none => rfl
      | some reply => rw [htold' reply hr, htold reply (hreply.trans hr)]

theorem hidden_after {calls : List Call} (hkeeps : ∀ call ∈ calls, call.KeepsQuotas)
    (hordered : Ordered calls) {id key : Bytes}
    (hunset : ∀ call ∈ calls, ∀ value, call.op ≠ .set id key value) {t T : ℕ} (hT : t ≤ T)
    (ht : ∀ call ∈ calls, t ≤ call.readings.first ∧ call.readings.third ≤ T) {c : LocalCache}
    (hc : c.Accounted) (hpunctual : Throughout Call.run Call.Punctual c calls)
    (hhidden : c.visible t id key = none) :
    (afterCalls Call.run c calls).visible T id key = none := by
  induction calls generalizing t c with
  | nil =>
    rw [visible_later hT]
    change ((c.visible t id key).filter _) = none
    rw [hhidden]
    rfl
  | cons call calls ih =>
    obtain ⟨hfirst, hlater⟩ := List.pairwise_cons.1 hordered
    obtain ⟨hcall, hcallT⟩ := ht call List.mem_cons_self
    have hsecond : t ≤ call.readings.second := hcall.trans call.readings.first_le
    obtain ⟨hc', hbecomes, -⟩ := Call.after_effect hc (hkeeps call List.mem_cons_self) hpunctual.1
    have hstill : ∀ now, t ≤ now → c.visible now id key = none := by
      intro now hnow
      rw [visible_later hnow, hhidden]
      rfl
    have hthird := hstill call.readings.third (hsecond.trans call.readings.second_le)
    have hhidden' : (call.run.after c).visible call.readings.third id key = none := by
      cases heffect : call.effect c with
      | none =>
        rw [heffect] at hbecomes
        rw [hbecomes.visible id key, hthird]
      | some effect =>
        obtain ⟨id', key', o⟩ := effect
        rw [heffect] at hbecomes
        rw [hbecomes.visible id key]
        split
        · rename_i hboth
          obtain ⟨rfl, rfl⟩ := hboth
          have ho : o = none := by
            obtain ⟨op, r⟩ := call
            cases op with
            | set id' key' value =>
              cases heffect
              exact absurd rfl (hunset _ List.mem_cons_self value)
            | setExpire id' key' expire =>
              cases heffect
              unfold expireEntry
              split
              · rfl
              · rw [hstill r.second hsecond]
                rfl
            | remove id' key' =>
              cases heffect
              rfl
            | get _ _ => cases heffect
            | applyQuotas _ => cases heffect
            | clearExpired => cases heffect
          rw [ho]
          rfl
        · exact hthird
    exact ih (fun x hx => hkeeps x (List.mem_cons_of_mem _ hx)) hlater
      (fun x hx => hunset x (List.mem_cons_of_mem _ hx)) hcallT
      (fun x hx => ⟨hfirst x hx, (ht x (List.mem_cons_of_mem _ hx)).2⟩) hc' hpunctual.2 hhidden'

def reached (gcInterval defaultValueLifetime : ℕ) (before : List Call) : LocalCache :=
  afterCalls Call.run { gcInterval, defaultValueLifetime } before

theorem reached_accounted (gcInterval defaultValueLifetime : ℕ) (before : List Call) :
    (reached gcInterval defaultValueLifetime before).Accounted := by
  have hnew : LocalCache.Accounted { gcInterval, defaultValueLifetime } := nofun
  have hall : Throughout Call.run (fun _ _ => True) { gcInterval, defaultValueLifetime } before :=
    throughout_of_forall (fun _ _ => trivial) _ _
  refine Runs.afterCalls (I := LocalCache.Accounted) ?_ hnew hall
  intro c call h _
  exact (Call.runs h call).mono (fun _ _ h' => h') fun _ _ hfalse => hfalse.elim

theorem visible_eq_none_iff (c : LocalCache) (t : ℕ) (id key : Bytes) :
    c.visible t id key = none ↔ c.get id key t = none := by
  rw [get_eq, Option.map_eq_none_iff]

/-- Collections cannot be observed by `get` or `set`. -/
theorem collections_unobservable (gcInterval defaultValueLifetime : ℕ) (before calls : List Call)
    (hkeeps : ∀ call ∈ calls, call.KeepsQuotas) (hordered : Ordered calls)
    (hpunctual : Throughout Call.run Call.Punctual
      (reached gcInterval defaultValueLifetime before) (withoutCollections calls))
    (hpunctual' : Throughout Call.run Call.Punctual
      (reached gcInterval defaultValueLifetime before) calls) :
    let c := reached gcInterval defaultValueLifetime before
    observed c (withoutCollections calls) = observed c calls ∧
      ∀ id key t T, t ≤ T →
        (∀ call ∈ calls, t ≤ call.readings.first ∧ call.readings.third ≤ T) →
        (∀ call ∈ calls, ∀ value, call.op ≠ .set id key value) →
        c.get id key t = none → (afterCalls Call.run c calls).get id key T = none := by
  intro c
  have hc : c.Accounted := reached_accounted gcInterval defaultValueLifetime before
  refine ⟨?_, fun id key t T hT ht hunset hnone => ?_⟩
  · exact observed_same hkeeps hordered (t := 0) (fun _ _ => Nat.zero_le _) hc hc (Same.refl c)
      hpunctual hpunctual'
  · rw [← visible_eq_none_iff] at hnone ⊢
    exact hidden_after hkeeps hordered hunset hT ht hc hpunctual' hnone

def Readings.at (now : ℕ) : Readings := ⟨now, now, now, le_rfl, le_rfl⟩

theorem collections_unobservable_renewed :
    let c := reached 1000 10 [⟨.applyQuotas [([1], 100)], .at 0⟩, ⟨.set [1] [2] [3], .at 0⟩]
    let calls : List Call := [⟨.clearExpired, .at 9⟩, ⟨.setExpire [1] [2] 5, .at 9⟩,
      ⟨.clearExpired, .at 12⟩, ⟨.get [1] [2], .at 13⟩, ⟨.clearExpired, .at 14⟩,
      ⟨.get [1] [2], .at 14⟩]
    observed c (withoutCollections calls) = observed c calls ∧
      observed c calls = [.ok (.found (some [3])), .ok (.found none)] := by
  intro c calls
  refine ⟨(collections_unobservable 1000 10 [⟨.applyQuotas [([1], 100)], .at 0⟩,
    ⟨.set [1] [2] [3], .at 0⟩] calls ?_ ?_ ?_ ?_).1, by decide +kernel⟩
  · simp [calls, Call.KeepsQuotas]
  · decide
  · decide +kernel
  · decide +kernel

theorem collection_observed_at_expiration :
    let c := reached 1000 10 [⟨.applyQuotas [([1], 100)], .at 0⟩, ⟨.set [1] [2] [3], .at 0⟩]
    let calls : List Call :=
      [⟨.clearExpired, .at 10⟩, ⟨.setExpire [1] [2] 5, .at 10⟩, ⟨.get [1] [2], .at 10⟩]
    Ordered calls ∧
      observed c (withoutCollections calls) = [.ok (.found (some [3]))] ∧
      observed c calls = [.ok (.found none)] ∧
      c.get [1] [2] 10 = none ∧
      (afterCalls Call.run c (withoutCollections calls)).get [1] [2] 10 = some [3] := by
  decide +kernel

end Cyrux.Cache
