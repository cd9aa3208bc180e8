import Cyrux.LocalCache.Collection

/-!
# Quotas

`crates/phactory/src/contracts/support/keeper.rs`
-/

namespace Cyrux.Cache

open Proc

/-! ## The contracts and their quotas -/

abbrev ContractMap := AList fun _ : Bytes => UInt32

structure ContractsKeeper where
  contracts : ContractMap := ∅
  weightChanged : Bool := false

def totalMemory : ℕ := 1024 * 1024 * 20

def totalWeight (contracts : ContractMap) : ℕ := max (contracts.total fun _ w => w.toNat) 1

def contractQuota (contracts : ContractMap) (weight : UInt32) : ℕ :=
  totalMemory * weight.toNat / totalWeight contracts

def calcCacheQuotas (contracts : ContractMap) : List (Bytes × ℕ) :=
  contracts.entries.map fun e => (e.1, contractQuota contracts e.2)

theorem mem_calcCacheQuotas {contracts : ContractMap} {id : Bytes} {q : ℕ} :
    (id, q) ∈ calcCacheQuotas contracts ↔
      ∃ weight, contracts.lookup id = some weight ∧ q = contractQuota contracts weight := by
  unfold calcCacheQuotas
  rw [List.mem_map]
  constructor
  · rintro ⟨e, he, heq⟩
    cases heq
    exact ⟨e.2, AList.mem_lookup_iff.2 he, rfl⟩
  · rintro ⟨weight, hweight, rfl⟩
    exact ⟨⟨id, weight⟩, AList.mem_lookup_iff.1 hweight, rfl⟩

theorem total_contractQuota_le (contracts : ContractMap) :
    (contracts.total fun _ weight => contractQuota contracts weight) ≤ totalMemory :=
  AList.total_share_le totalMemory

structure Process where
  keeper : ContractsKeeper := {}
  cache : LocalCache := {}

namespace Process

abbrev Program := Proc Process Fault

def onCache {α : Type} (m : LocalCache.Program α) : Program α :=
  focus Process.cache (fun cache p => { p with cache := cache }) m

def insert (id : Bytes) (weight : UInt32) : Program Unit :=
  alter fun p => { p with keeper.contracts := p.keeper.contracts.insert id weight }

def setContractWeight (id : Bytes) (weight : UInt32) : Program Unit := do
  let p ← get
  when ((p.keeper.contracts.lookup id).isSome) (alter fun p => { p with
    keeper.contracts := p.keeper.contracts.insert id weight
    keeper.weightChanged := true })

def applyLocalCacheQuotas : Program Unit := do
  let p ← get
  onCache (LocalCache.applyQuotas (calcCacheQuotas p.keeper.contracts))

def processBlock : Program Unit := do
  let p ← get
  when (p.keeper.weightChanged = true) do
    alter fun p => { p with keeper.weightChanged := false }
    applyLocalCacheQuotas

inductive Event
  | insert (id : Bytes) (weight : UInt32)
  | setContractWeight (id : Bytes) (weight : UInt32)
  | applyLocalCacheQuotas
  | processBlock
  | cache (call : { call : Call // call.KeepsQuotas })

def Event.run : Event → Program Unit
  | .insert id weight => Process.insert id weight
  | .setContractWeight id weight => Process.setContractWeight id weight
  | .applyLocalCacheQuotas => Process.applyLocalCacheQuotas
  | .processBlock => Process.processBlock
  | .cache call => onCache do
    let _ ← call.val.run

end Process

/-! ## What calls do to the quotas -/

namespace LocalCache

variable {c c' : LocalCache} {id key : Bytes}

theorem runs_setExpire_quota (h : c.Accounted) (expire : ℕ) (r : Readings) :
    Runs (setExpire id key expire r) c (fun _ c' => ∀ id, c'.quota id = c.quota id)
      (fun _ _ => False) := by
  apply Runs.bind
  refine (runs_maybeClearExpired_collected h r.first).mono ?_ fun _ _ hfalse => hfalse
  rintro _ c₁ ⟨hc₁, hsame, -⟩
  have hremove : ∀ now, Runs (remove id key now) c₁ (fun _ c' => ∀ id, c'.quota id = c.quota id)
      (fun _ _ => False) := fun now => (runs_remove_put hc₁ le_rfl).mono
    (fun _ _ hput id' => (hput.quota id').trans (hsame.quota id')) fun _ _ hfalse => hfalse
  apply Runs.get_bind
  split
  · apply Runs.bind
    exact hremove r.second
  · split
    · exact hsame.quota
    · split
      · apply Runs.bind
        apply runs_onStorage
        · exact fun _ => hsame.quota
        · intro s hs id'
          refine Eq.trans (quota_setStorage hs ?_ id') (hsame.quota id')
          rfl
      · apply Runs.bind
        exact hremove r.third

def granted (maxSize : ℕ) : Option ℕ := if maxSize = 0 then none else some maxSize

theorem runs_applyQuota_quota (h : c.Accounted) (contract : Bytes) (maxSize : ℕ) :
    Runs (applyQuota contract maxSize) c
      (fun _ c' => ∀ id, c'.quota id = if id = contract then granted maxSize else c.quota id)
      (fun _ _ => False) := by
  have hset : ∀ s : Storage, s.maxSize = maxSize → ∀ id, (c.setStorage contract s).quota id =
      if id = contract then some maxSize else c.quota id := by
    intro s hs id
    unfold quota setStorage
    split
    · rename_i heq
      rw [heq, AList.lookup_insert]
      exact congrArg some hs
    · rename_i hne
      rw [AList.lookup_insert_ne hne]
  unfold granted
  apply Runs.get_bind
  split
  · intro id
    unfold quota
    split
    · rename_i heq
      rw [heq, AList.lookup_erase]
      rfl
    · rename_i hne
      rw [AList.lookup_erase_ne hne]
  · split
    · rename_i hthere
      apply Runs.bind
      apply runs_onStorage
      · intro hmissing
        rw [hmissing] at hthere
        cases hthere
      · intro s hs
        obtain ⟨old, kvs, rfl⟩ : ∃ old kvs, s = Storage.of old kvs :=
          ⟨_, _, (h contract s hs).eq_of⟩
        exact Storage.runs_fitSize fun kept _ _ => hset _ rfl
    · exact hset _ rfl

theorem runs_calcCacheQuotas (h : c.Accounted) (contracts : ContractMap) :
    Runs (applyQuotas (calcCacheQuotas contracts)) c
      (fun _ c' => ∀ id, c'.quota id = match contracts.lookup id with
        | none => c.quota id
        | some weight => granted (contractQuota contracts weight))
      (fun _ _ => False) := by
  -- Contracts whose quota is still to be applied may have any other one.
  refine (Runs.each (I := fun rest c' => c'.Accounted ∧ rest ⊆ calcCacheQuotas contracts ∧
    ∀ id, (∀ q, (id, q) ∉ rest) → c'.quota id = match contracts.lookup id with
      | none => c.quota id
      | some weight => granted (contractQuota contracts weight))
    ?_ ⟨h, List.Subset.refl _, ?_⟩).mono
    (fun _ c' hc' id => hc'.2.2 id fun q => List.not_mem_nil) fun _ _ hfalse => hfalse
  · rintro ⟨contract, maxSize⟩ rest c' ⟨hc', hsub, hquota⟩
    refine ((runs_applyQuota hc' contract maxSize).and
      (runs_applyQuota_quota hc' contract maxSize)).mono ?_ fun _ _ hfalse => hfalse.1
    rintro _ c'' ⟨hc'', heq⟩
    refine ⟨hc'', fun a ha => hsub (List.mem_cons_of_mem _ ha), fun id hid => ?_⟩
    rw [heq id]
    split
    · rename_i hcontract
      subst hcontract
      obtain ⟨weight, hweight, rfl⟩ := mem_calcCacheQuotas.1 (hsub List.mem_cons_self)
      rw [hweight]
    · rename_i hne
      apply hquota id
      intro q hq
      obtain hq | hq := List.mem_cons.1 hq
      · cases hq
        exact hne rfl
      · exact hid q hq
  · intro id hid
    cases hweight : contracts.lookup id with
    | none => rfl
    | some weight => exact absurd (mem_calcCacheQuotas.2 ⟨weight, hweight, rfl⟩) (hid _)

end LocalCache

theorem Call.runs_quota {c : LocalCache} (h : c.Accounted) {call : Call}
    (hkeeps : call.KeepsQuotas) :
    Runs call.run c (fun _ c' => ∀ id, c'.quota id = c.quota id) (fun _ _ => False) := by
  obtain ⟨op, r⟩ := call
  cases op with
  | set id key value =>
    apply Runs.map
    exact (LocalCache.runs_set_put h).mono (fun _ _ hput => hput.2.quota) fun _ _ hfalse => hfalse
  | setExpire id key expire =>
    apply Runs.bind
    exact LocalCache.runs_setExpire_quota h expire r
  | remove id key =>
    apply Runs.map
    exact (LocalCache.runs_remove_put h le_rfl).mono (fun _ _ hput => hput.quota)
      fun _ _ hfalse => hfalse
  | get id key => exact fun _ => rfl
  | applyQuotas quotas => exact hkeeps.elim
  | clearExpired =>
    apply Runs.bind
    exact (LocalCache.runs_clearExpired_collected h r.first).mono (fun _ _ h' => h'.2.same.quota)
      fun _ _ hfalse => hfalse

/-! ## The bound -/

namespace Process

variable {p p' : Process}

structure Shared (p : Process) : Prop where
  accounted : p.cache.Accounted
  known : ∀ id, p.cache.quota id ≠ none → p.keeper.contracts.lookup id ≠ none
  within : (p.cache.storages.total fun _ s => s.maxSize) ≤ totalMemory

theorem shared_new (gcInterval defaultValueLifetime : ℕ) :
    Shared { cache := { gcInterval, defaultValueLifetime } } where
  accounted := nofun
  known := fun _ h => absurd rfl h
  within := Nat.zero_le _

theorem Shared.size_le (h : p.Shared) :
    (p.cache.storages.total fun _ s => s.size) ≤ totalMemory := by
  refine le_trans (AList.total_le_total fun id s hs => ?_) h.within
  exact ⟨s, hs, (h.accounted id s hs).size_le⟩

theorem Shared.insert (h : p.Shared) (id : Bytes) (weight : UInt32) (changed : Bool) :
    Shared { p with keeper := ⟨p.keeper.contracts.insert id weight, changed⟩ } := by
  refine ⟨h.accounted, fun id' hid' => ?_, h.within⟩
  by_cases heq : id' = id
  · rw [heq, AList.lookup_insert]
    nofun
  · rw [AList.lookup_insert_ne heq]
    exact h.known id' hid'

theorem total_maxSize_le {c c' : LocalCache} (h : ∀ id, c'.quota id = c.quota id) :
    (c'.storages.total fun _ s => s.maxSize) ≤ c.storages.total fun _ s => s.maxSize := by
  apply AList.total_le_total
  intro id s' hs'
  have hquota : (c.storages.lookup id).map Storage.maxSize = some s'.maxSize := by
    have hid := h id
    unfold LocalCache.quota at hid
    rw [← hid, hs']
    rfl
  obtain ⟨s, hs, hmax⟩ := Option.map_eq_some_iff.1 hquota
  exact ⟨s, hs, hmax.ge⟩

theorem runs_cache (h : p.Shared) {call : Call} (hkeeps : call.KeepsQuotas) :
    Runs (onCache do let _ ← call.run) p (fun _ p' => p'.Shared) (fun _ _ => False) := by
  apply Runs.focus
  apply Runs.bind
  refine ((Call.runs h.accounted call).and (Call.runs_quota h.accounted hkeeps)).mono ?_
    fun _ _ hfalse => hfalse.1
  rintro _ c' ⟨haccounted, hquota⟩
  refine ⟨haccounted, fun id hid => ?_, (total_maxSize_le hquota).trans h.within⟩
  rw [hquota id] at hid
  exact h.known id hid

theorem runs_applyLocalCacheQuotas (h : p.Shared) :
    Runs applyLocalCacheQuotas p (fun _ p' => p'.Shared) (fun _ _ => False) := by
  apply Runs.focus
  refine ((LocalCache.runs_applyQuotas h.accounted _).and
    (LocalCache.runs_calcCacheQuotas h.accounted p.keeper.contracts)).mono ?_
    fun _ _ hfalse => hfalse.1
  rintro _ c' ⟨haccounted, hquota⟩
  have hknown : ∀ id, c'.quota id ≠ none → p.keeper.contracts.lookup id ≠ none := by
    intro id hid hunknown
    rw [hquota id, hunknown] at hid
    exact h.known id hid hunknown
  refine ⟨haccounted, hknown, le_trans (AList.total_le_total fun id s hs => ?_)
    (total_contractQuota_le p.keeper.contracts)⟩
  have hs' : c'.quota id = some s.maxSize := by
    unfold LocalCache.quota
    rw [hs]
    rfl
  obtain ⟨weight, hweight⟩ := Option.ne_none_iff_exists'.1 (hknown id (by rw [hs']; nofun))
  refine ⟨weight, hweight, ?_⟩
  have hgranted := hquota id
  rw [hs', hweight] at hgranted
  unfold LocalCache.granted at hgranted
  dsimp only at hgranted
  split at hgranted
  · cases hgranted
  · exact (Option.some.inj hgranted).le

theorem Event.runs (h : p.Shared) (event : Event) :
    Runs event.run p (fun _ p' => p'.Shared) (fun _ _ => False) := by
  cases event with
  | insert id weight => exact h.insert id weight p.keeper.weightChanged
  | setContractWeight id weight =>
    apply Runs.when
    · exact fun _ => h.insert id weight true
    · exact fun _ => h
  | applyLocalCacheQuotas => exact runs_applyLocalCacheQuotas h
  | processBlock =>
    apply Runs.when
    · intro _
      exact runs_applyLocalCacheQuotas ⟨h.accounted, h.known, h.within⟩
    · exact fun _ => h
  | cache call => exact runs_cache h call.property

theorem memory_bounded (gcInterval defaultValueLifetime : ℕ) (events : List Event) :
    let p : Process := { cache := { gcInterval, defaultValueLifetime } }
    ((afterCalls Event.run p events).cache.storages.total fun _ s => s.size) ≤ totalMemory := by
  intro p
  have hshared : (afterCalls Event.run p events).Shared := by
    apply Runs.afterCalls (I := Shared) _ (shared_new gcInterval defaultValueLifetime)
      (throughout_of_forall (fun _ _ => trivial) p events)
    intro p event h _
    exact (Event.runs h event).mono (fun _ _ h' => h') fun _ _ hfalse => hfalse.elim
  exact hshared.size_le

end Process

end Cyrux.Cache
