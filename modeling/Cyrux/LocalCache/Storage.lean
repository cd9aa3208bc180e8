import Mathlib.Data.List.Sort
import Cyrux.Lib.Dict
import Cyrux.Lib.Machine
import Cyrux.Lib.Proc

/-!
# The local cache of contracts

`crates/pink/chain-extension/src/local_cache.rs`
-/

namespace Cyrux.Cache

open Proc

abbrev Bytes := List UInt8

structure StorageValue where
  expireAt : ℕ
  value : Bytes
  deriving DecidableEq

abbrev KVs := AList fun _ : Bytes => StorageValue

structure Storage where
  size : ℕ
  maxSize : ℕ
  kvs : KVs

structure StorageQuotaExceeded where
  deriving DecidableEq

inductive Fault
  | underflow
  deriving DecidableEq

def weigh (key : Bytes) (v : StorageValue) : ℕ := key.length + v.value.length

/-! ## One storage -/

namespace Storage

abbrev Program := Proc Storage Fault

def new (maxSize : ℕ) : Storage where
  size := 0
  maxSize := maxSize
  kvs := ∅

def shrink (n : ℕ) : Program Unit := do
  let s ← get
  ensure (n ≤ s.size) .underflow
  alter fun s => { s with size := s.size - n }

def byExpiration (entries : List (Σ _ : Bytes, StorageValue)) : List (Σ _ : Bytes, StorageValue) :=
  entries.mergeSort fun a b =>
    a.2.expireAt < b.2.expireAt ∨ a.2.expireAt = b.2.expireAt ∧ a.1 ≤ b.1

def keepIfFits (e : Σ _ : Bytes, StorageValue) : Program Unit := do
  let s ← get
  if s.size ≤ s.maxSize then
    alter fun s => { s with kvs := s.kvs.insert e.1 e.2 }
  else
    shrink (weigh e.1 e.2)

def fitSize : Program Unit := do
  let s ← get
  when (s.maxSize < s.size) do
    alter fun s => { s with kvs := ∅ }
    each keepIfFits (byExpiration s.kvs.entries)

def clearExpired (now : ℕ) : Program Unit := do
  let s ← get
  each (fun e => when (e.2.expireAt ≤ now) (shrink (weigh e.1 e.2))) s.kvs.entries
  alter fun s => { s with kvs := s.kvs.retain fun _ v => now < v.expireAt }

def remove (key : Bytes) : Program (Option Bytes) := do
  let s ← get
  alter fun s => { s with kvs := s.kvs.erase key }
  match s.kvs.lookup key with
  | none => pure none
  | some v => do
    shrink (weigh key v)
    pure (some v.value)

def set (key value : Bytes) (lifetime clearAt insertAt : ℕ) :
    Program (Except StorageQuotaExceeded Unit) := do
  let _ ← remove key
  let s ← get
  when (s.maxSize < s.size + (key.length + value.length)) (clearExpired clearAt)
  let s ← get
  -- If the new entry did fit before, it still does.
  if s.maxSize < s.size + (key.length + value.length) then
    pure (.error {})
  else do
    alter fun s => { s with
      size := s.size + (key.length + value.length)
      kvs := s.kvs.insert key ⟨Unsigned.saturatingAdd 64 insertAt lifetime, value⟩ }
    pure (.ok ())

end Storage

/-! ## The cache -/

structure LocalCache where
  gcInterval : ℕ := 1000
  setsSinceLastGc : ℕ := 0
  defaultValueLifetime : ℕ := 3600 * 24 * 7
  storages : AList fun _ : Bytes => Storage := ∅

structure Readings where
  first : ℕ
  second : ℕ
  third : ℕ
  first_le : first ≤ second
  second_le : second ≤ third

namespace LocalCache

abbrev Program := Proc LocalCache Fault

def onStorage {α : Type} (id : Bytes) (m : Storage.Program α) : Program (Option α) := fun c =>
  match c.storages.lookup id with
  | none => .ok none c
  | some storage =>
    match m storage with
    | .ok a storage => .ok (some a) { c with storages := c.storages.insert id storage }
    | .error e storage => .error e { c with storages := c.storages.insert id storage }

def clearExpired (now : ℕ) : Program Unit := do
  alter fun c => { c with setsSinceLastGc := 0 }
  let c ← get
  each (fun id => do let _ ← onStorage id (Storage.clearExpired now)) c.storages.keys

def maybeClearExpired (now : ℕ) : Program Unit := do
  alter fun c => { c with setsSinceLastGc := c.setsSinceLastGc + 1 }
  let c ← get
  when (c.setsSinceLastGc = c.gcInterval) (clearExpired now)

def entry (c : LocalCache) (id key : Bytes) : Option StorageValue :=
  (c.storages.lookup id).bind fun storage => storage.kvs.lookup key

def get (c : LocalCache) (id key : Bytes) (now : ℕ) : Option Bytes :=
  match c.entry id key with
  | none => none
  | some v => if v.expireAt ≤ now then none else some v.value

def set (id key value : Bytes) (r : Readings) : Program (Except StorageQuotaExceeded Unit) := do
  maybeClearExpired r.first
  let c ← MonadState.get
  let stored ← onStorage id (Storage.set key value c.defaultValueLifetime r.second r.third)
  pure (stored.getD (.error {}))

def remove (id key : Bytes) (now : ℕ) : Program (Option Bytes) := do
  maybeClearExpired now
  let removed ← onStorage id (Storage.remove key)
  pure removed.join

def renew (key : Bytes) (v : StorageValue) (expireAt : ℕ) : Storage.Program Unit :=
  alter fun s => { s with kvs := s.kvs.insert key { v with expireAt := expireAt } }

def setExpire (id key : Bytes) (expire : ℕ) (r : Readings) : Program Unit := do
  maybeClearExpired r.first
  let c ← MonadState.get
  if expire = 0 then do
    let _ ← remove id key r.second
  else
    match c.entry id key with
    | none => pure ()
    | some v =>
      if r.second ≤ v.expireAt then do
        let _ ← onStorage id (renew key v (Unsigned.saturatingAdd 64 r.second expire))
      else do
        let _ ← remove id key r.third

def applyQuota (contract : Bytes) (maxSize : ℕ) : Program Unit := do
  let c ← MonadState.get
  if maxSize = 0 then
    alter fun c => { c with storages := c.storages.erase contract }
  else if (c.storages.lookup contract).isSome then do
    let _ ← onStorage contract do
      alter fun s => { s with maxSize := maxSize }
      Storage.fitSize
  else
    alter fun c => { c with storages := c.storages.insert contract (Storage.new maxSize) }

def applyQuotas (quotas : List (Bytes × ℕ)) : Program Unit :=
  each (fun quota => applyQuota quota.1 quota.2) quotas

end LocalCache

/-! ## Calls -/

inductive Op
  | set (id key value : Bytes)
  | setExpire (id key : Bytes) (expire : ℕ)
  | remove (id key : Bytes)
  | get (id key : Bytes)
  | applyQuotas (quotas : List (Bytes × ℕ))
  | clearExpired
  deriving DecidableEq

inductive Reply
  | done
  | found (value : Option Bytes)
  | stored (result : Except StorageQuotaExceeded Unit)
  deriving DecidableEq

structure Call where
  op : Op
  readings : Readings

def Call.run (call : Call) : LocalCache.Program Reply :=
  match call.op with
  | .set id key value => Reply.stored <$> LocalCache.set id key value call.readings
  | .setExpire id key expire => do
    LocalCache.setExpire id key expire call.readings
    pure .done
  | .remove id key => Reply.found <$> LocalCache.remove id key call.readings.first
  | .get id key => do
    let c ← get
    pure (.found (c.get id key call.readings.first))
  | .applyQuotas quotas => do
    LocalCache.applyQuotas quotas
    pure .done
  | .clearExpired => do
    LocalCache.clearExpired call.readings.first
    pure .done

end Cyrux.Cache
