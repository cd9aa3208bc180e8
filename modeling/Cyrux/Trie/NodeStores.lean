import Cyrux.Lib.RefCount

/-!
# The stores of trie nodes

`crates/cyrux-trie-storage/src/memdb.rs`
-/

namespace Cyrux.Trie

open RefCount

abbrev Bytes := List UInt8

abbrev Hash := { bytes : Bytes // bytes.length = 32 }

abbrev Prefix := Bytes × Option UInt8

/-! ## Keys -/

abbrev PrefixedKey := { key : Bytes // 32 ≤ key.length }

def prefixedKey (h : Hash) (p : Prefix) : PrefixedKey :=
  ⟨p.1 ++ p.2.toList ++ h.val, by rw [List.length_append, h.property]; exact Nat.le_add_left _ _⟩

def PrefixedKey.hash (key : PrefixedKey) : Hash :=
  ⟨key.val.drop (key.val.length - 32), by
    rw [List.length_drop]
    exact Nat.sub_sub_self key.property⟩

structure Change where
  key : PrefixedKey
  value : Bytes
  rc : ℤ

abbrev BackendTransaction := List Change

/-! ## The store in memory -/

structure MemoryDB where
  data : AList fun _ : Hash => Counted Bytes := ∅
  hashedNullNode : Hash
  nullNodeData : Bytes

def hashKey (key : Hash) (_p : Prefix) : Hash := key

namespace MemoryDB

section Hashing

variable (hash : Bytes → Hash)

def fromNullNode (nullKey nullNodeData : Bytes) : MemoryDB :=
  { hashedNullNode := hash nullKey, nullNodeData }

def new (data : Bytes) : MemoryDB := fromNullNode hash data data

end Hashing

def get (db : MemoryDB) (key : Hash) (p : Prefix) : Option Bytes :=
  if key = db.hashedNullNode then some db.nullNodeData
  else match db.data.lookup (hashKey key p) with
    | some e => if 0 < e.count then some e.value else none
    | none => none

def emplace (db : MemoryDB) (key : Hash) (p : Prefix) (value : Bytes) : MemoryDB :=
  if value = db.nullNodeData then db
  else { db with data := db.data.alter (hashKey key p) fun
    | some e => adjust 32 (e.count ≤ 0) value 1 e
    | none => some ⟨value, 1⟩ }

def insert (hash : Bytes → Hash) (db : MemoryDB) (p : Prefix) (value : Bytes) : Hash × MemoryDB :=
  if value = db.nullNodeData then (db.hashedNullNode, db)
  else (hash value, db.emplace (hash value) p value)

def remove (db : MemoryDB) (key : Hash) (p : Prefix) : MemoryDB :=
  if key = db.hashedNullNode then db
  else { db with data := db.data.alter (hashKey key p) fun
    | some e => adjust 32 false e.value (-1) e
    | none => some ⟨[], -1⟩ }

def consolidateEntry (db : MemoryDB) (change : Change) : MemoryDB :=
  { db with data := db.data.alter change.key.hash fun
    | some e => adjust 32 (e.count < 0) change.value change.rc e
    | none => some ⟨change.value, change.rc⟩ }

def consolidate (db : MemoryDB) (other : BackendTransaction) : MemoryDB :=
  other.foldl consolidateEntry db

end MemoryDB

inductive Op
  | insert (p : Prefix) (value : Bytes)
  | emplace (key : Hash) (p : Prefix) (value : Bytes)
  | remove (key : Hash) (p : Prefix)
  | consolidate (other : BackendTransaction)

def Op.run (hash : Bytes → Hash) (db : MemoryDB) : Op → MemoryDB
  | .insert p value => (db.insert hash p value).2
  | .emplace key p value => db.emplace key p value
  | .remove key p => db.remove key p
  | .consolidate other => db.consolidate other

def afterOps (hash : Bytes → Hash) (db : MemoryDB) (ops : List Op) : MemoryDB :=
  ops.foldl (Op.run hash) db

/-! ## The store of a cluster -/

structure ClusterStorage where
  root : Option Hash := none
  kvStore : AList fun _ : Bytes => Counted Bytes := ∅

namespace ClusterStorage

def setRoot (s : ClusterStorage) (root : Hash) : ClusterStorage := { s with root := some root }

def get (s : ClusterStorage) (key : Bytes) : Option (Counted Bytes) := s.kvStore.lookup key

def update (s : ClusterStorage) (key value : Bytes) (rc : ℤ) : ClusterStorage :=
  if rc = 0 then s
  else { s with kvStore := s.kvStore.alter key fun
    | some e => adjust 32 (0 < rc) value rc e
    | none => some ⟨value, rc⟩ }

def commit (s : ClusterStorage) (root : Hash) (changes : List (Bytes × Bytes × ℤ)) :
    ClusterStorage :=
  (changes.foldl (fun s change => s.update change.1 change.2.1 change.2.2) s).setRoot root

def commitTransaction (s : ClusterStorage) (root : Hash) (transaction : BackendTransaction) :
    ClusterStorage :=
  s.commit root (transaction.map fun change => (change.key.hash.val, change.value, change.rc))

end ClusterStorage

def afterCommits (s : ClusterStorage) (commits : List (Hash × BackendTransaction)) :
    ClusterStorage :=
  commits.foldl (fun s commit => s.commitTransaction commit.1 commit.2) s

end Cyrux.Trie
