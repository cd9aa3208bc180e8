import Mathlib
import Cyrux.Lib.Proc
import Cyrux.Sync.Header

/-!
# The storage synchronizers

`crates/phactory/api/src/storage_sync.rs`
-/

namespace Cyrux.Sync

/-! ## Data -/

inductive Error (Hash : Type)
  | emptyRequest
  | missingJustification
  | headerValidateFailed (reason : String)
  | storageProofFailed (reason : String)
  | relaychainHeaderNotSynced
  | headerHashMismatch
  | blockNumberMismatch
  | noStateRoot
  | stateRootMismatch (block : ℕ) (expected actual : Hash)
  | chainModeMismatch
  | cannotLoadStateAfterSyncing
  /-- The panic of an `unwrap`. -/
  | unwrapFailed
deriving DecidableEq

abbrev StorageProof := List Bytes

abbrev StorageCollection := List (Bytes × Option Bytes)

structure StorageChanges where
  mainStorageChanges : StorageCollection
  childStorageChanges : List (Bytes × StorageCollection)

structure HeaderToSync (Hash : Type) where
  header : Header Hash
  justification : Option Bytes

structure BlockHeaderWithChanges (Hash : Type) where
  blockHeader : Header Hash
  storageChanges : StorageChanges

structure Externals (Hash V DB Tx : Type) where
  hash : Header Hash → Hash
  encode : Header Hash → Bytes
  submitFinalizedHeaders :
    V → (bridge : ℕ) → Header Hash → (ancestry : List (Header Hash)) → (grandpa : Bytes) →
      Except String Unit × V
  validateStorageProof :
    V → (stateRoot : Hash) → StorageProof → (items : List (Bytes × Bytes)) → Except String Unit
  fullStorageRoot : DB → Hash → StorageChanges → Hash × Tx
  consolidate : DB → Tx → DB

structure TrieStorage (Hash DB : Type) where
  storage : DB
  root : Hash

variable {Hash V DB Tx : Type}

namespace TrieStorage

variable (X : Externals Hash V DB Tx)

def calcRootIfChanges (s : TrieStorage Hash DB) (changes : StorageChanges) : Hash × Tx :=
  X.fullStorageRoot s.storage s.root changes

def applyChanges (s : TrieStorage Hash DB) (root : Hash) (transaction : Tx) :
    TrieStorage Hash DB :=
  { storage := X.consolidate s.storage transaction, root := root }

def setRoot (s : TrieStorage Hash DB) (root : Hash) : TrieStorage Hash DB := { s with root := root }

end TrieStorage

def wrappingPred (n : ℕ) : ℕ := if n = 0 then 2 ^ 32 - 1 else n - 1

/-! ## The state shared by both synchronizers -/

structure BlockSyncState (V : Type) where
  validator : V
  mainBridge : ℕ
  /-- The next block number of header to be synced. -/
  headerNumberNext : ℕ
  /-- The next block number of storage to be synced. -/
  blockNumberNext : ℕ
  genesisStateValidated : Bool

def BlockSyncState.new (validator : V) (mainBridge : ℕ)
    (headerNumberNext blockNumberNext : ℕ) : BlockSyncState V where
  validator := validator
  mainBridge := mainBridge
  headerNumberNext := headerNumberNext
  blockNumberNext := blockNumberNext
  genesisStateValidated := false

structure SyncQueue (V Hash : Type) where
  syncState : BlockSyncState V
  stateRoots : List Hash

namespace BlockSyncState

open Proc

variable [DecidableEq Hash] (X : Externals Hash V DB Tx)

def submitFinalizedHeaders (header : Header Hash) (ancestryProof : List (Header Hash))
    (grandpaProof : Bytes) : Proc (SyncQueue V Hash) (Error Hash) Unit := do
  let self ← get
  let s := self.syncState
  let r := X.submitFinalizedHeaders s.validator s.mainBridge header ancestryProof grandpaProof
  alter fun self => { self with syncState := { self.syncState with validator := r.2 } }
  match r.1 with
  | .ok () => pure ()
  | .error reason => throw (.headerValidateFailed reason)

def syncHeader (headers : List (HeaderToSync Hash)) (skipBlocksBelow : ℕ) :
    Proc (SyncQueue V Hash) (Error Hash) ℕ := do
  let self ← get
  let next := self.syncState.headerNumberNext
  let headers := headers.filter fun h => next ≤ h.header.number
  match headers with
  | [] => pure (wrappingPred next)
  | firstHeader :: _ =>
    ensure (firstHeader.header.number = next) .blockNumberMismatch
    let lastHeader ← demand headers.getLast? .emptyRequest
    -- the last header must have a justification
    let justification ← demand lastHeader.justification .missingJustification
    -- the headers must be in sequence
    ensure ((linkage X.hash).Linked (headers.map HeaderToSync.header)) .headerHashMismatch
    -- from high to low
    let ancestorProof := (headers.dropLast.map HeaderToSync.header).reverse
    submitFinalizedHeaders X lastHeader.header ancestorProof justification
    alter fun self =>
      { syncState := { self.syncState with headerNumberNext := lastHeader.header.number + 1 }
        stateRoots := self.stateRoots ++
          ((headers.map HeaderToSync.header).filter fun h => skipBlocksBelow ≤ h.number).map
            Header.stateRoot }
    pure lastHeader.header.number

def dropBlock : Proc (SyncQueue V Hash × TrieStorage Hash DB) (Error Hash) Unit := do
  alter fun (self, storage) =>
    ({ self with syncState :=
        { self.syncState with blockNumberNext := self.syncState.blockNumberNext + 1 } }, storage)
  let (self, _) ← get
  let root ← demand self.stateRoots.head? .noStateRoot
  alter fun (self, storage) =>
    ({ self with stateRoots := self.stateRoots.tail }, storage.setRoot root)

def validateGenesisState : Proc (SyncQueue V Hash × TrieStorage Hash DB) (Error Hash) Unit := do
  let (self, storage) ← get
  let genesisStateRoot ← demand self.stateRoots.head? .noStateRoot
  ensure (storage.root = genesisStateRoot)
    (.stateRootMismatch (wrappingPred self.syncState.blockNumberNext) genesisStateRoot storage.root)
  alter fun (self, storage) =>
    ({ syncState := { self.syncState with genesisStateValidated := true }
       stateRoots := self.stateRoots.tail }, storage)

def applyBlock (block : BlockHeaderWithChanges Hash) :
    Proc (SyncQueue V Hash × TrieStorage Hash DB) (Error Hash) Unit := do
  let (self, storage) ← get
  let expectedRoot ← demand self.stateRoots.head? .noStateRoot
  let r := storage.calcRootIfChanges X block.storageChanges
  ensure (expectedRoot = r.1) (.stateRootMismatch block.blockHeader.number expectedRoot r.1)
  alter fun (self, storage) =>
    ({ syncState := { self.syncState with blockNumberNext := self.syncState.blockNumberNext + 1 }
       stateRoots := self.stateRoots.tail }, storage.applyChanges X r.1 r.2)

def feedBlock (block : BlockHeaderWithChanges Hash) (dropProofs : Bool) :
    Proc (SyncQueue V Hash × TrieStorage Hash DB) (Error Hash) Unit := do
  let (self, _) ← get
  ensure (block.blockHeader.number = self.syncState.blockNumberNext) .blockNumberMismatch
  if dropProofs then
    dropBlock
  else
    if self.syncState.genesisStateValidated = false then
      validateGenesisState
    applyBlock X block

end BlockSyncState

/-! ## The synchronizer of a solochain -/

abbrev SolochainSynchronizer (V Hash : Type) := SyncQueue V Hash

namespace SolochainSynchronizer

open Proc

def new (validator : V) (mainBridge : ℕ) : SolochainSynchronizer V Hash where
  syncState := .new validator mainBridge 0 1
  stateRoots := []

variable [DecidableEq Hash] (X : Externals Hash V DB Tx)

def syncHeader (headers : List (HeaderToSync Hash)) :
    Proc (SolochainSynchronizer V Hash) (Error Hash) ℕ := do
  let self ← get
  -- `checked_sub(1).unwrap()`
  ensure (1 ≤ self.syncState.blockNumberNext) .unwrapFailed
  BlockSyncState.syncHeader X headers (self.syncState.blockNumberNext - 1)

def feedBlock (block : BlockHeaderWithChanges Hash) (dropProofs : Bool) :
    Proc (SolochainSynchronizer V Hash × TrieStorage Hash DB) (Error Hash) Unit :=
  BlockSyncState.feedBlock X block dropProofs

omit [DecidableEq Hash] in
def syncParachainHeader (_headers : List (Header Hash)) (_proof : StorageProof)
    (_storageKey : Bytes) : Proc (SolochainSynchronizer V Hash) (Error Hash) ℕ :=
  throw .chainModeMismatch

def assumeAtBlock (blockNumber : ℕ) :
    Proc (SolochainSynchronizer V Hash) (Error Hash) Unit := do
  let self ← get
  ensure (¬ (self.syncState.blockNumberNext > 1 ∨ self.syncState.headerNumberNext > 0))
    .cannotLoadStateAfterSyncing
  alter fun self =>
    { self with syncState := { self.syncState with blockNumberNext := blockNumber + 1 } }

end SolochainSynchronizer

/-! ## The synchronizer of a parachain -/

structure ParachainSynchronizer (V Hash : Type) where
  syncState : BlockSyncState V
  lastRelaychainStateRoot : Option Hash
  paraHeaderNumberNext : ℕ
  paraStateRoots : List Hash

namespace ParachainSynchronizer

open Proc

def new (validator : V) (mainBridge : ℕ) (headernumNext : ℕ) :
    ParachainSynchronizer V Hash where
  syncState := .new validator mainBridge headernumNext 1
  lastRelaychainStateRoot := none
  paraHeaderNumberNext := 0
  paraStateRoots := []

variable [DecidableEq Hash] (X : Externals Hash V DB Tx)

def syncHeader (headers : List (HeaderToSync Hash)) :
    Proc (ParachainSynchronizer V Hash) (Error Hash) ℕ := do
  let (lastHeader, stateRoots) ← focus
    (fun self => ⟨self.syncState, []⟩) (fun q self => { self with syncState := q.syncState })
    (do
      let lastHeader ← BlockSyncState.syncHeader X headers 0
      let q ← get
      pure (lastHeader, q.stateRoots))
  -- the last state root is not overwritten if there are no headers
  alter fun self => { self with
    lastRelaychainStateRoot := stateRoots.getLast?.or self.lastRelaychainStateRoot }
  pure lastHeader

def syncParachainHeader (headers : List (Header Hash)) (proof : StorageProof)
    (storageKey : Bytes) : Proc (ParachainSynchronizer V Hash) (Error Hash) ℕ := do
  let self ← get
  let next := self.paraHeaderNumberNext
  let headers := headers.filter fun h => next ≤ h.number
  match headers with
  | [] => pure (wrappingPred next)
  | firstHdr :: _ =>
    ensure (next = firstHdr.number) .blockNumberMismatch
    let lastHdr ← demand headers.getLast? .emptyRequest
    let stateRoot ← demand self.lastRelaychainStateRoot .relaychainHeaderNotSynced
    match X.validateStorageProof self.syncState.validator stateRoot proof
      [(storageKey, X.encode lastHdr)] with
    | .error reason => throw (.storageProofFailed reason)
    | .ok () =>
      ensure ((linkage X.hash).Linked headers) .headerHashMismatch
      alter fun self => { self with
        paraStateRoots := self.paraStateRoots ++ headers.map Header.stateRoot
        lastRelaychainStateRoot := none
        paraHeaderNumberNext := lastHdr.number + 1 }
      pure lastHdr.number

def feedBlock (block : BlockHeaderWithChanges Hash) (dropProofs : Bool) :
    Proc (ParachainSynchronizer V Hash × TrieStorage Hash DB) (Error Hash) Unit :=
  focus (fun (self, storage) => (⟨self.syncState, self.paraStateRoots⟩, storage))
    (fun (q, storage) (self, _) =>
      ({ self with syncState := q.syncState, paraStateRoots := q.stateRoots }, storage))
    (BlockSyncState.feedBlock X block dropProofs)

def assumeAtBlock (blockNumber : ℕ) :
    Proc (ParachainSynchronizer V Hash) (Error Hash) Unit := do
  let self ← get
  ensure (¬ (self.syncState.blockNumberNext > 1 ∨ self.paraHeaderNumberNext > 1))
    .cannotLoadStateAfterSyncing
  alter fun self => { self with
    syncState := { self.syncState with blockNumberNext := blockNumber + 1 }
    paraHeaderNumberNext := blockNumber }

end ParachainSynchronizer

end Cyrux.Sync
