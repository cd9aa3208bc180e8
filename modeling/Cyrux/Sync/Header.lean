import Cyrux.Lib.HashChain

/-!
# Headers

`crates/phactory/api/src/blocks.rs`
-/

namespace Cyrux.Sync

abbrev Bytes := List UInt8

abbrev AuthorityId := ℕ

abbrev AuthorityList := List (AuthorityId × ℕ)

structure AuthoritySet where
  list : AuthorityList
  id : ℕ
deriving DecidableEq

structure ScheduledChange where
  nextAuthorities : AuthorityList
  delay : ℕ
deriving DecidableEq

inductive ConsensusLog
  | scheduledChange (change : ScheduledChange)
  | forcedChange (median : ℕ) (change : ScheduledChange)
  | onDisabled (index : ℕ)
  | pause (delay : ℕ)
  | resume (delay : ℕ)
deriving DecidableEq

abbrev ConsensusEngineId := List UInt8

def GRANDPA_ENGINE_ID : ConsensusEngineId := [0x46, 0x52, 0x4e, 0x4b]

inductive DigestItem
  | preRuntime (engine : ConsensusEngineId) (data : Bytes)
  | consensus (engine : ConsensusEngineId) (data : Bytes)
  | seal (engine : ConsensusEngineId) (data : Bytes)
  | other (data : Bytes)
  | runtimeEnvironmentUpdated
deriving DecidableEq

structure Header (Hash : Type) where
  parentHash : Hash
  number : ℕ
  stateRoot : Hash
  extrinsicsRoot : Hash
  digest : List DigestItem
deriving DecidableEq

variable {Hash : Type}

def linkage (hash : Header Hash → Hash) : Linkage (Header Hash) Hash where
  hash := hash
  parent := Header.parentHash
  number := Header.number

section Digest

variable (decode : Bytes → Option ConsensusLog)

def DigestItem.consensusTryTo (engine : ConsensusEngineId) : DigestItem → Option ConsensusLog
  | .consensus e data => if e = engine then decode data else none
  | _ => none

def ConsensusLog.filterLog : ConsensusLog → Option ScheduledChange
  | .scheduledChange change => some change
  | _ => none

def findScheduledChange (header : Header Hash) : Option ScheduledChange :=
  header.digest.findSome? fun item =>
    (item.consensusTryTo decode GRANDPA_ENGINE_ID).bind ConsensusLog.filterLog

end Digest

end Cyrux.Sync
