import Cyrux.Lib.Exec
import Mathlib.Data.List.Infix
import Mathlib.Logic.Function.Basic

/-!
# The rollup anchor

`pallets/offchain-rollup/src/anchor.rs`
-/

namespace Cyrux.Rollup

open Exec

abbrev Bytes := List UInt8

abbrev Key := Bytes

abbrev Value := Bytes

abbrev Name := ℕ

abbrev AccountId := ℕ

structure Layout where
  queuePrefix : Bytes
  keyPostfix : Bytes
  separate : ∀ key : Key, queuePrefix <+: key ++ keyPostfix → queuePrefix <+: key

inductive Action
  | reply (data : Bytes)
  | setQueueHead (head : ℕ)
deriving DecidableEq

def headIndex : Bytes := [0x5f, 0x68, 0x65, 0x61, 0x64]

def tailIndex : Bytes := [0x5f, 0x74, 0x61, 0x69, 0x6c]

structure Config where
  layout : Layout
  queueCapacity : ℕ
  encodeIndex : ℕ → Bytes
  decodeIndex : Bytes → Option ℕ
  decode_encodeIndex : ∀ n, decodeIndex (encodeIndex n) = some n
  encodeIndex_ne_head : ∀ n, encodeIndex n ≠ headIndex
  encodeIndex_ne_tail : ∀ n, encodeIndex n ≠ tailIndex
  encodeAction : Action → Bytes
  decodeAction : Bytes → Option Action
  decode_encodeAction : ∀ a, decodeAction (encodeAction a) = some a
  /-- Whether the handler accepts a reply. -/
  onResponse : Name → AccountId → Bytes → Bool

inductive Cond
  | eq (key : Key) (value : Option Value)
deriving DecidableEq

structure RollupTx where
  conds : List Cond := []
  actions : List Bytes := []
  updates : List (Key × Option Value) := []

inductive AnchorError
  | nameAlreadyClaimed
  | nameNotExist
  | notOwner
  | condNotMet
  | failedToDecodeAction
  | queueIsFull
  | invalidQueueHead
  | onResponse
deriving DecidableEq

inductive Fault
  | error (e : AnchorError)
  | panic (message : String)
deriving DecidableEq

abbrev Store := Key → Option Value

structure Anchor where
  submitterByNames : Name → Option AccountId := fun _ => none
  states : Name → Store := fun _ _ => none

/-! ## The queue of a store -/

namespace Store

variable (cfg : Config)

def queueKey (index : Bytes) : Key := cfg.layout.queuePrefix ++ index

def entryKey (i : ℕ) : Key := queueKey cfg (cfg.encodeIndex i)

def queueSet (s : Store) (index : Bytes) (data : Value) : Store :=
  Function.update s (queueKey cfg index) (some data)

def queueGet (s : Store) (index : Bytes) : Option Value := s (queueKey cfg index)

def queueRemove (s : Store) (index : Bytes) : Store := Function.update s (queueKey cfg index) none

def queueGetU32 (s : Store) (index : Bytes) : Option ℕ :=
  match s.queueGet cfg index with
  | none => some 0
  | some bytes => cfg.decodeIndex bytes

def queueSetU32 (s : Store) (index : Bytes) (value : ℕ) : Store :=
  s.queueSet cfg index (cfg.encodeIndex value)

def removeEntries (s : Store) (head : ℕ) : ℕ → Store
  | 0 => s
  | n + 1 => (removeEntries s head n).queueRemove cfg (cfg.encodeIndex (head + n))

def applyUpdates (s : Store) (updates : List (Key × Option Value)) : Store :=
  updates.foldl (fun s u => Function.update s u.1 u.2) s

end Store

/-! ## The pallet -/

namespace Anchor

variable (cfg : Config)

def modifyStore (a : Anchor) (name : Name) (f : Store → Store) : Anchor :=
  { a with states := Function.update a.states name (f (a.states name)) }

def claimName (who : AccountId) (name : Name) : Exec Anchor Fault Unit := do
  let a ← get
  ensure (a.submitterByNames name = none) (.error .nameAlreadyClaimed)
  alter fun a => { a with submitterByNames := Function.update a.submitterByNames name (some who) }

def ensureNameOwner (name : Name) (caller : AccountId) : Exec Anchor Fault Unit := do
  let a ← get
  let owner ← demand (a.submitterByNames name) (.error .nameNotExist)
  ensure (owner = caller) (.error .notOwner)

def queueHead (name : Name) : Exec Anchor Fault ℕ := do
  let a ← get
  demand ((a.states name).queueGetU32 cfg headIndex) (.panic "BUG: Failed to decode queue head")

def queueTail (name : Name) : Exec Anchor Fault ℕ := do
  let a ← get
  demand ((a.states name).queueGetU32 cfg tailIndex) (.panic "BUG: Failed to decode queue tail")

def queueLen (name : Name) : Exec Anchor Fault ℕ := do
  let tail ← queueTail cfg name
  let head ← queueHead cfg name
  pure (tail - head)

def pushMessage (name : Name) (data : Value) : Exec Anchor Fault ℕ := do
  let a ← get
  ensure (a.submitterByNames name ≠ none) (.error .nameNotExist)
  let len ← queueLen cfg name
  ensure (len < cfg.queueCapacity) (.error .queueIsFull)
  let tail ← queueTail cfg name
  alter fun a => a.modifyStore name fun s =>
    (s.queueSet cfg (cfg.encodeIndex tail) data).queueSetU32 cfg tailIndex (tail + 1)
  pure tail

def queueHeadSet (name : Name) (index : ℕ) : Exec Anchor Fault Unit := do
  let head ← queueHead cfg name
  let tail ← queueTail cfg name
  ensure (head ≤ index ∧ index ≤ tail) (.error .invalidQueueHead)
  alter fun a => a.modifyStore name fun s =>
    (s.removeEntries cfg head (index - head)).queueSetU32 cfg headIndex index

def checkCond (name : Name) (cond : Cond) : Exec Anchor Fault Unit := do
  let a ← get
  match cond with
  | .eq key value => ensure (a.states name key = value) (.error .condNotMet)

def execAction (who : AccountId) (name : Name) (raw : Bytes) : Exec Anchor Fault Unit := do
  let action ← demand (cfg.decodeAction raw) (.error .failedToDecodeAction)
  match action with
  | .reply data => ensure (cfg.onResponse name who data = true) (.error .onResponse)
  | .setQueueHead head => queueHeadSet cfg name head

def rollup (who : AccountId) (name : Name) (tx : RollupTx) : Exec Anchor Fault Unit := do
  ensureNameOwner name who
  each (checkCond name) tx.conds
  alter fun a => a.modifyStore name fun s => s.applyUpdates tx.updates
  each (execAction cfg who name) tx.actions

end Anchor

/-! ## An instance -/

def mockLayout : Layout where
  queuePrefix := [0x5f, 0x71, 0x75, 0x65, 0x75, 0x65, 0x2f]
  keyPostfix := [0x5f, 0x76, 0x65, 0x72]
  separate key h := by
    by_cases hlen : 7 ≤ key.length
    · exact List.prefix_of_prefix_length_le h (List.prefix_append _ _) hlen
    · -- a shorter key is a part of the queue prefix
      have hkey := List.prefix_of_prefix_length_le (List.prefix_append key _) h
        (show key.length ≤ 7 by omega)
      rw [List.prefix_iff_eq_take.1 hkey] at h
      have hshort : key.length < 7 := by omega
      refine absurd h ?_
      generalize key.length = n at hshort
      revert n
      decide

def mockConfig : Config where
  layout := mockLayout
  queueCapacity := 2
  encodeIndex n := List.replicate n 0 ++ [1]
  decodeIndex bytes := if bytes = [] then none else some (bytes.length - 1)
  decode_encodeIndex n := by simp
  encodeIndex_ne_head n h := by
    have := congrArg List.getLast? h
    simp [headIndex] at this
  encodeIndex_ne_tail n h := by
    have := congrArg List.getLast? h
    simp [tailIndex] at this
  encodeAction
    | .reply data => 0 :: data
    | .setQueueHead head => 1 :: List.replicate head 0
  decodeAction
    | 0 :: data => some (.reply data)
    | 1 :: head => some (.setQueueHead head.length)
    | _ => none
  decode_encodeAction a := by cases a <;> simp
  onResponse _ _ _ := true

end Cyrux.Rollup
