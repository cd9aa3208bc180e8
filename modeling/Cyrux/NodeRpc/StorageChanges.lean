import Cyrux.Lib.Proc
import Mathlib

/-!
# Storage changes of a range of blocks

`crates/cyrux-node-rpc-ext/src/storage_changes.rs`
-/

namespace Cyrux.NodeRpc

open Proc

variable {Hash : Type} [DecidableEq Hash]

/-! ## Blocks -/

abbrev Bytes := List UInt8

inductive DigestItem
  | seal (data : Bytes)
  | other (data : Bytes)
deriving DecidableEq

def DigestItem.isSeal : DigestItem → Bool
  | .seal _ => true
  | .other _ => false

structure Header (Hash : Type) where
  number : ℕ
  parentHash : Hash
  digest : List DigestItem

structure BlockTree (Hash : Type) where
  header : Hash → Except String (Option (Header Hash))
  parent_number : ∀ {hash h p}, header hash = .ok (some h) → header h.parentHash = .ok (some p) →
    p.number + 1 = h.number

namespace BlockTree

variable (tree : BlockTree Hash)

def depth (hash : Hash) : ℕ :=
  match tree.header hash with
  | .ok (some h) => h.number + 1
  | _ => 0

omit [DecidableEq Hash] in
theorem depth_parent_lt {hash : Hash} {h : Header Hash} (known : tree.header hash = .ok (some h)) :
    tree.depth h.parentHash < tree.depth hash := by
  unfold depth
  rw [known]
  split
  · rename_i p hp
    have hnumber := tree.parent_number known hp
    omega
  · omega

inductive Descends (ancestor : Hash) : Hash → Prop
  | self {h} (known : tree.header ancestor = .ok (some h)) : Descends ancestor ancestor
  | child {hash h} (known : tree.header hash = .ok (some h))
      (parent : Descends ancestor h.parentHash) : Descends ancestor hash

inductive Path (first : Hash) : Hash → List (Hash × Header Hash) → Prop
  | self {h} (known : tree.header first = .ok (some h)) : Path first first [(first, h)]
  | child {hash h blocks} (known : tree.header hash = .ok (some h))
      (parent : Path first h.parentHash blocks) : Path first hash (blocks ++ [(hash, h)])

end BlockTree

/-! ## The request -/

inductive Error (Hash : Type)
  | invalidBlockRange (fromHash : Hash) (nFrom : ℕ) (toHash : Hash) (nTo : ℕ)
  | resourceLimited (reason : String)
  | invalidBlock (id : Hash) (error : String)

structure StorageChanges where
  mainStorageChanges : List (Bytes × Option Bytes)
  childStorageChanges : List (Bytes × List (Bytes × Option Bytes))

structure StorageChangesWithRoot where
  changes : StorageChanges
  stateRoot : Bytes

structure Node (Hash State Body Overlay : Type) where
  tree : BlockTree Hash
  stateAt : Hash → Except String State
  pairs : State → List (Bytes × Bytes)
  storageRoot : State → Bytes
  blockBody : Hash → Except String (Option Body)
  executeBlock : Hash → Header Hash → Body → Except String Overlay
  intoStorageChanges : Overlay → State → Hash → Except String StorageChanges

def maxNumberOfBlocks : ℕ := 10000

def BlockTree.load (tree : BlockTree Hash) (hash : Hash) :
    Proc ℕ (Error Hash) {h : Header Hash // tree.header hash = .ok (some h)} := do
  alter (· + 1)
  match known : tree.header hash with
  | .error e => throw (.invalidBlock hash e)
  | .ok none => throw (.invalidBlock hash "header not found")
  | .ok (some h) => pure ⟨h, known⟩

def BlockTree.walk (tree : BlockTree Hash) (fromHash thisBlock : Hash)
    (headers : List (Hash × Header Hash)) : Proc ℕ (Error Hash) (List (Hash × Header Hash)) := do
  let ⟨header, _⟩ ← tree.load thisBlock
  let headers := (thisBlock, header) :: headers
  if thisBlock = fromHash then
    return headers
  tree.walk fromHash header.parentHash headers
termination_by tree.depth thisBlock
decreasing_by exact tree.depth_parent_lt ‹_›

section

variable {State Body Overlay : Type} (node : Node Hash State Body Overlay) (withRoots : Bool)

def Node.stateRoot (state : State) : Bytes := if withRoots then node.storageRoot state else []

def invalidBlock {α : Type} (id : Hash) (r : Except String α) : Except (Error Hash) α :=
  r.mapError (.invalidBlock id)

def Node.changesOf (block : Hash × Header Hash) : Except (Error Hash) StorageChangesWithRoot := do
  let (hash, header) := block
  if header.number = 0 then
    let state ← invalidBlock hash (node.stateAt hash)
    return {
      changes := {
        mainStorageChanges := (node.pairs state).map fun (k, v) => (k, some v)
        childStorageChanges := [] }
      stateRoot := node.stateRoot withRoots state }
  let body ← invalidBlock hash (node.blockBody hash)
  match body with
  | none => throw (.invalidBlock hash "block body not found")
  | some extrinsics =>
    let parentHash := header.parentHash
    let header := { header with digest := header.digest.filter fun d => !d.isSeal }
    let api ← invalidBlock hash (node.executeBlock parentHash header extrinsics)
    let state ← invalidBlock parentHash (node.stateAt hash)
    let changes ← invalidBlock parentHash (node.intoStorageChanges api state parentHash)
    return { changes, stateRoot := node.stateRoot withRoots state }

def Node.collect (headers : List (Hash × Header Hash)) :
    Proc ℕ (Error Hash) (List StorageChangesWithRoot) :=
  match headers.mapM (node.changesOf withRoots) with
  | .ok changes => pure changes
  | .error e => throw e

def Node.getStorageChanges (fromHash toHash : Hash) :
    Proc ℕ (Error Hash) (List StorageChangesWithRoot) := do
  let nFrom := (← node.tree.load fromHash).1.number
  let nTo := (← node.tree.load toHash).1.number
  ensure (nFrom ≤ nTo) (.invalidBlockRange fromHash nFrom toHash nTo)
  ensure (nTo - nFrom ≤ maxNumberOfBlocks) (.resourceLimited "Too large number of blocks")
  let headers ← node.tree.walk fromHash toHash []
  node.collect withRoots headers

end

/-! ## The walk -/

namespace BlockTree

variable {tree : BlockTree Hash} {fromHash toHash : Hash}

omit [DecidableEq Hash] in
theorem runs_load {hash : Hash} {loads : ℕ} {E : Error Hash → ℕ → Prop}
    {Q : {h : Header Hash // tree.header hash = .ok (some h)} → ℕ → Prop}
    (found : ∀ h known, Q ⟨h, known⟩ (loads + 1))
    (missing : ∀ e, (∀ h, tree.header hash ≠ .ok (some h)) → E e (loads + 1)) :
    Runs (tree.load hash) loads Q E := by
  apply Runs.alter_bind
  split
  · rename_i e h
    exact missing _ fun _ known => by rw [h] at known; cases known
  · rename_i h
    exact missing _ fun _ known => by rw [h] at known; cases known
  · exact found _ _

section

variable {hash : Hash} {header : Header Hash} {loads : ℕ} {headers : List (Hash × Header Hash)}
variable {Q : List (Hash × Header Hash) → ℕ → Prop} {E : Error Hash → ℕ → Prop}

omit [DecidableEq Hash] in
theorem runs_load_known {Q : {h : Header Hash // tree.header hash = .ok (some h)} → ℕ → Prop}
    (known : tree.header hash = .ok (some header)) (h : Q ⟨header, known⟩ (loads + 1)) :
    Runs (tree.load hash) loads Q E := by
  apply runs_load
  · intro header' known'
    obtain rfl : header = header' := by
      rw [known] at known'
      cases known'
      rfl
    exact h
  · exact fun _ unknown => absurd known (unknown _)

theorem runs_walk_self (known : tree.header fromHash = .ok (some header))
    (h : Q ((fromHash, header) :: headers) (loads + 1)) :
    Runs (tree.walk fromHash fromHash headers) loads Q E := by
  rw [walk]
  apply Runs.bind
  apply runs_load_known known
  simp only [if_pos]
  exact h

theorem runs_walk_parent (known : tree.header hash = .ok (some header)) (hne : hash ≠ fromHash)
    (h : Runs (tree.walk fromHash header.parentHash ((hash, header) :: headers)) (loads + 1) Q E) :
    Runs (tree.walk fromHash hash headers) loads Q E := by
  rw [walk]
  apply Runs.bind
  apply runs_load_known known
  simp only [if_neg hne]
  exact h

end

omit [DecidableEq Hash] in
theorem Descends.known {hash : Hash} (h : tree.Descends fromHash hash) :
    ∃ header, tree.header hash = .ok (some header) := by
  cases h with
  | self known => exact ⟨_, known⟩
  | child known _ => exact ⟨_, known⟩

omit [DecidableEq Hash] in
theorem Descends.parent {hash : Hash} {header : Header Hash} (h : tree.Descends fromHash hash)
    (known : tree.header hash = .ok (some header)) (hne : hash ≠ fromHash) :
    tree.Descends fromHash header.parentHash := by
  cases h with
  | self => exact absurd rfl hne
  | child known' parent =>
    rw [known] at known'
    cases known'
    exact parent

theorem runs_walk (thisBlock : Hash) (headers : List (Hash × Header Hash)) (loads : ℕ) :
    Runs (tree.walk fromHash thisBlock headers) loads
      (fun all loads' => ∃ blocks, tree.Path fromHash thisBlock blocks ∧
        all = blocks ++ headers ∧ loads' = loads + blocks.length)
      (fun _ loads' => ¬ tree.Descends fromHash thisBlock ∧
        loads' ≤ loads + tree.depth thisBlock + 1) := by
  induction hdepth : tree.depth thisBlock using Nat.strong_induction_on
    generalizing thisBlock headers loads with
  | _ n ih =>
    by_cases hknown : ∃ header, tree.header thisBlock = .ok (some header)
    · obtain ⟨header, known⟩ := hknown
      by_cases hfrom : thisBlock = fromHash
      · subst hfrom
        exact runs_walk_self known ⟨_, .self known, rfl, rfl⟩
      · apply runs_walk_parent known hfrom
        have hlt := tree.depth_parent_lt known
        refine (ih _ (by omega) header.parentHash _ (loads + 1) rfl).mono ?_ ?_
        · rintro all loads' ⟨blocks, path, rfl, rfl⟩
          refine ⟨_, .child known path, by simp, ?_⟩
          rw [List.length_append, List.length_singleton]
          omega
        · rintro e loads' ⟨hnot, hle⟩
          exact ⟨fun h => hnot (h.parent known hfrom), by omega⟩
    · rw [walk]
      apply Runs.bind
      apply runs_load
      · exact fun header known => absurd ⟨header, known⟩ hknown
      · exact fun _ _ => ⟨fun h => hknown h.known, by omega⟩

omit [DecidableEq Hash] in
theorem Path.known {hash : Hash} {blocks : List (Hash × Header Hash)}
    (path : tree.Path fromHash hash blocks) :
    ∃ header, tree.header hash = .ok (some header) := by
  cases path with
  | self known => exact ⟨_, known⟩
  | child known _ => exact ⟨_, known⟩

omit [DecidableEq Hash] in
theorem Path.numbers {hash : Hash} {blocks : List (Hash × Header Hash)}
    (path : tree.Path fromHash hash blocks) {hFrom hTo : Header Hash}
    (knownFrom : tree.header fromHash = .ok (some hFrom))
    (knownTo : tree.header hash = .ok (some hTo)) :
    hFrom.number + blocks.length = hTo.number + 1 ∧
      blocks.map (·.2.number) = List.range' hFrom.number blocks.length := by
  induction path generalizing hTo with
  | self known =>
    rw [known] at knownFrom knownTo
    cases knownFrom
    cases knownTo
    exact ⟨rfl, rfl⟩
  | @child _ header _ known parent ih =>
    rw [known] at knownTo
    cases knownTo
    obtain ⟨p, knownParent⟩ := parent.known
    obtain ⟨hlength, hnumbers⟩ := ih knownParent
    have hnumber := tree.parent_number known knownParent
    rw [List.length_append, List.length_singleton, List.map_append, hnumbers, List.range'_concat]
    refine ⟨by omega, ?_⟩
    simp only [List.map_cons, List.map_nil, Nat.one_mul]
    congr 2
    omega

end BlockTree

/-! ## Bounds of a request -/

theorem forall₂_of_mapM_ok {ε α β : Type} {f : α → Except ε β} {l : List α} {results : List β}
    (h : l.mapM f = .ok results) : List.Forall₂ (fun a b => f a = .ok b) l results := by
  induction l generalizing results with
  | nil =>
    cases h
    exact .nil
  | cons a l ih =>
    rw [List.mapM_cons] at h
    cases hb : f a with
    | error e =>
      rw [hb] at h
      cases h
    | ok b =>
      cases hrest : l.mapM f with
      | error e =>
        rw [hb, hrest] at h
        cases h
      | ok rest =>
        rw [hb, hrest] at h
        cases h
        exact .cons hb (ih hrest)

section

variable {State Body Overlay : Type} (node : Node Hash State Body Overlay) (withRoots : Bool)
variable {fromHash toHash : Hash} {hFrom hTo : Header Hash}

def Node.Answers (fromHash toHash : Hash) (hFrom hTo : Header Hash)
    (entries : List StorageChangesWithRoot) : Prop :=
  ∃ blocks, node.tree.Path fromHash toHash blocks ∧
    blocks.map (·.2.number) = List.range' hFrom.number (hTo.number + 1 - hFrom.number) ∧
    List.Forall₂ (fun block entry => node.changesOf withRoots block = .ok entry) blocks entries

def Node.InRange (fromHash toHash : Hash) (hFrom hTo : Header Hash) : Prop :=
  node.tree.Descends fromHash toHash ∨ hTo.number < maxNumberOfBlocks ∨
    hTo.number < hFrom.number ∨ maxNumberOfBlocks < hTo.number - hFrom.number

theorem runs_range {Q : List StorageChangesWithRoot → ℕ → Prop} {E : Error Hash → ℕ → Prop}
    (knownFrom : node.tree.header fromHash = .ok (some hFrom))
    (knownTo : node.tree.header toHash = .ok (some hTo))
    (walks : hFrom.number ≤ hTo.number → hTo.number - hFrom.number ≤ maxNumberOfBlocks →
      Runs (node.tree.walk fromHash toHash []) 2
        (fun headers loads => Runs (node.collect withRoots headers) loads Q E) E)
    (refused : hTo.number < hFrom.number ∨ maxNumberOfBlocks < hTo.number - hFrom.number →
      ∀ e, E e 2) : Runs (node.getStorageChanges withRoots fromHash toHash) 0 Q E := by
  apply Runs.bind
  apply BlockTree.runs_load_known knownFrom
  apply Runs.bind
  apply BlockTree.runs_load_known knownTo
  apply Runs.ensure_bind
  case fails => exact fun h => refused (.inl (Nat.lt_of_not_le h)) _
  intro hle
  apply Runs.ensure_bind
  case fails => exact fun h => refused (.inr (Nat.lt_of_not_le h)) _
  intro hrange
  exact Runs.bind (walks hle hrange)

omit [DecidableEq Hash] in
theorem runs_collect {headers : List (Hash × Header Hash)} {loads : ℕ} :
    Runs (node.collect withRoots headers) loads
      (fun entries loads' => loads' = loads ∧ List.Forall₂
        (fun block entry => node.changesOf withRoots block = .ok entry) headers entries)
      (fun _ loads' => loads' = loads) := by
  unfold Node.collect
  split
  · rename_i entries run
    exact ⟨rfl, forall₂_of_mapM_ok run⟩
  · exact rfl

theorem runs_getStorageChanges (knownFrom : node.tree.header fromHash = .ok (some hFrom))
    (knownTo : node.tree.header toHash = .ok (some hTo)) :
    Runs (node.getStorageChanges withRoots fromHash toHash) 0
      (fun entries loads => node.Answers withRoots fromHash toHash hFrom hTo entries ∧
        loads ≤ maxNumberOfBlocks + 3)
      (fun _ loads => node.InRange fromHash toHash hFrom hTo → loads ≤ maxNumberOfBlocks + 3) := by
  apply runs_range node withRoots knownFrom knownTo
  case refused => exact fun _ _ _ => by unfold maxNumberOfBlocks; omega
  intro hle hrange
  refine (BlockTree.runs_walk toHash [] 2).mono ?_ ?_
  · rintro headers loads ⟨blocks, path, rfl, rfl⟩
    obtain ⟨hlength, hnumbers⟩ := path.numbers knownFrom knownTo
    have hloads : 2 + blocks.length ≤ maxNumberOfBlocks + 3 := by omega
    rw [List.append_nil]
    refine (runs_collect node withRoots).mono ?_ ?_
    · rintro entries _ ⟨rfl, hentries⟩
      refine ⟨⟨blocks, path, ?_, hentries⟩, hloads⟩
      rw [hnumbers]
      congr 1
      omega
    · rintro _ _ rfl _
      exact hloads
  · rintro e loads ⟨hnot, hloads⟩ hin
    have hdepth : node.tree.depth toHash = hTo.number + 1 := by
      unfold BlockTree.depth
      rw [knownTo]
    rcases hin with hdescends | hsmall | hbelow | habove
    · exact absurd hdescends hnot
    all_goals omega

end

/-! ## A forked chain -/

def forkedTree : BlockTree ℤ where
  header hash := .ok (
    if hash = -2 then some ⟨20000, 19999, []⟩
    else if 0 ≤ hash then some ⟨hash.toNat, hash - 1, []⟩
    else none)
  parent_number := by
    intro hash h p known knownParent
    simp only [Except.ok.injEq] at known knownParent
    split_ifs at known knownParent
    all_goals
      cases known
      cases knownParent
      simp only at *
      omega

def forkedNode : Node ℤ Unit Unit Unit where
  tree := forkedTree
  stateAt _ := .ok ()
  pairs _ := []
  storageRoot _ := []
  blockBody _ := .ok (some ())
  executeBlock _ _ _ := .ok ()
  intoStorageChanges _ _ _ := .ok ⟨[], []⟩

theorem forkedTree_header (n : ℕ) :
    forkedTree.header (n + 1 : ℕ) = .ok (some ⟨n + 1, n, []⟩) := by
  have hne : ((n + 1 : ℕ) : ℤ) ≠ -2 := by omega
  have hle : (0 : ℤ) ≤ (n + 1 : ℕ) := by omega
  simp only [forkedTree, if_neg hne, if_pos hle, Int.toNat_natCast]
  rw [Nat.cast_succ, add_sub_cancel_right]

theorem forkedTree_walk (n loads : ℕ) (headers : List (ℤ × Header ℤ)) :
    Runs (forkedTree.walk (-2) n headers) loads (fun _ _ => False)
      (fun _ loads' => loads' = loads + n + 2) := by
  induction n generalizing loads headers with
  | zero =>
    have known : forkedTree.header (0 : ℕ) = .ok (some ⟨0, -1, []⟩) := rfl
    apply BlockTree.runs_walk_parent known (by decide)
    rw [BlockTree.walk]
    rfl
  | succ n ih =>
    apply BlockTree.runs_walk_parent (forkedTree_header n) (by omega)
    refine (ih (loads + 1) _).mono (fun _ _ h => h) ?_
    omega

end Cyrux.NodeRpc
