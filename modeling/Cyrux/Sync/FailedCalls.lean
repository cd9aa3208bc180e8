import Cyrux.Sync.Alignment

/-!
# Failed calls
-/

namespace Cyrux.Sync

variable {Hash V DB Tx : Type}

structure Counters where
  nextHeaderNumber : ℕ
  nextParaHeaderNumber : ℕ
  nextBlockNumber : ℕ
  waitingForParaheaders : Bool
deriving DecidableEq

def SolochainSynchronizer.counters (s : SolochainSynchronizer V Hash) : Counters where
  nextBlockNumber := s.syncState.blockNumberNext
  nextHeaderNumber := s.syncState.headerNumberNext
  nextParaHeaderNumber := 0
  waitingForParaheaders := false

def ParachainSynchronizer.counters (s : ParachainSynchronizer V Hash) : Counters where
  nextBlockNumber := s.syncState.blockNumberNext
  nextHeaderNumber := s.syncState.headerNumberNext
  nextParaHeaderNumber := s.paraHeaderNumberNext
  waitingForParaheaders := s.lastRelaychainStateRoot.isSome

inductive Call (Hash : Type)
  | syncHeader (headers : List (HeaderToSync Hash))
  | syncParachainHeader (headers : List (Header Hash)) (proof : StorageProof) (storageKey : Bytes)
  | feedBlock (block : BlockHeaderWithChanges Hash) (dropProofs : Bool)

def onSynchronizer {S : Type} (m : Proc S (Error Hash) ℕ) :
    Proc (S × TrieStorage Hash DB) (Error Hash) (Option ℕ) :=
  Proc.focus Prod.fst (fun s t => (s, t.2)) do
    let n ← m
    pure (some n)

variable [DecidableEq Hash] (X : Externals Hash V DB Tx)

def SolochainSynchronizer.call :
    Call Hash → Proc (SolochainSynchronizer V Hash × TrieStorage Hash DB) (Error Hash) (Option ℕ)
  | .syncHeader headers => onSynchronizer (syncHeader X headers)
  | .syncParachainHeader headers proof storageKey =>
    onSynchronizer (syncParachainHeader headers proof storageKey)
  | .feedBlock block dropProofs => do
    feedBlock X block dropProofs
    pure none

def ParachainSynchronizer.call :
    Call Hash → Proc (ParachainSynchronizer V Hash × TrieStorage Hash DB) (Error Hash) (Option ℕ)
  | .syncHeader headers => onSynchronizer (syncHeader X headers)
  | .syncParachainHeader headers proof storageKey =>
    onSynchronizer (syncParachainHeader X headers proof storageKey)
  | .feedBlock block dropProofs => do
    feedBlock X block dropProofs
    pure none

def Harmless {S : Type}
    (call : Call Hash → Proc (S × TrieStorage Hash DB) (Error Hash) (Option ℕ))
    (counters : S → Counters) (t : S × TrieStorage Hash DB) (calls later : List (Call Hash)) :
    Prop :=
  let full := afterCalls call t calls
  let pruned := afterCalls call t (succeeded call t calls)
  counters full.1 = counters pruned.1 ∧ full.2 = pruned.2 ∧
    resultsOf call full later = resultsOf call pruned later

def Careful (q : SyncQueue V Hash) : Call Hash → Prop
  | .feedBlock block true =>
    block.blockHeader.number = q.syncState.blockNumberNext →
      q.syncState.genesisStateValidated = false ∧ q.stateRoots ≠ []
  | _ => True

def KeepsRejected : Prop :=
  ∀ v bridge header ancestry grandpa reason,
    (X.submitFinalizedHeaders v bridge header ancestry grandpa).1 = .error reason →
    (X.submitFinalizedHeaders v bridge header ancestry grandpa).2 = v

/-! ## The state shared by both synchronizers -/

namespace BlockSyncState

inductive Follows : SyncQueue V Hash × TrieStorage Hash DB →
    SyncQueue V Hash × TrieStorage Hash DB →
    Prop
  | same (t) : Follows t t
  | ahead (s : BlockSyncState V) (roots : List Hash) (storage : TrieStorage Hash DB)
      (unvalidated : s.genesisStateValidated = false) :
      Follows (⟨{ s with genesisStateValidated := true }, roots⟩, storage)
        (⟨s, storage.root :: roots⟩, storage)

variable {X}

theorem validateGenesisState_run (s : BlockSyncState V) (roots : List Hash)
    (storage : TrieStorage Hash DB) :
    validateGenesisState (⟨s, storage.root :: roots⟩, storage) =
      .ok () (⟨{ s with genesisStateValidated := true }, roots⟩, storage) := by
  change (Proc.ensure (storage.root = storage.root) _ >>= _) _ = _
  rw [Proc.ensure, if_pos rfl]
  rfl

theorem feedBlock_together {t t' : SyncQueue V Hash × TrieStorage Hash DB} (h : Follows t t')
    (block : BlockHeaderWithChanges Hash) (dropProofs : Bool)
    (careful : Careful t.1 (.feedBlock block dropProofs)) :
    Together (feedBlock X block dropProofs) (feedBlock X block dropProofs) t t'
      (fun _ => Follows) (fun _ => Follows) := by
  cases h with
  | same => exact Together.refl Follows.same
  | ahead s roots storage unvalidated =>
    have h := Follows.ahead s roots storage unvalidated
    apply Together.ensure_bind
    case fails => exact fun _ => h
    intro hnumber
    cases dropProofs with
    | true => cases (careful hnumber).1
    | false =>
      simp only [Bool.false_eq_true, Bool.true_eq_false, if_false, if_true, unvalidated]
      apply Together.right_bind (validateGenesisState_run s roots storage)
      exact Together.refl Follows.same

theorem applyBlock_unchanged (t : SyncQueue V Hash × TrieStorage Hash DB)
    (block : BlockHeaderWithChanges Hash) :
    Runs (applyBlock X block) t (fun _ _ => True) (fun _ t₁ => t₁ = t) := by
  apply Runs.demand_bind
  case missing => exact fun _ => rfl
  intro root _
  apply Runs.ensure_bind
  case fails => exact fun _ => rfl
  exact fun _ => trivial

omit [DecidableEq Hash] in
theorem dropBlock_succeeds {t : SyncQueue V Hash × TrieStorage Hash DB} (h : t.1.stateRoots ≠ []) :
    Runs dropBlock t (fun _ _ => True) (fun _ _ => False) := by
  apply Runs.demand_bind
  case missing => exact fun hnone => h (List.head?_eq_none_iff.1 hnone)
  exact fun _ _ => trivial

theorem feedBlock_failed {t t' : SyncQueue V Hash × TrieStorage Hash DB} (h : Follows t t')
    (block : BlockHeaderWithChanges Hash) (dropProofs : Bool)
    (careful : Careful t.1 (.feedBlock block dropProofs)) :
    Runs (feedBlock X block dropProofs) t (fun _ _ => True) (fun _ t₁ => Follows t₁ t') := by
  apply Runs.ensure_bind
  case fails => exact fun _ => h
  intro hnumber
  cases dropProofs with
  | true =>
    exact (dropBlock_succeeds (careful hnumber).2).mono (fun _ _ _ => trivial) fun _ _ => False.elim
  | false =>
    simp only [Bool.false_eq_true, if_false]
    split
    · rename_i unvalidated
      cases h with
      | ahead s roots storage _ => cases unvalidated
      | same =>
        obtain ⟨⟨s, stateRoots⟩, storage⟩ := t
        apply Runs.bind
        apply Runs.demand_bind
        case missing => exact fun _ => .same _
        intro root hroot
        apply Runs.ensure_bind
        case fails => exact fun _ => .same _
        rintro rfl
        obtain ⟨roots, rfl⟩ := List.head?_eq_some_iff.1 hroot
        apply (applyBlock_unchanged _ block).mono fun _ _ _ => trivial
        rintro _ _ rfl
        exact .ahead s roots storage unvalidated
    · apply (applyBlock_unchanged t block).mono fun _ _ _ => trivial
      rintro _ _ rfl
      exact h

def Beside (s : BlockSyncState V) (roots roots' : List Hash) (q q' : SyncQueue V Hash) : Prop :=
  ∃ s₁ : BlockSyncState V, ∃ new,
    q = ⟨{ s₁ with genesisStateValidated := true }, roots ++ new⟩ ∧ q' = ⟨s₁, roots' ++ new⟩ ∧
      s₁.genesisStateValidated = s.genesisStateValidated

omit [DecidableEq Hash] in
theorem Beside.sameRoots {s : BlockSyncState V} {roots roots' : List Hash} (s₁ : BlockSyncState V)
    (h : s₁.genesisStateValidated = s.genesisStateValidated) :
    Beside s roots roots' ⟨{ s₁ with genesisStateValidated := true }, roots⟩ ⟨s₁, roots'⟩ :=
  ⟨s₁, [], by simp, by simp, h⟩

theorem syncHeader_together (s : BlockSyncState V) (roots roots' : List Hash)
    (headers : List (HeaderToSync Hash)) (skip : ℕ) :
    Together (syncHeader X headers skip) (syncHeader X headers skip)
      ⟨{ s with genesisStateValidated := true }, roots⟩ ⟨s, roots'⟩
      (fun _ => Beside s roots roots') (fun _ => Beside s roots roots') := by
  have unchanged : Beside s roots roots' ⟨{ s with genesisStateValidated := true }, roots⟩
      ⟨s, roots'⟩ := .sameRoots s rfl
  apply Together.get_bind
  dsimp only
  generalize headers.filter (fun h => s.headerNumberNext ≤ h.header.number) = filtered
  cases filtered with
  | nil => exact ⟨rfl, unchanged⟩
  | cons first rest =>
    apply Together.ensure_bind
    case fails => exact fun _ => unchanged
    intro _
    apply Together.demand_bind
    case missing => exact fun _ => unchanged
    intro last _
    apply Together.demand_bind
    case missing => exact fun _ => unchanged
    intro justification _
    apply Together.ensure_bind
    case fails => exact fun _ => unchanged
    intro _
    apply Together.bind
    apply Together.get_bind
    dsimp only
    split
    · exact ⟨rfl, rfl, _, _, rfl, rfl, rfl⟩
    · exact ⟨rfl, .sameRoots { s with validator := _ } rfl⟩

theorem syncHeader_unchanged (keeps : KeepsRejected X) (q : SyncQueue V Hash)
    (headers : List (HeaderToSync Hash)) (skip : ℕ) :
    Runs (syncHeader X headers skip) q (fun _ _ => True) (fun _ q₁ => q₁ = q) := by
  apply Runs.get_bind
  dsimp only
  split
  · trivial
  · apply Runs.ensure_bind
    case fails => exact fun _ => rfl
    intro _
    apply Runs.demand_bind
    case missing => exact fun _ => rfl
    intro last _
    apply Runs.demand_bind
    case missing => exact fun _ => rfl
    intro justification _
    apply Runs.ensure_bind
    case fails => exact fun _ => rfl
    intro _
    apply Runs.bind
    apply Runs.get_bind
    dsimp only
    split
    · trivial
    · rename_i reason rejected
      change SyncQueue.mk _ _ = q
      rw [keeps _ _ _ _ _ reason rejected]

end BlockSyncState

open BlockSyncState

omit [DecidableEq Hash] in
theorem onSynchronizer_together {S : Type} {m : Proc S (Error Hash) ℕ}
    {t t' : S × TrieStorage Hash DB} {R : S × TrieStorage Hash DB → S × TrieStorage Hash DB → Prop}
    (h : Together m m t.1 t'.1 (fun _ s s' => R (s, t.2) (s', t'.2))
      (fun _ s s' => R (s, t.2) (s', t'.2))) :
    Together (onSynchronizer m) (onSynchronizer m) t t' (fun _ => R) (fun _ => R) := by
  apply Together.focus
  apply Together.bind
  apply h.mono
  · exact fun _ _ _ hR => ⟨rfl, hR⟩
  · exact fun _ _ _ hR => hR

omit [DecidableEq Hash] in
theorem onSynchronizer_failed {S : Type} {m : Proc S (Error Hash) ℕ}
    {t : S × TrieStorage Hash DB} (h : Runs m t.1 (fun _ _ => True) (fun _ s => s = t.1)) :
    Runs (onSynchronizer m) t (fun _ _ => True) (fun _ t₁ => t₁ = t) := by
  apply Runs.focus
  apply Runs.bind
  apply h.mono
  · exact fun _ _ _ => trivial
  · rintro _ _ rfl
    rfl

variable {X}

/-! ## The synchronizer of a solochain -/

namespace SolochainSynchronizer

theorem call_together {t t' : SolochainSynchronizer V Hash × TrieStorage Hash DB}
    (h : Follows t t') (c : Call Hash) (careful : Careful t.1 c) :
    Together (call X c) (call X c) t t' (fun _ => Follows) (fun _ => Follows) := by
  cases c with
  | syncHeader headers =>
    cases h with
    | same => exact Together.refl Follows.same
    | ahead s roots storage unvalidated =>
      have h := Follows.ahead s roots storage unvalidated
      apply onSynchronizer_together
      apply Together.get_bind
      apply Together.ensure_bind
      case fails => exact fun _ => h
      intro _
      have key : ∀ q q', Beside s roots (storage.root :: roots) q q' →
          Follows (q, storage) (q', storage) := by
        rintro q q' ⟨s₁, new, rfl, rfl, hvalidated⟩
        exact .ahead s₁ (roots ++ new) storage (hvalidated.trans unvalidated)
      exact (syncHeader_together s roots _ headers _).mono (fun _ => key) (fun _ => key)
  | syncParachainHeader headers proof storageKey =>
    exact onSynchronizer_together ⟨rfl, h⟩
  | feedBlock block dropProofs =>
    apply Together.bind
    apply (feedBlock_together h block dropProofs careful).mono
    · exact fun _ _ _ hR => ⟨rfl, hR⟩
    · exact fun _ _ _ hR => hR

theorem call_failed (keeps : KeepsRejected X)
    {t t' : SolochainSynchronizer V Hash × TrieStorage Hash DB} (h : Follows t t') (c : Call Hash)
    (careful : Careful t.1 c) :
    Runs (call X c) t (fun _ _ => True) (fun _ t₁ => Follows t₁ t') := by
  cases c with
  | syncHeader headers =>
    apply (onSynchronizer_failed _).mono (fun _ _ _ => trivial)
    · rintro _ _ rfl
      exact h
    · apply Runs.get_bind
      apply Runs.ensure_bind
      case fails => exact fun _ => rfl
      exact fun _ => syncHeader_unchanged keeps t.1 headers _
  | syncParachainHeader headers proof storageKey =>
    apply (onSynchronizer_failed _).mono (fun _ _ _ => trivial)
    · rintro _ _ rfl
      exact h
    · exact rfl
  | feedBlock block dropProofs =>
    apply Runs.bind
    apply (feedBlock_failed h block dropProofs careful).mono
    · exact fun _ _ _ => trivial
    · exact fun _ _ hR => hR

end SolochainSynchronizer

/-! ## The synchronizer of a parachain -/

namespace ParachainSynchronizer

inductive Follows : ParachainSynchronizer V Hash × TrieStorage Hash DB →
    ParachainSynchronizer V Hash × TrieStorage Hash DB → Prop
  | same (t) : Follows t t
  | ahead (s : ParachainSynchronizer V Hash) (storage : TrieStorage Hash DB)
      (unvalidated : s.syncState.genesisStateValidated = false) :
      Follows ({ s with syncState := { s.syncState with genesisStateValidated := true } }, storage)
        ({ s with paraStateRoots := storage.root :: s.paraStateRoots }, storage)

def withQueue (s : ParachainSynchronizer V Hash) (q : SyncQueue V Hash) :
    ParachainSynchronizer V Hash :=
  { s with syncState := q.syncState, paraStateRoots := q.stateRoots }

omit [DecidableEq Hash] in
theorem Follows.of_queue (s : ParachainSynchronizer V Hash)
    {t t' : SyncQueue V Hash × TrieStorage Hash DB} (h : BlockSyncState.Follows t t') :
    Follows (s.withQueue t.1, t.2) (s.withQueue t'.1, t'.2) := by
  cases h with
  | same => exact .same _
  | ahead s₁ roots storage unvalidated => exact .ahead (s.withQueue ⟨s₁, roots⟩) storage unvalidated

omit [DecidableEq Hash] in
theorem Follows.exists_queue {t t' : ParachainSynchronizer V Hash × TrieStorage Hash DB}
    (h : Follows t t') :
    BlockSyncState.Follows (t.1.queue, t.2) (t'.1.queue, t'.2) ∧
      ∀ q, t.1.withQueue q = t'.1.withQueue q := by
  cases h with
  | same => exact ⟨.same _, fun _ => rfl⟩
  | ahead s storage unvalidated =>
    exact ⟨.ahead s.syncState s.paraStateRoots storage unvalidated, fun _ => rfl⟩

theorem syncHeader_together {t t' : ParachainSynchronizer V Hash × TrieStorage Hash DB}
    (h : Follows t t') (headers : List (HeaderToSync Hash)) :
    Together (syncHeader X headers) (syncHeader X headers) t.1 t'.1
      (fun _ s s' => Follows (s, t.2) (s', t'.2)) (fun _ s s' => Follows (s, t.2) (s', t'.2)) := by
  cases h with
  | same => exact Together.refl fun _ => Follows.same _
  | ahead s storage unvalidated =>
    apply Together.bind
    apply Together.focus
    apply Together.bind
    apply (BlockSyncState.syncHeader_together s.syncState [] [] headers 0).mono
    · rintro _ _ _ ⟨s₁, new, rfl, rfl, hvalidated⟩
      refine ⟨rfl, rfl, ?_⟩
      exact Follows.ahead { s with
        syncState := s₁
        lastRelaychainStateRoot := ([] ++ new).getLast?.or s.lastRelaychainStateRoot } storage
        (hvalidated.trans unvalidated)
    · rintro _ _ _ ⟨s₁, new, rfl, rfl, hvalidated⟩
      exact Follows.ahead { s with syncState := s₁ } storage (hvalidated.trans unvalidated)

theorem syncParachainHeader_together
    {t t' : ParachainSynchronizer V Hash × TrieStorage Hash DB} (h : Follows t t')
    (headers : List (Header Hash)) (proof : StorageProof) (storageKey : Bytes) :
    Together (syncParachainHeader X headers proof storageKey)
      (syncParachainHeader X headers proof storageKey) t.1 t'.1
      (fun _ s s' => Follows (s, t.2) (s', t'.2)) (fun _ s s' => Follows (s, t.2) (s', t'.2)) := by
  cases h with
  | same => exact Together.refl fun _ => Follows.same _
  | ahead s storage unvalidated =>
    have h := Follows.ahead s storage unvalidated
    apply Together.get_bind
    dsimp only
    generalize headers.filter (fun h => s.paraHeaderNumberNext ≤ h.number) = filtered
    cases filtered with
    | nil => exact ⟨rfl, h⟩
    | cons first rest =>
      apply Together.ensure_bind
      case fails => exact fun _ => h
      intro _
      apply Together.demand_bind
      case missing => exact fun _ => h
      intro last _
      apply Together.demand_bind
      case missing => exact fun _ => h
      intro stateRoot _
      split
      · exact ⟨rfl, h⟩
      · apply Together.ensure_bind
        case fails => exact fun _ => h
        intro _
        refine ⟨rfl, ?_⟩
        exact Follows.ahead { s with
          paraStateRoots := s.paraStateRoots ++ (first :: rest).map Header.stateRoot
          lastRelaychainStateRoot := none
          paraHeaderNumberNext := last.number + 1 } storage unvalidated

theorem syncHeader_unchanged (keeps : KeepsRejected X) (s : ParachainSynchronizer V Hash)
    (headers : List (HeaderToSync Hash)) :
    Runs (syncHeader X headers) s (fun _ _ => True) (fun _ s₁ => s₁ = s) := by
  apply Runs.bind
  apply Runs.focus
  apply Runs.bind
  apply (BlockSyncState.syncHeader_unchanged keeps _ headers 0).mono
  · exact fun _ _ _ => trivial
  · rintro _ _ rfl
    rfl

theorem syncParachainHeader_unchanged (s : ParachainSynchronizer V Hash)
    (headers : List (Header Hash)) (proof : StorageProof) (storageKey : Bytes) :
    Runs (syncParachainHeader X headers proof storageKey) s (fun _ _ => True)
      (fun _ s₁ => s₁ = s) := by
  apply Runs.get_bind
  dsimp only
  split
  · trivial
  · apply Runs.ensure_bind
    case fails => exact fun _ => rfl
    intro _
    apply Runs.demand_bind
    case missing => exact fun _ => rfl
    intro last _
    apply Runs.demand_bind
    case missing => exact fun _ => rfl
    intro stateRoot _
    split
    · exact rfl
    · apply Runs.ensure_bind
      case fails => exact fun _ => rfl
      exact fun _ => trivial

theorem call_together {t t' : ParachainSynchronizer V Hash × TrieStorage Hash DB}
    (h : Follows t t') (c : Call Hash) (careful : Careful t.1.queue c) :
    Together (call X c) (call X c) t t' (fun _ => Follows) (fun _ => Follows) := by
  cases c with
  | syncHeader headers => exact onSynchronizer_together (syncHeader_together h headers)
  | syncParachainHeader headers proof storageKey =>
    exact onSynchronizer_together (syncParachainHeader_together h headers proof storageKey)
  | feedBlock block dropProofs =>
    obtain ⟨hqueue, hrest⟩ := h.exists_queue
    have key : ∀ q q' : SyncQueue V Hash × TrieStorage Hash DB, BlockSyncState.Follows q q' →
        Follows (t.1.withQueue q.1, q.2) (t'.1.withQueue q'.1, q'.2) := by
      intro q q' hq
      rw [← hrest]
      exact .of_queue t.1 hq
    apply Together.bind
    apply Together.focus
    apply (feedBlock_together hqueue block dropProofs careful).mono
    · exact fun _ q q' hq => ⟨rfl, key q q' hq⟩
    · exact fun _ => key

theorem call_failed (keeps : KeepsRejected X)
    {t t' : ParachainSynchronizer V Hash × TrieStorage Hash DB} (h : Follows t t') (c : Call Hash)
    (careful : Careful t.1.queue c) :
    Runs (call X c) t (fun _ _ => True) (fun _ t₁ => Follows t₁ t') := by
  cases c with
  | syncHeader headers =>
    apply (onSynchronizer_failed (syncHeader_unchanged keeps t.1 headers)).mono
      (fun _ _ _ => trivial)
    rintro _ _ rfl
    exact h
  | syncParachainHeader headers proof storageKey =>
    apply (onSynchronizer_failed
      (syncParachainHeader_unchanged t.1 headers proof storageKey)).mono (fun _ _ _ => trivial)
    rintro _ _ rfl
    exact h
  | feedBlock block dropProofs =>
    obtain ⟨hqueue, hrest⟩ := h.exists_queue
    have key : ∀ q, BlockSyncState.Follows q (t'.1.queue, t'.2) →
        Follows (t.1.withQueue q.1, q.2) t' := by
      intro q hq
      rw [hrest]
      exact .of_queue t'.1 hq
    apply Runs.bind
    apply Runs.focus
    apply (feedBlock_failed hqueue block dropProofs careful).mono
    · exact fun _ _ _ => trivial
    · exact fun _ q hq => key q hq

end ParachainSynchronizer

/-! ## Runs -/

omit [DecidableEq Hash] in
theorem Harmless.of_relation {S : Type}
    {call : Call Hash → Proc (S × TrieStorage Hash DB) (Error Hash) (Option ℕ)}
    {counters : S → Counters} {allowed : S × TrieStorage Hash DB → Call Hash → Prop}
    {R : S × TrieStorage Hash DB → S × TrieStorage Hash DB → Prop} (refl : ∀ t, R t t)
    (observed : ∀ t t', R t t' → counters t.1 = counters t'.1 ∧ t.2 = t'.2)
    (same : ∀ t t' c, R t t' → allowed t c →
      Together (call c) (call c) t t' (fun _ => R) (fun _ => R))
    (failed : ∀ t t' c, R t t' → allowed t c →
      Runs (call c) t (fun _ _ => True) (fun _ t₁ => R t₁ t'))
    {t : S × TrieStorage Hash DB} {calls later : List (Call Hash)}
    (h : Throughout call allowed t (calls ++ later)) : Harmless call counters t calls later := by
  obtain ⟨hcalls, hlater⟩ := throughout_append h
  have related := afterCalls_succeeded same
    (fun t t' c _ hR hallowed run => (failed t t' c hR hallowed).of_error run) (refl t) hcalls
  obtain ⟨hcounters, hstorage⟩ := observed _ _ related
  exact ⟨hcounters, hstorage, resultsOf_eq same related hlater⟩

/-- The calls that fail can be deleted from a run. -/
theorem failed_calls_harmless (X : Externals Hash V DB Tx) (keeps : KeepsRejected X) :
    (∀ (t : SolochainSynchronizer V Hash × TrieStorage Hash DB) (calls later : List (Call Hash)),
      Throughout (SolochainSynchronizer.call X) (fun t c => Careful t.1 c) t (calls ++ later) →
      Harmless (SolochainSynchronizer.call X) SolochainSynchronizer.counters t calls later) ∧
    (∀ (t : ParachainSynchronizer V Hash × TrieStorage Hash DB) (calls later : List (Call Hash)),
      Throughout (ParachainSynchronizer.call X) (fun t c => Careful t.1.queue c) t
        (calls ++ later) →
      Harmless (ParachainSynchronizer.call X) ParachainSynchronizer.counters t calls later) := by
  constructor
  · intro t calls later
    apply Harmless.of_relation Follows.same
    · rintro t t' (_ | ⟨s, roots, storage, _⟩) <;> exact ⟨rfl, rfl⟩
    · exact fun t t' c h careful => SolochainSynchronizer.call_together h c careful
    · exact fun t t' c h careful => SolochainSynchronizer.call_failed keeps h c careful
  · intro t calls later
    apply Harmless.of_relation ParachainSynchronizer.Follows.same
    · rintro t t' (_ | ⟨s, storage, _⟩) <;> exact ⟨rfl, rfl⟩
    · exact fun t t' c h careful => ParachainSynchronizer.call_together h c careful
    · exact fun t t' c h careful => ParachainSynchronizer.call_failed keeps h c careful

theorem mock_keepsRejected : KeepsRejected Mock.externals := fun _ _ _ _ _ _ _ => rfl

theorem failed_calls_harmless_early :
    let t : SolochainSynchronizer Unit ℤ × TrieStorage ℤ Unit := (.new () 0, ⟨(), 0⟩)
    let calls : List (Call ℤ) :=
      [.syncHeader [Mock.toSync 0], .feedBlock (Mock.block 1 1) false,
        .syncHeader [Mock.toSync 1]]
    resultsOf (SolochainSynchronizer.call Mock.externals) t calls =
        [.ok (some 0), .error .noStateRoot, .ok (some 1)] ∧
      Harmless (SolochainSynchronizer.call Mock.externals) SolochainSynchronizer.counters t calls
        [.feedBlock (Mock.block 1 1) false] := by
  intro t calls
  refine ⟨by decide, (failed_calls_harmless Mock.externals mock_keepsRejected).1 t calls _ ?_⟩
  exact ⟨trivial, trivial, trivial, trivial, trivial⟩

theorem dropped_block_lost :
    let t : SolochainSynchronizer Unit ℤ × TrieStorage ℤ Unit := (.new () 0, ⟨(), 0⟩)
    let feed : Call ℤ := .feedBlock (Mock.block 1 1) true
    let sync : Call ℤ := .syncHeader [Mock.toSync 0, Mock.toSync 1]
    resultsOf (SolochainSynchronizer.call Mock.externals) t [feed, sync, feed] =
        [.error .noStateRoot, .ok (some 1), .error .blockNumberMismatch] ∧
      resultsOf (SolochainSynchronizer.call Mock.externals) t [sync, feed] =
        [.ok (some 1), .ok none] ∧
      ¬ Harmless (SolochainSynchronizer.call Mock.externals) SolochainSynchronizer.counters t
        [feed] [sync, feed] := by
  refine ⟨by decide, by decide, ?_⟩
  intro h
  exact absurd h.1 (by decide)

end Cyrux.Sync
