import Cyrux.Sync.Mock

/-!
# The state roots are aligned with the blocks
-/

namespace Cyrux.Sync

variable {Hash V DB Tx : Type} [DecidableEq Hash]

def rootsBetween {hash : Header Hash → Hash} (chain : (linkage hash).CanonicalChain) (a b : ℕ) :
    List Hash :=
  (chain.interval a b).map Header.stateRoot

omit [DecidableEq Hash] in
theorem rootsBetween_of_le {hash : Header Hash → Hash} (chain : (linkage hash).CanonicalChain)
    {a b : ℕ} (h : b ≤ a) : rootsBetween chain a b = [] := by
  rw [rootsBetween, chain.interval_of_le h, List.map_nil]

omit [DecidableEq Hash] in
theorem rootsBetween_append {hash : Header Hash → Hash} (chain : (linkage hash).CanonicalChain)
    (a : ℕ) {b c : ℕ} (h : b ≤ c) :
    rootsBetween chain a b ++ rootsBetween chain (max b a) c = rootsBetween chain a c := by
  rcases Nat.le_total a b with hab | hba
  · rw [Nat.max_eq_left hab]
    simp only [rootsBetween, ← List.map_append, chain.interval_append hab h]
  · rw [Nat.max_eq_right hba, rootsBetween_of_le chain hba, List.nil_append]

namespace BlockSyncState

variable (X : Externals Hash V DB Tx)

structure Trusted (chain : (linkage X.hash).CanonicalChain) (good : V → Prop) : Prop where
  keeps : ∀ v bridge header ancestry grandpa, good v →
    good (X.submitFinalizedHeaders v bridge header ancestry grandpa).2
  accepts : ∀ v bridge header ancestry grandpa, good v →
    (X.submitFinalizedHeaders v bridge header ancestry grandpa).1 = .ok () →
    ∃ n, header = chain.block n

theorem mock_trusted : Trusted Mock.externals (Mock.chain false) fun _ => True where
  keeps _ _ _ _ _ _ := trivial
  accepts _ _ h _ _ _ accepted := by
    refine ⟨h.number, ?_⟩
    by_contra hne
    have hne' : ¬ h = Mock.header false h.number := hne
    simp [Mock.externals, hne'] at accepted

variable {X} {chain : (linkage X.hash).CanonicalChain} {good : V → Prop}

def withValidator (q : SyncQueue V Hash) (v : V) : SyncQueue V Hash :=
  { q with syncState := { q.syncState with validator := v } }

omit [DecidableEq Hash] in
theorem submitFinalizedHeaders_runs (trusted : Trusted X chain good) {q : SyncQueue V Hash}
    (hq : good q.syncState.validator) (header : Header Hash) (ancestry : List (Header Hash))
    (grandpa : Bytes) :
    Runs (submitFinalizedHeaders X header ancestry grandpa) q
      (fun _ q' => ∃ v n, good v ∧ header = chain.block n ∧ q' = withValidator q v)
      (fun _ q' => ∃ v, good v ∧ q' = withValidator q v) := by
  apply Runs.get_bind
  apply Runs.alter_bind
  have hv := trusted.keeps _ q.syncState.mainBridge header ancestry grandpa hq
  split
  · rename_i accepted
    obtain ⟨n, hn⟩ := trusted.accepts _ _ _ _ _ hq accepted
    exact ⟨_, n, hv, hn, rfl⟩
  · exact ⟨_, hv, rfl⟩

theorem syncHeader_runs (trusted : Trusted X chain good) {q : SyncQueue V Hash}
    (hq : good q.syncState.validator) (headers : List (HeaderToSync Hash)) (skip : ℕ) :
    Runs (syncHeader X headers skip) q
      (fun _ q' => q' = q ∨ ∃ v n, good v ∧ q.syncState.headerNumberNext ≤ n ∧
        q' = { syncState := { q.syncState with validator := v, headerNumberNext := n + 1 }
               stateRoots := q.stateRoots ++
                rootsBetween chain (max q.syncState.headerNumberNext skip) (n + 1) })
      (fun _ q' => ∃ v, good v ∧ q' = withValidator q v) := by
  have unchanged : ∃ v, good v ∧ q = withValidator q v := ⟨_, hq, rfl⟩
  apply Runs.get_bind
  dsimp only
  split
  · exact .inl rfl
  · rename_i first rest filtered
    rw [filtered]
    apply Runs.ensure_bind _ fun _ => unchanged
    intro hfirst
    apply Runs.demand_bind _ fun _ => unchanged
    intro last hlast
    apply Runs.demand_bind _ fun _ => unchanged
    intro justification _
    apply Runs.ensure_bind _ fun _ => unchanged
    intro linked
    apply Runs.bind
    apply (submitFinalizedHeaders_runs trusted hq _ _ _).mono _ fun _ _ h => h
    rintro _ _ ⟨v, n, hv, hn, rfl⟩
    have hlast' : ((first :: rest).map HeaderToSync.header).getLast? = some (chain.block n) := by
      rw [List.getLast?_map, hlast, ← hn]
      rfl
    obtain ⟨hle, hinterval⟩ := chain.eq_interval linked hfirst hlast'
    refine .inr ⟨v, n, hv, hle, ?_⟩
    have hnumber : last.header.number = n := by
      rw [hn]
      exact chain.number_block n
    rw [List.map_cons, hinterval, hnumber]
    have hfilter := chain.filter_interval q.syncState.headerNumberNext (n + 1) skip
    simp only [rootsBetween, ← hfilter]
    rfl

/-! ## Feeding blocks -/

def firstQueued (s : BlockSyncState V) : ℕ :=
  if s.genesisStateValidated then s.blockNumberNext else s.blockNumberNext - 1

structure Aligned (chain : (linkage X.hash).CanonicalChain) (top : ℕ) (q : SyncQueue V Hash) :
    Prop where
  stateRoots : q.stateRoots = rootsBetween chain (firstQueued q.syncState) top
  positive : 1 ≤ q.syncState.blockNumberNext
  validated : q.syncState.genesisStateValidated = true → q.syncState.blockNumberNext ≤ top

structure Fed (q q' : SyncQueue V Hash) : Prop where
  validator : q'.syncState.validator = q.syncState.validator
  headerNumberNext : q'.syncState.headerNumberNext = q.syncState.headerNumberNext
  unvalidated : q'.syncState.genesisStateValidated = false →
    firstQueued q'.syncState = firstQueued q.syncState

omit [DecidableEq Hash] in
theorem Fed.refl (q : SyncQueue V Hash) : Fed q q := ⟨rfl, rfl, fun _ => rfl⟩

omit [DecidableEq Hash] in
theorem Fed.validated {q q' : SyncQueue V Hash}
    (validator : q'.syncState.validator = q.syncState.validator)
    (headerNumberNext : q'.syncState.headerNumberNext = q.syncState.headerNumberNext)
    (validated : q'.syncState.genesisStateValidated = true) : Fed q q' := by
  refine ⟨validator, headerNumberNext, fun unvalidated => ?_⟩
  rw [validated] at unvalidated
  cases unvalidated

omit [DecidableEq Hash] in
theorem head_rootsBetween {a top : ℕ} {root : Hash}
    (h : (rootsBetween chain a top).head? = some root) :
    a < top ∧ root = (chain.block a).stateRoot ∧
      (rootsBetween chain a top).tail = rootsBetween chain (a + 1) top := by
  by_cases hlt : a < top
  · unfold rootsBetween at h ⊢
    rw [chain.interval_eq_cons hlt] at h ⊢
    simp only [List.map_cons, List.head?_cons, Option.some.injEq, List.tail_cons] at h ⊢
    exact ⟨hlt, h.symm, trivial⟩
  · unfold rootsBetween at h
    rw [chain.interval_of_le (by omega)] at h
    simp at h

theorem validateGenesisState_runs {top : ℕ} {q : SyncQueue V Hash}
    {storage : TrieStorage Hash DB} (h : Aligned chain top q)
    (unvalidated : q.syncState.genesisStateValidated = false) :
    Runs validateGenesisState (q, storage)
      (fun _ t => Aligned chain top t.1 ∧ Fed q t.1 ∧
        t.1.syncState.genesisStateValidated = true ∧
        t.1.syncState.blockNumberNext = q.syncState.blockNumberNext)
      (fun _ t => Aligned chain top t.1 ∧ Fed q t.1) := by
  have unchanged : Aligned chain top q ∧ Fed q q := ⟨h, Fed.refl q⟩
  apply Runs.demand_bind
  case missing => exact fun _ => unchanged
  intro root hroot
  apply Runs.ensure_bind
  case fails => exact fun _ => unchanged
  intro _
  have hfirst : firstQueued q.syncState = q.syncState.blockNumberNext - 1 := by
    simp [firstQueued, unvalidated]
  have hpos := h.positive
  rw [h.stateRoots, hfirst] at hroot
  obtain ⟨hlt, -, htail⟩ := head_rootsBetween hroot
  have hle : q.syncState.blockNumberNext ≤ top := by omega
  have aligned : Aligned chain top
      ⟨{ q.syncState with genesisStateValidated := true }, q.stateRoots.tail⟩ := by
    constructor
    case stateRoots =>
      rw [h.stateRoots, hfirst, htail, Nat.sub_add_cancel hpos]
      rfl
    case positive => exact hpos
    case validated => exact fun _ => hle
  exact ⟨aligned, .validated rfl rfl rfl, rfl, rfl⟩

theorem applyBlock_runs {top : ℕ} {q : SyncQueue V Hash} {storage : TrieStorage Hash DB}
    (h : Aligned chain top q) (validated : q.syncState.genesisStateValidated = true)
    (block : BlockHeaderWithChanges Hash) :
    Runs (applyBlock X block) (q, storage)
      (fun _ t => Aligned chain top t.1 ∧ Fed q t.1 ∧
        t.1.syncState.genesisStateValidated = true ∧
        t.2.root = (chain.block q.syncState.blockNumberNext).stateRoot)
      (fun _ t => Aligned chain top t.1 ∧ Fed q t.1 ∧
        t.1.syncState.genesisStateValidated = true) := by
  have unchanged : Aligned chain top q ∧ Fed q q ∧ q.syncState.genesisStateValidated = true :=
    ⟨h, Fed.refl q, validated⟩
  apply Runs.demand_bind
  case missing => exact fun _ => unchanged
  intro root hroot
  apply Runs.ensure_bind
  case fails => exact fun _ => unchanged
  intro hexpected
  have hfirst : firstQueued q.syncState = q.syncState.blockNumberNext := by
    simp [firstQueued, validated]
  rw [h.stateRoots, hfirst] at hroot
  obtain ⟨hlt, hcanonical, htail⟩ := head_rootsBetween hroot
  have aligned : Aligned chain top
      ⟨{ q.syncState with blockNumberNext := q.syncState.blockNumberNext + 1 },
        q.stateRoots.tail⟩ := by
    constructor
    case stateRoots =>
      rw [h.stateRoots, hfirst, htail]
      simp [firstQueued, validated]
    case positive => exact Nat.le_add_left 1 _
    case validated => exact fun _ => hlt
  exact ⟨aligned, .validated rfl rfl validated, validated, hexpected.symm.trans hcanonical⟩

theorem feedBlock_runs {top : ℕ} {q : SyncQueue V Hash} (h : Aligned chain top q)
    (block : BlockHeaderWithChanges Hash) (storage : TrieStorage Hash DB) :
    Runs (feedBlock X block false) (q, storage)
      (fun _ t => Aligned chain top t.1 ∧ Fed q t.1 ∧
        t.2.root = (chain.block block.blockHeader.number).stateRoot)
      (fun _ t => Aligned chain top t.1 ∧ Fed q t.1) := by
  apply Runs.ensure_bind
  case fails => exact fun _ => ⟨h, Fed.refl q⟩
  intro hnumber
  rw [hnumber]
  simp only [Bool.false_eq_true, if_false]
  split
  · rename_i unvalidated
    apply Runs.bind
    apply (validateGenesisState_runs h unvalidated).mono
    · rintro _ ⟨q', storage'⟩ ⟨h', fed, validated, hblock⟩
      apply (applyBlock_runs h' validated block).mono
      · rintro _ t ⟨ht, fed', hvalidated, hroot⟩
        rw [hblock] at hroot
        exact ⟨ht, .validated (fed'.validator.trans fed.validator)
          (fed'.headerNumberNext.trans fed.headerNumberNext) hvalidated, hroot⟩
      · rintro _ t ⟨ht, fed', hvalidated⟩
        exact ⟨ht, .validated (fed'.validator.trans fed.validator)
          (fed'.headerNumberNext.trans fed.headerNumberNext) hvalidated⟩
    · exact fun _ _ h => h
  · rename_i validated
    apply (applyBlock_runs h (by simpa using validated) block).mono
    · exact fun _ t ⟨ht, fed, _, hroot⟩ => ⟨ht, fed, hroot⟩
    · exact fun _ t ⟨ht, fed, _⟩ => ⟨ht, fed⟩

end BlockSyncState

/-! ## The synchronizer of a solochain -/

namespace SolochainSynchronizer

open BlockSyncState

section

variable (X : Externals Hash V DB Tx)

inductive Reached (validator : V) (mainBridge : ℕ) : SolochainSynchronizer V Hash → Prop
  | new : Reached validator mainBridge (new validator mainBridge)
  | syncHeader (s) (h : Reached validator mainBridge s) (headers : List (HeaderToSync Hash)) :
      Reached validator mainBridge ((syncHeader X headers).after s)
  | feedBlock (s) (h : Reached validator mainBridge s) (block : BlockHeaderWithChanges Hash)
      (storage : TrieStorage Hash DB) :
      Reached validator mainBridge ((feedBlock X block false).after (s, storage)).1
  | assumeAtBlock (s) (h : Reached validator mainBridge s) (blockNumber : ℕ) :
      Reached validator mainBridge ((assumeAtBlock blockNumber).after s)

end

variable {X : Externals Hash V DB Tx} {chain : (linkage X.hash).CanonicalChain} {good : V → Prop}

def Sound (chain : (linkage X.hash).CanonicalChain) (good : V → Prop)
    (s : SolochainSynchronizer V Hash) : Prop :=
  good s.syncState.validator ∧ Aligned chain s.syncState.headerNumberNext s

theorem sound_syncHeader (trusted : Trusted X chain good) {s : SolochainSynchronizer V Hash}
    (h : Sound chain good s) (headers : List (HeaderToSync Hash)) :
    Sound chain good ((syncHeader X headers).after s) := by
  obtain ⟨hgood, haligned⟩ := h
  apply Runs.of_after
  apply Runs.get_bind
  apply Runs.ensure_bind
  case fails => exact fun _ => ⟨hgood, haligned⟩
  intro hpos
  apply (syncHeader_runs trusted hgood headers _).mono
  · rintro _ _ (rfl | ⟨v, n, hv, hle, rfl⟩)
    · exact ⟨hgood, haligned⟩
    · have hskip : max s.syncState.headerNumberNext (s.syncState.blockNumberNext - 1) =
          max s.syncState.headerNumberNext (firstQueued s.syncState) := by
        unfold firstQueued
        split
        · have := haligned.validated ‹_›
          omega
        · rfl
      refine ⟨hv, ?_, hpos, fun validated => ?_⟩
      · rw [hskip, haligned.stateRoots, rootsBetween_append chain _ (by omega)]
        rfl
      · have := haligned.validated validated
        change s.syncState.blockNumberNext ≤ n + 1
        omega
  · rintro _ _ ⟨v, hv, rfl⟩
    exact ⟨hv, haligned.stateRoots, haligned.positive, haligned.validated⟩

theorem sound_feedBlock {s : SolochainSynchronizer V Hash} (h : Sound chain good s)
    (block : BlockHeaderWithChanges Hash) (storage : TrieStorage Hash DB) :
    Sound chain good ((feedBlock X block false).after (s, storage)).1 := by
  obtain ⟨hgood, haligned⟩ := h
  have key : ∀ s', Aligned chain s.syncState.headerNumberNext s' ∧ Fed s s' →
      Sound chain good s' := by
    rintro s' ⟨haligned', fed⟩
    refine ⟨?_, ?_⟩
    · rw [fed.validator]
      exact hgood
    · rw [fed.headerNumberNext]
      exact haligned'
  have runs := feedBlock_runs haligned block storage
  obtain ⟨_, -, ht, fed, -⟩ | ⟨_, -, ht⟩ := runs.outcome
  · exact key _ ⟨ht, fed⟩
  · exact key _ ht

omit [DecidableEq Hash] in
theorem sound_assumeAtBlock {s : SolochainSynchronizer V Hash} (h : Sound chain good s)
    (blockNumber : ℕ) : Sound chain good ((assumeAtBlock blockNumber).after s) := by
  apply Runs.of_after
  apply Runs.ensure_bind
  case fails => exact fun _ => h
  intro hguard
  obtain ⟨hgood, haligned⟩ := h
  have hpos := haligned.positive
  have hnone : s.syncState.headerNumberNext = 0 := by omega
  have hroots : s.stateRoots = [] := by
    rw [haligned.stateRoots, hnone, rootsBetween_of_le chain (Nat.zero_le _)]
  refine ⟨hgood, ?_, Nat.le_add_left 1 _, fun validated => ?_⟩
  · change s.stateRoots = rootsBetween chain _ s.syncState.headerNumberNext
    rw [hroots, hnone, rootsBetween_of_le chain (Nat.zero_le _)]
  · -- the initial state is validated against a header, and there is none
    have := haligned.validated validated
    omega

theorem Reached.sound (trusted : Trusted X chain good) {validator : V} {mainBridge : ℕ}
    (hgood : good validator) {s : SolochainSynchronizer V Hash}
    (h : Reached X validator mainBridge s) : Sound chain good s := by
  induction h with
  | new => exact ⟨hgood, (rootsBetween_of_le chain le_rfl).symm, le_rfl, fun h => by cases h⟩
  | syncHeader s _ headers ih => exact sound_syncHeader trusted ih headers
  | feedBlock s _ block storage ih => exact sound_feedBlock ih block storage
  | assumeAtBlock s _ blockNumber ih => exact sound_assumeAtBlock ih blockNumber

/-- The queued state roots are those of the canonical headers to come. -/
theorem solochain_sync_aligned (X : Externals Hash V DB Tx)
    (chain : (linkage X.hash).CanonicalChain) (good : V → Prop) (trusted : Trusted X chain good)
    (validator : V) (hgood : good validator) (mainBridge : ℕ) (s : SolochainSynchronizer V Hash)
    (reached : Reached X validator mainBridge s) :
    s.stateRoots = rootsBetween chain (firstQueued s.syncState) s.syncState.headerNumberNext ∧
      ∀ (block : BlockHeaderWithChanges Hash) (storage : TrieStorage Hash DB),
        (feedBlock X block false).result (s, storage) = .ok () →
        ((feedBlock X block false).after (s, storage)).2.root =
          (chain.block block.blockHeader.number).stateRoot := by
  have h := reached.sound trusted hgood
  refine ⟨h.2.stateRoots, fun block storage accepted => ?_⟩
  have runs := feedBlock_runs h.2 block storage
  exact (runs.of_ok accepted).2.2

theorem solochain_sync_aligned_fed :
    let s := (syncHeader Mock.externals [Mock.toSync 0, Mock.toSync 1]).after (new () 0)
    s.stateRoots = [0, 1] ∧
      (feedBlock Mock.externals (Mock.block 1 1) false).result (s, ⟨(), 0⟩) = .ok () ∧
      ((feedBlock Mock.externals (Mock.block 1 1) false).after (s, ⟨(), 0⟩)).2.root =
        ((Mock.chain false).block 1).stateRoot := by
  intro s
  have accepted :
      (feedBlock Mock.externals (Mock.block 1 1) false).result (s, ⟨(), 0⟩) = .ok () := by
    decide
  have aligned := solochain_sync_aligned Mock.externals (Mock.chain false) (fun _ => True)
    mock_trusted () trivial 0 s (.syncHeader _ .new _)
  exact ⟨by decide, accepted, aligned.2 _ _ accepted⟩

end SolochainSynchronizer

/-! ## The synchronizer of a parachain -/

namespace ParachainSynchronizer

open BlockSyncState

section

variable (X : Externals Hash V DB Tx)

structure ParaTrusted (relay para : (linkage X.hash).CanonicalChain) (good : V → Prop) : Prop
    extends Trusted X relay good where
  included : ∀ v n proof storageKey header, good v →
    X.validateStorageProof v (relay.block n).stateRoot proof
      [(storageKey, X.encode header)] = .ok () →
    ∃ m, header = para.block m

theorem mock_paraTrusted :
    ParaTrusted Mock.externals (Mock.chain false) (Mock.chain true) fun _ => True where
  toTrusted := mock_trusted
  included _ _ _ _ h _ accepted := by
    refine ⟨h.number, ?_⟩
    by_contra hne
    have hne' : ¬ h = Mock.header true h.number := hne
    simp [Mock.externals, hne'] at accepted

inductive Reached (allowed : ParachainSynchronizer V Hash → Prop) (validator : V)
    (mainBridge headernumNext : ℕ) : ParachainSynchronizer V Hash → Prop
  | new : Reached allowed validator mainBridge headernumNext
      (new validator mainBridge headernumNext)
  | syncHeader (s) (h : Reached allowed validator mainBridge headernumNext s)
      (headers : List (HeaderToSync Hash)) :
      Reached allowed validator mainBridge headernumNext ((syncHeader X headers).after s)
  | syncParachainHeader (s) (h : Reached allowed validator mainBridge headernumNext s)
      (headers : List (Header Hash)) (proof : StorageProof) (storageKey : Bytes) :
      Reached allowed validator mainBridge headernumNext
        ((syncParachainHeader X headers proof storageKey).after s)
  | feedBlock (s) (h : Reached allowed validator mainBridge headernumNext s)
      (block : BlockHeaderWithChanges Hash) (storage : TrieStorage Hash DB) :
      Reached allowed validator mainBridge headernumNext
        ((feedBlock X block false).after (s, storage)).1
  | assumeAtBlock (s) (h : Reached allowed validator mainBridge headernumNext s)
      (permitted : allowed s) (blockNumber : ℕ) :
      Reached allowed validator mainBridge headernumNext ((assumeAtBlock blockNumber).after s)

end

variable {X : Externals Hash V DB Tx} {relay para : (linkage X.hash).CanonicalChain}
  {good : V → Prop}

def queue (s : ParachainSynchronizer V Hash) : SyncQueue V Hash := ⟨s.syncState, s.paraStateRoots⟩

structure Sound (relay para : (linkage X.hash).CanonicalChain) (good : V → Prop)
    (s : ParachainSynchronizer V Hash) : Prop where
  good : good s.syncState.validator
  aligned : Aligned para s.paraHeaderNumberNext s.queue
  noGap : firstQueued s.syncState ≤ s.paraHeaderNumberNext
  cached : ∀ root, s.lastRelaychainStateRoot = some root → ∃ n, root = (relay.block n).stateRoot

omit [DecidableEq Hash] in
theorem getLast_rootsBetween {a b : ℕ} {root : Hash}
    (h : (rootsBetween relay a b).getLast? = some root) :
    ∃ n, root = (relay.block n).stateRoot := by
  have hmem := List.mem_of_getLast? h
  simp only [rootsBetween, Linkage.CanonicalChain.interval, List.map_map, List.mem_map] at hmem
  obtain ⟨n, -, rfl⟩ := hmem
  exact ⟨n, rfl⟩

theorem sound_syncHeader (trusted : ParaTrusted X relay para good)
    {s : ParachainSynchronizer V Hash} (h : Sound relay para good s)
    (headers : List (HeaderToSync Hash)) :
    Sound relay para good ((syncHeader X headers).after s) := by
  apply Runs.of_after
  apply Runs.bind
  apply Runs.focus
  apply Runs.bind
  apply (syncHeader_runs trusted.toTrusted h.good headers 0).mono
  · rintro lastHeader _ (rfl | ⟨v, n, hv, -, rfl⟩)
    · exact ⟨h.good, h.aligned, h.noGap, h.cached⟩
    · refine ⟨hv, ⟨h.aligned.stateRoots, h.aligned.positive, h.aligned.validated⟩, h.noGap, ?_⟩
      intro root hroot
      rcases Option.or_eq_some_iff.1 hroot with hlast | ⟨-, hlast⟩
      · exact getLast_rootsBetween hlast
      · exact h.cached root hlast
  · rintro _ _ ⟨v, hv, rfl⟩
    exact ⟨hv, ⟨h.aligned.stateRoots, h.aligned.positive, h.aligned.validated⟩, h.noGap, h.cached⟩

theorem sound_syncParachainHeader (trusted : ParaTrusted X relay para good)
    {s : ParachainSynchronizer V Hash} (h : Sound relay para good s)
    (headers : List (Header Hash)) (proof : StorageProof) (storageKey : Bytes) :
    Sound relay para good ((syncParachainHeader X headers proof storageKey).after s) := by
  apply Runs.of_after
  apply Runs.get_bind
  dsimp only
  split
  · exact h
  · rename_i first rest filtered
    rw [filtered]
    apply Runs.ensure_bind
    case fails => exact fun _ => h
    intro hfirst
    apply Runs.demand_bind
    case missing => exact fun _ => h
    intro last hlast
    apply Runs.demand_bind
    case missing => exact fun _ => h
    intro stateRoot hroot
    split
    · exact h
    · rename_i proved
      apply Runs.ensure_bind
      case fails => exact fun _ => h
      intro linked
      obtain ⟨n, rfl⟩ := h.cached stateRoot hroot
      obtain ⟨m, rfl⟩ := trusted.included _ n proof storageKey last h.good proved
      obtain ⟨hle, hinterval⟩ := para.eq_interval linked hfirst.symm hlast
      have hnumber : (para.block m).number = m := para.number_block m
      have hgap := h.noGap
      have hroots : s.paraStateRoots ++ (first :: rest).map Header.stateRoot =
          rootsBetween para (firstQueued s.syncState) (m + 1) := by
        have happend := rootsBetween_append para (firstQueued s.syncState)
          (show s.paraHeaderNumberNext ≤ m + 1 by omega)
        rw [Nat.max_eq_left hgap] at happend
        rw [← happend, hinterval]
        exact congrArg (· ++ rootsBetween para _ _) h.aligned.stateRoots
      have hmore : s.paraHeaderNumberNext ≤ m + 1 := by omega
      refine ⟨h.good, ⟨?_, h.aligned.positive, fun validated => ?_⟩, ?_, fun root hroot => ?_⟩
      · rw [hnumber]
        exact hroots
      · rw [hnumber]
        exact (h.aligned.validated validated).trans hmore
      · rw [hnumber]
        exact hgap.trans hmore
      · cases hroot

theorem sound_feedBlock {s : ParachainSynchronizer V Hash} (h : Sound relay para good s)
    (block : BlockHeaderWithChanges Hash) (storage : TrieStorage Hash DB) :
    Sound relay para good ((feedBlock X block false).after (s, storage)).1 := by
  have key : ∀ q, Aligned para s.paraHeaderNumberNext q ∧ Fed s.queue q →
      Sound relay para good
        { s with syncState := q.syncState, paraStateRoots := q.stateRoots } := by
    rintro q ⟨haligned, fed⟩
    refine ⟨?_, haligned, ?_, h.cached⟩
    · change good q.syncState.validator
      rw [fed.validator]
      exact h.good
    · change firstQueued q.syncState ≤ s.paraHeaderNumberNext
      cases hvalidated : q.syncState.genesisStateValidated with
      | false =>
        rw [fed.unvalidated hvalidated]
        exact h.noGap
      | true =>
        have := haligned.validated hvalidated
        simpa [firstQueued, hvalidated] using this
  have runs : Runs (feedBlock X block false) (s, storage) (fun _ t => Sound relay para good t.1)
      (fun _ t => Sound relay para good t.1) := by
    apply Runs.focus
    apply (feedBlock_runs h.aligned block storage).mono
    · exact fun _ t ⟨ht, fed, _⟩ => key t.1 ⟨ht, fed⟩
    · exact fun _ t ht => key t.1 ht
  obtain ⟨_, -, ht⟩ | ⟨_, -, ht⟩ := runs.outcome
  · exact ht
  · exact ht

omit [DecidableEq Hash] in
theorem sound_assumeAtBlock {s : ParachainSynchronizer V Hash} (h : Sound relay para good s)
    (unsynced : s.paraHeaderNumberNext ≠ 1) (blockNumber : ℕ) :
    Sound relay para good ((assumeAtBlock blockNumber).after s) := by
  apply Runs.of_after
  apply Runs.ensure_bind
  case fails => exact fun _ => h
  intro hguard
  have hnone : s.paraHeaderNumberNext = 0 := by omega
  have hunvalidated : s.syncState.genesisStateValidated = false := by
    by_contra hvalidated
    rw [Bool.not_eq_false] at hvalidated
    have hle : s.syncState.blockNumberNext ≤ _ := h.aligned.validated hvalidated
    have hpos : 1 ≤ s.syncState.blockNumberNext := h.aligned.positive
    omega
  have hroots : s.paraStateRoots = [] := by
    have hroots := h.aligned.stateRoots
    rwa [hnone, rootsBetween_of_le para (Nat.zero_le _)] at hroots
  have hfirst : firstQueued { s.syncState with blockNumberNext := blockNumber + 1 } =
      blockNumber := by
    simp [firstQueued, hunvalidated]
  refine ⟨h.good, ⟨?_, Nat.le_add_left 1 _, fun validated => ?_⟩, hfirst.le, h.cached⟩
  · change s.paraStateRoots = rootsBetween para
      (firstQueued { s.syncState with blockNumberNext := blockNumber + 1 }) blockNumber
    rw [hroots, hfirst, rootsBetween_of_le para le_rfl]
  · change s.syncState.genesisStateValidated = true at validated
    rw [hunvalidated] at validated
    cases validated

theorem Reached.sound (trusted : ParaTrusted X relay para good) {validator : V}
    {mainBridge headernumNext : ℕ} (hgood : good validator) {s : ParachainSynchronizer V Hash}
    (h : Reached X (fun s => s.paraHeaderNumberNext ≠ 1) validator mainBridge headernumNext s) :
    Sound relay para good s := by
  induction h with
  | new =>
    refine ⟨hgood, ⟨?_, le_rfl, fun h => by cases h⟩, le_rfl, fun _ h => by cases h⟩
    exact (rootsBetween_of_le para le_rfl).symm
  | syncHeader s _ headers ih => exact sound_syncHeader trusted ih headers
  | syncParachainHeader s _ headers proof storageKey ih =>
    exact sound_syncParachainHeader trusted ih headers proof storageKey
  | feedBlock s _ block storage ih => exact sound_feedBlock ih block storage
  | assumeAtBlock s _ unsynced blockNumber ih => exact sound_assumeAtBlock ih unsynced blockNumber

/-- The queue of the parachain synchronizer is aligned after any calls. -/
theorem parachain_sync_aligned (X : Externals Hash V DB Tx)
    (relay para : (linkage X.hash).CanonicalChain) (good : V → Prop)
    (trusted : ParaTrusted X relay para good) (validator : V) (hgood : good validator)
    (mainBridge headernumNext : ℕ) (s : ParachainSynchronizer V Hash)
    (reached :
      Reached X (fun s => s.paraHeaderNumberNext ≠ 1) validator mainBridge headernumNext s) :
    s.paraStateRoots = rootsBetween para (firstQueued s.syncState) s.paraHeaderNumberNext ∧
      ∀ (block : BlockHeaderWithChanges Hash) (storage : TrieStorage Hash DB),
        (feedBlock X block false).result (s, storage) = .ok () →
        ((feedBlock X block false).after (s, storage)).2.root =
          (para.block block.blockHeader.number).stateRoot := by
  have h := reached.sound trusted hgood
  refine ⟨h.aligned.stateRoots, fun block storage accepted => ?_⟩
  have runs : Runs (feedBlock X block false) (s, storage)
      (fun _ t => t.2.root = (para.block block.blockHeader.number).stateRoot)
      (fun _ _ => True) := by
    apply Runs.focus
    apply (feedBlock_runs h.aligned block storage).mono
    · exact fun _ _ ⟨_, _, hroot⟩ => hroot
    · exact fun _ _ _ => trivial
  exact runs.of_ok accepted

theorem parachain_sync_aligned_fed :
    let s₀ := (syncHeader Mock.externals [Mock.toSync 0]).after (new () 0 0)
    let s := (syncParachainHeader Mock.externals [Mock.header true 0, Mock.header true 1] []
      []).after s₀
    s.paraStateRoots = [0, 1] ∧
      (feedBlock Mock.externals (Mock.block 1 1) false).result (s, ⟨(), 0⟩) = .ok () ∧
      ((feedBlock Mock.externals (Mock.block 1 1) false).after (s, ⟨(), 0⟩)).2.root =
        ((Mock.chain true).block 1).stateRoot := by
  intro s₀ s
  have accepted :
      (feedBlock Mock.externals (Mock.block 1 1) false).result (s, ⟨(), 0⟩) = .ok () := by
    decide
  have aligned := parachain_sync_aligned Mock.externals (Mock.chain false) (Mock.chain true)
    (fun _ => True) mock_paraTrusted () trivial 0 0 s
    (.syncParachainHeader _ (.syncHeader _ .new _) _ _ _)
  exact ⟨by decide, accepted, aligned.2 _ _ accepted⟩

theorem assumed_block_misaligned :
    ∃ s : ParachainSynchronizer Unit ℤ,
      Reached Mock.externals (fun _ => True) () 0 0 s ∧
      s.paraStateRoots ≠
        rootsBetween (Mock.chain true) (firstQueued s.syncState) s.paraHeaderNumberNext ∧
      (feedBlock Mock.externals (Mock.block 6 5) false).result (s, ⟨(), 0⟩) = .ok () ∧
      ((feedBlock Mock.externals (Mock.block 6 5) false).after (s, ⟨(), 0⟩)).2.root ≠
        ((Mock.chain true).block 6).stateRoot := by
  let s₁ := (syncHeader Mock.externals [Mock.toSync 0]).after (new () 0 0)
  let s₂ := (syncParachainHeader Mock.externals [Mock.header true 0] [] []).after s₁
  let s₃ : ParachainSynchronizer Unit ℤ := (assumeAtBlock 5).after s₂
  let s₄ := (syncHeader Mock.externals [Mock.toSync 1]).after s₃
  let s₅ := (syncParachainHeader Mock.externals [Mock.header true 5] [] []).after s₄
  have reached : Reached Mock.externals (fun _ => True) () 0 0 s₅ :=
    .syncParachainHeader _ (.syncHeader _ (.assumeAtBlock _
      (.syncParachainHeader _ (.syncHeader _ .new _) _ _ _) trivial _) _) _ _ _
  exact ⟨s₅, reached, by decide, by decide, by decide⟩

end ParachainSynchronizer

end Cyrux.Sync
