import Cyrux.Sync.FailedCalls

/-!
# The light client

`crates/phactory/src/light_validation/mod.rs`
-/

namespace Cyrux.Sync

variable {Hash : Type}

abbrev BridgeId := ℕ

structure BridgeInfo (Hash : Type) where
  lastFinalizedBlockHeader : Header Hash
  currentSet : AuthoritySet

structure LightValidation (Hash : Type) where
  numBridges : BridgeId
  trackedBridges : BridgeId → Option (BridgeInfo Hash)

inductive LightError
  | noSuchBridgeExists
  | invalidAncestryProof
  | invalidFinalityProof
  | unsupportedScheduledChangeDelay
  /-- The panic of an `unwrap`. -/
  | unwrapFailed
deriving DecidableEq

def LightError.display : LightError → String
  | .noSuchBridgeExists => "no such bridge exists"
  | .invalidAncestryProof => "invalid ancestry proof"
  | .invalidFinalityProof => "invalid finality proof"
  | .unsupportedScheduledChangeDelay => "scheduled change should not have delay"
  | .unwrapFailed => "called `Option::unwrap()` on a `None` value"

structure Finality (Hash : Type) where
  hash : Header Hash → Hash
  decode : Bytes → Option ConsensusLog
  isVoterSet : AuthorityList → Bool
  verifyGrandpaProof :
    (justification : Bytes) → Hash → (number : ℕ) → (setId : ℕ) → AuthorityList → Bool

variable [DecidableEq Hash] (F : Finality Hash)

def verifyAncestryLoop (ancestorHash : Hash) : (parentHash : Hash) → List (Header Hash) → Bool
  | _, [] => false
  | parentHash, header :: proof =>
    if F.hash header ≠ parentHash then false
    else if header.parentHash = ancestorHash then true
    else verifyAncestryLoop ancestorHash header.parentHash proof

def verifyAncestry (proof : List (Header Hash)) (ancestorHash : Hash) (child : Header Hash) :
    Bool :=
  if child.parentHash = ancestorHash then true
  else verifyAncestryLoop F ancestorHash child.parentHash proof

namespace LightValidation

open Proc

def modifyBridge (self : LightValidation Hash) (bridgeId : BridgeId)
    (f : BridgeInfo Hash → BridgeInfo Hash) : LightValidation Hash :=
  { self with trackedBridges :=
      Function.update self.trackedBridges bridgeId ((self.trackedBridges bridgeId).map f) }

def submitFinalizedHeaders (bridgeId : BridgeId) (header : Header Hash)
    (ancestryProof : List (Header Hash)) (grandpaProof : Bytes) :
    Proc (LightValidation Hash) LightError Unit := do
  let self ← get
  let bridge ← demand (self.trackedBridges bridgeId) .noSuchBridgeExists
  -- the new header is a descendant of the old one
  let lastHeader := bridge.lastFinalizedBlockHeader
  ensure (verifyAncestry F ancestryProof (F.hash lastHeader) header) .invalidAncestryProof
  -- the header has been finalized
  let voters := bridge.currentSet
  ensure (F.isVoterSet voters.list) .unwrapFailed
  ensure (F.verifyGrandpaProof grandpaProof (F.hash header) header.number voters.id voters.list)
    .invalidFinalityProof
  match findScheduledChange F.decode header with
  | some scheduledChange =>
    ensure (scheduledChange.delay = 0) .unsupportedScheduledChangeDelay
    alter fun self => self.modifyBridge bridgeId fun bridge =>
      { bridge with currentSet := ⟨scheduledChange.nextAuthorities, voters.id + 1⟩ }
    alter fun self => self.modifyBridge bridgeId fun bridge =>
      { bridge with lastFinalizedBlockHeader := header }
  | none =>
    alter fun self => self.modifyBridge bridgeId fun bridge =>
      { bridge with lastFinalizedBlockHeader := header }

end LightValidation

/-! ## What a session finalizes -/

def scheduledChanges (headers : List (Header Hash)) : List ScheduledChange :=
  headers.filterMap (findScheduledChange F.decode)

def setAfter (initial : AuthoritySet) (headers : List (Header Hash)) : AuthoritySet where
  list := ((scheduledChanges F headers).getLast?.map ScheduledChange.nextAuthorities).getD
    initial.list
  id := initial.id + (scheduledChanges F headers).length

structure Honest (genesis : Header Hash) (initial : AuthoritySet)
    (justified : AuthoritySet → Hash → ℕ → Prop) : Prop where
  sound : ∀ justification hash number set,
    F.verifyGrandpaProof justification hash number set.id set.list = true →
    justified set hash number
  /-- A set justifies no block past one that schedules its replacement. -/
  handover : ∀ before between (header : Header Hash),
    (linkage F.hash).Linked (genesis :: (before ++ between ++ [header])) →
    justified (setAfter F initial before) (F.hash header) header.number →
    ∀ h ∈ between, findScheduledChange F.decode h = none

variable {F}

omit [DecidableEq Hash] in
theorem setAfter_append_of_none {initial : AuthoritySet} {headers between : List (Header Hash)}
    (h : ∀ x ∈ between, findScheduledChange F.decode x = none) :
    setAfter F initial (headers ++ between) = setAfter F initial headers := by
  have hnone : scheduledChanges F between = [] := List.filterMap_eq_nil_iff.2 h
  have happend : scheduledChanges F (headers ++ between) = scheduledChanges F headers := by
    rw [scheduledChanges, List.filterMap_append]
    exact (congrArg _ hnone).trans (List.append_nil _)
  simp only [setAfter, happend]

omit [DecidableEq Hash] in
theorem setAfter_append_change {initial : AuthoritySet} {headers : List (Header Hash)}
    {header : Header Hash} {change : ScheduledChange}
    (h : findScheduledChange F.decode header = some change) :
    setAfter F initial (headers ++ [header]) =
      ⟨change.nextAuthorities, (setAfter F initial headers).id + 1⟩ := by
  have happend : scheduledChanges F (headers ++ [header]) =
      scheduledChanges F headers ++ [change] := by
    simp [scheduledChanges, h]
  simp only [setAfter, happend, List.getLast?_concat, Option.map_some, Option.getD_some,
    List.length_append, List.length_singleton, Nat.add_assoc]

theorem linked_of_verifyAncestryLoop {ancestor : Header Hash} {parentHash : Hash}
    {proof : List (Header Hash)}
    (h : verifyAncestryLoop F (F.hash ancestor) parentHash proof = true) (child : Header Hash)
    (hchild : child.parentHash = parentHash) :
    ∃ between, (linkage F.hash).Linked (ancestor :: (between ++ [child])) := by
  induction proof generalizing parentHash child with
  | nil => cases h
  | cons header proof ih =>
    unfold verifyAncestryLoop at h
    split at h
    · cases h
    · rename_i hhash
      have hparent : F.hash header = child.parentHash := by
        rw [hchild]
        exact not_not.1 hhash
      split at h
      · rename_i hancestor
        refine ⟨[header], ?_⟩
        exact .cons_cons hancestor.symm (.cons_cons hparent (.singleton _))
      · obtain ⟨between, linked⟩ := ih h header rfl
        refine ⟨between ++ [header], ?_⟩
        have split : ancestor :: (between ++ [header] ++ [child]) =
            (ancestor :: between) ++ header :: [child] := by simp
        rw [split]
        apply List.isChain_split.2
        exact ⟨linked, .cons_cons hparent (.singleton _)⟩

theorem linked_of_verifyAncestry {ancestor child : Header Hash} {proof : List (Header Hash)}
    (h : verifyAncestry F proof (F.hash ancestor) child = true) :
    ∃ between, (linkage F.hash).Linked (ancestor :: (between ++ [child])) := by
  unfold verifyAncestry at h
  split at h
  · rename_i hparent
    exact ⟨[], .cons_cons hparent.symm (.singleton _)⟩
  · exact linked_of_verifyAncestryLoop h child rfl

namespace LightValidation

def nextSet (F : Finality Hash) (set : AuthoritySet) (header : Header Hash) : AuthoritySet :=
  match findScheduledChange F.decode header with
  | some change => ⟨change.nextAuthorities, set.id + 1⟩
  | none => set

omit [DecidableEq Hash] in
theorem nextSet_setAfter {initial : AuthoritySet} {headers between : List (Header Hash)}
    {header : Header Hash} (hnone : ∀ h ∈ between, findScheduledChange F.decode h = none) :
    nextSet F (setAfter F initial headers) header =
      setAfter F initial (headers ++ between ++ [header]) := by
  unfold nextSet
  split
  · rename_i change hchange
    rw [setAfter_append_change hchange, setAfter_append_of_none hnone]
  · rename_i hchange
    rw [setAfter_append_of_none (by simpa using hchange), setAfter_append_of_none hnone]

theorem submitFinalizedHeaders_runs (v : LightValidation Hash) (b : BridgeId)
    (header : Header Hash) (proof : List (Header Hash)) (justification : Bytes) :
    Runs (submitFinalizedHeaders F b header proof justification) v
      (fun _ v' => ∃ bridge, v.trackedBridges b = some bridge ∧
        verifyAncestry F proof (F.hash bridge.lastFinalizedBlockHeader) header = true ∧
        F.verifyGrandpaProof justification (F.hash header) header.number bridge.currentSet.id
          bridge.currentSet.list = true ∧
        v' = v.modifyBridge b fun _ => ⟨header, nextSet F bridge.currentSet header⟩)
      (fun _ v' => v' = v) := by
  apply Runs.demand_bind
  case missing => exact fun _ => rfl
  intro bridge hbridge
  apply Runs.ensure_bind
  case fails => exact fun _ => rfl
  intro hancestry
  apply Runs.ensure_bind
  case fails => exact fun _ => rfl
  intro _
  apply Runs.ensure_bind
  case fails => exact fun _ => rfl
  intro hfinal
  have key : ∀ v', v' = v.modifyBridge b (fun _ => ⟨header, nextSet F bridge.currentSet header⟩) →
      ∃ bridge, v.trackedBridges b = some bridge ∧
        verifyAncestry F proof (F.hash bridge.lastFinalizedBlockHeader) header = true ∧
        F.verifyGrandpaProof justification (F.hash header) header.number bridge.currentSet.id
          bridge.currentSet.list = true ∧
        v' = v.modifyBridge b fun _ => ⟨header, nextSet F bridge.currentSet header⟩ :=
    fun v' hv' => ⟨bridge, hbridge, hancestry, hfinal, hv'⟩
  split
  · rename_i change hchange
    apply Runs.ensure_bind
    case fails => exact fun _ => rfl
    intro _
    apply key
    simp [modifyBridge, nextSet, hchange, hbridge]
  · rename_i hchange
    apply key
    simp [modifyBridge, nextSet, hchange, hbridge]

structure Submission (Hash : Type) where
  bridgeId : BridgeId
  header : Header Hash
  ancestryProof : List (Header Hash)
  grandpaProof : Bytes

def submit (F : Finality Hash) (s : Submission Hash) :
    Proc (LightValidation Hash) LightError Unit :=
  submitFinalizedHeaders F s.bridgeId s.header s.ancestryProof s.grandpaProof

structure Session (F : Finality Hash) (genesis : Header Hash) (initial : AuthoritySet)
    (b : BridgeId) (v : LightValidation Hash) (finalized : List (Header Hash)) : Prop where
  linked : (linkage F.hash).Linked (genesis :: finalized)
  bridge : v.trackedBridges b =
    some ⟨finalized.getLast?.getD genesis, setAfter F initial finalized⟩

variable {genesis : Header Hash} {initial : AuthoritySet} {b : BridgeId} {v : LightValidation Hash}
  {finalized : List (Header Hash)} {justified : AuthoritySet → Hash → ℕ → Prop}

omit [DecidableEq Hash] in
theorem linked_append {more : List (Header Hash)}
    (linked : (linkage F.hash).Linked (genesis :: finalized))
    (hmore : (linkage F.hash).Linked (finalized.getLast?.getD genesis :: more)) :
    (linkage F.hash).Linked (genesis :: (finalized ++ more)) := by
  cases finalized using List.reverseRecOn with
  | nil => exact hmore
  | append_singleton init last =>
    simp only [List.getLast?_concat, Option.getD_some] at hmore
    have split : genesis :: (init ++ [last] ++ more) = (genesis :: init) ++ last :: more := by simp
    rw [split]
    exact List.isChain_split.2 ⟨linked, hmore⟩

theorem Session.submit_runs (honest : Honest F genesis initial justified)
    (h : Session F genesis initial b v finalized) (s : Submission Hash) (hb : s.bridgeId = b) :
    Runs (submit F s) v
      (fun _ v' => ∃ between,
        (linkage F.hash).Linked (finalized.getLast?.getD genesis :: (between ++ [s.header])) ∧
        Session F genesis initial b v' (finalized ++ between ++ [s.header]))
      (fun _ v' => v' = v) := by
  subst hb
  apply (submitFinalizedHeaders_runs v _ _ _ _).mono
  · rintro _ _ ⟨bridge, hbridge, hancestry, hfinal, rfl⟩
    rw [h.bridge, Option.some.injEq] at hbridge
    subst hbridge
    obtain ⟨between, linked⟩ := linked_of_verifyAncestry hancestry
    have hlinked := linked_append h.linked linked
    rw [← List.append_assoc] at hlinked
    have hnone := honest.handover finalized between s.header hlinked (honest.sound _ _ _ _ hfinal)
    refine ⟨between, linked, hlinked, ?_⟩
    have hset : nextSet F (setAfter F initial finalized) s.header =
      setAfter F initial (finalized ++ between ++ [s.header]) := nextSet_setAfter hnone
    simp [modifyBridge, h.bridge, hset]
  · exact fun _ _ h => h

theorem Session.submit_other (h : Session F genesis initial b v finalized) (s : Submission Hash)
    (hb : s.bridgeId ≠ b) :
    Runs (submit F s) v (fun _ v' => Session F genesis initial b v' finalized)
      (fun _ v' => v' = v) := by
  apply (submitFinalizedHeaders_runs v _ _ _ _).mono
  · rintro _ _ ⟨_, -, -, -, rfl⟩
    refine ⟨h.linked, ?_⟩
    rw [← h.bridge]
    exact Function.update_of_ne hb.symm _ _
  · exact fun _ _ h => h

theorem Session.after_submit (honest : Honest F genesis initial justified)
    (h : Session F genesis initial b v finalized) (s : Submission Hash) :
    ∃ finalized', Session F genesis initial b ((submit F s).after v) finalized' := by
  by_cases hb : s.bridgeId = b
  · obtain ⟨_, -, between, -, h'⟩ | ⟨_, -, h'⟩ := (h.submit_runs honest s hb).outcome
    · exact ⟨_, h'⟩
    · rw [h']
      exact ⟨_, h⟩
  · obtain ⟨_, -, h'⟩ | ⟨_, -, h'⟩ := (h.submit_other s hb).outcome
    · exact ⟨_, h'⟩
    · rw [h']
      exact ⟨_, h⟩

theorem Session.after_submissions (honest : Honest F genesis initial justified)
    (h : Session F genesis initial b v finalized) (submissions : List (Submission Hash)) :
    ∃ finalized', Session F genesis initial b (afterCalls (submit F) v submissions) finalized' := by
  induction submissions generalizing v finalized with
  | nil => exact ⟨finalized, h⟩
  | cons s submissions ih =>
    obtain ⟨finalized', h'⟩ := h.after_submit honest s
    exact ih h'

/-- Finalized headers are linked, under the authority set they schedule. -/
theorem light_client_safe (F : Finality Hash) (genesis : Header Hash) (initial : AuthoritySet)
    (justified : AuthoritySet → Hash → ℕ → Prop) (honest : Honest F genesis initial justified)
    (v₀ : LightValidation Hash) (b : BridgeId)
    (initialised : v₀.trackedBridges b = some ⟨genesis, initial⟩)
    (submissions : List (Submission Hash)) :
    let v := afterCalls (submit F) v₀ submissions
    ∃ finalized : List (Header Hash),
      (linkage F.hash).Linked (genesis :: finalized) ∧
      v.trackedBridges b =
        some ⟨finalized.getLast?.getD genesis, setAfter F initial finalized⟩ ∧
      ∀ s : Submission Hash,
        ((submit F s).result v = .ok () → s.bridgeId = b → ∃ between,
          (linkage F.hash).Linked (finalized.getLast?.getD genesis :: (between ++ [s.header])) ∧
          ((submit F s).after v).trackedBridges b =
            some ⟨s.header, setAfter F initial (finalized ++ between ++ [s.header])⟩) ∧
        (∀ e, (submit F s).result v = .error e → (submit F s).after v = v) := by
  intro v
  have start : Session F genesis initial b v₀ [] := by
    refine ⟨.singleton _, ?_⟩
    rw [initialised]
    simp [setAfter, scheduledChanges]
  obtain ⟨finalized, h⟩ := start.after_submissions honest submissions
  refine ⟨finalized, h.linked, h.bridge, fun s => ⟨fun accepted hb => ?_, fun e rejected => ?_⟩⟩
  · obtain ⟨between, linked, h'⟩ := (h.submit_runs honest s hb).of_ok accepted
    refine ⟨between, linked, ?_⟩
    simpa using h'.bridge
  · exact (submitFinalizedHeaders_runs v _ _ _ _).of_error rejected

def mockFinality : Finality ℕ where
  hash h := h.parentHash + 1
  decode _ := some (.scheduledChange ⟨[(2, 1)], 0⟩)
  isVoterSet list := !list.isEmpty
  verifyGrandpaProof _ hash _ setId _ := hash = setId + 2

def mockHeader (n : ℕ) : Header ℕ where
  parentHash := n
  number := n
  stateRoot := 0
  extrinsicsRoot := 0
  digest := [.consensus GRANDPA_ENGINE_ID []]

theorem mock_hash_getLast {a : Header ℕ} {headers : List (Header ℕ)}
    (linked : (linkage mockFinality.hash).Linked (a :: headers)) {last : Header ℕ}
    (h : (a :: headers).getLast? = some last) :
    last.parentHash = a.parentHash + headers.length := by
  induction headers generalizing a with
  | nil =>
    simp only [List.getLast?_singleton, Option.some.injEq] at h
    simp [h]
  | cons b headers ih =>
    obtain ⟨hab, linked⟩ := List.isChain_cons_cons.1 linked
    have hb : a.parentHash + 1 = b.parentHash := hab
    rw [ih linked h, List.length_cons]
    omega

theorem mock_honest : Honest mockFinality (mockHeader 0) ⟨[(1, 1)], 0⟩
    fun set hash _ => hash = set.id + 2 where
  sound _ _ _ _ h := by simpa [mockFinality] using h
  handover before between header linked h := by
    have hlast := mock_hash_getLast linked
      (by rw [List.getLast?_cons, List.getLast?_concat])
    have hchanges : (scheduledChanges mockFinality before).length ≤ before.length :=
      List.length_filterMap_le _ _
    have hhash : header.parentHash + 1 = 0 + (scheduledChanges mockFinality before).length + 2 := h
    have hlength : header.parentHash = 0 + (before ++ between ++ [header]).length := hlast
    simp only [List.length_append, List.length_singleton] at hlength
    have hnil : between = [] := List.eq_nil_of_length_eq_zero (by omega)
    simp [hnil]

theorem light_client_safe_handover :
    let v₀ : LightValidation ℕ := ⟨1, fun _ => some ⟨mockHeader 0, ⟨[(1, 1)], 0⟩⟩⟩
    let s : Submission ℕ := ⟨1, mockHeader 1, [], []⟩
    let v := afterCalls (submit mockFinality) v₀ [s]
    (submit mockFinality s).result v₀ = .ok () ∧
      (v.trackedBridges 1).map BridgeInfo.currentSet = some ⟨[(2, 1)], 1⟩ ∧
      ∃ finalized, (linkage mockFinality.hash).Linked (mockHeader 0 :: finalized) ∧
        v.trackedBridges 1 = some ⟨finalized.getLast?.getD (mockHeader 0),
          setAfter mockFinality ⟨[(1, 1)], 0⟩ finalized⟩ := by
  intro v₀ s v
  obtain ⟨finalized, linked, hbridge, -⟩ := light_client_safe mockFinality (mockHeader 0)
    ⟨[(1, 1)], 0⟩ _ mock_honest v₀ 1 rfl [s]
  exact ⟨by decide, by decide, finalized, linked, hbridge⟩

def asValidator (F : Finality Hash) (v : LightValidation Hash) (bridge : ℕ) (header : Header Hash)
    (ancestry : List (Header Hash)) (grandpa : Bytes) :
    Except String Unit × LightValidation Hash :=
  let m := submitFinalizedHeaders F bridge header ancestry grandpa
  ((m.result v).mapError LightError.display, m.after v)

end LightValidation

theorem lightValidation_keepsRejected {DB Tx : Type}
    {X : Externals Hash (LightValidation Hash) DB Tx}
    (h : X.submitFinalizedHeaders = LightValidation.asValidator F) : KeepsRejected X := by
  intro v bridge header ancestry grandpa reason
  rw [h]
  intro rejected
  cases run :
      (LightValidation.submitFinalizedHeaders F bridge header ancestry grandpa).result v with
  | ok a => simp [LightValidation.asValidator, run, Except.mapError] at rejected
  | error e =>
    exact (LightValidation.submitFinalizedHeaders_runs v bridge header ancestry grandpa).of_error
      run

/-! ## A synchronizer over the light client -/

def Externals.overLightClient {DB Tx : Type} (X : Externals Hash (LightValidation Hash) DB Tx)
    (F : Finality Hash) : Externals Hash (LightValidation Hash) DB Tx :=
  { X with hash := F.hash, submitFinalizedHeaders := LightValidation.asValidator F }

def setAt (F : Finality Hash) (chain : (linkage F.hash).CanonicalChain) (initial : AuthoritySet)
    (k : ℕ) : AuthoritySet :=
  setAfter F initial (chain.interval 1 (k + 1))

def Finalizes (F : Finality Hash) (chain : (linkage F.hash).CanonicalChain)
    (initial : AuthoritySet) : Prop :=
  ∀ k justification (header : Header Hash),
    F.verifyGrandpaProof justification (F.hash header) header.number (setAt F chain initial k).id
      (setAt F chain initial k).list = true →
    ∃ m, header = chain.block m ∧
      ∀ j, k < j → j < m → findScheduledChange F.decode (chain.block j) = none

namespace LightValidation

open Proc

variable {DB Tx : Type} {chain : (linkage F.hash).CanonicalChain} {initial : AuthoritySet}

def Follows (chain : (linkage F.hash).CanonicalChain) (initial : AuthoritySet)
    (v : LightValidation Hash) : Prop :=
  ∀ b bridge, v.trackedBridges b = some bridge →
    ∃ k, bridge = ⟨chain.block k, setAt F chain initial k⟩

def new : LightValidation Hash := ⟨0, fun _ => none⟩

def initializeBridge
    (checkValidatorSetProof : Hash → StorageProof → AuthorityList → Except String Unit)
    (blockHeader : Header Hash) (validatorSet : AuthoritySet) (proof : StorageProof) :
    Proc (LightValidation Hash) String BridgeId := do
  match checkValidatorSetProof blockHeader.stateRoot proof validatorSet.list with
  | .error reason => throw reason
  | .ok () =>
    let self ← get
    let newBridgeId := self.numBridges + 1
    alter fun _ => {
      numBridges := newBridgeId
      trackedBridges :=
        Function.update self.trackedBridges newBridgeId (some ⟨blockHeader, validatorSet⟩) }
    pure newBridgeId

omit [DecidableEq Hash] in
theorem follows_initializeBridge {v : LightValidation Hash} (follows : Follows chain initial v)
    (check : Hash → StorageProof → AuthorityList → Except String Unit) (proof : StorageProof) :
    Follows chain initial ((initializeBridge check (chain.block 0) initial proof).after v) := by
  apply Runs.of_after
  unfold initializeBridge
  split
  · exact follows
  · intro b bridge h
    change Function.update v.trackedBridges _ _ b = some bridge at h
    rcases eq_or_ne b (v.numBridges + 1) with rfl | hne
    · refine ⟨0, ?_⟩
      rw [Function.update_self, Option.some.injEq] at h
      rw [← h]
      simp [setAt, setAfter, scheduledChanges, chain.interval_of_le le_rfl]
    · rw [Function.update_of_ne hne] at h
      exact follows b bridge h

theorem follows_submit (finalizes : Finalizes F chain initial) {v : LightValidation Hash}
    (follows : Follows chain initial v) (b : BridgeId) (header : Header Hash)
    (proof : List (Header Hash)) (justification : Bytes) :
    Runs (submitFinalizedHeaders F b header proof justification) v
      (fun _ v' => (∃ m, header = chain.block m) ∧ Follows chain initial v')
      (fun _ v' => v' = v) := by
  apply (submitFinalizedHeaders_runs v _ _ _ _).mono
  case hE => exact fun _ _ h => h
  rintro _ _ ⟨bridge, hbridge, hancestry, hfinal, rfl⟩
  obtain ⟨k, rfl⟩ := follows b bridge hbridge
  obtain ⟨m, rfl, quiet⟩ := finalizes k _ _ hfinal
  -- the headers in between are those of the chain
  obtain ⟨between, linked⟩ := linked_of_verifyAncestry hancestry
  obtain ⟨hlt, rfl⟩ := chain.eq_interval_between linked
  refine ⟨⟨m, rfl⟩, fun b' bridge' hbridge' => ?_⟩
  change Function.update v.trackedBridges b _ b' = some bridge' at hbridge'
  rcases eq_or_ne b' b with rfl | hne
  · have hset : nextSet F (setAt F chain initial k) (chain.block m) = setAt F chain initial m := by
      unfold setAt
      have hnone : ∀ h ∈ chain.interval (k + 1) m, findScheduledChange F.decode h = none := by
        intro h hh
        obtain ⟨j, hj, rfl⟩ := List.mem_map.1 hh
        rw [List.Ico.mem] at hj
        exact quiet j (by omega) hj.2
      rw [nextSet_setAfter hnone, List.append_assoc, chain.interval_concat hlt,
        chain.interval_append (by omega) (by omega)]
    refine ⟨m, ?_⟩
    rw [Function.update_self, hbridge, Option.map_some, Option.some.injEq] at hbridge'
    rw [← hbridge', hset]
  · exact follows b' bridge' (by rwa [Function.update_of_ne hne] at hbridge')

theorem trusted (X : Externals Hash (LightValidation Hash) DB Tx)
    (finalizes : Finalizes F chain initial) :
    BlockSyncState.Trusted (X.overLightClient F) chain (Follows chain initial) where
  keeps v b header proof justification follows := by
    change Follows chain initial ((submitFinalizedHeaders F b header proof justification).after v)
    obtain ⟨_, -, -, h⟩ | ⟨_, -, h⟩ :=
      (follows_submit finalizes follows b header proof justification).outcome
    · exact h
    · rwa [h]
  accepts v b header proof justification follows accepted := by
    obtain ⟨_, -, h, -⟩ | ⟨_, rejected, -⟩ :=
      (follows_submit finalizes follows b header proof justification).outcome
    · exact h
    · simp [Externals.overLightClient, asValidator, rejected, Except.mapError] at accepted

end LightValidation

open BlockSyncState SolochainSynchronizer in
/-- Over the light client, blocks that are fed lead to states of the finalized chain. -/
theorem light_client_sync_canonical {DB Tx : Type}
    (X : Externals Hash (LightValidation Hash) DB Tx) (F : Finality Hash)
    (chain : (linkage F.hash).CanonicalChain) (initial : AuthoritySet)
    (finalizes : Finalizes F chain initial)
    (check : Hash → StorageProof → AuthorityList → Except String Unit) (proof : StorageProof)
    (mainBridge : BridgeId) (s : SolochainSynchronizer (LightValidation Hash) Hash)
    (reached : Reached (X.overLightClient F)
      ((LightValidation.initializeBridge check (chain.block 0) initial proof).after .new)
      mainBridge s) :
    s.stateRoots = rootsBetween chain (firstQueued s.syncState) s.syncState.headerNumberNext ∧
      ∀ (block : BlockHeaderWithChanges Hash) (storage : TrieStorage Hash DB),
        (SolochainSynchronizer.feedBlock (X.overLightClient F) block false).result (s, storage) =
          .ok () →
        ((SolochainSynchronizer.feedBlock (X.overLightClient F) block false).after
          (s, storage)).2.root = (chain.block block.blockHeader.number).stateRoot := by
  have empty : LightValidation.Follows chain initial .new := fun b bridge h => by cases h
  have sound := reached.sound (LightValidation.trusted X finalizes)
    (LightValidation.follows_initializeBridge empty check proof)
  refine ⟨sound.2.stateRoots, fun block storage accepted => ?_⟩
  exact ((feedBlock_runs sound.2 block storage).of_ok accepted).2.2

def Mock.finality : Finality ℤ where
  hash := Mock.hash
  decode _ := none
  isVoterSet _ := true
  verifyGrandpaProof _ hash number _ _ := hash = Mock.hash (Mock.header false number)

def Mock.lightExternals : Externals ℤ (LightValidation ℤ) Unit Unit where
  hash := Mock.hash
  encode := Mock.externals.encode
  submitFinalizedHeaders v _ _ _ _ := (.ok (), v)
  validateStorageProof _ := Mock.externals.validateStorageProof ()
  fullStorageRoot := Mock.externals.fullStorageRoot
  consolidate _ _ := ()

theorem Mock.finalizes : Finalizes Mock.finality (Mock.chain false) ⟨[], 0⟩ := by
  intro k justification header accepted
  have hhash : Mock.hash header = Mock.hash (Mock.header false header.number) := by
    simpa [Mock.finality] using accepted
  exact ⟨header.number, Mock.hash_eq hhash, fun _ _ _ => rfl⟩

theorem light_client_sync_canonical_fed :
    let X := Mock.lightExternals.overLightClient Mock.finality
    let v := (LightValidation.initializeBridge (fun _ _ _ => .ok ()) (Mock.header false 0) ⟨[], 0⟩
      []).after .new
    let s := (SolochainSynchronizer.syncHeader X [Mock.toSync 0, Mock.toSync 1]).after (.new v 1)
    s.stateRoots = [0, 1] ∧
      (SolochainSynchronizer.feedBlock X (Mock.block 1 1) false).result (s, ⟨(), 0⟩) = .ok () ∧
      ((SolochainSynchronizer.feedBlock X (Mock.block 1 1) false).after (s, ⟨(), 0⟩)).2.root =
        ((Mock.chain false).block 1).stateRoot := by
  intro X v s
  have accepted : (SolochainSynchronizer.feedBlock X (Mock.block 1 1) false).result (s, ⟨(), 0⟩) =
      .ok () := by decide
  have canonical := light_client_sync_canonical Mock.lightExternals Mock.finality
    (Mock.chain false) ⟨[], 0⟩ Mock.finalizes (fun _ _ _ => .ok ()) [] 1 s (.syncHeader _ .new _)
  exact ⟨by decide, accepted, canonical.2 _ _ accepted⟩

end Cyrux.Sync
