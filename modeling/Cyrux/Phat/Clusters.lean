import Cyrux.Lib.Exec
import Mathlib

/-!
# Workers of clusters

`pallets/cyrux/src/phat.rs`
-/

namespace Cyrux.Phat

open Exec

abbrev AccountId := ℕ
abbrev WorkerPublicKey := ℕ
abbrev ContractClusterId := ℕ
abbrev ContractId := ℕ
abbrev Hash := ℕ

/-! ## State -/

structure WorkerIdentity where
  pubkey : WorkerPublicKey
  ecdhPubkey : ℕ

inductive ClusterPermission
  | «public»
  | onlyOwner (owner : AccountId)

structure Prices where
  gasPrice : ℕ
  depositPerItem : ℕ
  depositPerByte : ℕ

structure ClusterInfo where
  owner : AccountId
  permission : ClusterPermission
  systemContract : ContractId
  prices : Prices

structure ContractInfo where
  deployer : AccountId
  codeHash : Hash
  salt : List ℕ
  clusterId : ContractClusterId
  instantiateData : List ℕ

inductive ClusterMessage
  | deployCluster (owner : AccountId) (cluster : ContractClusterId)
      (workers : List WorkerIdentity) (deposit : ℕ) (prices : Prices) (treasuryAccount : AccountId)
  | destroyCluster (cluster : ContractClusterId)
  | removeWorker (clusterId : ContractClusterId) (worker : WorkerPublicKey)

structure Tables where
  clusterCounter : ℕ := 0
  clusters : ContractClusterId → Option ClusterInfo := fun _ => none
  clusterWorkers : ContractClusterId → List WorkerPublicKey := fun _ => []
  clusterByWorkers : WorkerPublicKey → Option ContractClusterId := fun _ => none

structure State (C : Type) extends Tables where
  workers : WorkerPublicKey → Option WorkerIdentity
  pinkSystemCodeHash : Option Hash
  currency : C
  pushed : List ClusterMessage := []

inductive Origin
  | root
  | signed (who : AccountId)
  | other

inductive Error
  | badOrigin
  | noWorkerSpecified
  | workerNotFound
  | workerIsBusy
  | noPinkSystemCode
  | clusterNotFound
  | clusterPermissionDenied
  | transferFailed
deriving DecidableEq

structure Config (C : Type) where
  governanceOrigin : Origin → Bool
  contractId : ContractInfo → ContractId
  clusterAccount : ContractClusterId → AccountId
  /-- `Currency::transfer` with `KeepAlive`. -/
  transfer : C → AccountId → AccountId → ℕ → Option C

/-! ## Calls -/

section

variable {C : Type}

def ensureRoot : Origin → Exec (State C) Error Unit
  | .root => pure ()
  | _ => throw .badOrigin

def ensureSigned : Origin → Exec (State C) Error AccountId
  | .signed who => pure who
  | _ => throw .badOrigin

def pushMessage (message : ClusterMessage) : Exec (State C) Error Unit :=
  alter fun s => { s with pushed := s.pushed ++ [message] }

def claimWorkers (cluster : ContractClusterId) :
    List WorkerPublicKey → Exec (State C) Error Unit :=
  each fun worker => do
    ensure ((← get).clusterByWorkers worker = none) .workerIsBusy
    alter fun s => { s with
      clusterByWorkers := Function.update s.clusterByWorkers worker (some cluster) }

def addCluster (cfg : Config C) (origin : Origin) (owner : AccountId)
    (permission : ClusterPermission) (deployWorkers : List WorkerPublicKey) (deposit : ℕ)
    (prices : Prices) (treasuryAccount : AccountId) : Exec (State C) Error Unit := do
  ensure (cfg.governanceOrigin origin) .badOrigin
  ensure (deployWorkers ≠ []) .noWorkerSpecified
  let s ← get
  let workers ← demand (deployWorkers.mapM s.workers) .workerNotFound
  -- 0 is reserved for removed workers
  alter fun s => { s with clusterCounter := s.clusterCounter + 1 }
  let cluster := (← get).clusterCounter
  claimWorkers cluster deployWorkers
  alter fun s => { s with clusterWorkers := Function.update s.clusterWorkers cluster deployWorkers }
  let systemCodeHash ← demand (← get).pinkSystemCodeHash .noPinkSystemCode
  let selector := [0xed, 0x4b, 0x9d, 0x1b]
  let systemContract := cfg.contractId {
    deployer := owner, codeHash := systemCodeHash, salt := [], clusterId := cluster,
    instantiateData := selector }
  let clusterInfo : ClusterInfo := { owner, permission, systemContract, prices }
  alter fun s => { s with clusters := Function.update s.clusters cluster (some clusterInfo) }
  let currency ← demand (cfg.transfer (← get).currency owner (cfg.clusterAccount cluster) deposit)
    .transferFailed
  alter fun s => { s with currency }
  pushMessage (.deployCluster owner cluster workers deposit prices treasuryAccount)

def clusterDestroy (origin : Origin) (cluster : ContractClusterId) :
    Exec (State C) Error Unit := do
  ensureRoot origin
  let _ ← demand ((← get).clusters cluster) .clusterNotFound
  alter fun s => { s with clusters := Function.update s.clusters cluster none }
  pushMessage (.destroyCluster cluster)

def addWorkerToCluster (origin : Origin) (workerPubkey : WorkerPublicKey)
    (clusterId : ContractClusterId) : Exec (State C) Error Unit := do
  let origin ← ensureSigned origin
  let clusterInfo ← demand ((← get).clusters clusterId) .clusterNotFound
  ensure (clusterInfo.owner = origin) .clusterPermissionDenied
  ensure ((← get).workers workerPubkey).isSome .workerNotFound
  ensure ((← get).clusterByWorkers workerPubkey = none) .workerIsBusy
  alter fun s => { s with
    clusterByWorkers := Function.update s.clusterByWorkers workerPubkey (some clusterId) }
  alter fun s => { s with
    clusterWorkers := Function.update s.clusterWorkers clusterId
      (s.clusterWorkers clusterId ++ [workerPubkey]) }
  alter fun s => { s with clusters := Function.update s.clusters clusterId (some clusterInfo) }

def removeWorkerFromCluster (origin : Origin) (workerPubkey : WorkerPublicKey)
    (clusterId : ContractClusterId) : Exec (State C) Error Unit := do
  let origin ← ensureSigned origin
  let clusterInfo ← demand ((← get).clusters clusterId) .clusterNotFound
  ensure (clusterInfo.owner = origin) .clusterPermissionDenied
  ensure ((← get).clusterByWorkers workerPubkey = some clusterId) .workerNotFound
  -- Put the worker to cluster 0 to avoid it to be added to some cluster again.
  alter fun s => { s with
    clusterByWorkers := Function.update s.clusterByWorkers workerPubkey (some 0) }
  alter fun s => { s with
    clusterWorkers := Function.update s.clusterWorkers clusterId
      ((s.clusterWorkers clusterId).filter (· ≠ workerPubkey)) }
  pushMessage (.removeWorker clusterId workerPubkey)

def cleanupRemovedWorkers (origin : Origin) (clusterId : ContractClusterId) :
    Exec (State C) Error Unit := do
  ensureRoot origin
  alter fun s => { s with
    clusterWorkers := Function.update s.clusterWorkers clusterId
      ((s.clusterWorkers clusterId).filter (s.clusterByWorkers · ≠ some 0)) }

inductive Call
  | addCluster (origin : Origin) (owner : AccountId) (permission : ClusterPermission)
      (deployWorkers : List WorkerPublicKey) (deposit : ℕ) (prices : Prices)
      (treasuryAccount : AccountId)
  | clusterDestroy (origin : Origin) (cluster : ContractClusterId)
  | addWorkerToCluster (origin : Origin) (worker : WorkerPublicKey) (cluster : ContractClusterId)
  | removeWorkerFromCluster (origin : Origin) (worker : WorkerPublicKey)
      (cluster : ContractClusterId)
  | cleanupRemovedWorkers (origin : Origin) (cluster : ContractClusterId)

variable (cfg : Config C)

def Call.run : Call → Exec (State C) Error Unit
  | addCluster origin owner permission deployWorkers deposit prices treasuryAccount =>
    Phat.addCluster cfg origin owner permission deployWorkers deposit prices treasuryAccount
  | clusterDestroy origin cluster => Phat.clusterDestroy origin cluster
  | addWorkerToCluster origin worker cluster => Phat.addWorkerToCluster origin worker cluster
  | removeWorkerFromCluster origin worker cluster =>
    Phat.removeWorkerFromCluster origin worker cluster
  | cleanupRemovedWorkers origin cluster => Phat.cleanupRemovedWorkers origin cluster

inductive Step : State C → State C → Prop
  | call {s s' : State C} (call : Call) (ok : call.run cfg s = .ok ((), s')) : Step s s'
  | other {s s' : State C} (same : s'.toTables = s.toTables) : Step s s'

def State.Genesis (s : State C) : Prop := s.toTables = {}

end

/-! ## What a call does to the tables -/

inductive Edit : Tables → Tables → Prop
  | found {t : Tables} (info : ClusterInfo) (ws : List WorkerPublicKey) (nodup : ws.Nodup)
      (free : ∀ w ∈ ws, t.clusterByWorkers w = none) :
      Edit t {
        clusterCounter := t.clusterCounter + 1
        clusters := Function.update t.clusters (t.clusterCounter + 1) (some info)
        clusterWorkers := Function.update t.clusterWorkers (t.clusterCounter + 1) ws
        clusterByWorkers := fun w =>
          if w ∈ ws then some (t.clusterCounter + 1) else t.clusterByWorkers w }
  | destroy {t : Tables} (c : ContractClusterId) :
      Edit t { t with clusters := Function.update t.clusters c none }
  | join {t : Tables} (w : WorkerPublicKey) (c : ContractClusterId) (info : ClusterInfo)
      (exists_cluster : t.clusters c = some info) (free : t.clusterByWorkers w = none) :
      Edit t { t with
        clusterByWorkers := Function.update t.clusterByWorkers w (some c)
        clusterWorkers := Function.update t.clusterWorkers c (t.clusterWorkers c ++ [w]) }
  | retire {t : Tables} (w : WorkerPublicKey) (c : ContractClusterId) (info : ClusterInfo)
      (exists_cluster : t.clusters c = some info) (member : t.clusterByWorkers w = some c) :
      Edit t { t with
        clusterByWorkers := Function.update t.clusterByWorkers w (some 0)
        clusterWorkers := Function.update t.clusterWorkers c
          ((t.clusterWorkers c).filter (· ≠ w)) }
  | cleanup {t : Tables} (c : ContractClusterId) :
      Edit t { t with
        clusterWorkers := Function.update t.clusterWorkers c
          ((t.clusterWorkers c).filter (t.clusterByWorkers · ≠ some 0)) }

section

variable {C : Type} {cfg : Config C} {s s' : State C}

theorem sat_claimWorkers (cluster : ContractClusterId) (ws : List WorkerPublicKey) (s : State C) :
    Sat (claimWorkers cluster ws) s
      (fun _ s' => ws.Nodup ∧ (∀ w ∈ ws, s.clusterByWorkers w = none) ∧
        s' = { s with
          clusterByWorkers := fun w => if w ∈ ws then some cluster else s.clusterByWorkers w })
      (fun _ => True) := by
  induction ws generalizing s with
  | nil => exact ⟨List.nodup_nil, by simp, by simp⟩
  | cons w ws ih =>
    refine sat_bind.2 (Sat.get_bind (Sat.ensure_bind (fun hfree => ?_) fun _ => trivial))
    refine sat_alter.2 ((ih _).mono ?_ fun _ _ => trivial)
    rintro _ s' ⟨nodup, free, rfl⟩
    simp only at free
    have hne : w ∉ ws := by
      intro hw
      have hnone := free w hw
      rw [Function.update_self] at hnone
      cases hnone
    refine ⟨List.nodup_cons.2 ⟨hne, nodup⟩, ?_, ?_⟩
    · rw [List.forall_mem_cons]
      refine ⟨hfree, fun x hx => ?_⟩
      have hxw : x ≠ w := by
        rintro rfl
        exact hne hx
      rw [← free x hx, Function.update_of_ne hxw]
    · congr 2
      funext x
      by_cases hx : x = w
      · subst hx
        simp [hne]
      · simp [hx]

theorem sat_addCluster (origin : Origin) (owner : AccountId) (permission : ClusterPermission)
    (deployWorkers : List WorkerPublicKey) (deposit : ℕ) (prices : Prices)
    (treasuryAccount : AccountId) :
    Sat (addCluster cfg origin owner permission deployWorkers deposit prices treasuryAccount) s
      (fun _ s' => Edit s.toTables s'.toTables) (fun _ => True) := by
  refine Sat.ensure_bind (fun _ => ?_) fun _ => trivial
  refine Sat.ensure_bind (fun _ => ?_) fun _ => trivial
  refine Sat.get_bind (Sat.demand_bind (fun workers _ => ?_) fun _ => trivial)
  refine Sat.alter_bind (Sat.get_bind ?_)
  refine (sat_claimWorkers _ _ _).bind (fun _ _ => trivial) ?_
  rintro _ s' ⟨nodup, free, rfl⟩
  refine Sat.alter_bind (Sat.get_bind (Sat.demand_bind (fun systemCodeHash _ => ?_)
    fun _ => trivial))
  refine Sat.alter_bind (Sat.get_bind (Sat.demand_bind (fun currency _ => ?_) fun _ => trivial))
  exact Sat.alter_bind (.found _ deployWorkers nodup free)

theorem sat_clusterDestroy (origin : Origin) (cluster : ContractClusterId) :
    Sat (clusterDestroy origin cluster) s (fun _ s' => Edit s.toTables s'.toTables)
      (fun _ => True) := by
  cases origin with
  | root =>
    refine Sat.pure_bind (Sat.get_bind (Sat.demand_bind (fun _ _ => ?_) fun _ => trivial))
    exact Sat.alter_bind (.destroy cluster)
  | signed who => exact trivial
  | other => exact trivial

theorem sat_addWorkerToCluster (origin : Origin) (w : WorkerPublicKey) (c : ContractClusterId) :
    Sat (addWorkerToCluster origin w c) s (fun _ s' => Edit s.toTables s'.toTables)
      (fun _ => True) := by
  cases origin with
  | signed who =>
    refine Sat.pure_bind (Sat.get_bind (Sat.demand_bind (fun info hinfo => ?_) fun _ => trivial))
    refine Sat.ensure_bind (fun _ => ?_) fun _ => trivial
    refine Sat.get_bind (Sat.ensure_bind (fun _ => ?_) fun _ => trivial)
    refine Sat.get_bind (Sat.ensure_bind (fun hfree => ?_) fun _ => trivial)
    refine Sat.alter_bind (Sat.alter_bind (sat_alter.2 ?_))
    have hsame : Function.update s.clusters c (some info) = s.clusters := by
      rw [← hinfo, Function.update_eq_self]
    simp only [hsame]
    exact .join w c info hinfo hfree
  | root => exact trivial
  | other => exact trivial

theorem sat_removeWorkerFromCluster (origin : Origin) (w : WorkerPublicKey)
    (c : ContractClusterId) :
    Sat (removeWorkerFromCluster origin w c) s
      (fun _ s' => Edit s.toTables s'.toTables ∧ s'.clusterByWorkers w = some 0)
      (fun _ => True) := by
  cases origin with
  | signed who =>
    refine Sat.pure_bind (Sat.get_bind (Sat.demand_bind (fun info hinfo => ?_) fun _ => trivial))
    refine Sat.ensure_bind (fun _ => ?_) fun _ => trivial
    refine Sat.get_bind (Sat.ensure_bind (fun hmember => ?_) fun _ => trivial)
    exact ⟨.retire w c info hinfo hmember, Function.update_self _ _ _⟩
  | root => exact trivial
  | other => exact trivial

theorem sat_cleanupRemovedWorkers (origin : Origin) (c : ContractClusterId) :
    Sat (cleanupRemovedWorkers origin c) s (fun _ s' => Edit s.toTables s'.toTables)
      (fun _ => True) := by
  cases origin with
  | root => exact Sat.pure_bind (sat_alter.2 (.cleanup c))
  | signed who => exact trivial
  | other => exact trivial

theorem sat_call (call : Call) :
    Sat (call.run cfg) s (fun _ s' => Edit s.toTables s'.toTables) (fun _ => True) := by
  cases call with
  | addCluster => exact sat_addCluster ..
  | clusterDestroy => exact sat_clusterDestroy ..
  | addWorkerToCluster => exact sat_addWorkerToCluster ..
  | removeWorkerFromCluster =>
    exact (sat_removeWorkerFromCluster ..).mono (fun _ _ h => h.1) fun _ h => h
  | cleanupRemovedWorkers => exact sat_cleanupRemovedWorkers ..

theorem Step.edit (step : Step cfg s s') :
    s'.toTables = s.toTables ∨ Edit s.toTables s'.toTables := by
  cases step with
  | call call ok => exact .inr ((sat_call call).of_ok ok)
  | other same => exact .inl same

end

/-! ## The index -/

structure Indexed (t : Tables) : Prop where
  nodup : ∀ c, (t.clusterWorkers c).Nodup
  mem_iff : ∀ c ≠ 0, ∀ w, w ∈ t.clusterWorkers c ↔ t.clusterByWorkers w = some c
  zero_empty : t.clusterWorkers 0 = []
  counted : ∀ w c, t.clusterByWorkers w = some c → c ≤ t.clusterCounter
  cluster_counted : ∀ c info, t.clusters c = some info → c ≠ 0 ∧ c ≤ t.clusterCounter

theorem Indexed.genesis : Indexed {} where
  nodup _ := List.nodup_nil
  mem_iff _ _ _ := ⟨fun h => absurd h List.not_mem_nil, fun h => nomatch h⟩
  zero_empty := rfl
  counted _ _ h := nomatch h
  cluster_counted _ _ h := nomatch h

namespace Indexed

variable {t t' : Tables} {w : WorkerPublicKey} {c : ContractClusterId} {info : ClusterInfo}

theorem found {ws : List WorkerPublicKey} (h : Indexed t) (nodup : ws.Nodup)
    (free : ∀ w ∈ ws, t.clusterByWorkers w = none) :
    Indexed {
      clusterCounter := t.clusterCounter + 1
      clusters := Function.update t.clusters (t.clusterCounter + 1) (some info)
      clusterWorkers := Function.update t.clusterWorkers (t.clusterCounter + 1) ws
      clusterByWorkers := fun w =>
        if w ∈ ws then some (t.clusterCounter + 1) else t.clusterByWorkers w } where
  nodup c := by
    by_cases hc : c = t.clusterCounter + 1
    · subst hc
      simpa only [Function.update_self] using nodup
    · simpa only [Function.update_of_ne hc] using h.nodup c
  mem_iff c hc w := by
    by_cases hnew : c = t.clusterCounter + 1
    · subst hnew
      simp only [Function.update_self]
      by_cases hw : w ∈ ws
      · simp only [hw, if_true]
      · -- No worker was in a cluster with the new number.
        have hold : t.clusterByWorkers w ≠ some (t.clusterCounter + 1) := by
          intro hsome
          exact Nat.not_succ_le_self _ (h.counted w _ hsome)
        simp only [hw, if_false, hold]
    · simp only [Function.update_of_ne hnew]
      rw [h.mem_iff c hc]
      by_cases hw : w ∈ ws
      · simp only [hw, if_true, free w hw, Option.some.injEq, Ne.symm hnew, reduceCtorEq]
      · simp only [hw, if_false]
  zero_empty := by
    have hne : 0 ≠ t.clusterCounter + 1 := (Nat.succ_ne_zero _).symm
    simpa only [Function.update_of_ne hne] using h.zero_empty
  counted w c hsome := by
    simp only at hsome
    split_ifs at hsome with hw
    · cases hsome
      exact le_rfl
    · exact (h.counted w c hsome).trans (Nat.le_succ _)
  cluster_counted c info' hsome := by
    by_cases hc : c = t.clusterCounter + 1
    · subst hc
      exact ⟨Nat.succ_ne_zero _, le_rfl⟩
    · simp only [Function.update_of_ne hc] at hsome
      obtain ⟨hne, hle⟩ := h.cluster_counted c info' hsome
      exact ⟨hne, hle.trans (Nat.le_succ _)⟩

theorem destroy (h : Indexed t) (c : ContractClusterId) :
    Indexed { t with clusters := Function.update t.clusters c none } where
  nodup := h.nodup
  mem_iff := h.mem_iff
  zero_empty := h.zero_empty
  counted := h.counted
  cluster_counted c' info hsome := by
    by_cases hc : c' = c
    · subst hc
      simp only [Function.update_self, reduceCtorEq] at hsome
    · simp only [Function.update_of_ne hc] at hsome
      exact h.cluster_counted c' info hsome

theorem join (h : Indexed t) (exists_cluster : t.clusters c = some info)
    (free : t.clusterByWorkers w = none) :
    Indexed { t with
      clusterByWorkers := Function.update t.clusterByWorkers w (some c)
      clusterWorkers := Function.update t.clusterWorkers c (t.clusterWorkers c ++ [w]) } where
  nodup c' := by
    by_cases hc : c' = c
    · subst hc
      obtain ⟨hne, -⟩ := h.cluster_counted c' info exists_cluster
      have hnot : w ∉ t.clusterWorkers c' := by
        rw [h.mem_iff c' hne, free]
        exact nofun
      simp only [Function.update_self]
      exact (h.nodup c').append (List.nodup_singleton w) (by simpa using hnot)
    · simpa only [Function.update_of_ne hc] using h.nodup c'
  mem_iff c' hc' w' := by
    by_cases hw : w' = w
    · subst hw
      by_cases hc : c' = c
      · subst hc
        simp only [Function.update_self, List.mem_append, List.mem_singleton, or_true]
      · simp only [Function.update_of_ne hc, Function.update_self, h.mem_iff c' hc', free,
          Option.some.injEq, Ne.symm hc, reduceCtorEq]
    · simp only [Function.update_of_ne hw, ← h.mem_iff c' hc']
      by_cases hc : c' = c
      · subst hc
        simp only [Function.update_self, List.mem_append, List.mem_singleton, hw, or_false]
      · simp only [Function.update_of_ne hc]
  zero_empty := by
    have hne : 0 ≠ c := (h.cluster_counted c info exists_cluster).1.symm
    simpa only [Function.update_of_ne hne] using h.zero_empty
  counted w' c' hsome := by
    by_cases hw : w' = w
    · subst hw
      simp only [Function.update_self, Option.some.injEq] at hsome
      exact hsome ▸ (h.cluster_counted c info exists_cluster).2
    · simp only [Function.update_of_ne hw] at hsome
      exact h.counted w' c' hsome
  cluster_counted := h.cluster_counted

theorem retire (h : Indexed t) (exists_cluster : t.clusters c = some info)
    (member : t.clusterByWorkers w = some c) :
    Indexed { t with
      clusterByWorkers := Function.update t.clusterByWorkers w (some 0)
      clusterWorkers := Function.update t.clusterWorkers c
        ((t.clusterWorkers c).filter (· ≠ w)) } where
  nodup c' := by
    by_cases hc : c' = c
    · subst hc
      simpa only [Function.update_self] using (h.nodup c').filter _
    · simpa only [Function.update_of_ne hc] using h.nodup c'
  mem_iff c' hc' w' := by
    by_cases hw : w' = w
    · subst hw
      simp only [Function.update_self, Option.some.injEq, Ne.symm hc', iff_false]
      by_cases hc : c' = c
      · subst hc
        simp [Function.update_self]
      · rw [Function.update_of_ne hc, h.mem_iff c' hc', member, Option.some.injEq]
        exact Ne.symm hc
    · simp only [Function.update_of_ne hw, ← h.mem_iff c' hc']
      by_cases hc : c' = c
      · subst hc
        simp [Function.update_self, hw]
      · simp only [Function.update_of_ne hc]
  zero_empty := by
    have hne : 0 ≠ c := (h.cluster_counted c info exists_cluster).1.symm
    simpa only [Function.update_of_ne hne] using h.zero_empty
  counted w' c' hsome := by
    by_cases hw : w' = w
    · subst hw
      simp only [Function.update_self, Option.some.injEq] at hsome
      exact hsome ▸ Nat.zero_le _
    · simp only [Function.update_of_ne hw] at hsome
      exact h.counted w' c' hsome
  cluster_counted := h.cluster_counted

theorem cleanup (h : Indexed t) (c : ContractClusterId) :
    Indexed { t with
      clusterWorkers := Function.update t.clusterWorkers c
        ((t.clusterWorkers c).filter (t.clusterByWorkers · ≠ some 0)) } := by
  have hall : (t.clusterWorkers c).filter (t.clusterByWorkers · ≠ some 0) = t.clusterWorkers c := by
    rw [List.filter_eq_self]
    intro w hw
    by_cases hc : c = 0
    · subst hc
      rw [h.zero_empty] at hw
      exact absurd hw List.not_mem_nil
    · rw [h.mem_iff c hc] at hw
      simp [hw, hc]
  rw [hall, Function.update_eq_self]
  exact h

theorem edit (h : Indexed t) (edit : Edit t t') : Indexed t' := by
  cases edit with
  | found info ws nodup free => exact h.found nodup free
  | destroy c => exact h.destroy c
  | join w c info exists_cluster free => exact h.join exists_cluster free
  | retire w c info exists_cluster member => exact h.retire exists_cluster member
  | cleanup c => exact h.cleanup c

theorem not_mem_of_removed (h : Indexed t) (removed : t.clusterByWorkers w = some 0)
    (c : ContractClusterId) : w ∉ t.clusterWorkers c := by
  by_cases hc : c = 0
  · subst hc
    rw [h.zero_empty]
    exact List.not_mem_nil
  · rw [h.mem_iff c hc, removed, Option.some.injEq]
    exact Ne.symm hc

end Indexed

theorem Edit.removed {t t' : Tables} {w : WorkerPublicKey} (edit : Edit t t')
    (removed : t.clusterByWorkers w = some 0) : t'.clusterByWorkers w = some 0 := by
  cases edit with
  | found info ws nodup free =>
    have hw : w ∉ ws := by
      intro hw
      rw [free w hw] at removed
      cases removed
    simpa only [hw, if_false] using removed
  | destroy c => exact removed
  | join w' c info exists_cluster free =>
    have hne : w ≠ w' := by
      rintro rfl
      rw [free] at removed
      cases removed
    simpa only [Function.update_of_ne hne] using removed
  | retire w' c info exists_cluster member =>
    by_cases hw : w = w'
    · subst hw
      exact Function.update_self _ _ _
    · simpa only [Function.update_of_ne hw] using removed
  | cleanup c => exact removed

/-! ## Runs -/

section

variable {C : Type} {cfg : Config C} {s s' : State C}

theorem Step.indexed (step : Step cfg s s') (h : Indexed s.toTables) : Indexed s'.toTables := by
  rcases step.edit with same | edit
  · rw [same]
    exact h
  · exact h.edit edit

theorem indexed_of_reach (reached : Reach State.Genesis (Step cfg) s) : Indexed s.toTables := by
  induction reached with
  | init genesis =>
    rw [genesis]
    exact Indexed.genesis
  | step _ step ih => exact step.indexed ih

theorem removed_of_run {w : WorkerPublicKey} (run : Relation.ReflTransGen (Step cfg) s s')
    (h : Indexed s.toTables) (removed : s.clusterByWorkers w = some 0) :
    Indexed s'.toTables ∧ s'.clusterByWorkers w = some 0 := by
  induction run with
  | refl => exact ⟨h, removed⟩
  | tail _ step ih =>
    refine ⟨step.indexed ih.1, ?_⟩
    rcases step.edit with same | edit
    · rw [same]
      exact ih.2
    · exact edit.removed ih.2

/-- The list of a cluster has the workers that the map gives it. -/
theorem cluster_workers_indexed (reached : Reach State.Genesis (Step cfg) s) :
    (∀ c ≠ 0, (s.clusterWorkers c).Nodup ∧
      ∀ w, w ∈ s.clusterWorkers c ↔ s.clusterByWorkers w = some c) ∧
    ∀ origin w c s' s'', removeWorkerFromCluster origin w c s = .ok ((), s') →
      Relation.ReflTransGen (Step cfg) s' s'' →
      s''.clusterByWorkers w = some 0 ∧ ∀ c', w ∉ s''.clusterWorkers c' := by
  have indexed := indexed_of_reach reached
  refine ⟨fun c hc => ⟨indexed.nodup c, indexed.mem_iff c hc⟩, ?_⟩
  intro origin w c s' s'' ok run
  obtain ⟨edit, removed⟩ := (sat_removeWorkerFromCluster origin w c).of_ok ok
  obtain ⟨indexed'', removed''⟩ := removed_of_run run (indexed.edit edit) removed
  exact ⟨removed'', indexed''.not_mem_of_removed removed''⟩

end

def openConfig : Config Unit where
  governanceOrigin _ := true
  contractId _ := 0
  clusterAccount c := c
  transfer _ _ _ _ := some ()

def openGenesis : State Unit where
  workers w := some ⟨w, w⟩
  pinkSystemCodeHash := some 0
  currency := ()

theorem cluster_workers_indexed_two :
    ∃ s s' : State Unit, s.clusterWorkers 1 = [5, 6] ∧
      removeWorkerFromCluster (.signed 3) 6 1 s = .ok ((), s') ∧ s'.clusterWorkers 1 = [5] ∧
      (∀ c ≠ 0, (s.clusterWorkers c).Nodup ∧
        ∀ w, w ∈ s.clusterWorkers c ↔ s.clusterByWorkers w = some c) ∧
      ∀ s'', Relation.ReflTransGen (Step openConfig) s' s'' →
        s''.clusterByWorkers 6 = some 0 ∧ ∀ c', 6 ∉ s''.clusterWorkers c' := by
  let call : Call := .addCluster .root 3 .public [5, 6] 10 ⟨1, 1, 1⟩ 4
  obtain ⟨s, added⟩ : ∃ s, call.run openConfig openGenesis = .ok ((), s) := ⟨_, rfl⟩
  have genesis : State.Genesis openGenesis := rfl
  have reached : Reach State.Genesis (Step openConfig) s := .step (.init genesis) (.call call added)
  have indexed := cluster_workers_indexed reached
  obtain rfl := congrArg Prod.snd (Except.ok.inj added)
  exact ⟨_, _, rfl, rfl, rfl, indexed.1, fun s'' run => indexed.2 (.signed 3) 6 1 _ s'' rfl run⟩

end Cyrux.Phat
