import Cyrux.Compute.Types
import Mathlib.Logic.Function.Basic
import Mathlib.Algebra.BigOperators.Group.Finset.Basic
import Mathlib.Algebra.BigOperators.Intervals

/-!
# Share NFTs
-/

namespace Cyrux

open Exec

variable {A W α : Type}

def expect (site : PanicSite) (m : Pallet A W α) : Pallet A W α :=
  mapFault (Fault.expect site) m

def convert (o : Option α) : Pallet A W α := demand o (.panic .conversion none)

theorem convert_spec (o : Option α) (s : State A W) :
    Sat (convert o : Pallet A W α) s (fun a s' => o = some a ∧ s' = s)
      (fun f => f.plain = true) := by
  exact sat_demand.2 ⟨fun a h => ⟨h, rfl⟩, fun _ => rfl⟩

/-! ## NFT state -/

namespace State

def mintNft (s : State A W) (cid : ℕ) (owner : A) (shares : ℕ) : State A W :=
  let n := s.nextNftId cid
  { s with
    nextNftId := Function.update s.nextNftId cid (n + 1)
    nftOwner := Function.update s.nftOwner cid (Function.update (s.nftOwner cid) n (some owner))
    nftAttr := Function.update s.nftAttr cid (Function.update (s.nftAttr cid) n (some ⟨shares⟩)) }

def burnNft (cfg : Config A W) (s : State A W) (cid n : ℕ) : State A W :=
  { s with
    nftOwner := Function.update s.nftOwner cid (Function.update (s.nftOwner cid) n none)
    nftAttr := if cfg.keepsAttr then s.nftAttr
      else Function.update s.nftAttr cid (Function.update (s.nftAttr cid) n none) }

def burnNfts (cfg : Config A W) (s : State A W) (cid : ℕ) (nfts : List ℕ) : State A W :=
  nfts.foldl (fun s n => s.burnNft cfg cid n) s

def setNftAttr (s : State A W) (cid n : ℕ) (attr : NftAttr) : State A W :=
  { s with
    nftAttr := Function.update s.nftAttr cid (Function.update (s.nftAttr cid) n (some attr)) }

def lockNft (s : State A W) (cid n : ℕ) : State A W :=
  { s with nftLocks := insert (cid, n) s.nftLocks }

def unlockNft (s : State A W) (cid n : ℕ) : State A W :=
  { s with nftLocks := s.nftLocks.erase (cid, n) }

def ownedInCollection [DecidableEq A] (s : State A W) (cid : ℕ) (a : A) : List ℕ :=
  (List.range (s.nextNftId cid)).filter fun n => s.nftOwner cid n = some a

def sharesIn (s : State A W) (cid : ℕ) (nfts : List ℕ) : ℕ :=
  (nfts.map (s.sharesAt cid)).sum

def liveShares (s : State A W) (cid : ℕ) : ℕ :=
  ∑ n ∈ Finset.range (s.nextNftId cid), s.sharesAt cid n

variable {cfg : Config A W} {s : State A W} {cid c n m : ℕ} {a : A} {x : ℕ} {attr : NftAttr}

theorem sharesAt_of_attr (live : (s.nftOwner cid n).isSome) (found : s.nftAttr cid n = some attr) :
    s.sharesAt cid n = attr.shares := by
  simp [sharesAt, live, found]

theorem sharesAt_of_dead (dead : s.nftOwner cid n = none) : s.sharesAt cid n = 0 := by
  simp [sharesAt, dead]

/-! ### Minting -/

@[simp] theorem mintNft_nextNftId : (s.mintNft cid a x).nextNftId cid = s.nextNftId cid + 1 := by
  simp [mintNft]

@[simp] theorem mintNft_nftOwner_new :
    (s.mintNft cid a x).nftOwner cid (s.nextNftId cid) = some a := by
  simp [mintNft]

@[simp] theorem mintNft_nftAttr_new :
    (s.mintNft cid a x).nftAttr cid (s.nextNftId cid) = some ⟨x⟩ := by
  simp [mintNft]

theorem mintNft_nftOwner (h : n ≠ s.nextNftId cid) :
    (s.mintNft cid a x).nftOwner cid n = s.nftOwner cid n := by
  simp [mintNft, h]

theorem mintNft_nftAttr (h : n ≠ s.nextNftId cid) :
    (s.mintNft cid a x).nftAttr cid n = s.nftAttr cid n := by
  simp [mintNft, h]

theorem mintNft_other (h : c ≠ cid) :
    (s.mintNft cid a x).nftOwner c = s.nftOwner c ∧
      (s.mintNft cid a x).nftAttr c = s.nftAttr c ∧
      (s.mintNft cid a x).nextNftId c = s.nextNftId c := by
  simp [mintNft, h]

theorem sharesAt_mintNft :
    (s.mintNft cid a x).sharesAt cid n = if n = s.nextNftId cid then x else s.sharesAt cid n := by
  split_ifs with h
  · subst h
    simp [sharesAt]
  · simp [sharesAt, mintNft_nftOwner h, mintNft_nftAttr h]

theorem liveShares_mintNft : (s.mintNft cid a x).liveShares cid = s.liveShares cid + x := by
  unfold liveShares
  rw [mintNft_nextNftId, Finset.sum_range_succ, sharesAt_mintNft, if_pos rfl]
  congr 1
  refine Finset.sum_congr rfl fun n hn => ?_
  rw [sharesAt_mintNft, if_neg (Finset.mem_range.1 hn).ne]

/-! ### Burning -/

@[simp] theorem burnNft_nftOwner_self : (s.burnNft cfg cid n).nftOwner cid n = none := by
  simp [burnNft]

theorem burnNft_nftOwner (h : m ≠ n) :
    (s.burnNft cfg cid n).nftOwner cid m = s.nftOwner cid m := by
  simp [burnNft, h]

theorem burnNft_nftAttr (h : m ≠ n) : (s.burnNft cfg cid n).nftAttr cid m = s.nftAttr cid m := by
  unfold burnNft
  split_ifs <;> simp [h]

theorem burnNft_other (h : c ≠ cid) :
    (s.burnNft cfg cid n).nftOwner c = s.nftOwner c ∧
      (s.burnNft cfg cid n).nftAttr c = s.nftAttr c := by
  unfold burnNft
  split_ifs <;> simp [h]

theorem sharesAt_burnNft :
    (s.burnNft cfg cid n).sharesAt cid m = if m = n then 0 else s.sharesAt cid m := by
  split_ifs with h
  · subst h
    exact sharesAt_of_dead burnNft_nftOwner_self
  · simp [sharesAt, burnNft_nftOwner h, burnNft_nftAttr h]

theorem liveShares_burnNft (h : n < s.nextNftId cid) :
    (s.burnNft cfg cid n).liveShares cid + s.sharesAt cid n = s.liveShares cid := by
  have hn : n ∈ Finset.range (s.nextNftId cid) := Finset.mem_range.2 h
  unfold liveShares
  rw [show (s.burnNft cfg cid n).nextNftId = s.nextNftId from rfl,
    ← Finset.sum_erase_add _ _ hn, ← Finset.sum_erase_add _ _ hn, sharesAt_burnNft, if_pos rfl,
    add_zero]
  congr 1
  refine Finset.sum_congr rfl fun m hm => ?_
  rw [sharesAt_burnNft, if_neg (Finset.ne_of_mem_erase hm)]

theorem burnNfts_eq (nfts : List ℕ) :
    s.burnNfts cfg cid nfts = { s with
      nftOwner := (s.burnNfts cfg cid nfts).nftOwner
      nftAttr := (s.burnNfts cfg cid nfts).nftAttr } := by
  induction nfts generalizing s with
  | nil => rfl
  | cons n nfts ih => exact ih

section

variable (nfts : List ℕ)

@[simp] theorem burnNfts_now : (s.burnNfts cfg cid nfts).now = s.now := by rw [burnNfts_eq]

@[simp] theorem burnNfts_pools : (s.burnNfts cfg cid nfts).pools = s.pools := by rw [burnNfts_eq]

@[simp] theorem burnNfts_collectionIndex :
    (s.burnNfts cfg cid nfts).collectionIndex = s.collectionIndex := by
  rw [burnNfts_eq]

@[simp] theorem burnNfts_nftLocks : (s.burnNfts cfg cid nfts).nftLocks = s.nftLocks := by
  rw [burnNfts_eq]

@[simp] theorem burnNfts_nextNftId : (s.burnNfts cfg cid nfts).nextNftId = s.nextNftId := by
  rw [burnNfts_eq]

end

theorem burnNfts_nftOwner (nfts : List ℕ) :
    (s.burnNfts cfg cid nfts).nftOwner cid m = if m ∈ nfts then none else s.nftOwner cid m := by
  induction nfts generalizing s with
  | nil => rfl
  | cons n nfts ih =>
    rw [show s.burnNfts cfg cid (n :: nfts) = (s.burnNft cfg cid n).burnNfts cfg cid nfts from rfl,
      ih]
    by_cases h : m = n
    · subst h
      simp
    · simp [h, burnNft_nftOwner h]

theorem burnNfts_nftAttr {nfts : List ℕ} (h : m ∉ nfts) :
    (s.burnNfts cfg cid nfts).nftAttr cid m = s.nftAttr cid m := by
  induction nfts generalizing s with
  | nil => rfl
  | cons n nfts ih =>
    obtain ⟨hn, hnfts⟩ := not_or.1 (List.mem_cons.not.1 h)
    rw [show s.burnNfts cfg cid (n :: nfts) = (s.burnNft cfg cid n).burnNfts cfg cid nfts from rfl,
      ih hnfts, burnNft_nftAttr hn]

theorem burnNfts_other {nfts : List ℕ} (h : c ≠ cid) :
    (s.burnNfts cfg cid nfts).nftOwner c = s.nftOwner c ∧
      (s.burnNfts cfg cid nfts).nftAttr c = s.nftAttr c := by
  induction nfts generalizing s with
  | nil => exact ⟨rfl, rfl⟩
  | cons n nfts ih =>
    have first : (s.burnNft cfg cid n).nftOwner c = s.nftOwner c ∧
        (s.burnNft cfg cid n).nftAttr c = s.nftAttr c := burnNft_other h
    exact ⟨ih.1.trans first.1, ih.2.trans first.2⟩

theorem sharesAt_burnNfts {nfts : List ℕ} (h : m ∉ nfts) :
    (s.burnNfts cfg cid nfts).sharesAt cid m = s.sharesAt cid m := by
  simp [sharesAt, burnNfts_nftOwner, burnNfts_nftAttr h, h]

theorem liveShares_burnNfts {nfts : List ℕ} (nodup : nfts.Nodup)
    (h : ∀ n ∈ nfts, n < s.nextNftId cid) :
    (s.burnNfts cfg cid nfts).liveShares cid + s.sharesIn cid nfts = s.liveShares cid := by
  induction nfts generalizing s with
  | nil => rfl
  | cons n nfts ih =>
    obtain ⟨hn, hnfts⟩ := List.nodup_cons.1 nodup
    have tail : (s.burnNft cfg cid n).sharesIn cid nfts = s.sharesIn cid nfts := by
      unfold sharesIn
      congr 1
      refine List.map_congr_left fun m hm => ?_
      rw [sharesAt_burnNft, if_neg (ne_of_mem_of_not_mem hm hn)]
    have rest := ih (s := s.burnNft cfg cid n) hnfts fun m hm => h m (List.mem_cons_of_mem _ hm)
    have first : (s.burnNft cfg cid n).liveShares cid + s.sharesAt cid n = s.liveShares cid :=
      liveShares_burnNft (h n List.mem_cons_self)
    rw [show s.burnNfts cfg cid (n :: nfts) = (s.burnNft cfg cid n).burnNfts cfg cid nfts from rfl,
      show s.sharesIn cid (n :: nfts) = s.sharesAt cid n + s.sharesIn cid nfts from rfl]
    omega

/-! ### Writing -/

@[simp] theorem setNftAttr_nftAttr_self :
    (s.setNftAttr cid n attr).nftAttr cid n = some attr := by
  simp [setNftAttr]

theorem setNftAttr_nftAttr (h : m ≠ n) :
    (s.setNftAttr cid n attr).nftAttr cid m = s.nftAttr cid m := by
  simp [setNftAttr, h]

theorem setNftAttr_other (h : c ≠ cid) : (s.setNftAttr cid n attr).nftAttr c = s.nftAttr c := by
  simp [setNftAttr, h]

theorem sharesAt_setNftAttr (live : (s.nftOwner cid n).isSome) :
    (s.setNftAttr cid n attr).sharesAt cid m =
      if m = n then attr.shares else s.sharesAt cid m := by
  split_ifs with h
  · subst h
    exact sharesAt_of_attr live setNftAttr_nftAttr_self
  · simp only [sharesAt, setNftAttr_nftAttr h]
    rfl

theorem liveShares_setNftAttr (live : (s.nftOwner cid n).isSome) (h : n < s.nextNftId cid) :
    (s.setNftAttr cid n attr).liveShares cid + s.sharesAt cid n =
      s.liveShares cid + attr.shares := by
  have hn : n ∈ Finset.range (s.nextNftId cid) := Finset.mem_range.2 h
  unfold liveShares
  rw [show (s.setNftAttr cid n attr).nextNftId = s.nextNftId from rfl,
    ← Finset.sum_erase_add _ _ hn, ← Finset.sum_erase_add _ _ hn, sharesAt_setNftAttr live,
    if_pos rfl]
  have rest : ∑ m ∈ (Finset.range (s.nextNftId cid)).erase n,
      (s.setNftAttr cid n attr).sharesAt cid m =
      ∑ m ∈ (Finset.range (s.nextNftId cid)).erase n, s.sharesAt cid m := by
    refine Finset.sum_congr rfl fun m hm => ?_
    rw [sharesAt_setNftAttr live, if_neg (Finset.ne_of_mem_erase hm)]
  omega

theorem unlockNft_lockNft (free : (cid, n) ∉ s.nftLocks) :
    (s.lockNft cid n).unlockNft cid n = s := by
  simp [lockNft, unlockNft, Finset.erase_insert free]

theorem mem_ownedInCollection [DecidableEq A] :
    n ∈ s.ownedInCollection cid a ↔ n < s.nextNftId cid ∧ s.nftOwner cid n = some a := by
  simp [ownedInCollection]

theorem ownedInCollection_nodup [DecidableEq A] : (s.ownedInCollection cid a).Nodup :=
  List.nodup_range.filter _

end State

/-! ## Guards -/

structure NftGuard where
  cid : ℕ
  nftId : ℕ
  attr : NftAttr

def getNftAttr (cid n : ℕ) : Pallet A W NftAttr := do
  let s ← get
  demand (s.nftAttr cid n) (.error (.basePool .missCollectionId))

def getNftAttrGuard (cid n : ℕ) : Pallet A W NftGuard := do
  let attr ← getNftAttr cid n
  let s ← get
  ensure ((cid, n) ∉ s.nftLocks) (.error (.basePool .attrLocked))
  alter fun s => s.lockNft cid n
  pure ⟨cid, n, attr⟩

def NftGuard.unlock (g : NftGuard) : Pallet A W Unit :=
  alter fun s => s.unlockNft g.cid g.nftId

def setNftAttr (cid n : ℕ) (attr : NftAttr) : Pallet A W Unit :=
  alter fun s => s.setNftAttr cid n attr

def NftGuard.save (g : NftGuard) (attr : NftAttr) : Pallet A W Unit := do
  setNftAttr g.cid g.nftId attr
  g.unlock

def readNftAttr (cid n : ℕ) : Pallet A W NftAttr := do
  let g ← getNftAttrGuard cid n
  g.unlock
  pure g.attr

def GuardFault (s : State A W) (cid n : ℕ) (f : Fault) : Prop :=
  (f = .error (.basePool .missCollectionId) ∧ s.nftAttr cid n = none) ∨
    (f = .error (.basePool .attrLocked) ∧ (cid, n) ∈ s.nftLocks)

theorem getNftAttrGuard_spec (cid n : ℕ) (s : State A W) :
    Sat (getNftAttrGuard cid n : Pallet A W NftGuard) s
      (fun g s' => (cid, n) ∉ s.nftLocks ∧ s.nftAttr cid n = some g.attr ∧ g.cid = cid ∧
        g.nftId = n ∧ s' = s.lockNft cid n)
      (GuardFault s cid n) := by
  refine Sat.bind (F := fun f => f = .error (.basePool .missCollectionId) ∧
      s.nftAttr cid n = none) (R := fun attr s' => s.nftAttr cid n = some attr ∧ s' = s) ?_
    (fun _ h => .inl h) ?_
  · exact Sat.get_bind (sat_demand.2 ⟨fun _ h => ⟨h, rfl⟩, fun h => ⟨rfl, h⟩⟩)
  · rintro attr _ ⟨found, rfl⟩
    refine Sat.get_bind (Sat.ensure_bind (fun free => ?_) fun h => .inr ⟨rfl, not_not.1 h⟩)
    exact ⟨free, found, rfl, rfl, rfl⟩

theorem NftGuard.unlock_spec (g : NftGuard) (s : State A W) :
    Sat g.unlock s (fun _ s' => s' = s.unlockNft g.cid g.nftId) (fun _ => False) :=
  sat_alter.2 rfl

theorem NftGuard.save_spec (g : NftGuard) (attr : NftAttr) (s : State A W) :
    Sat (g.save attr) s
      (fun _ s' => s' = (s.setNftAttr g.cid g.nftId attr).unlockNft g.cid g.nftId)
      (fun _ => False) :=
  Sat.alter_bind (sat_alter.2 rfl)

theorem readNftAttr_spec (cid n : ℕ) (s : State A W) :
    Sat (readNftAttr cid n : Pallet A W NftAttr) s
      (fun attr s' => (cid, n) ∉ s.nftLocks ∧ s.nftAttr cid n = some attr ∧ s' = s)
      (GuardFault s cid n) := by
  refine (getNftAttrGuard_spec cid n s).bind (fun _ h => h) ?_
  rintro g _ ⟨free, found, rfl, rfl, rfl⟩
  refine g.unlock_spec _ |>.bind (fun _ h => h.elim) ?_
  rintro _ _ rfl
  exact ⟨free, found, State.unlockNft_lockNft free⟩

theorem expect_readNftAttr_spec {site : PanicSite} (cid n : ℕ) {s : State A W}
    (unlocked : s.nftLocks = ∅) (plain : (Fault.panic site none).plain = true) :
    Sat (expect site (readNftAttr cid n)) s (fun attr s' => s.nftAttr cid n = some attr ∧ s' = s)
      (fun f => f.plain = true) := by
  refine Sat.mapFault ((readNftAttr_spec cid n s).mono (fun _ _ h => h.2) fun _ h => h) ?_
  rintro _ (⟨rfl, -⟩ | ⟨rfl, locked⟩)
  · exact Fault.plain_expect rfl plain
  · simp [unlocked] at locked

/-! ## Minting, burning, merging -/

def getNextNftId (cid : ℕ) : Pallet A W ℕ := do
  let s ← get
  ensure (s.nextNftId cid + 1 < 2 ^ 32) (.error (.basePool .nftIdNotFound))
  pure (s.nextNftId cid)

def mintNft (cid : ℕ) (contributer : A) (shares : ℕ) : Pallet A W ℕ := do
  let s ← get
  ensure (cid ∈ s.collections) (.error .collectionUnknown)
  let nftId ← getNextNftId cid
  ensure ((s.nftOwner cid nftId).isNone) (.error .nftAlreadyExists)
  alter fun s => s.mintNft cid contributer shares
  pure nftId

theorem mintNft_spec (cid : ℕ) (a : A) (shares : ℕ) (s : State A W) :
    Sat (mintNft cid a shares) s
      (fun n s' => n = s.nextNftId cid ∧ s' = s.mintNft cid a shares)
      (fun f => f.plain = true) := by
  refine Sat.get_bind (Sat.ensure_bind (fun _ => ?_) fun _ => rfl)
  refine Sat.bind (F := fun f => f = .error (.basePool .nftIdNotFound))
    (R := fun n s' => n = s.nextNftId cid ∧ s' = s) ?_ ?_ ?_
  · exact Sat.get_bind (Sat.ensure_bind (fun _ => ⟨rfl, rfl⟩) fun _ => rfl)
  · rintro _ rfl
    rfl
  · rintro n _ ⟨rfl, rfl⟩
    exact Sat.ensure_bind (fun _ => ⟨rfl, rfl⟩) fun _ => rfl

variable [DecidableEq A] (cfg : Config A W)

def burnNft (owner : A) (cid n : ℕ) : Pallet A W Unit := do
  let s ← get
  ensure (s.nftOwner cid n = some owner) (.error (.basePool .burnNftFailed))
  alter fun s => s.burnNft cfg cid n

def burnNfts (onRead : Fault → Fault) (site : PanicSite) (owner : A) (cid : ℕ) (nfts : List ℕ)
    (total : ℕ) : Pallet A W ℕ :=
  nfts.foldlM (fun total n => do
    let attr ← mapFault onRead (readNftAttr cid n)
    expect site (burnNft cfg owner cid n)
    pure (total + attr.shares)) total

def burnForMerge (cid : ℕ) (staker : A) (nfts : List ℕ) : Pallet A W ℕ :=
  burnNfts cfg (Fault.expect .mergeNft) .mergeBurn staker cid nfts 0

def mergeNftForStaker (cid : ℕ) (staker : A) : Pallet A W (Option ℕ) := do
  let s ← get
  match s.ownedInCollection cid staker with
  | [] => pure none
  | [n] => pure (some n)
  | nfts => do
    let total ← burnForMerge cfg cid staker nfts
    let nftId ← mintNft cid staker total
    pure (some nftId)

variable {cfg}

theorem burnNft_spec (owner : A) (cid n : ℕ) (s : State A W) :
    Sat (burnNft cfg owner cid n) s
      (fun _ s' => s.nftOwner cid n = some owner ∧ s' = s.burnNft cfg cid n)
      (fun f => f = .error (.basePool .burnNftFailed) ∧ s.nftOwner cid n ≠ some owner) := by
  exact Sat.get_bind (Sat.ensure_bind (fun h => ⟨h, rfl⟩) fun h => ⟨rfl, h⟩)

theorem burnNfts_spec {onRead : Fault → Fault} {site : PanicSite} (owner : A) (cid : ℕ)
    (nfts : List ℕ) (total : ℕ) (s : State A W) :
    Sat (burnNfts cfg onRead site owner cid nfts total) s
      (fun total' s' => nfts.Nodup ∧ (∀ n ∈ nfts, s.nftOwner cid n = some owner ∧
          (s.nftAttr cid n).isSome ∧ (cid, n) ∉ s.nftLocks) ∧
        total' = total + s.sharesIn cid nfts ∧ s' = s.burnNfts cfg cid nfts)
      (fun f => (∃ n ∈ nfts, ∃ f', GuardFault s cid n f' ∧ f = onRead f') ∨
        (∃ n, f = onRead (.error (.basePool .missCollectionId)) ∧ n ∈ nfts) ∨
        f = .panic site (some (.basePool .burnNftFailed))) := by
  induction nfts generalizing s total with
  | nil => exact ⟨List.nodup_nil, by simp, rfl, rfl⟩
  | cons n nfts ih =>
    refine Sat.bind (R := fun total' s' => s.nftOwner cid n = some owner ∧
        (s.nftAttr cid n).isSome ∧ (cid, n) ∉ s.nftLocks ∧
        total' = total + s.sharesAt cid n ∧ s' = s.burnNft cfg cid n)
      (F := fun f => (∃ f', GuardFault s cid n f' ∧ f = onRead f') ∨
        f = .panic site (some (.basePool .burnNftFailed))) ?_ ?_ ?_
    · refine Sat.bind (sat_mapFault.2 ((readNftAttr_spec cid n s).mono (fun _ _ h => h)
        fun f h => ⟨f, h, rfl⟩)) (fun _ h => .inl h) ?_
      rintro attr _ ⟨free, found, rfl⟩
      refine Sat.bind (Sat.mapFault (burnNft_spec owner cid n _)
        (E := fun f => f = .panic site (some (.basePool .burnNftFailed))) ?_)
        (fun _ h => .inr h) ?_
      · rintro _ ⟨rfl, -⟩
        rfl
      · rintro _ _ ⟨owned, rfl⟩
        refine ⟨owned, by simp [found], free, ?_, rfl⟩
        rw [State.sharesAt_of_attr (by simp [owned]) found]
    · rintro f (⟨f', h, rfl⟩ | rfl)
      · exact .inl ⟨n, List.mem_cons_self, f', h, rfl⟩
      · exact .inr (.inr rfl)
    · rintro total' _ ⟨owned, found, free, rfl, rfl⟩
      refine (ih _ (s.burnNft cfg cid n)).mono ?_ ?_
      · rintro total' _ ⟨nodup, each, rfl, rfl⟩
        have fresh : n ∉ nfts := fun h => by simpa using (each n h).1
        have same : ∀ m ∈ nfts, m ≠ n := fun m hm => ne_of_mem_of_not_mem hm fresh
        refine ⟨List.nodup_cons.2 ⟨fresh, nodup⟩, ?_, ?_, rfl⟩
        · intro m hm
          rcases List.mem_cons.1 hm with rfl | hm
          · exact ⟨owned, found, free⟩
          · have h := each m hm
            rwa [State.burnNft_nftOwner (same m hm), State.burnNft_nftAttr (same m hm)] at h
        · have tail : (s.burnNft cfg cid n).sharesIn cid nfts = s.sharesIn cid nfts := by
            unfold State.sharesIn
            congr 1
            refine List.map_congr_left fun m hm => ?_
            rw [State.sharesAt_burnNft, if_neg (same m hm)]
          rw [tail]
          simp [State.sharesIn, Nat.add_assoc]
      · rintro f (⟨m, hm, f', h, rfl⟩ | ⟨m, rfl, hm⟩ | rfl)
        · rcases h with ⟨rfl, -⟩ | ⟨rfl, locked⟩
          · exact .inr (.inl ⟨m, rfl, List.mem_cons_of_mem _ hm⟩)
          · exact .inl ⟨m, List.mem_cons_of_mem _ hm, _, .inr ⟨rfl, locked⟩, rfl⟩
        · exact .inr (.inl ⟨m, rfl, List.mem_cons_of_mem _ hm⟩)
        · exact .inr (.inr rfl)

end Cyrux
