import Cyrux.Sync.Synchronizer

/-!
# A small world
-/

namespace Cyrux.Sync

namespace Mock

def header (para : Bool) (n : ℕ) : Header ℤ where
  parentHash := if para then 2 * n + 1 else 2 * n
  number := n
  stateRoot := n
  extrinsicsRoot := 0
  digest := []

def hash (h : Header ℤ) : ℤ :=
  if h = header false h.number then 2 * h.number + 2
  else if h = header true h.number then 2 * h.number + 3
  else -1

def externals : Externals ℤ Unit Unit Unit where
  hash := hash
  encode h := if h = header true h.number then [1] else [0]
  submitFinalizedHeaders _ _ h _ _ :=
    if h = header false h.number then (.ok (), ()) else (.error "invalid finality proof", ())
  validateStorageProof _ _ _ items :=
    if items.map Prod.snd = [[1]] then .ok () else .error "storage value mismatch"
  fullStorageRoot _ _ changes := (changes.mainStorageChanges.length, ())
  consolidate _ _ := ()

theorem header_inj {p q : Bool} {m n : ℕ} (h : header p m = header q n) : p = q ∧ m = n := by
  have hparent := congrArg Header.parentHash h
  simp only [header] at hparent
  split at hparent <;> split at hparent <;> grind

theorem hash_header (para : Bool) (n : ℕ) :
    hash (header para n) = if para then 2 * (n : ℤ) + 3 else 2 * n + 2 := by
  cases para with
  | false => simp [hash, show (header false n).number = n from rfl]
  | true =>
    have hne : header true n ≠ header false n := fun h => by cases (header_inj h).1
    simp [hash, show (header true n).number = n from rfl, hne]

theorem hash_eq {h : Header ℤ} {para : Bool} {n : ℕ} (hh : hash h = hash (header para n)) :
    h = header para n := by
  rw [hash_header] at hh
  unfold hash at hh
  split at hh
  · rename_i hfalse
    cases para with
    | false =>
      have : h.number = n := by
        omega
      rw [hfalse, this]
    | true => simp at hh; omega
  · split at hh
    · rename_i htrue
      cases para with
      | false => simp at hh; omega
      | true =>
        have : h.number = n := by
          omega
        rw [htrue, this]
    · split at hh <;> omega

theorem hash_ne (para : Bool) (h : Header ℤ) : hash h ≠ (header para 0).parentHash := by
  intro hh
  unfold hash at hh
  cases para <;> simp only [header] at hh <;> split at hh <;> try split at hh
  all_goals omega

def chain (para : Bool) : (linkage externals.hash).CanonicalChain where
  block := header para
  number_block _ := rfl
  parent_succ n := by
    change (header para (n + 1)).parentHash = hash (header para n)
    rw [hash_header]
    cases para <;> simp [header] <;> omega
  genesis := hash_ne para
  unique _ _ := hash_eq

def toSync (n : ℕ) : HeaderToSync ℤ := ⟨header false n, some []⟩

def block (number root : ℕ) : BlockHeaderWithChanges ℤ :=
  ⟨header true number, ⟨List.replicate root ([], none), []⟩⟩

end Mock

end Cyrux.Sync
