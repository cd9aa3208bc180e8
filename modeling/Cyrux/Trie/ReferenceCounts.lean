import Cyrux.Trie.NodeStores

/-!
# Reference counts of trie nodes
-/

namespace Cyrux.Trie

open RefCount

variable {hash : Bytes → Hash} {data value : Bytes} {h key : Hash}

/-! ## The store in memory -/

def Op.changes (hash : Bytes → Hash) : Op → List (Hash × ℤ)
  | .insert _ value => [(hash value, 1)]
  | .emplace key _ _ => [(key, 1)]
  | .remove key _ => [(key, -1)]
  | .consolidate other => other.flatMap fun change => [(change.key.hash, change.rc)]

def Op.Genuine (hash : Bytes → Hash) : Op → Prop
  | .emplace key _ value => hash value = key
  | .consolidate other => ∀ change ∈ other, 0 ≤ change.rc → hash change.value = change.key.hash
  | .insert _ _ | .remove _ _ => True

instance (hash : Bytes → Hash) (op : Op) : Decidable (op.Genuine hash) :=
  match op with
  | .emplace key _ value => inferInstanceAs (Decidable (hash value = key))
  | .consolidate other => inferInstanceAs (Decidable (∀ change ∈ other, 0 ≤ change.rc →
      hash change.value = change.key.hash))
  | .insert _ _ | .remove _ _ => inferInstanceAs (Decidable True)

structure MemoryDB.Tracks (hash : Bytes → Hash) (data : Bytes) (h : Hash) (db : MemoryDB)
    (done : List (Hash × ℤ)) : Prop where
  hashed_null : db.hashedNullNode = hash data
  null_data : db.nullNodeData = data
  sound : Sound (fun value => hash value = h) (db.data.lookup h) (net h done)

namespace MemoryDB

variable {db : MemoryDB} {done : List (Hash × ℤ)}

theorem tracks_new (hash : Bytes → Hash) (data : Bytes) (h : Hash) :
    Tracks hash data h (new hash data) [] := ⟨rfl, rfl, Sound.none⟩

theorem Tracks.alter {rc : ℤ} {f : Option (Counted Bytes) → Option (Counted Bytes)}
    (ht : Tracks hash data h db done)
    (hf : key = h → Sound (fun value => hash value = h) (f (db.data.lookup h)) (net h done + rc)) :
    Tracks hash data h { db with data := db.data.alter key f } (done ++ [(key, rc)]) :=
  ⟨ht.hashed_null, ht.null_data, ht.sound.alter hf⟩

theorem Tracks.other {rc : ℤ} (ht : Tracks hash data h db done) (hne : key ≠ h) :
    Tracks hash data h db (done ++ [(key, rc)]) := by
  refine ⟨ht.hashed_null, ht.null_data, ?_⟩
  rw [net_concat, if_neg hne, Int.add_zero]
  exact ht.sound

theorem inRange_concat {rc : ℤ} (hwithin : Within 32 h (done ++ [(h, rc)])) :
    Signed.InRange 32 (net h done + rc) := by
  have hnet := hwithin.inRange
  rw [net_concat, if_pos rfl] at hnet
  exact hnet

theorem Tracks.emplace (ht : Tracks hash data h db done) (hnull : h ≠ hash data)
    (hvalue : hash value = key) (p : Prefix) (hwithin : Within 32 h (done ++ [(key, 1)])) :
    Tracks hash data h (db.emplace key p value) (done ++ [(key, 1)]) := by
  unfold MemoryDB.emplace
  split
  · rename_i hskip
    rw [ht.null_data] at hskip
    apply ht.other
    rintro rfl
    rw [hskip] at hvalue
    exact hnull hvalue.symm
  · apply ht.alter
    intro hkey
    change key = h at hkey
    subst hkey
    have hsound := ht.sound
    cases he : db.data.lookup key with
    | none =>
      rw [he] at hsound
      exact hsound.fresh fun _ => hvalue
    | some e =>
      rw [he] at hsound
      apply hsound.adjust (inRange_concat hwithin)
      · exact fun hneg _ => decide_eq_true hneg.le
      · exact fun _ _ => hvalue

theorem Tracks.remove (ht : Tracks hash data h db done) (hnull : h ≠ hash data) (key : Hash)
    (p : Prefix) (hwithin : Within 32 h (done ++ [(key, -1)])) :
    Tracks hash data h (db.remove key p) (done ++ [(key, -1)]) := by
  unfold MemoryDB.remove
  split
  · rename_i hskip
    rw [ht.hashed_null] at hskip
    apply ht.other
    rintro rfl
    exact hnull hskip
  · apply ht.alter
    intro hkey
    change key = h at hkey
    subst hkey
    have hsound := ht.sound
    cases he : db.data.lookup key with
    | none =>
      rw [he] at hsound
      exact hsound.fresh fun hneg => absurd hneg (by decide)
    | some e =>
      rw [he] at hsound
      apply hsound.adjust (inRange_concat hwithin)
      · exact fun _ hpos => absurd hpos (by decide)
      · nofun

theorem Tracks.consolidateEntry (ht : Tracks hash data h db done) {change : Change}
    (hvalue : 0 ≤ change.rc → hash change.value = change.key.hash)
    (hwithin : Within 32 h (done ++ [(change.key.hash, change.rc)])) :
    Tracks hash data h (db.consolidateEntry change) (done ++ [(change.key.hash, change.rc)]) := by
  apply ht.alter
  intro hkey
  rw [hkey] at hvalue hwithin
  have hsound := ht.sound
  cases he : db.data.lookup h with
  | none =>
    rw [he] at hsound
    exact hsound.fresh hvalue
  | some e =>
    rw [he] at hsound
    apply hsound.adjust (inRange_concat hwithin)
    · exact fun hneg _ => decide_eq_true hneg
    · intro hneg hcount
      have hneg := of_decide_eq_true hneg
      exact hvalue (by omega)

theorem Tracks.run (ht : Tracks hash data h db done) (hnull : h ≠ hash data) {op : Op}
    (hop : op.Genuine hash) (hwithin : Within 32 h (done ++ op.changes hash)) :
    Tracks hash data h (op.run hash db) (done ++ op.changes hash) := by
  cases op with
  | insert p value =>
    change Tracks hash data h (db.insert hash p value).2 _
    unfold MemoryDB.insert
    split
    · rename_i hskip
      rw [ht.null_data] at hskip
      apply ht.other
      rw [hskip]
      exact hnull.symm
    · exact ht.emplace hnull rfl p hwithin
  | emplace key p value => exact ht.emplace hnull hop p hwithin
  | remove key p => exact ht.remove hnull key p hwithin
  | consolidate other =>
    refine Within.foldl (R := Tracks hash data h) ?_ ht hwithin
    exact fun _ change hchange _ ht' hwithin' => ht'.consolidateEntry (hop change hchange) hwithin'

theorem tracks_afterOps (hnull : h ≠ hash data) {ops : List Op}
    (hops : ∀ op ∈ ops, op.Genuine hash)
    (hwithin : Within 32 h (ops.flatMap (Op.changes hash))) :
    Tracks hash data h (afterOps hash (new hash data) ops) (ops.flatMap (Op.changes hash)) := by
  refine Within.foldl (R := Tracks hash data h) ?_ (tracks_new hash data h) hwithin
  exact fun _ op hop _ ht hwithin' => ht.run hnull (hops op hop) hwithin'

end MemoryDB

/-! ## The store of a cluster -/

def committed (transaction : BackendTransaction) : List (Bytes × ℤ) :=
  transaction.flatMap fun change => [(change.key.hash.val, change.rc)]

namespace ClusterStorage

variable {s : ClusterStorage} {done : List (Bytes × ℤ)} {key value : Bytes}

structure Tracks (hash : Bytes → Hash) (h : Hash) (s : ClusterStorage)
    (done : List (Bytes × ℤ)) : Prop where
  sound : Sound (fun value => hash value = h) (s.kvStore.lookup h.val) (net h.val done)
  referenced : ∀ e, s.kvStore.lookup h.val = some e → e.count ≠ 0

theorem Tracks.update (ht : Tracks hash h s done) {rc : ℤ}
    (hvalue : 0 < rc → (hash value).val = key) (hwithin : Within 32 h.val (done ++ [(key, rc)])) :
    Tracks hash h (s.update key value rc) (done ++ [(key, rc)]) := by
  have hright : key = h.val → 0 < rc → hash value = h :=
    fun hkey hpos => Subtype.ext ((hvalue hpos).trans hkey)
  unfold ClusterStorage.update
  split
  · rename_i hzero
    refine ⟨?_, ht.referenced⟩
    rw [hzero, net_concat, ite_self, Int.add_zero]
    exact ht.sound
  · rename_i hzero
    have hsound := ht.sound
    have hrange := hwithin.inRange
    rw [net_concat] at hrange
    refine ⟨hsound.alter fun hkey => ?_, fun e' he' => ?_⟩
    · rw [if_pos hkey] at hrange
      cases he : s.kvStore.lookup h.val with
      | none =>
        rw [he] at hsound
        exact hsound.fresh fun hrc => hright hkey (by omega)
      | some e =>
        rw [he] at hsound
        apply hsound.adjust hrange
        · exact fun _ hpos => decide_eq_true hpos
        · exact fun hpos _ => hright hkey (of_decide_eq_true hpos)
    · rw [AList.lookup_alter] at he'
      split at he'
      · split at he'
        · exact count_ne_zero_of_adjust he'
        · cases he'
          exact hzero
      · exact ht.referenced e' he'

theorem Tracks.commitTransaction (ht : Tracks hash h s done) (root : Hash)
    {transaction : BackendTransaction}
    (hvalues : ∀ change ∈ transaction, 0 < change.rc → hash change.value = change.key.hash)
    (hwithin : Within 32 h.val (done ++ committed transaction)) :
    Tracks hash h (s.commitTransaction root transaction) (done ++ committed transaction) := by
  have hupdates : Tracks hash h
      (transaction.foldl (fun s change => s.update change.key.hash.val change.value change.rc) s)
      (done ++ committed transaction) := by
    refine Within.foldl (R := Tracks hash h) ?_ ht hwithin
    intro s' change hchange done' ht' hwithin'
    exact ht'.update (fun hpos => congrArg Subtype.val (hvalues change hchange hpos)) hwithin'
  unfold ClusterStorage.commitTransaction ClusterStorage.commit
  rw [List.foldl_map]
  exact ⟨hupdates.sound, hupdates.referenced⟩

theorem tracks_afterCommits {commits : List (Hash × BackendTransaction)}
    (hvalues : ∀ commit ∈ commits, ∀ change ∈ commit.2, 0 < change.rc →
      hash change.value = change.key.hash)
    (hwithin : Within 32 h.val (commits.flatMap fun commit => committed commit.2)) :
    Tracks hash h (afterCommits {} commits) (commits.flatMap fun commit => committed commit.2) := by
  have hnew : Tracks hash h {} [] := ⟨Sound.none, nofun⟩
  refine Within.foldl (R := Tracks hash h) ?_ hnew hwithin
  intro s commit hcommit done ht hwithin'
  exact ht.commitTransaction commit.1 (hvalues commit hcommit) hwithin'

theorem Tracks.isSome_iff (ht : Tracks hash h s done) (hpos : 0 ≤ net h.val done) :
    (s.get h.val).isSome ↔ 0 < net h.val done := by
  have hcount := ht.sound.count_eq
  unfold ClusterStorage.get
  cases he : s.kvStore.lookup h.val with
  | none =>
    rw [he] at hcount
    change (0 : ℤ) = _ at hcount
    rw [← hcount]
    decide
  | some e =>
    rw [he] at hcount
    have hne := ht.referenced e he
    change e.count = _ at hcount
    refine ⟨fun _ => ?_, fun _ => rfl⟩
    omega

end ClusterStorage

/-! ## Both stores -/

/-- The count of a hash is the net number of its references. -/
theorem references_counted (hash : Bytes → Hash) :
    (∀ (data : Bytes) (ops : List Op), (∀ op ∈ ops, op.Genuine hash) →
      ∀ h, h ≠ hash data → Within 32 h (ops.flatMap (Op.changes hash)) →
        let entry := (afterOps hash (MemoryDB.new hash data) ops).data.lookup h
        count entry = net h (ops.flatMap (Op.changes hash)) ∧
          ∀ e, entry = some e → 0 < e.count → hash e.value = h) ∧
    ∀ commits : List (Hash × BackendTransaction),
      (∀ commit ∈ commits, ∀ change ∈ commit.2, 0 < change.rc →
        hash change.value = change.key.hash) →
      ∀ h : Hash, Within 32 h.val (commits.flatMap fun commit => committed commit.2) →
        0 ≤ net h.val (commits.flatMap fun commit => committed commit.2) →
        let entry := (afterCommits {} commits).get h.val
        (entry.isSome ↔ 0 < net h.val (commits.flatMap fun commit => committed commit.2)) ∧
          ∀ e, entry = some e → hash e.value = h := by
  constructor
  · intro data ops hops h hnull hwithin entry
    have ht := MemoryDB.tracks_afterOps hnull hops hwithin
    exact ⟨ht.sound.count_eq, fun e he hcount => ht.sound.value_right e he hcount.le⟩
  · intro commits hvalues h hwithin hpos entry
    have ht := ClusterStorage.tracks_afterCommits hvalues hwithin
    refine ⟨ht.isSome_iff hpos, fun e he => ht.sound.value_right e he ?_⟩
    have hcount := ht.sound.count_eq
    have hentry : (afterCommits {} commits).kvStore.lookup h.val = some e := he
    rw [hentry] at hcount
    change e.count = _ at hcount
    omega

def padded (value : Bytes) : Hash := ⟨(value ++ List.replicate 32 0).take 32, by simp⟩

theorem references_counted_collapsed :
    let transaction : BackendTransaction := [⟨prefixedKey (padded [7]) ([1], none), [7], 1⟩,
      ⟨prefixedKey (padded [7]) ([2], some 3), [7], 1⟩]
    let ops : List Op := [.remove (padded [7]) ([], none), .consolidate transaction]
    (afterOps padded (MemoryDB.new padded [0]) ops).data.lookup (padded [7]) = some ⟨[7], 1⟩ ∧
      count ((afterOps padded (MemoryDB.new padded [0]) ops).data.lookup (padded [7])) =
        net (padded [7]) (ops.flatMap (Op.changes padded)) ∧
      ((afterCommits {} [(padded [], transaction)]).get (padded [7]).val).isSome := by
  intro transaction ops
  refine ⟨by decide +kernel, ?_, ?_⟩
  · refine ((references_counted padded).1 [0] ops ?_ (padded [7]) ?_ ?_).1
    · decide +kernel
    · decide +kernel
    · decide +kernel
  · refine (((references_counted padded).2 [(padded [], transaction)] ?_ (padded [7])
      ?_ ?_).1).2 ?_ <;> decide +kernel

theorem references_not_counted :
    let key := prefixedKey (padded [7]) ([1], none)
    let insertNull : List Op := [.insert ([], none) [0]]
    let zeroFirst : List Op := [.consolidate [⟨key, [], 0⟩], .consolidate [⟨key, [7], 1⟩]]
    let most : List Op := [.consolidate [⟨key, [7], 2 ^ 31 - 1⟩], .insert ([], none) [7]]
    (count ((afterOps padded (MemoryDB.new padded [0]) insertNull).data.lookup (padded [0])) = 0 ∧
      net (padded [0]) (insertNull.flatMap (Op.changes padded)) = 1) ∧
    ((afterOps padded (MemoryDB.new padded [0]) zeroFirst).data.lookup (padded [7]) =
        some ⟨[], 1⟩ ∧ padded [] ≠ padded [7]) ∧
    (count ((afterOps padded (MemoryDB.new padded [0]) most).data.lookup (padded [7])) = -2 ^ 31 ∧
      net (padded [7]) (most.flatMap (Op.changes padded)) = 2 ^ 31) := by
  decide +kernel

end Cyrux.Trie
