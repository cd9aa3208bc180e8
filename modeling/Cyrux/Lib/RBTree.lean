import Mathlib

/-!
# Ordered trees
-/

namespace Cyrux

structure RBTree (K V : Type) [LE K] where
  entries : List (K × V)
  sorted : entries.Pairwise fun a b => a.1 ≤ b.1

namespace RBTree

variable {K V : Type} [LinearOrder K]

def empty : RBTree K V := ⟨[], .nil⟩

def len (t : RBTree K V) : ℕ := t.entries.length

def insertEntry (k : K) (v : V) : List (K × V) → List (K × V)
  | [] => [(k, v)]
  | e :: l => if e.1 ≤ k then e :: insertEntry k v l else (k, v) :: e :: l

theorem insertEntry_perm (k : K) (v : V) (l : List (K × V)) :
    (insertEntry k v l).Perm ((k, v) :: l) := by
  induction l with
  | nil => exact .refl _
  | cons e l ih =>
    unfold insertEntry
    split
    · exact (ih.cons e).trans (.swap _ _ _)
    · exact .refl _

theorem insertEntry_sorted (k : K) (v : V) {l : List (K × V)}
    (h : l.Pairwise fun a b => a.1 ≤ b.1) :
    (insertEntry k v l).Pairwise fun a b => a.1 ≤ b.1 := by
  induction l with
  | nil => exact List.pairwise_singleton _ _
  | cons e l ih =>
    obtain ⟨he, hl⟩ := List.pairwise_cons.1 h
    unfold insertEntry
    split
    · rename_i hle
      refine List.pairwise_cons.2 ⟨fun x hx => ?_, ih hl⟩
      obtain rfl | hx := List.mem_cons.1 ((insertEntry_perm k v l).subset hx)
      · exact hle
      · exact he x hx
    · rename_i hlt
      refine List.pairwise_cons.2 ⟨fun x hx => ?_, h⟩
      obtain rfl | hx := List.mem_cons.1 hx
      · exact (lt_of_not_ge hlt).le
      · exact (lt_of_not_ge hlt).le.trans (he x hx)

def insert (t : RBTree K V) (k : K) (v : V) : RBTree K V :=
  ⟨insertEntry k v t.entries, insertEntry_sorted k v t.sorted⟩

def popFirst (t : RBTree K V) : Option ((K × V) × RBTree K V) :=
  match h : t.entries with
  | [] => none
  | e :: l => some (e, ⟨l, (List.pairwise_cons.1 (h ▸ t.sorted)).2⟩)

def getLast (t : RBTree K V) : Option (K × V) := t.entries.getLast?

def popLast (t : RBTree K V) : Option ((K × V) × RBTree K V) :=
  t.getLast.map fun e => (e, ⟨t.entries.dropLast, t.sorted.sublist (List.dropLast_sublist _)⟩)

def updateFirstEntry (p : V → Bool) (f : V → V) : List (K × V) → List (K × V)
  | [] => []
  | e :: l => if p e.2 then (e.1, f e.2) :: l else e :: updateFirstEntry p f l

omit [LinearOrder K] in
theorem map_updateFirstEntry {W : Type} {p : V → Bool} {f : V → V} (g : K → V → W)
    (same : ∀ k v, g k (f v) = g k v) (l : List (K × V)) :
    ((updateFirstEntry p f l).map fun e => g e.1 e.2) = l.map fun e => g e.1 e.2 := by
  induction l with
  | nil => rfl
  | cons e l ih =>
    unfold updateFirstEntry
    split
    · rw [List.map_cons, List.map_cons, same]
    · rw [List.map_cons, List.map_cons, ih]

def updateFirst (t : RBTree K V) (p : V → Bool) (f : V → V) : RBTree K V where
  entries := updateFirstEntry p f t.entries
  sorted := by
    have hsorted := List.pairwise_map.2 t.sorted
    rw [← map_updateFirstEntry (p := p) (f := f) (fun k _ => k) fun _ _ => rfl] at hsorted
    exact List.pairwise_map.1 hsorted

variable {t t' : RBTree K V} {e : K × V}

theorem insert_perm (t : RBTree K V) (k : K) (v : V) :
    (t.insert k v).entries.Perm ((k, v) :: t.entries) := insertEntry_perm k v t.entries

theorem popFirst_eq_none : t.popFirst = none ↔ t.entries = [] := by
  unfold popFirst
  split <;> simp [*]

theorem entries_of_popFirst (h : t.popFirst = some (e, t')) : t.entries = e :: t'.entries := by
  unfold popFirst at h
  split at h
  · cases h
  · rename_i hentries
    cases h
    exact hentries

theorem le_of_popFirst (h : t.popFirst = some (e, t')) {x : K × V} (hx : x ∈ t'.entries) :
    e.1 ≤ x.1 := by
  have hsorted := t.sorted
  rw [entries_of_popFirst h] at hsorted
  exact (List.pairwise_cons.1 hsorted).1 x hx

theorem getLast_eq_none : t.getLast = none ↔ t.entries = [] := List.getLast?_eq_none_iff

theorem entries_of_popLast (h : t.popLast = some (e, t')) : t.entries = t'.entries ++ [e] := by
  obtain ⟨e', hlast, heq⟩ := Option.map_eq_some_iff.1 h
  cases heq
  obtain ⟨l, hl⟩ := List.getLast?_eq_some_iff.1 hlast
  change t.entries = t.entries.dropLast ++ [e]
  rw [hl, List.dropLast_concat]

end RBTree

end Cyrux
