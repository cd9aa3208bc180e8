import Cyrux.Prb.HeadersDb

/-!
# The stored headers are a partition
-/

namespace Cyrux.Prb

open Proc

variable {H A : Type}

/-! ## Keys -/

theorem encodeU32_lt {a b : ℕ} (h : a < b) (hb : b ≤ u32Max) : encodeU32 a < encodeU32 b := by
  unfold u32Max at hb
  have hb' : b < 256 ^ 4 := by omega
  exact (bigEndian_lt_iff (h.trans hb') hb').2 h

theorem encodeU32_le {a b : ℕ} (h : a ≤ b) (hb : b ≤ u32Max) : encodeU32 a ≤ encodeU32 b := by
  obtain rfl | hlt := Nat.eq_or_lt_of_le h
  · exact le_rfl
  · exact (encodeU32_lt hlt hb).le

/-! ## Batches -/

def numbers (headers : HeadersToSync H A) : List ℕ := headers.map fun header => header.header.number

structure Batch (start : ℕ) (headers : HeadersToSync H A) : Prop where
  numbers_eq : numbers headers = List.range' start headers.length
  justified : headers.map (fun header => header.justification.isSome) =
    List.replicate (headers.length - 1) false ++ [true]

instance (start : ℕ) (headers : HeadersToSync H A) : Decidable (Batch start headers) :=
  decidable_of_iff (numbers headers = List.range' start headers.length ∧
      headers.map (fun header => header.justification.isSome) =
        List.replicate (headers.length - 1) false ++ [true])
    ⟨fun h => ⟨h.1, h.2⟩, fun h => ⟨h.1, h.2⟩⟩

variable {start next n : ℕ} {headers new : HeadersToSync H A}

theorem Batch.length_pos (h : Batch start headers) : 0 < headers.length := by
  have hlength := congrArg List.length h.justified
  rw [List.length_map, List.length_append, List.length_singleton] at hlength
  omega

theorem Batch.head (h : Batch start headers) :
    ∃ first, headers.head? = some first ∧ first.header.number = start := by
  have hnumbers := h.numbers_eq
  have hpos := h.length_pos
  cases headers with
  | nil => exact absurd hpos (lt_irrefl 0)
  | cons first rest =>
    refine ⟨first, rfl, ?_⟩
    exact (List.cons.inj hnumbers).1

theorem Batch.last (h : Batch start headers) :
    ∃ last, headers.getLast? = some last ∧ last.header.number = start + headers.length - 1 ∧
      last.justification.isSome := by
  have hpos := h.length_pos
  obtain ⟨init, last, rfl⟩ := (List.eq_nil_or_concat headers).resolve_left
    (List.ne_nil_of_length_pos hpos)
  have hnumbers := h.numbers_eq
  have hjustified := h.justified
  unfold numbers at hnumbers
  rw [List.concat_eq_append] at hnumbers hjustified ⊢
  rw [List.map_append, List.length_append, List.length_singleton, List.range'_concat,
    Nat.one_mul] at hnumbers
  rw [List.map_append] at hjustified
  refine ⟨last, List.getLast?_concat, ?_, ?_⟩
  · have hlast := (List.append_inj' hnumbers rfl).2
    rw [List.length_append, List.length_singleton]
    exact (List.cons.inj hlast).1
  · exact (List.cons.inj (List.append_inj' hjustified rfl).2).1

theorem Batch.le_max (h : Batch start headers) : start + headers.length ≤ u32Max := by
  obtain ⟨last, -, hnumber, -⟩ := h.last
  have hlt := last.header.number_lt
  omega

theorem contiguous_of_numbers (h : numbers headers = List.range' start headers.length)
    (hmax : start + headers.length ≤ u32Max) : Contiguous headers := by
  unfold u32Max at hmax
  induction headers generalizing start with
  | nil => exact List.IsChain.nil
  | cons first rest ih =>
    rw [List.length_cons] at h hmax
    unfold numbers at h
    rw [List.map_cons, List.range'_succ] at h
    obtain ⟨hfirst, hrest⟩ := List.cons.inj h
    have hchain := ih hrest (by omega)
    cases rest with
    | nil => exact List.IsChain.singleton _
    | cons second rest =>
      rw [List.map_cons, List.length_cons, List.range'_succ] at hrest
      refine List.isChain_cons_cons.2 ⟨?_, hchain⟩
      rw [hfirst, (List.cons.inj hrest).1, Unsigned.wrappingAdd_eq (by omega)]

theorem numbers_unjustified : numbers (unjustified headers) = numbers headers := by
  unfold numbers unjustified
  rw [List.map_map]
  rfl

theorem length_unjustified : (unjustified headers).length = headers.length := List.length_map _

theorem Batch.extend (hnumbers : numbers headers = List.range' start headers.length)
    (h : Batch (start + headers.length) new) : Batch start (unjustified headers ++ new) := by
  have hpos := h.length_pos
  constructor
  · unfold numbers
    rw [List.map_append, List.length_append, length_unjustified]
    change numbers (unjustified headers) ++ numbers new = _
    rw [numbers_unjustified, hnumbers, h.numbers_eq, List.range'_append_1]
  · have hold : (unjustified headers).map (fun header => header.justification.isSome) =
        List.replicate headers.length false := by
      unfold unjustified
      rw [List.map_map]
      exact List.map_const
    rw [List.map_append, hold, h.justified, ← List.append_assoc, List.replicate_append_replicate,
      List.length_append, length_unjustified, Nat.add_sub_assoc hpos]

/-! ## The partition -/

inductive Settled : ℕ → List (Key × HeadersToSync H A) → ℕ → Prop
  | nil {start : ℕ} : Settled start [] start
  | cons {start next : ℕ} {headers : HeadersToSync H A} {rest : List (Key × HeadersToSync H A)} :
      Batch start headers → Settled (start + headers.length) rest next →
      Settled start ((encodeU32 (start + headers.length - 1), headers) :: rest) next

variable {l l' : List (Key × HeadersToSync H A)} {mid : ℕ}

theorem Settled.append (h : Settled start l mid) (h' : Settled mid l' next) :
    Settled start (l ++ l') next := by
  induction h with
  | nil => exact h'
  | cons hbatch _ ih => exact Settled.cons hbatch (ih h')

theorem Settled.le (h : Settled start l next) : start ≤ next := by
  induction h with
  | nil => exact le_rfl
  | cons _ _ ih => exact (Nat.le_add_right _ _).trans ih

theorem Settled.key (h : Settled start l next) :
    ∀ e ∈ l, ∃ n, e.1 = encodeU32 n ∧ start ≤ n ∧ n < next ∧ next ≤ u32Max := by
  induction h with
  | nil => nofun
  | @cons start next headers rest hbatch hrest ih =>
    intro e he
    obtain rfl | he := List.mem_cons.1 he
    · have hpos := hbatch.length_pos
      have hle := hrest.le
      refine ⟨_, rfl, by omega, by omega, ?_⟩
      cases rest with
      | nil =>
        cases hrest
        exact hbatch.le_max
      | cons e rest =>
        obtain ⟨-, -, -, -, hmax⟩ := ih e List.mem_cons_self
        exact hmax
    · obtain ⟨n, hn, hstart, hnext⟩ := ih e he
      exact ⟨n, hn, by omega, hnext⟩

theorem Settled.key_lt (h : Settled start l next) (hn : next ≤ n) (hmax : n ≤ u32Max) :
    ∀ e ∈ l, e.1 < encodeU32 n := by
  intro e he
  obtain ⟨m, hm, -, hlt, -⟩ := h.key e he
  rw [hm]
  exact encodeU32_lt (hlt.trans_le hn) hmax

theorem Settled.le_key (h : Settled start l next) : ∀ e ∈ l, encodeU32 start ≤ e.1 := by
  intro e he
  obtain ⟨m, hm, hle, hlt, hmax⟩ := h.key e he
  rw [hm]
  exact encodeU32_le hle (hlt.le.trans hmax)

theorem Settled.numbers_eq (h : Settled start l next) :
    (l.map Prod.snd).flatMap numbers = List.range' start (next - start) := by
  induction h with
  | nil => rw [Nat.sub_self]; rfl
  | @cons start next headers rest hbatch hrest ih =>
    have hle := hrest.le
    rw [List.map_cons, List.flatMap_cons, ih, hbatch.numbers_eq, List.range'_append_1]
    congr 1
    omega

theorem Settled.batches (h : Settled start l next) :
    ∀ headers ∈ l.map Prod.snd, ∃ n, Batch n headers := by
  induction h with
  | nil => nofun
  | @cons start next first rest hbatch _ ih =>
    intro headers hmem
    obtain rfl | hmem := List.mem_cons.1 hmem
    · exact ⟨start, hbatch⟩
    · exact ih headers hmem

theorem filter_of_lt {k : Key} (h : ∀ e ∈ l, e.1 < k) :
    l.filter (fun e => decide (k ≤ e.1)) = [] :=
  List.filter_eq_nil_iff.2 fun e he => by simpa using h e he

theorem filter_of_le {k : Key} (h : ∀ e ∈ l, k ≤ e.1) :
    l.filter (fun e => decide (k ≤ e.1)) = l :=
  List.filter_eq_self.2 fun e he => by simpa using h e he

theorem mem_numbers (h : Batch start headers) (hstart : start ≤ n)
    (hn : n < start + headers.length) : n ∈ numbers headers := by
  rw [h.numbers_eq, List.mem_range'_1]
  exact ⟨hstart, hn⟩

theorem Settled.lookup (h : Settled start l next) (hstart : start ≤ n) (hn : n < next) :
    ∃ headers, ((l.filter fun e => decide (encodeU32 n ≤ e.1)).head?.map Prod.snd) = some headers ∧
      headers ∈ l.map Prod.snd ∧ n ∈ numbers headers := by
  induction h with
  | nil => exact absurd (hstart.trans_lt hn) (lt_irrefl _)
  | @cons start next first rest hbatch hrest ih =>
    have hpos := hbatch.length_pos
    have hmax := hbatch.le_max
    by_cases hfirst : n < start + first.length
    · have hkey : encodeU32 n ≤ encodeU32 (start + first.length - 1) :=
        encodeU32_le (by omega) (by omega)
      refine ⟨first, ?_, List.mem_cons_self, mem_numbers hbatch hstart hfirst⟩
      rw [List.filter_cons_of_pos (by simpa using hkey)]
      rfl
    · obtain ⟨e, he⟩ : ∃ e, e ∈ rest := by
        cases rest with
        | nil =>
          cases hrest
          exact absurd hn hfirst
        | cons e rest => exact ⟨e, List.mem_cons_self⟩
      obtain ⟨-, -, -, -, hmax'⟩ := hrest.key e he
      have hkey : encodeU32 (start + first.length - 1) < encodeU32 n :=
        encodeU32_lt (by omega) (hn.le.trans hmax')
      obtain ⟨headers, hfound, hmem, hnumber⟩ := ih (by omega) hn
      refine ⟨headers, ?_, List.mem_cons_of_mem _ hmem, hnumber⟩
      rw [List.filter_cons_of_neg (by simpa using hkey)]
      exact hfound

structure Partition (start : ℕ) (entries : List (Key × HeadersToSync H A)) (next : ℕ)
    (settled : List (Key × HeadersToSync H A)) (tail : Option (HeadersToSync H A)) (mid : ℕ) :
    Prop where
  entries_eq : entries = settled ++ tail.toList.map fun headers => (encodeU32 u32Max, headers)
  batches : Settled start settled mid
  tail_batch : ∀ headers, tail = some headers → Batch mid headers
  next_eq : next = mid + (tail.getD []).length

def Partitioned (start : ℕ) (entries : List (Key × HeadersToSync H A)) (next : ℕ) : Prop :=
  ∃ settled tail mid, Partition start entries next settled tail mid

section Partition

variable {db : DB H A} {settled : List (Key × HeadersToSync H A)}
  {tail : Option (HeadersToSync H A)}

theorem Settled.lt_max (h : Settled start l next) : ∀ e ∈ l, e.1 < encodeU32 u32Max := by
  intro e he
  obtain ⟨n, hn, -, hlt, hmax⟩ := h.key e he
  rw [hn]
  exact encodeU32_lt (hlt.trans_le hmax) le_rfl

theorem Partition.deleteTailHeaders (h : Partition start db.entries next settled tail mid) :
    (deleteTailHeaders db).entries = settled :=
  OrderedStore.entries_delete_of_lt h.entries_eq h.batches.lt_max

theorem Partition.iterFrom (h : Partition start db.entries next settled tail mid) (hn : mid ≤ n)
    (hmax : n ≤ u32Max) :
    db.iterFrom (encodeU32 n) = tail.toList.map fun headers => (encodeU32 u32Max, headers) := by
  unfold OrderedStore.iterFrom
  rw [h.entries_eq, List.filter_append, filter_of_lt (h.batches.key_lt hn hmax), List.nil_append]
  apply filter_of_le
  intro e he
  obtain ⟨_, -, rfl⟩ := List.mem_map.1 he
  exact encodeU32_le hmax le_rfl

theorem Partition.getCurrentPoint (h : Partition start db.entries next settled tail mid)
    (hn : mid ≤ n) (hmax : n ≤ u32Max) : getCurrentPoint db n = tail := by
  unfold Prb.getCurrentPoint
  rw [h.iterFrom hn hmax]
  cases tail with
  | none => rfl
  | some headers => rfl

theorem partitioned_put {last : Header H A} {knownChaintip : ℕ} (hdb : db.entries = settled)
    (h : Settled start settled mid) (hbatch : Batch mid headers)
    (hlast : last.number = mid + headers.length - 1) :
    Partitioned start (db.put (batchKey last knownChaintip) headers).entries
      (mid + headers.length) := by
  have hpos := hbatch.length_pos
  have hmax := hbatch.le_max
  have hsettled : Partitioned start (db.put (encodeU32 last.number) headers).entries
      (mid + headers.length) := by
    refine ⟨settled ++ [(encodeU32 last.number, headers)], none, mid + headers.length, ?_⟩
    have hlt : ∀ e ∈ db.entries, e.1 < encodeU32 last.number := by
      rw [hdb]
      exact h.key_lt (by omega) (by omega)
    refine ⟨?_, ?_, nofun, rfl⟩
    · rw [OrderedStore.entries_put_of_lt hlt, hdb]
      exact (List.append_nil _).symm
    · apply h.append
      rw [hlast]
      exact Settled.cons hbatch Settled.nil
  unfold batchKey
  split
  · exact hsettled
  · split
    · refine ⟨settled, some headers, mid, ?_, h, ?_, rfl⟩
      · rw [OrderedStore.entries_put_of_lt (by rw [hdb]; exact h.lt_max), hdb]
        rfl
      · rintro _ ⟨⟩
        exact hbatch
    · exact hsettled

theorem runs_putHeadersToDb (h : Partitioned start db.entries next) (hnew : Batch next new)
    (knownChaintip : ℕ) :
    Runs (putHeadersToDb new knownChaintip) db
      (fun number db' => number = next + new.length - 1 ∧
        Partitioned start db'.entries (next + new.length)) (fun _ _ => False) := by
  obtain ⟨settled, tail, mid, hpartition⟩ := h
  have hmax := hnew.le_max
  have hnext := hpartition.next_eq
  obtain ⟨first, hfirst, hnumber⟩ := hnew.head
  -- The headers of the tail and the new ones are one batch.
  have htail : numbers (tail.getD []) = List.range' mid (tail.getD []).length := by
    cases htail : tail with
    | none => rfl
    | some headers => exact (hpartition.tail_batch headers htail).numbers_eq
  have hbatch : Batch mid (unjustified (tail.getD []) ++ new) := by
    apply Batch.extend htail
    rw [← hnext]
    exact hnew
  have hlength : mid + (unjustified (tail.getD []) ++ new).length = next + new.length := by
    rw [List.length_append, length_unjustified, hnext, Nat.add_assoc]
  obtain ⟨last, hlast, hlastNumber, hjustified⟩ := hbatch.last
  rw [hlength] at hlastNumber
  apply Runs.demand_bind
  case missing =>
    intro hmissing
    rw [hfirst] at hmissing
    cases hmissing
  rintro _ hsome
  rw [hfirst] at hsome
  cases hsome
  apply Runs.get_bind
  have hcurrent : getCurrentPoint db first.header.number = tail := by
    exact hpartition.getCurrentPoint (by omega) (by omega)
  rw [hcurrent]
  -- Whether or not there is a tail, the settled batches are left.
  have hrest : ∀ db' : DB H A, db'.entries = settled →
      Runs (do
        ensure (Contiguous (unjustified (tail.getD []) ++ new)) Panic.notMatch
        let last ← demand (unjustified (tail.getD []) ++ new).getLast? Panic.shouldHaveHeader
        alter fun db => db.put (batchKey last.header knownChaintip)
          (unjustified (tail.getD []) ++ new)
        let _ ← demand last.justification Panic.shouldHaveJustification
        pure last.header.number) db'
        (fun number db' => number = next + new.length - 1 ∧
          Partitioned start db'.entries (next + new.length)) (fun _ _ => False) := by
    intro db' hdb'
    apply Runs.ensure_bind
    case fails =>
      exact fun hno => hno (contiguous_of_numbers hbatch.numbers_eq hbatch.le_max)
    intro _
    apply Runs.demand_bind
    case missing =>
      intro hmissing
      rw [hlast] at hmissing
      cases hmissing
    rintro _ hsome
    rw [hlast] at hsome
    cases hsome
    apply Runs.demand_bind
    case missing =>
      intro hmissing
      rw [hmissing] at hjustified
      cases hjustified
    intro _ _
    refine ⟨hlastNumber, ?_⟩
    rw [← hlength]
    apply partitioned_put hdb' hpartition.batches hbatch
    rw [hlength, hlastNumber]
  apply Runs.bind
  apply Runs.when
  · intro _
    exact hrest _ hpartition.deleteTailHeaders
  · intro hno
    apply hrest
    rw [hpartition.entries_eq, Option.not_isSome_iff_eq_none.1 hno]
    exact List.append_nil settled

theorem Partitioned.lookup (h : Partitioned start db.entries next) (hstart : start ≤ n)
    (hn : n < next) :
    ∃ headers ∈ db.values, Prb.getCurrentPoint db n = some headers ∧ n ∈ numbers headers := by
  obtain ⟨settled, tail, mid, hpartition⟩ := h
  have hvalues : db.values = settled.map Prod.snd ++ tail.toList := by
    unfold OrderedStore.values
    rw [hpartition.entries_eq, List.map_append, List.map_map]
    congr 1
    exact List.map_id _
  have hnext := hpartition.next_eq
  by_cases hmid : n < mid
  · obtain ⟨headers, hfound, hmem, hnumber⟩ := hpartition.batches.lookup hstart hmid
    refine ⟨headers, ?_, ?_, hnumber⟩
    · rw [hvalues]
      exact List.mem_append_left _ hmem
    · unfold Prb.getCurrentPoint OrderedStore.iterFrom
      rw [hpartition.entries_eq, List.filter_append, List.head?_append, Option.map_or, hfound]
      rfl
  · cases htail : tail with
    | none =>
      rw [htail] at hnext
      exact absurd (hn.trans_eq hnext) hmid
    | some headers =>
      have hbatch := hpartition.tail_batch headers htail
      have hmax := hbatch.le_max
      rw [htail] at hnext
      change next = mid + headers.length at hnext
      refine ⟨headers, ?_, ?_, mem_numbers hbatch (by omega) (by omega)⟩
      · rw [hvalues, htail]
        exact List.mem_append_right _ List.mem_cons_self
      · rw [hpartition.getCurrentPoint (by omega) (by omega), htail]

theorem Partitioned.numbers_eq (h : Partitioned start db.entries next) :
    db.values.flatMap numbers = List.range' start (next - start) := by
  obtain ⟨settled, tail, mid, hpartition⟩ := h
  have hle := hpartition.batches.le
  have hnext := hpartition.next_eq
  unfold OrderedStore.values
  rw [hpartition.entries_eq, List.map_append, List.flatMap_append, hpartition.batches.numbers_eq]
  cases htail : tail with
  | none =>
    rw [htail] at hnext
    change next = mid at hnext
    rw [hnext]
    exact List.append_nil _
  | some headers =>
    rw [htail] at hnext
    change next = mid + headers.length at hnext
    change _ ++ (numbers headers ++ []) = _
    rw [List.append_nil, (hpartition.tail_batch headers htail).numbers_eq]
    have hrange : List.range' mid headers.length =
        List.range' (start + (mid - start)) headers.length := by
      rw [Nat.add_sub_cancel' hle]
    rw [hrange, List.range'_append_1]
    congr 1
    omega

theorem Partitioned.batches (h : Partitioned start db.entries next) :
    ∀ headers ∈ db.values, ∃ n, Batch n headers := by
  obtain ⟨settled, tail, mid, hpartition⟩ := h
  intro headers hmem
  unfold OrderedStore.values at hmem
  rw [hpartition.entries_eq, List.map_append] at hmem
  obtain hmem | hmem := List.mem_append.1 hmem
  · exact hpartition.batches.batches headers hmem
  · cases htail : tail with
    | none =>
      rw [htail] at hmem
      cases hmem
    | some last =>
      rw [htail] at hmem
      obtain rfl := List.mem_singleton.1 hmem
      exact ⟨mid, hpartition.tail_batch headers htail⟩

/-! ## Restarts -/

variable [DecidableEq H] (c : Chain H A) (needVerify : Bool)

theorem verify_batch (h : Batch start headers) (setId : ℕ) (authorities : Option A) :
    verify c headers setId authorities needVerify = .ok none ∨
      ∃ next, verify c headers setId authorities needVerify =
        .ok (some (start + headers.length - 1, next)) := by
  obtain ⟨last, hlast, hnumber, hjustified⟩ := h.last
  obtain ⟨justification, hjustification⟩ := Option.isSome_iff_exists.1 hjustified
  unfold verify
  rw [hlast, ← hnumber]
  dsimp only
  cases last.header.scheduledChange with
  | none => exact Or.inl rfl
  | some next =>
    dsimp only
    split
    · exact Or.inr ⟨next, rfl⟩
    · split
      · exact Or.inl rfl
      · cases authorities with
        | none => exact Or.inr ⟨next, rfl⟩
        | some authorities =>
          rw [hjustification]
          dsimp only
          split
          · exact Or.inr ⟨next, rfl⟩
          · exact Or.inl rfl

theorem Settled.validFrom (h : Settled start l next) (setId : ℕ) (authorities : Option A) :
    ∃ valid rest mid setId' authorities', l = valid ++ rest ∧ Settled start valid mid ∧
      Settled mid rest next ∧
      validFrom c needVerify l start setId authorities = .ok (mid, setId', authorities') := by
  induction h generalizing setId authorities with
  | nil => exact ⟨[], [], _, setId, authorities, rfl, Settled.nil, Settled.nil, rfl⟩
  | @cons start next headers rest hbatch hrest ih =>
    unfold Prb.validFrom
    obtain hbad | ⟨nextAuthorities, hgood⟩ :=
      verify_batch c needVerify hbatch setId authorities
    · rw [hbad]
      exact ⟨[], _, start, setId, authorities, rfl, Settled.nil, Settled.cons hbatch hrest, rfl⟩
    · have hpos := hbatch.length_pos
      have hmax := hbatch.le_max
      unfold u32Max at hmax
      have hwrap : Unsigned.wrappingAdd 32 (start + headers.length - 1) 1 =
          start + headers.length := by
        rw [Unsigned.wrappingAdd_eq (by omega)]
        omega
      obtain ⟨valid, rest', mid, setId', authorities', rfl, hvalid, hrest', hrun⟩ :=
        ih (setId + 1) (some nextAuthorities)
      rw [hgood]
      dsimp only
      rw [hwrap, hrun]
      exact ⟨_ :: valid, rest', mid, setId', authorities', rfl, Settled.cons hbatch hvalid,
        hrest', rfl⟩

end Partition

/-! ## Runs -/

def Op.Fetched (r : Repository H A) : Op H A → Prop
  | .restart _ => True
  | .fillGap headers _ => Batch r.nextNumber headers

instance (r : Repository H A) (op : Op H A) : Decidable (op.Fetched r) :=
  match op with
  | .restart _ => inferInstanceAs (Decidable True)
  | .fillGap headers _ => inferInstanceAs (Decidable (Batch r.nextNumber headers))

namespace Repository

def Partitioned (c : Chain H A) (r : Repository H A) : Prop :=
  Prb.Partitioned c.relaychainStartAt r.headersDb.entries r.nextNumber

variable {c : Chain H A} {r : Repository H A}

theorem partitioned_create (c : Chain H A) : (create c OrderedStore.empty).Partitioned c :=
  ⟨[], none, c.relaychainStartAt, rfl, Settled.nil, nofun, rfl⟩

theorem runs_restart [DecidableEq H] (h : r.Partitioned c) (needVerify : Bool) :
    Runs (restart c needVerify) r (fun _ r' => r'.Partitioned c) (fun _ _ => False) := by
  obtain ⟨settled, tail, mid, hpartition⟩ := h
  have hentries := hpartition.deleteTailHeaders
  obtain ⟨valid, rest, next, setId, authorities, rfl, hvalid, hrest, hrun⟩ :=
    hpartition.batches.validFrom c needVerify c.startAuthoritySetId none
  have hiter : (deleteTailHeaders r.headersDb).iterFrom (encodeU32 c.relaychainStartAt) =
      valid ++ rest := by
    unfold OrderedStore.iterFrom
    rw [hentries]
    exact filter_of_le hpartition.batches.le_key
  have hfound : findValidNum c (deleteTailHeaders r.headersDb) c.relaychainStartAt
      c.startAuthoritySetId needVerify = .ok (next, setId, authorities) := by
    unfold findValidNum
    rw [hiter, hrun]
  apply Runs.alter_bind
  apply Runs.get_bind
  unfold create
  rw [hfound]
  refine ⟨valid, none, next, ?_, hvalid, nofun, rfl⟩
  refine Eq.trans (OrderedStore.entries_delete_from hentries ?_ hrest.le_key)
    (List.append_nil valid).symm
  intro e he
  obtain ⟨n, hn, -, hlt, hmax⟩ := hvalid.key e he
  rw [hn]
  exact encodeU32_lt hlt hmax

theorem runs_fillGap (h : r.Partitioned c) {headers : HeadersToSync H A}
    (hbatch : Batch r.nextNumber headers) (potentialChaintip : ℕ) :
    Runs (fillGap headers potentialChaintip) r (fun _ r' => r'.Partitioned c)
      (fun _ _ => False) := by
  have hpos := hbatch.length_pos
  have hmax := hbatch.le_max
  unfold u32Max at hmax
  obtain ⟨last, hlast, -⟩ := hbatch.last
  apply Runs.demand_bind
  case missing =>
    intro hmissing
    rw [hlast] at hmissing
    cases hmissing
  intro _ _
  apply Runs.bind
  apply Runs.focus
  refine (runs_putHeadersToDb h hbatch potentialChaintip).mono ?_ fun _ _ hfalse => hfalse
  rintro number db ⟨rfl, hdb⟩
  have hwrap : Unsigned.wrappingAdd 32 (r.nextNumber + headers.length - 1) 1 =
      r.nextNumber + headers.length := by
    rw [Unsigned.wrappingAdd_eq (by omega)]
    omega
  rw [← hwrap] at hdb
  apply Runs.when
  · exact fun _ => hdb
  · exact fun _ => hdb

end Repository

theorem Op.runs [DecidableEq H] {c : Chain H A} {r : Repository H A} (h : r.Partitioned c)
    {op : Op H A} (hfetched : op.Fetched r) :
    Runs (op.run c) r (fun _ r' => r'.Partitioned c) (fun _ _ => False) := by
  cases op with
  | restart needVerify => exact Repository.runs_restart h needVerify
  | fillGap headers potentialChaintip => exact Repository.runs_fillGap h hfetched potentialChaintip

/-- The stored batches of headers are a partition, whenever the process restarts. -/
theorem headers_partitioned [DecidableEq H] (c : Chain H A) (ops : List (Op H A))
    (hfetched : Throughout (Op.run c) Op.Fetched (Repository.create c OrderedStore.empty) ops) :
    let r := afterCalls (Op.run c) (Repository.create c OrderedStore.empty) ops
    (∀ reply ∈ resultsOf (Op.run c) (Repository.create c OrderedStore.empty) ops,
      reply = .ok ()) ∧
    r.headersDb.values.flatMap numbers =
      List.range' c.relaychainStartAt (r.nextNumber - c.relaychainStartAt) ∧
    (∀ n, c.relaychainStartAt ≤ n → n < r.nextNumber → ∃ headers ∈ r.headersDb.values,
      getCurrentPoint r.headersDb n = some headers ∧ n ∈ numbers headers) ∧
    ∀ headers ∈ r.headersDb.values,
      headers.map (fun header => header.justification.isSome) =
        List.replicate (headers.length - 1) false ++ [true] := by
  have hstep : ∀ (r : Repository H A) (op : Op H A), r.Partitioned c → op.Fetched r →
      Runs (op.run c) r (fun _ r' => r'.Partitioned c) (fun _ _ => False) :=
    fun _ _ h hop => Op.runs h hop
  have hnew := Repository.partitioned_create c
  have hpartitioned := Runs.afterCalls (fun r op h hop => (hstep r op h hop).mono (fun _ _ h' => h')
    fun _ _ hfalse => hfalse.elim) hnew hfetched
  refine ⟨fun reply hreply => ?_, hpartitioned.numbers_eq, fun n hstart hn =>
    hpartitioned.lookup hstart hn, fun headers hmem => ?_⟩
  · obtain ⟨⟨⟩, rfl⟩ := Runs.resultsOf hstep hnew hfetched reply hreply
    rfl
  · obtain ⟨_, hbatch⟩ := hpartitioned.batches headers hmem
    exact hbatch.justified

theorem headers_partitioned_restarted :
    let c : Chain ℕ ℕ := ⟨fun header => header.number, fun _ _ _ _ => true, 10, 0⟩
    let plain (n : ℕ) (h : n < u32Max) : Header ℕ ℕ := ⟨n, n - 1, none, h⟩
    let ops : List (Op ℕ ℕ) := [
      .fillGap [⟨plain 10 (by decide), none⟩, ⟨plain 11 (by decide), none⟩,
        ⟨⟨12, 11, some 1, by decide⟩, some []⟩] 15,
      .fillGap [⟨plain 13 (by decide), none⟩, ⟨plain 14 (by decide), some []⟩] 14,
      .fillGap [⟨plain 15 (by decide), some []⟩] 15,
      .restart true,
      .fillGap [⟨plain 13 (by decide), some []⟩] 13]
    let r := afterCalls (Op.run c) (Repository.create c OrderedStore.empty) ops
    r.headersDb.values.flatMap numbers = List.range' 10 (r.nextNumber - 10) ∧
      r.nextNumber = 14 ∧ r.headersDb.values.map numbers = [[10, 11, 12], [13]] := by
  intro c plain ops
  refine ⟨(headers_partitioned c ops ?_).2.1, ?_, ?_⟩ <;> decide +kernel

end Cyrux.Prb
