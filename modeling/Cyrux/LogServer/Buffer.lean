import Mathlib

/-!
# The log buffer

`crates/pink-drivers/log_server/sideprog/src/buffer.rs`
-/

namespace Cyrux.LogServer

abbrev Bytes := List UInt8

/-! ## Records -/

inductive SystemMessage
  | pinkLog (blockNumber : ℕ) (contract entry : Bytes) (execMode : String) (timestampMs level : ℕ)
      (message : String)
  | pinkEvent (blockNumber : ℕ) (contract : Bytes) (topics : List Bytes) (payload : Bytes)
  | pinkMessageOutput (blockNumber : ℕ) (origin contract nonce output : Bytes)
  | pinkQueryIn (user : Bytes)

inductive SerMessage
  | kept (message : SystemMessage)
  | tooLarge

def SerMessage.size : SerMessage → ℕ
  | .kept (.pinkLog _ _ _ _ _ _ message) => 128 + message.utf8ByteSize
  | .kept (.pinkEvent _ _ topics payload) =>
    128 + ((topics.map fun topic => topic.length * 2).sum + payload.length * 2)
  | .kept (.pinkMessageOutput _ _ _ nonce output) => 128 + (nonce.length * 2 + output.length * 2)
  | .kept (.pinkQueryIn user) => 128 + user.length * 2
  | .tooLarge => 128

namespace SystemMessage

def blockNumber : SystemMessage → Option ℕ
  | .pinkLog n .. | .pinkEvent n .. | .pinkMessageOutput n .. => some n
  | .pinkQueryIn _ => none

def hex (data : Bytes) : String :=
  "0x" ++ String.ofList
    (data.flatMap fun x => [Nat.digitChar (x.toNat / 16), Nat.digitChar (x.toNat % 16)])

def contractId : SystemMessage → String
  | .pinkLog _ contract .. | .pinkEvent _ contract .. | .pinkMessageOutput _ _ contract .. =>
    hex contract
  | .pinkQueryIn _ => "<metric>"

def entry : SystemMessage → String
  | .pinkLog _ _ entry .. => hex entry
  | .pinkEvent _ contract .. | .pinkMessageOutput _ _ contract .. => hex contract
  | .pinkQueryIn _ => "<metric>"

end SystemMessage

structure Record where
  contractId : String
  entryContract : String
  message : SerMessage
  size : ℕ
  sequence : ℕ
  blockNumber : Option ℕ

def Record.meets (contract : String) (blockNumber : Option ℕ) (r : Record) : Bool :=
  (blockNumber.all fun n => r.blockNumber = some n) &&
    (contract.isEmpty || r.contractId = contract || r.entryContract = contract)

/-! ## The buffer -/

structure Buffer where
  nextSequence : ℕ := 0
  capacity : ℕ
  currentSize : ℕ := 0
  records : List Record := []

structure Page where
  records : List Record
  next : ℕ

namespace Buffer

def new (capacity : ℕ) : Buffer := { capacity }

def pop (b : Buffer) : Buffer :=
  match b.records with
  | [] => b
  | r :: rest => { b with currentSize := b.currentSize - r.size, records := rest }

def makeRoom (usage : ℕ → ℕ) (size : ℕ) : ℕ → Buffer → Buffer
  | 0, b => b
  | n + 1, b => if b.capacity < usage (n + 1) + size then makeRoom usage size n b.pop else b

def record (b : Buffer) (message : SystemMessage) : Record :=
  let kept := if b.capacity < (SerMessage.kept message).size then .tooLarge else .kept message
  { contractId := message.contractId, entryContract := message.entry, message := kept
    size := kept.size, sequence := b.nextSequence, blockNumber := message.blockNumber }

def push (b : Buffer) (message : SystemMessage) (usage : ℕ → ℕ) : Buffer :=
  let r := b.record message
  let room := b.makeRoom usage r.size b.records.length
  { room with
    currentSize := room.currentSize + r.size
    records := room.records ++ [r]
    nextSequence := room.nextSequence + 1 }

def after (capacity : ℕ) (pushes : List (SystemMessage × (ℕ → ℕ))) : Buffer :=
  pushes.foldl (fun b p => b.push p.1 p.2) (new capacity)

def scan (wanted : Record → Bool) (start count : ℕ) : List Record → ℕ → ℕ → Page
  | [], _, next => ⟨[], next⟩
  | r :: rest, n, _ =>
    let next := r.sequence + 1
    if r.sequence < start then scan wanted start count rest n next
    else if wanted r then
      if count ≤ n + 1 then ⟨[r], next⟩
      else
        let page := scan wanted start count rest (n + 1) next
        { page with records := r :: page.records }
    else scan wanted start count rest n next

def getRecords (b : Buffer) (contract : String) (start : ℤ) (count : ℕ)
    (blockNumber : Option ℕ) : Page :=
  let count := if count = 0 then 2 ^ 64 - 1 else count
  let start := if start < 0 then b.nextSequence - (-start).toNat else start.toNat
  scan (Record.meets contract blockNumber) start count b.records 0 0

def readAll (b : Buffer) (contract : String) (blockNumber : Option ℕ) (count : ℕ → ℕ) :
    ℕ → ℤ → Option (List Record)
  | 0, _ => none
  | fuel + 1, start =>
    let page := b.getRecords contract start (count fuel) blockNumber
    if page.records.isEmpty then some []
    else (readAll b contract blockNumber count fuel page.next).map (page.records ++ ·)

/-! ## What is retained -/

structure Numbered (b : Buffer) : Prop where
  consecutive : ∃ first, b.records.map Record.sequence = List.range' first b.records.length ∧
    first + b.records.length = b.nextSequence
  size_eq : b.currentSize = (b.records.map Record.size).sum

variable {b : Buffer}

theorem Numbered.pop (h : b.Numbered) : b.pop.Numbered := by
  obtain ⟨⟨first, hseq, hnext⟩, hsize⟩ := h
  unfold Buffer.pop
  split
  · exact ⟨⟨first, hseq, hnext⟩, hsize⟩
  · rename_i r rest hrecords
    rw [hrecords, List.map_cons, List.length_cons] at hseq
    rw [hrecords, List.length_cons] at hnext
    rw [hrecords, List.map_cons, List.sum_cons] at hsize
    refine ⟨⟨first + 1, ?_, ?_⟩, ?_⟩
    · exact (List.cons.inj hseq).2
    · dsimp only
      omega
    · dsimp only
      omega

theorem Numbered.makeRoom (h : b.Numbered) (usage : ℕ → ℕ) (size n : ℕ) :
    (b.makeRoom usage size n).Numbered := by
  induction n generalizing b with
  | zero => exact h
  | succ n ih =>
    unfold Buffer.makeRoom
    split
    · exact ih h.pop
    · exact h

theorem nextSequence_makeRoom (b : Buffer) (usage : ℕ → ℕ) (size n : ℕ) :
    (b.makeRoom usage size n).nextSequence = b.nextSequence := by
  have hpop : ∀ b : Buffer, b.pop.nextSequence = b.nextSequence := by
    intro b
    unfold Buffer.pop
    split <;> rfl
  induction n generalizing b with
  | zero => rfl
  | succ n ih =>
    unfold Buffer.makeRoom
    split
    · rw [ih, hpop]
    · rfl

theorem Numbered.push (h : b.Numbered) (message : SystemMessage) (usage : ℕ → ℕ) :
    (b.push message usage).Numbered := by
  have hroom := h.makeRoom usage (b.record message).size b.records.length
  have hnext := nextSequence_makeRoom b usage (b.record message).size b.records.length
  unfold Buffer.push
  dsimp only
  obtain ⟨⟨first, hseq, hlast⟩, hsize⟩ := hroom
  refine ⟨⟨first, ?_, ?_⟩, ?_⟩
  · rw [List.map_append, hseq, List.length_append, List.length_singleton, List.range'_concat,
      Nat.one_mul, hlast, hnext]
    rfl
  · dsimp only
    rw [List.length_append, List.length_singleton]
    omega
  · rw [List.map_append, List.sum_append, hsize]
    rfl

theorem numbered_after (capacity : ℕ) (pushes : List (SystemMessage × (ℕ → ℕ))) :
    (after capacity pushes).Numbered := by
  induction pushes using List.reverseRecOn with
  | nil => exact ⟨⟨0, rfl, rfl⟩, rfl⟩
  | append_singleton pushes p ih =>
    unfold after at ih ⊢
    rw [List.foldl_append]
    exact ih.push p.1 p.2

theorem Numbered.increasing (h : b.Numbered) :
    b.records.Pairwise fun r r' => r.sequence < r'.sequence := by
  obtain ⟨⟨first, hseq, -⟩, -⟩ := h
  have := List.pairwise_lt_range' (s := first) (n := b.records.length)
  rwa [← hseq, List.pairwise_map] at this

/-! ## Pages -/

section Scan

variable {wanted : Record → Bool} {start count n next : ℕ} {rs : List Record}

def since (wanted : Record → Bool) (start : ℕ) (rs : List Record) : List Record :=
  rs.filter fun r => wanted r && start ≤ r.sequence

theorem since_cons_of_lt {r : Record} (h : r.sequence < start) :
    since wanted start (r :: rs) = since wanted start rs := by
  unfold since
  simp [h]

theorem since_cons_of_not {r : Record} (h : wanted r = false) :
    since wanted start (r :: rs) = since wanted start rs := by
  unfold since
  simp [h]

theorem since_cons {r : Record} (hwanted : wanted r = true) (h : start ≤ r.sequence) :
    since wanted start (r :: rs) = r :: since wanted start rs := by
  unfold since
  simp [hwanted, h]

theorem since_of_le (h : ∀ r ∈ rs, start ≤ r.sequence) : since wanted start rs = rs.filter wanted :=
  List.filter_congr fun r hr => by simp [h r hr]

theorem le_scan_next (hrs : ∀ r ∈ rs, next ≤ r.sequence)
    (hinc : rs.Pairwise fun r r' => r.sequence < r'.sequence) :
    next ≤ (scan wanted start count rs n next).next := by
  induction rs generalizing n next with
  | nil => exact le_rfl
  | cons r rest ih =>
    obtain ⟨hfirst, hrest⟩ := List.pairwise_cons.1 hinc
    have hstep : ∀ n, next ≤ (scan wanted start count rest n (r.sequence + 1)).next := fun n =>
      (Nat.le_succ_of_le (hrs r List.mem_cons_self)).trans (ih hfirst hrest)
    unfold scan
    split_ifs
    · exact hstep n
    · exact Nat.le_succ_of_le (hrs r List.mem_cons_self)
    · exact hstep (n + 1)
    · exact hstep n

theorem scan_append_since (hinc : rs.Pairwise fun r r' => r.sequence < r'.sequence) :
    (scan wanted start count rs n next).records ++
      since wanted (scan wanted start count rs n next).next rs = since wanted start rs := by
  induction rs generalizing n next with
  | nil => rfl
  | cons r rest ih =>
    obtain ⟨hfirst, hrest⟩ := List.pairwise_cons.1 hinc
    have hpassed : ∀ n, r.sequence < (scan wanted start count rest n (r.sequence + 1)).next :=
      fun n => le_scan_next hfirst hrest
    unfold scan
    split_ifs with hbefore hwanted hfull
    · rw [since_cons_of_lt (hpassed n), since_cons_of_lt hbefore]
      exact ih hrest
    · have hstart := Nat.le_of_not_lt hbefore
      rw [since_cons hwanted hstart, since_cons_of_lt (Nat.lt_succ_self _), since_of_le hfirst,
        since_of_le fun r' hr' => hstart.trans (hfirst r' hr').le]
      rfl
    · rw [since_cons hwanted (Nat.le_of_not_lt hbefore), since_cons_of_lt (hpassed (n + 1)),
        List.cons_append, ih hrest]
    · have hnot := Bool.eq_false_iff.2 hwanted
      rw [since_cons_of_not hnot, since_cons_of_not hnot]
      exact ih hrest

theorem since_of_scan_empty (h : (scan wanted start count rs n next).records = []) :
    since wanted start rs = [] := by
  induction rs generalizing n next with
  | nil => rfl
  | cons r rest ih =>
    unfold scan at h
    split_ifs at h with hbefore hwanted hfull
    · rw [since_cons_of_lt hbefore]
      exact ih h
    · rw [since_cons_of_not (Bool.eq_false_iff.2 hwanted)]
      exact ih h

end Scan

theorem Numbered.readAll (h : b.Numbered) (contract : String) (blockNumber : Option ℕ)
    (count : ℕ → ℕ) {start fuel : ℕ}
    (hfuel : (since (Record.meets contract blockNumber) start b.records).length < fuel) :
    b.readAll contract blockNumber count fuel start =
      some (since (Record.meets contract blockNumber) start b.records) := by
  induction fuel generalizing start with
  | zero => cases hfuel
  | succ fuel ih =>
    unfold Buffer.readAll
    dsimp only
    have hpage : b.getRecords contract start (count fuel) blockNumber =
        scan (Record.meets contract blockNumber) start
          (if count fuel = 0 then 2 ^ 64 - 1 else count fuel) b.records 0 0 := by
      unfold getRecords
      rw [if_neg (Int.not_lt.2 (Int.natCast_nonneg start)), Int.toNat_natCast]
    rw [hpage]
    generalize (if count fuel = 0 then 2 ^ 64 - 1 else count fuel) = limit
    split_ifs with hempty
    · rw [since_of_scan_empty (List.isEmpty_iff.1 hempty)]
    · have hsplit : (scan (Record.meets contract blockNumber) start limit b.records 0 0).records ++
          since _ _ b.records = since _ start b.records := scan_append_since h.increasing
      have hpos := List.length_pos_iff.2 fun hnil => hempty (List.isEmpty_iff.2 hnil)
      rw [← hsplit, List.length_append] at hfuel
      rw [ih (by omega), Option.map_some, hsplit]

/-- Reading page after page returns the records kept, each once. -/
theorem log_pages_lossless (capacity : ℕ) (pushes : List (SystemMessage × (ℕ → ℕ)))
    (contract : String) (blockNumber : Option ℕ) (count : ℕ → ℕ) (fuel : ℕ) :
    let b := after capacity pushes
    (∃ first, b.records.map Record.sequence = List.range' first b.records.length) ∧
      b.currentSize = (b.records.map Record.size).sum ∧
      b.readAll contract blockNumber count (b.records.length + fuel + 1) 0 =
        some (b.records.filter (Record.meets contract blockNumber)) := by
  intro b
  have hb : b.Numbered := numbered_after capacity pushes
  have hall : since (Record.meets contract blockNumber) 0 b.records =
      b.records.filter (Record.meets contract blockNumber) := since_of_le fun _ _ => Nat.zero_le _
  obtain ⟨first, hseq, -⟩ := hb.consecutive
  refine ⟨⟨first, hseq⟩, hb.size_eq, ?_⟩
  rw [← hall]
  apply hb.readAll
  rw [hall]
  have := List.length_filter_le (Record.meets contract blockNumber) b.records
  omega

end Buffer

end Cyrux.LogServer
