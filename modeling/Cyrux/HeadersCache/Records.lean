import Cyrux.Lib.OrderedStore
import Cyrux.Lib.Proc
import Mathlib

/-!
# Files of grabbed records

`standalone/pherry/src/headers_cache.rs`
-/

namespace Cyrux.HeadersCache

open Proc

abbrev Bytes := List (Fin 256)

local instance byteNeZero : NeZero 256 := ⟨by decide⟩

inductive IoError
  | unexpectedEof
  | other
deriving DecidableEq

inductive ReadError
  | io (e : IoError)
  | callback (message : String)

structure Record where
  payload : Bytes
deriving DecidableEq

/-! ## Writing -/

def Record.write (r : Record) : Proc Bytes IoError ℕ := do
  let length := r.payload.length % 2 ^ 32
  alter (· ++ bigEndian 4 length)
  alter (· ++ r.payload)
  return r.payload.length + 4

def writeAll : List Bytes → Proc Bytes IoError Unit :=
  each fun payload => do
    let _ ← Record.write ⟨payload⟩

def written (payloads : List Bytes) : Bytes := (writeAll payloads).after []

/-! ## Reading -/

structure Reader where
  input : Bytes
  buffer : Bytes

def readExact (n : ℕ) : Proc Reader IoError Bytes := fun r =>
  if n ≤ r.input.length then .ok (r.input.take n) { r with input := r.input.drop n }
  else .error .unexpectedEof { r with input := [] }

def resize (buffer : Bytes) (length : ℕ) : Bytes :=
  buffer ++ List.replicate (length - buffer.length) 0

def Record.read : Proc Reader IoError (Option Record) := do
  match ← attempt (· = .unexpectedEof) (readExact 4) with
  | none => return none
  | some lenBuf =>
    let length := fromBigEndian lenBuf
    alter fun r => { r with
      buffer := if length > r.buffer.length then resize r.buffer length else r.buffer }
    let bytes ← readExact length
    alter fun r => { r with buffer := bytes ++ r.buffer.drop length }
    return some ⟨(← get).buffer.take length⟩

theorem readExact_ok {n : ℕ} {r : Reader} (h : n ≤ r.input.length) :
    readExact n r = .ok (r.input.take n) { r with input := r.input.drop n } := if_pos h

theorem readExact_eof {n : ℕ} {r : Reader} (h : r.input.length < n) :
    readExact n r = .error .unexpectedEof { r with input := [] } := if_neg (Nat.not_le.mpr h)

theorem Record.read_short {r : Reader} (h : r.input.length < 4) :
    Record.read r = .ok none { r with input := [] } := by
  simp only [Record.read, bind, EStateM.bind, attempt, readExact_eof h, decide_true, if_true]
  rfl

theorem Record.read_truncated {r : Reader} (h : 4 ≤ r.input.length)
    (hlt : r.input.length < 4 + fromBigEndian (r.input.take 4)) :
    ∃ r', Record.read r = .error .unexpectedEof r' := by
  have hrest : (r.input.drop 4).length < fromBigEndian (r.input.take 4) := by
    rw [List.length_drop]
    omega
  simp only [Record.read, bind, EStateM.bind, attempt, readExact_ok h, alter]
  rw [readExact_eof hrest]
  exact ⟨_, rfl⟩

theorem Record.read_full {r : Reader} (h : 4 + fromBigEndian (r.input.take 4) ≤ r.input.length) :
    ∃ buffer, Record.read r =
      .ok (some ⟨(r.input.drop 4).take (fromBigEndian (r.input.take 4))⟩)
        ⟨r.input.drop (4 + fromBigEndian (r.input.take 4)), buffer⟩ := by
  have hlength : 4 ≤ r.input.length := by omega
  have hrest : fromBigEndian (r.input.take 4) ≤ (r.input.drop 4).length := by
    rw [List.length_drop]
    omega
  simp only [Record.read, bind, EStateM.bind, attempt, readExact_ok hlength, alter]
  rw [readExact_ok hrest, ← List.drop_drop]
  generalize fromBigEndian (r.input.take 4) = length at *
  refine ⟨(r.input.drop 4).take length ++
    (if length > r.buffer.length then resize r.buffer length else r.buffer).drop length, ?_⟩
  change EStateM.Result.ok (some (Record.mk ((List.take length _ ++ _).take length))) _ = _
  rw [List.take_left' (List.length_take_of_le hrest)]

theorem Record.read_lt {r r' : Reader} {record : Record}
    (h : Record.read r = .ok (some record) r') : r'.input.length < r.input.length := by
  by_cases hshort : r.input.length < 4
  · rw [Record.read_short hshort] at h
    cases h
  by_cases hfull : 4 + fromBigEndian (r.input.take 4) ≤ r.input.length
  · obtain ⟨_, h'⟩ := Record.read_full hfull
    rw [h'] at h
    cases h
    simp only [List.length_drop]
    omega
  · obtain ⟨_, h'⟩ := Record.read_truncated (Nat.le_of_not_lt hshort) (Nat.lt_of_not_le hfull)
    rw [h'] at h
    cases h

def readLoop {σ : Type} (f : Record → Proc σ ReadError Bool) (reader : Reader) (count : ℕ) :
    Proc σ ReadError ℕ :=
  match h : Record.read reader with
  | .error e _ => throw (.io e)
  | .ok none _ => return count
  | .ok (some record) reader' => do
    let count := (count + 1) % 2 ^ 32
    if ← f record then
      return count
    readLoop f reader' count
termination_by reader.input.length
decreasing_by exact Record.read_lt h

def readItems {σ : Type} (input : Bytes) (f : Record → Proc σ ReadError Bool) :
    Proc σ ReadError ℕ :=
  readLoop f ⟨input, List.replicate (1024 * 100) 0⟩ 0

section Loop

variable {σ : Type} {f : Record → Proc σ ReadError Bool} {reader reader' : Reader} {count : ℕ}

theorem readLoop_eq : readLoop f reader count =
    match Record.read reader with
    | .error e _ => throw (.io e)
    | .ok none _ => pure count
    | .ok (some record) reader' => (do
        if ← f record then
          return (count + 1) % 2 ^ 32
        readLoop f reader' ((count + 1) % 2 ^ 32)) := by
  rw [readLoop]
  split <;> simp only [*]

theorem readLoop_short {s : σ} (h : reader.input.length < 4) :
    readLoop f reader count s = .ok count s := by
  rw [readLoop_eq, Record.read_short h]
  rfl

def notify (g : Bytes → σ → σ) (record : Record) : Proc σ ReadError Bool := do
  alter (g record.payload)
  return false

theorem readLoop_record {g : Bytes → σ → σ} {record : Record} {s : σ}
    (h : Record.read reader = .ok (some record) reader') :
    readLoop (notify g) reader count s =
      readLoop (notify g) reader' ((count + 1) % 2 ^ 32) (g record.payload s) := by
  rw [readLoop_eq, h]
  rfl

end Loop

/-! ## Reading what was written -/

def Record.bytes (payload : Bytes) : Bytes :=
  bigEndian 4 (payload.length % 2 ^ 32) ++ payload

theorem Record.bytes_length (payload : Bytes) :
    (Record.bytes payload).length = 4 + payload.length := by
  rw [Record.bytes, List.length_append, bigEndian_length]

theorem after_writeAll (payloads : List Bytes) (output : Bytes) :
    (writeAll payloads).after output = output ++ payloads.flatMap Record.bytes := by
  induction payloads generalizing output with
  | nil => exact (List.append_nil output).symm
  | cons payload payloads ih =>
    change (writeAll payloads).after (output ++ bigEndian 4 _ ++ payload) = _
    rw [ih, List.flatMap_cons, Record.bytes]
    simp only [List.append_assoc]

theorem written_cons (payload : Bytes) (payloads : List Bytes) :
    written (payload :: payloads) = Record.bytes payload ++ written payloads := by
  unfold written
  rw [after_writeAll, after_writeAll]
  rfl

theorem fromBigEndian_bytes {payload : Bytes} (h : payload.length < 2 ^ 32) (rest : Bytes) :
    fromBigEndian ((Record.bytes payload ++ rest).take 4) = payload.length := by
  rw [Record.bytes, List.append_assoc, List.take_left' (bigEndian_length 4 _)]
  rw [Nat.mod_eq_of_lt h, fromBigEndian_bigEndian h]

theorem Record.read_bytes {payload : Bytes} (h : payload.length < 2 ^ 32) (rest buffer : Bytes) :
    ∃ buffer', Record.read ⟨Record.bytes payload ++ rest, buffer⟩ =
      .ok (some ⟨payload⟩) ⟨rest, buffer'⟩ := by
  have hlength := fromBigEndian_bytes h rest
  have hfull : 4 + fromBigEndian ((Record.bytes payload ++ rest).take 4) ≤
      (Record.bytes payload ++ rest).length := by
    rw [hlength, List.length_append, Record.bytes_length]
    exact Nat.le_add_right _ _
  obtain ⟨buffer', hread⟩ := Record.read_full (r := ⟨Record.bytes payload ++ rest, buffer⟩) hfull
  refine ⟨buffer', hread.trans ?_⟩
  simp only [hlength]
  rw [List.drop_left' (Record.bytes_length payload), Record.bytes, List.append_assoc,
    List.drop_left' (bigEndian_length 4 _), List.take_left]

theorem Record.read_cut {payload : Bytes} (h : payload.length < 2 ^ 32) (buffer : Bytes) {k : ℕ}
    (hle : 4 ≤ k) (hlt : k < (Record.bytes payload).length) :
    ∃ r', Record.read ⟨(Record.bytes payload).take k, buffer⟩ = .error .unexpectedEof r' := by
  have hk : ((Record.bytes payload).take k).length = k := List.length_take_of_le hlt.le
  have hlength : fromBigEndian (((Record.bytes payload).take k).take 4) = payload.length := by
    rw [List.take_take, Nat.min_eq_left hle]
    have := fromBigEndian_bytes h []
    rwa [List.append_nil] at this
  apply Record.read_truncated
  · exact hk.ge.trans' hle
  · rw [Record.bytes_length] at hlt
    simp only [hlength, hk]
    exact hlt

section Framing

variable {σ : Type} {g : Bytes → σ → σ}

theorem readLoop_written {payloads : List Bytes} (h : ∀ p ∈ payloads, p.length < 2 ^ 32)
    (buffer : Bytes) {count : ℕ} (hcount : count < 2 ^ 32) (s : σ) :
    readLoop (notify g) ⟨written payloads, buffer⟩ count s =
      .ok ((count + payloads.length) % 2 ^ 32) (payloads.foldl (fun s p => g p s) s) := by
  induction payloads generalizing buffer count s with
  | nil =>
    have hshort : (written []).length < 4 := by decide
    rw [readLoop_short hshort, List.length_nil, Nat.add_zero, Nat.mod_eq_of_lt hcount,
      List.foldl_nil]
  | cons payload payloads ih =>
    rw [List.forall_mem_cons] at h
    obtain ⟨buffer', hread⟩ := Record.read_bytes h.1 (written payloads) buffer
    rw [written_cons, readLoop_record hread, ih h.2 _ (Nat.mod_lt _ (by decide)),
      List.length_cons, List.foldl_cons, Nat.mod_add_mod, Nat.add_right_comm, Nat.add_assoc]

def boundary (payloads : List Bytes) (j : ℕ) : ℕ := (written (payloads.take j)).length

def OutsideLengths (payloads : List Bytes) (k : ℕ) : Prop :=
  ∀ j < payloads.length, ¬ (boundary payloads j < k ∧ k < boundary payloads j + 4)

theorem boundary_succ (payload : Bytes) (payloads : List Bytes) (j : ℕ) :
    boundary (payload :: payloads) (j + 1) =
      (Record.bytes payload).length + boundary payloads j := by
  unfold boundary
  rw [List.take_succ_cons, written_cons, List.length_append]

theorem readLoop_cut {payloads : List Bytes} (h : ∀ p ∈ payloads, p.length < 2 ^ 32)
    (buffer : Bytes) (count : ℕ) (s : σ) {k : ℕ} (hk : k < (written payloads).length)
    (inside : ∀ j, k ≠ boundary payloads j) (outside : OutsideLengths payloads k) :
    ∃ s', readLoop (notify g) ⟨(written payloads).take k, buffer⟩ count s =
      .error (.io .unexpectedEof) s' := by
  induction payloads generalizing buffer count s k with
  | nil => exact absurd hk (Nat.not_lt_zero k)
  | cons payload payloads ih =>
    rw [List.forall_mem_cons] at h
    rw [written_cons] at hk ⊢
    by_cases hlt : k < (Record.bytes payload).length
    · rw [List.take_append_of_le_length hlt.le]
      have hne : k ≠ 0 := inside 0
      have hle : 4 ≤ k := by
        have hnot := outside 0 (Nat.zero_lt_succ _)
        have hzero : boundary (payload :: payloads) 0 = 0 := rfl
        omega
      obtain ⟨r', hread⟩ := Record.read_cut h.1 buffer hle hlt
      rw [readLoop_eq, hread]
      exact ⟨s, rfl⟩
    · obtain ⟨i, rfl⟩ := Nat.exists_eq_add_of_le (Nat.le_of_not_lt hlt)
      rw [List.take_length_add_append]
      rw [List.length_append] at hk
      obtain ⟨buffer', hread⟩ := Record.read_bytes h.1 ((written payloads).take i) buffer
      rw [readLoop_record hread]
      apply ih h.2
      · omega
      · intro j hj
        apply inside (j + 1)
        rw [boundary_succ, hj]
      · intro j hj hin
        apply outside (j + 1) (Nat.succ_lt_succ hj)
        rw [boundary_succ]
        omega

end Framing

theorem boundary_two (j : ℕ) : boundary [[7], [8, 9]] j ∈ [0, 5, 11] := by
  match j with
  | 0 => decide
  | 1 => decide
  | j + 2 =>
    unfold boundary
    rw [List.take_of_length_le (Nat.le_add_left 2 j)]
    decide

end Cyrux.HeadersCache
