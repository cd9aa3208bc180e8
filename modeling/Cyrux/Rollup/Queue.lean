import Cyrux.Rollup.Anchor

/-!
# The queue in the store
-/

namespace Cyrux.Rollup

open Exec

variable {cfg : Config}

/-! ## Cells -/

namespace Store

structure Queue (cfg : Config) (s : Store) (head tail : ℕ) (content : ℕ → Value) : Prop where
  headCell : s.queueGetU32 cfg headIndex = some head
  tailCell : s.queueGetU32 cfg tailIndex = some tail
  le : head ≤ tail
  entries : ∀ i, s (entryKey cfg i) = if head ≤ i ∧ i < tail then some (content i) else none

theorem queueKey_inj {i j : Bytes} : queueKey cfg i = queueKey cfg j ↔ i = j :=
  List.append_right_inj _

theorem encodeIndex_inj {i j : ℕ} : cfg.encodeIndex i = cfg.encodeIndex j ↔ i = j := by
  constructor
  · intro h
    have := congrArg cfg.decodeIndex h
    rwa [cfg.decode_encodeIndex, cfg.decode_encodeIndex, Option.some.injEq] at this
  · exact congrArg _

theorem entryKey_inj {i j : ℕ} : entryKey cfg i = entryKey cfg j ↔ i = j :=
  queueKey_inj.trans encodeIndex_inj

theorem entryKey_ne_head (i : ℕ) : entryKey cfg i ≠ queueKey cfg headIndex := fun h =>
  cfg.encodeIndex_ne_head i (queueKey_inj.1 h)

theorem entryKey_ne_tail (i : ℕ) : entryKey cfg i ≠ queueKey cfg tailIndex := fun h =>
  cfg.encodeIndex_ne_tail i (queueKey_inj.1 h)

theorem head_ne_tail : queueKey cfg headIndex ≠ queueKey cfg tailIndex := fun h =>
  absurd (queueKey_inj.1 h) (by decide)

def Outside (cfg : Config) (key : Key) : Prop := ¬ cfg.layout.queuePrefix <+: key

theorem Outside.ne_queueKey {key : Key} (h : Outside cfg key) (index : Bytes) :
    key ≠ queueKey cfg index := by
  rintro rfl
  exact h (List.prefix_append _ _)

theorem removeEntries_other (s : Store) (head n : ℕ) {key : Key}
    (h : ∀ i, key ≠ entryKey cfg i) : s.removeEntries cfg head n key = s key := by
  induction n with
  | zero => rfl
  | succ n ih => exact (Function.update_of_ne (h (head + n)) _ _).trans ih

theorem removeEntries_entry (s : Store) (head n i : ℕ) :
    s.removeEntries cfg head n (entryKey cfg i) =
      if head ≤ i ∧ i < head + n then none else s (entryKey cfg i) := by
  induction n with
  | zero =>
    rw [if_neg (by omega)]
    rfl
  | succ n ih =>
    change Function.update _ (entryKey cfg (head + n)) _ _ = _
    by_cases hi : i = head + n
    · subst hi
      rw [Function.update_self, if_pos (by omega)]
    · rw [Function.update_of_ne (fun h => hi (entryKey_inj.1 h)), ih]
      have : (head ≤ i ∧ i < head + n) ↔ head ≤ i ∧ i < head + (n + 1) := by omega
      simp only [this]

namespace Queue

variable {s s' : Store} {head tail : ℕ} {content : ℕ → Value}

theorem congr (h : Queue cfg s head tail content)
    (same : ∀ index, s' (queueKey cfg index) = s (queueKey cfg index)) :
    Queue cfg s' head tail content := by
  constructor
  case headCell =>
    rw [← h.headCell, queueGetU32, queueGet, same]
    rfl
  case tailCell =>
    rw [← h.tailCell, queueGetU32, queueGet, same]
    rfl
  case le => exact h.le
  case entries =>
    intro i
    rw [entryKey, same]
    exact h.entries i

theorem empty (h : ∀ index, s (queueKey cfg index) = none) : Queue cfg s 0 0 content := by
  constructor
  case headCell => simp [queueGetU32, queueGet, h]
  case tailCell => simp [queueGetU32, queueGet, h]
  case le => exact le_rfl
  case entries =>
    intro i
    rw [entryKey, h, if_neg (by omega)]

theorem queueGetU32_self (s : Store) (index : Bytes) (n : ℕ) :
    (s.queueSetU32 cfg index n).queueGetU32 cfg index = some n := by
  simp [queueGetU32, queueGet, queueSetU32, queueSet, cfg.decode_encodeIndex]

theorem queueGetU32_congr {index : Bytes}
    (h : s' (queueKey cfg index) = s (queueKey cfg index)) :
    s'.queueGetU32 cfg index = s.queueGetU32 cfg index := by
  rw [queueGetU32, queueGet, h]
  rfl

theorem congr_content {content' : ℕ → Value} (h : Queue cfg s head tail content)
    (same : ∀ i, i < tail → content' i = content i) : Queue cfg s head tail content' := by
  refine ⟨h.headCell, h.tailCell, h.le, fun i => ?_⟩
  rw [h.entries]
  split_ifs with hi
  · rw [same i hi.2]
  · rfl

theorem push (h : Queue cfg s head tail content) (data : Value) :
    Queue cfg ((s.queueSet cfg (cfg.encodeIndex tail) data).queueSetU32 cfg tailIndex (tail + 1))
      head (tail + 1) (Function.update content tail data) := by
  constructor
  case headCell =>
    rw [← h.headCell]
    apply queueGetU32_congr
    rw [queueSetU32, queueSet, Function.update_of_ne head_ne_tail, queueSet]
    exact Function.update_of_ne (entryKey_ne_head tail).symm _ _
  case tailCell => exact queueGetU32_self _ _ _
  case le => exact h.le.trans (Nat.le_succ _)
  case entries =>
    intro i
    rw [queueSetU32, queueSet, Function.update_of_ne (entryKey_ne_tail i), queueSet]
    change Function.update _ (entryKey cfg tail) _ _ = _
    by_cases hi : i = tail
    · subst hi
      rw [Function.update_self, if_pos ⟨h.le, Nat.lt_succ_self i⟩, Function.update_self]
    · rw [Function.update_of_ne (fun he => hi (entryKey_inj.1 he)), h.entries,
        Function.update_of_ne hi]
      have : (head ≤ i ∧ i < tail) ↔ head ≤ i ∧ i < tail + 1 := by omega
      simp only [this]

theorem setHead (h : Queue cfg s head tail content) {index : ℕ} (hle : head ≤ index)
    (hle' : index ≤ tail) :
    Queue cfg ((s.removeEntries cfg head (index - head)).queueSetU32 cfg headIndex index) index
      tail content := by
  constructor
  case headCell => exact queueGetU32_self _ _ _
  case tailCell =>
    rw [← h.tailCell]
    apply queueGetU32_congr
    rw [queueSetU32, queueSet, Function.update_of_ne head_ne_tail.symm]
    exact removeEntries_other _ _ _ fun i => (entryKey_ne_tail i).symm
  case le => exact hle'
  case entries =>
    intro i
    rw [queueSetU32, queueSet, Function.update_of_ne (entryKey_ne_head i), removeEntries_entry,
      h.entries]
    split_ifs <;> first | rfl | omega

end Queue

theorem applyUpdates_of_notMem (s : Store) (updates : List (Key × Option Value)) {key : Key}
    (h : ∀ u ∈ updates, u.1 ≠ key) : s.applyUpdates updates key = s key := by
  induction updates generalizing s with
  | nil => rfl
  | cons u updates ih =>
    have hu : key ≠ u.1 := (h u List.mem_cons_self).symm
    exact (ih _ fun v hv => h v (List.mem_cons_of_mem _ hv)).trans (Function.update_of_ne hu _ _)

theorem Queue.applyUpdates {s : Store} {head tail : ℕ} {content : ℕ → Value}
    (h : Queue cfg s head tail content) {updates : List (Key × Option Value)}
    (outside : ∀ u ∈ updates, Outside cfg u.1) :
    Queue cfg (s.applyUpdates updates) head tail content :=
  h.congr fun index => applyUpdates_of_notMem s updates fun u hu => (outside u hu).ne_queueKey index

end Store

open Store

/-! ## The pallet -/

def Cond.Holds (s : Store) : Cond → Prop
  | .eq key value => s key = value

namespace Anchor

variable {a : Anchor} {name : Name} {head tail : ℕ} {content : ℕ → Value}

def IsError (f : Fault) : Prop := ∃ e, f = .error e

theorem isError_error (e : AnchorError) : IsError (.error e) := ⟨e, rfl⟩

@[simp] theorem modifyStore_states_self (a : Anchor) (name : Name) (f : Store → Store) :
    (a.modifyStore name f).states name = f (a.states name) := Function.update_self _ _ _

theorem modifyStore_states_of_ne (a : Anchor) {name other : Name} (h : other ≠ name)
    (f : Store → Store) : (a.modifyStore name f).states other = a.states other :=
  Function.update_of_ne h _ _

theorem sat_queueHead (h : Queue cfg (a.states name) head tail content) :
    Sat (queueHead cfg name) a (fun n a' => n = head ∧ a' = a) (fun _ => False) := by
  apply Sat.get_bind
  rw [h.headCell]
  exact ⟨rfl, rfl⟩

theorem sat_queueTail (h : Queue cfg (a.states name) head tail content) :
    Sat (queueTail cfg name) a (fun n a' => n = tail ∧ a' = a) (fun _ => False) := by
  apply Sat.get_bind
  rw [h.tailCell]
  exact ⟨rfl, rfl⟩

theorem sat_queueLen (h : Queue cfg (a.states name) head tail content) :
    Sat (queueLen cfg name) a (fun n a' => n = tail - head ∧ a' = a) (fun _ => False) := by
  apply (sat_queueTail h).bind fun _ => id
  rintro _ _ ⟨rfl, rfl⟩
  apply (sat_queueHead h).bind fun _ => id
  rintro _ _ ⟨rfl, rfl⟩
  exact ⟨rfl, rfl⟩

theorem sat_pushMessage (h : Queue cfg (a.states name) head tail content) (data : Value) :
    Sat (pushMessage cfg name data) a
      (fun _ a' => tail - head < cfg.queueCapacity ∧ a' = a.modifyStore name fun s =>
        (s.queueSet cfg (cfg.encodeIndex tail) data).queueSetU32 cfg tailIndex (tail + 1))
      IsError := by
  apply Sat.get_bind
  apply Sat.ensure_bind
  case h' => exact fun _ => isError_error _
  intro _
  apply (sat_queueLen h).bind fun _ => False.elim
  rintro _ a' ⟨rfl, rfl⟩
  apply Sat.ensure_bind
  case h' => exact fun _ => isError_error _
  intro hlen
  apply (sat_queueTail h).bind fun _ => False.elim
  rintro _ a'' ⟨rfl, rfl⟩
  exact ⟨hlen, rfl⟩

theorem sat_queueHeadSet (h : Queue cfg (a.states name) head tail content) (index : ℕ) :
    Sat (queueHeadSet cfg name index) a
      (fun _ a' => head ≤ index ∧ index ≤ tail ∧ a' = a.modifyStore name fun s =>
        (s.removeEntries cfg head (index - head)).queueSetU32 cfg headIndex index)
      IsError := by
  apply (sat_queueHead h).bind fun _ => False.elim
  rintro _ a' ⟨rfl, rfl⟩
  apply (sat_queueTail h).bind fun _ => False.elim
  rintro _ a'' ⟨rfl, rfl⟩
  apply Sat.ensure_bind
  case h' => exact fun _ => isError_error _
  intro hle
  exact ⟨hle.1, hle.2, rfl⟩

structure Moves (cfg : Config) (name : Name) (a a' : Anchor) : Prop where
  submitterByNames : a'.submitterByNames = a.submitterByNames
  others : ∀ other, other ≠ name → a'.states other = a.states other
  outside : ∀ key, Outside cfg key → a'.states name key = a.states name key

theorem Moves.refl (cfg : Config) (name : Name) (a : Anchor) : Moves cfg name a a :=
  ⟨rfl, fun _ _ => rfl, fun _ _ => rfl⟩

theorem Moves.trans {a' a'' : Anchor} (h : Moves cfg name a a') (h' : Moves cfg name a' a'') :
    Moves cfg name a a'' :=
  ⟨h'.submitterByNames.trans h.submitterByNames,
    fun other ne => (h'.others other ne).trans (h.others other ne),
    fun key out => (h'.outside key out).trans (h.outside key out)⟩

def headStep (cfg : Config) (head : ℕ) (raw : Bytes) : ℕ :=
  match cfg.decodeAction raw with
  | some (.setQueueHead index) => index
  | _ => head

theorem sat_execAction (h : Queue cfg (a.states name) head tail content) (who : AccountId)
    (raw : Bytes) :
    Sat (execAction cfg who name raw) a
      (fun _ a' => Moves cfg name a a' ∧ head ≤ headStep cfg head raw ∧
        Queue cfg (a'.states name) (headStep cfg head raw) tail content) IsError := by
  apply Sat.demand_bind
  case h' => exact fun _ => isError_error _
  intro action hdecode
  cases action with
  | reply data =>
    have hstep : headStep cfg head raw = head := by simp [headStep, hdecode]
    rw [hstep]
    apply sat_ensure.2
    exact ⟨fun _ => ⟨.refl cfg name a, le_rfl, h⟩, fun _ => isError_error _⟩
  | setQueueHead index =>
    have hstep : headStep cfg head raw = index := by simp [headStep, hdecode]
    rw [hstep]
    apply (sat_queueHeadSet h index).mono _ fun _ he => he
    rintro _ _ ⟨hle, hle', rfl⟩
    refine ⟨⟨rfl, fun other ne => ?_, fun key out => ?_⟩, hle, ?_⟩
    · exact modifyStore_states_of_ne a ne _
    · rw [modifyStore_states_self, queueSetU32, queueSet,
        Function.update_of_ne (out.ne_queueKey headIndex)]
      exact removeEntries_other _ _ _ fun i => out.ne_queueKey _
    · rw [modifyStore_states_self]
      exact h.setHead hle hle'

theorem sat_execActions (h : Queue cfg (a.states name) head tail content) (who : AccountId)
    (raws : List Bytes) :
    Sat (each (execAction cfg who name) raws) a
      (fun _ a' => Moves cfg name a a' ∧ head ≤ raws.foldl (headStep cfg) head ∧
        Queue cfg (a'.states name) (raws.foldl (headStep cfg) head) tail content) IsError := by
  induction raws generalizing a head with
  | nil => exact ⟨.refl cfg name a, le_rfl, h⟩
  | cons raw raws ih =>
    apply (sat_execAction h who raw).bind fun _ he => he
    rintro _ a' ⟨moves, hle, h'⟩
    apply (ih h').mono _ fun _ he => he
    rintro _ a'' ⟨moves', hle', h''⟩
    exact ⟨moves.trans moves', hle.trans hle', h''⟩

theorem sat_checkConds (a : Anchor) (name : Name) (conds : List Cond) :
    Sat (each (checkCond name) conds) a
      (fun _ a' => a' = a ∧ ∀ c ∈ conds, c.Holds (a.states name)) IsError := by
  induction conds with
  | nil => exact ⟨rfl, by simp⟩
  | cons c conds ih =>
    refine Sat.bind (R := fun _ a' => a' = a ∧ c.Holds (a.states name)) ?_ (fun _ he => he) ?_
    · cases c with
      | eq key value =>
        exact sat_ensure.2 ⟨fun h => ⟨rfl, h⟩, fun _ => isError_error _⟩
    · rintro _ a' ⟨rfl, hc⟩
      apply ih.mono _ fun _ he => he
      rintro _ _ ⟨rfl, hconds⟩
      simpa using ⟨hc, hconds⟩

theorem sat_rollup (h : Queue cfg (a.states name) head tail content) (who : AccountId)
    (tx : RollupTx) (outside : ∀ u ∈ tx.updates, Outside cfg u.1) :
    Sat (rollup cfg who name tx) a
      (fun _ a' => (∀ c ∈ tx.conds, c.Holds (a.states name)) ∧
        Moves cfg name (a.modifyStore name fun s => s.applyUpdates tx.updates) a' ∧
        head ≤ tx.actions.foldl (headStep cfg) head ∧
        Queue cfg (a'.states name) (tx.actions.foldl (headStep cfg) head) tail content)
      IsError := by
  have howner : Sat (ensureNameOwner name who) a (fun _ a' => a' = a) IsError := by
    apply Sat.get_bind
    apply Sat.demand_bind
    case h' => exact fun _ => isError_error _
    intro owner _
    exact sat_ensure.2 ⟨fun _ => rfl, fun _ => isError_error _⟩
  apply howner.bind fun _ he => he
  rintro _ a' rfl
  apply (sat_checkConds _ name tx.conds).bind fun _ he => he
  rintro _ a'' ⟨rfl, hconds⟩
  have hqueue : Queue cfg ((a''.modifyStore name fun s => s.applyUpdates tx.updates).states name)
      head tail content := by
    rw [modifyStore_states_self]
    exact h.applyUpdates outside
  apply (sat_execActions hqueue who tx.actions).mono _ fun _ he => he
  rintro _ a' ⟨moves, hle, h'⟩
  exact ⟨hconds, moves, hle, h'⟩

/-! ## Runs -/

inductive Call
  | claimName (who : AccountId) (name : Name)
  | pushMessage (name : Name) (data : Value)
  | rollup (who : AccountId) (name : Name) (tx : RollupTx)

def call (cfg : Config) : Call → Exec Anchor Fault Unit
  | .claimName who name => claimName who name
  | .pushMessage name data => do
    let _ ← pushMessage cfg name data
    pure ()
  | .rollup who name tx => rollup cfg who name tx

def perform {α : Type} (m : Exec Anchor Fault α) (a : Anchor) : Anchor :=
  match m a with
  | .ok (_, a') => a'
  | .error _ => a

theorem perform_of_sat {α : Type} {m : Exec Anchor Fault α} {E : Fault → Prop} {I : Anchor → Prop}
    (h : I a) (hm : Sat m a (fun _ a' => I a') E) : I (perform m a) := by
  unfold Sat at hm
  unfold perform
  split at hm
  · rename_i run
    rw [run]
    exact hm
  · rename_i run
    rw [run]
    exact h

def runCalls (cfg : Config) (a : Anchor) (calls : List Call) : Anchor :=
  calls.foldl (fun a c => perform (call cfg c) a) a

def Call.AvoidsQueue (cfg : Config) : Call → Prop
  | .rollup _ _ tx => ∀ u ∈ tx.updates, Outside cfg u.1
  | _ => True

def Intact (cfg : Config) (a : Anchor) : Prop :=
  ∀ name, ∃ head tail content, Queue cfg (a.states name) head tail content ∧
    tail - head ≤ cfg.queueCapacity

theorem intact_init (cfg : Config) : Intact cfg {} := fun _ =>
  ⟨0, 0, fun _ => [], Queue.empty fun _ => rfl, Nat.zero_le _⟩

theorem sat_call (h : Intact cfg a) (c : Call) (avoids : c.AvoidsQueue cfg) :
    Sat (call cfg c) a (fun _ a' => Intact cfg a') IsError := by
  cases c with
  | claimName who name =>
    apply Sat.get_bind
    apply Sat.ensure_bind
    case h' => exact fun _ => isError_error _
    exact fun _ => h
  | pushMessage name data =>
    obtain ⟨head, tail, content, hqueue, hcap⟩ := h name
    apply (sat_pushMessage hqueue data).bind fun _ he => he
    rintro _ _ ⟨hlen, rfl⟩ other
    by_cases hother : other = name
    · subst hother
      refine ⟨head, tail + 1, Function.update content tail data, ?_, by omega⟩
      rw [modifyStore_states_self]
      exact hqueue.push data
    · rw [modifyStore_states_of_ne a hother]
      exact h other
  | rollup who name tx =>
    obtain ⟨head, tail, content, hqueue, hcap⟩ := h name
    apply (sat_rollup hqueue who tx avoids).mono _ fun _ he => he
    rintro _ a' ⟨-, moves, hle, hqueue'⟩ other
    by_cases hother : other = name
    · subst hother
      exact ⟨_, tail, content, hqueue', by omega⟩
    · rw [moves.others other hother, modifyStore_states_of_ne a hother]
      exact h other

theorem intact_runCalls (h : Intact cfg a) {calls : List Call}
    (avoid : ∀ c ∈ calls, c.AvoidsQueue cfg) : Intact cfg (runCalls cfg a calls) := by
  induction calls generalizing a with
  | nil => exact h
  | cons c calls ih =>
    have hc := sat_call h c (avoid c List.mem_cons_self)
    exact ih (perform_of_sat h hc) fun c hc => avoid c (List.mem_cons_of_mem _ hc)

end Anchor

end Cyrux.Rollup
