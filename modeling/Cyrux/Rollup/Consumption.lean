import Cyrux.Rollup.World
import Mathlib.Data.List.GetD

/-!
# The queue is consumed once and in order
-/

namespace Cyrux.Rollup

open Store

variable {T : Type}

/-! ## A session -/

structure Popped (snapshot : Store) (head tail : ℕ) (content : ℕ → Value) (m : ℕ)
    (o : Outcome T) : Prop where
  kvdb : o.session.kvdb = snapshot
  queue : o.session.queue = { head := head + m, tail := tail, popped := decide (0 < m) }
  popped : o.popped = (List.range' head m).map fun i => some (content i)
  le : head + m ≤ tail

theorem Program.run_popped {cfg : Config} (A : AccessTracking T) {snapshot : Store}
    {head tail : ℕ} {content : ℕ → Value} (hqueue : Queue cfg snapshot head tail content)
    (p : Program) {m : ℕ} {o : Outcome T} (h : Popped snapshot head tail content m o) :
    ∃ n, Popped snapshot head tail content n (p.run cfg A o) := by
  induction p generalizing m o with
  | done => exact ⟨m, h⟩
  | get key next ih =>
    apply ih
    refine ⟨?_, ?_, h.popped, h.le⟩
    · simp only [Session.get]
      split <;> exact h.kvdb
    · simp only [Session.get]
      split <;> exact h.queue
  | put key value next ih => exact ih ⟨h.kvdb, h.queue, h.popped, h.le⟩
  | delete key next ih => exact ih ⟨h.kvdb, h.queue, h.popped, h.le⟩
  | pop next ih =>
    by_cases hempty : head + m = tail
    · -- nothing is left
      apply ih
      refine ⟨h.kvdb, ?_, ?_, h.le⟩
      · simp [Session.pop, QueueInfo.pop, h.queue, hempty]
      · simp [h.queue, hempty, h.popped]
    · have hlt : head + m < tail := lt_of_le_of_ne h.le hempty
      have hentry : snapshot (entryKey cfg (head + m)) = some (content (head + m)) := by
        rw [hqueue.entries, if_pos ⟨Nat.le_add_right _ _, hlt⟩]
      apply ih (m := m + 1)
      refine ⟨h.kvdb, ?_, ?_, hlt⟩
      · simp [Session.pop, QueueInfo.pop, h.queue, hempty, Nat.add_assoc]
      · simp [Session.pop, QueueInfo.pop, h.queue, hempty, h.kvdb, hentry, h.popped,
          List.range'_concat]

theorem execute_popped {cfg : Config} {A : AccessTracking T} {snapshot : Store}
    {head tail : ℕ} {content : ℕ → Value} (hqueue : Queue cfg snapshot head tail content)
    {p : Program} {tracker : T} {o : Outcome T}
    (h : p.execute cfg A tracker snapshot = some o) :
    ∃ n, Popped snapshot head tail content n o := by
  rw [execute_eq_run A hqueue, Option.some.injEq] at h
  subst h
  apply Program.run_popped A hqueue p (m := 0)
  exact ⟨rfl, rfl, rfl, hqueue.le⟩

/-! ## Runs -/

def Accepted.indices (r : Accepted T) : List ℕ :=
  List.range' (r.outcome.session.queue.head - r.outcome.popped.length) r.outcome.popped.length

namespace World

variable {S : Setting T} {w : World T} {head : ℕ} {s : Submission T} {snapshot : Store}
  {outcome : Outcome T} {rolled : RollUpTransaction} {a : Anchor}

structure Consumed (S : Setting T) (w : World T) (head : ℕ) : Prop where
  queues : Queues S 0 w head fun i => w.pushed.getD i []
  indices : w.accepted.flatMap Accepted.indices = List.range head
  popped : w.accepted.flatMap (fun r => r.outcome.popped) = (w.pushed.take head).map some

theorem Commits.popped {h t : ℕ} {content : ℕ → Value}
    (commits : Commits S s snapshot outcome rolled w.anchor a) (avoids : AvoidsQueue S s)
    (queues : Queues S 0 w head content) (hqueue : Queue S.cfg snapshot h t content) :
    ∃ n, outcome.popped = (List.range' head n).map (fun i => some (content i)) ∧
      rolled.queueHead.getD head = head + n ∧
      (0 < n → outcome.session.queue.head = head + n) := by
  obtain ⟨n, hpopped⟩ := execute_popped hqueue commits.executed
  obtain ⟨effect, -, -⟩ := commits.effect avoids queues.queue
  have hhead : rolled.queueHead = (outcome.session.commit S.cfg S.tracking).queueHead :=
    (rolledUp_of_eq_some commits.rolledUp).queueHead
  rcases Nat.eq_zero_or_pos n with rfl | hpos
  · refine ⟨0, hpopped.popped, ?_, fun h => absurd h (lt_irrefl 0)⟩
    rw [hhead]
    simp [Session.commit, hpopped.queue]
  · -- the lock says that the head has not moved since the snapshot
    have hlock := effect.lock (by simp [hpopped.queue, hpos])
    have hsame : h = head := by
      have hnow : (w.store S).queueGetU32 S.cfg headIndex = _ :=
        Queue.queueGetU32_congr (s := snapshot) hlock
      rw [queues.queue.headCell, hqueue.headCell] at hnow
      exact (Option.some.inj hnow).symm
    subst hsame
    refine ⟨n, hpopped.popped, ?_, fun _ => by rw [hpopped.queue]⟩
    rw [hhead]
    simp [Session.commit, hpopped.queue, hpos]

theorem take_append_slice {α : Type} (l : List α) (d : α) {k n : ℕ} (h : k + n ≤ l.length) :
    l.take k ++ (List.range' k n).map (fun i => l.getD i d) = l.take (k + n) := by
  induction n with
  | zero => simp
  | succ n ih =>
    rw [List.range'_concat, List.map_append, ← List.append_assoc, ih (by omega)]
    have hlt : k + n < l.length := by omega
    rw [← Nat.add_assoc, List.take_add_one, List.getElem?_eq_getElem hlt]
    simp [hlt]

theorem Consumed.submit (h : Consumed S w head) (avoids : AvoidsQueue S s) (age : ℕ) :
    ∃ head', Consumed S (w.submit S s (w.storeAt S age)) head' := by
  obtain hsame | ⟨outcome, rolled, a, commits, hafter⟩ :=
    submit_cases (S := S) w s (w.storeAt S age)
  · rw [hsame]
    exact ⟨head, h⟩
  · rw [hafter]
    obtain ⟨h', t, -, -, -, hqueue⟩ := h.queues.storeAt age
    obtain ⟨n, hpopped, hhead, hend⟩ := commits.popped avoids h.queues hqueue
    have queues := h.queues.afterRollup commits avoids
    rw [hhead] at queues
    refine ⟨head + n, queues, ?_, ?_⟩
    · simp only [World.afterRollup, List.flatMap_append, List.flatMap_singleton, h.indices,
        Accepted.indices, hpopped, List.length_map, List.length_range']
      rcases Nat.eq_zero_or_pos n with rfl | hpos
      · simp
      · rw [hend hpos, Nat.add_sub_cancel, List.range_eq_range', List.range_eq_range']
        have happend := List.range'_append_1 (s := 0) (m := head) (n := n)
        rwa [Nat.zero_add] at happend
    · have hle : head + n ≤ w.pushed.length := by
        simpa [World.afterRollup] using queues.queue.le
      simp only [World.afterRollup, List.flatMap_append, List.flatMap_singleton, h.popped, hpopped]
      rw [← take_append_slice w.pushed [] hle]
      simp

theorem Consumed.push (h : Consumed S w head) (data : Value) :
    Consumed S (w.push S data) head := by
  obtain hsame | ⟨hpushed, haccepted, hpast, -, queues⟩ := h.queues.push data
  · rw [hsame]
    exact h
  · have hle : head ≤ w.pushed.length := by simpa using h.queues.queue.le
    have hcontent : (fun i => (w.pushed ++ [data]).getD i []) =
        Function.update (fun i => w.pushed.getD i []) (0 + w.pushed.length) data := by
      funext i
      rw [Nat.zero_add]
      rcases lt_trichotomy i w.pushed.length with hi | rfl | hi
      · rw [Function.update_of_ne hi.ne, List.getD_append _ _ _ _ hi]
      · simp
      · rw [Function.update_of_ne hi.ne', List.getD_eq_default _ _ hi.le,
          List.getD_eq_default _ _ (by simpa using Nat.succ_le_of_lt hi)]
    constructor
    case queues =>
      rw [hpushed, hcontent]
      exact queues
    case indices => rw [haccepted, h.indices]
    case popped => rw [haccepted, hpushed, h.popped, List.take_append_of_le_length hle]

theorem Consumed.run {steps : List (Step T)} (h : Consumed S w head)
    (avoid : ∀ s age, Step.rollup s age ∈ steps → AvoidsQueue S s) :
    ∃ head', Consumed S (w.run S steps) head' := by
  induction steps generalizing w head with
  | nil => exact ⟨head, h⟩
  | cons step steps ih =>
    have htail : ∀ s age, Step.rollup s age ∈ steps → AvoidsQueue S s :=
      fun s age hs => avoid s age (List.mem_cons_of_mem _ hs)
    cases step with
    | rollup s age =>
      obtain ⟨head', h'⟩ := h.submit (avoid s age List.mem_cons_self) age
      exact ih h' htail
    | push data => exact ih (h.push data) htail

end World

end Cyrux.Rollup
