import Mathlib.Data.Set.Card
import Cyrux.Scheduler.Task

/-!
# Cores and ready tasks
-/

namespace Cyrux.TaskScheduler

open Proc Unsigned

def Occupies (state : Option TaskState) : Prop := state = some .toRun ∨ state = some .running

instance (state : Option TaskState) : Decidable (Occupies state) := instDecidableOr

theorem not_occupies_idle : ¬ Occupies (some .idle) := by decide

structure Board (TaskId : Type) where
  stateOf : TaskId → Option TaskState
  queued : List TaskId
  running : ℕ
  held : List TaskId

variable {TaskId Waker : Type} [DecidableEq TaskId]

structure Tracked (cores : ℕ) (b : Board TaskId) : Prop where
  counted : {id | Occupies (b.stateOf id)}.encard = b.running
  within : b.running ≤ cores
  queued : ∀ id state, b.stateOf id = some state →
    b.queued.count id = if state = .ready then 1 else 0
  held : ∀ id state, b.stateOf id = some state → (state = .running ↔ id ∈ b.held)
  single : b.held.Nodup

section Board

variable {cores : ℕ} {b b' : Board TaskId} {id : TaskId} {state : Option TaskState}

theorem occupied_update (f : TaskId → Option TaskState) (id : TaskId) (state : Option TaskState) :
    {x | Occupies (Function.update f id state x)} =
      if Occupies state then insert id {x | Occupies (f x)} else {x | Occupies (f x)} \ {id} := by
  ext x
  by_cases hx : x = id
  · subst hx
    split_ifs with h <;> simp [h]
  · split_ifs <;> simp [hx]

theorem occupied_same (h : Occupies (b.stateOf id) ↔ Occupies state) :
    {x | Occupies (Function.update b.stateOf id state x)} = {x | Occupies (b.stateOf x)} := by
  rw [occupied_update]
  split_ifs with after
  · exact Set.insert_eq_of_mem (h.2 after)
  · exact Set.sdiff_singleton_eq_self (mt h.1 after)

theorem Tracked.change (h : Tracked cores b)
    (stateOf : b'.stateOf = Function.update b.stateOf id state)
    (counted : {x | Occupies (Function.update b.stateOf id state x)}.encard = b'.running)
    (within : b'.running ≤ cores)
    (queued : ∀ x, x ≠ id → b'.queued.count x = b.queued.count x)
    (held : ∀ x, x ≠ id → (x ∈ b'.held ↔ x ∈ b.held))
    (own : ∀ state', state = some state' →
      b'.queued.count id = (if state' = .ready then 1 else 0) ∧ (state' = .running ↔ id ∈ b'.held))
    (single : b'.held.Nodup) : Tracked cores b' := by
  have hall : ∀ x state', b'.stateOf x = some state' →
      b'.queued.count x = (if state' = .ready then 1 else 0) ∧
        (state' = .running ↔ x ∈ b'.held) := by
    intro x state' hx
    rw [stateOf] at hx
    by_cases heq : x = id
    · subst heq
      rw [Function.update_self] at hx
      exact own state' hx
    · rw [Function.update_of_ne heq] at hx
      rw [queued x heq, held x heq]
      exact ⟨h.queued x state' hx, h.held x state' hx⟩
  exact ⟨by rwa [stateOf], within, fun x _ hx => (hall x _ hx).1, fun x _ hx => (hall x _ hx).2,
    single⟩

theorem count_of_perm_cons {l l' : List TaskId} (h : l'.Perm (id :: l)) {x : TaskId} (hx : x ≠ id) :
    l'.count x = l.count x := by
  rw [h.count_eq, List.count_cons_of_ne hx.symm]

theorem Tracked.enqueue (h : Tracked cores b) (idle : ¬ Occupies (b.stateOf id))
    (absent : b.queued.count id = 0) (unheld : id ∉ b.held) {queued : List TaskId}
    (hqueued : queued.Perm (id :: b.queued)) :
    Tracked cores { b with
      stateOf := Function.update b.stateOf id (some .ready)
      queued := queued } := by
  refine h.change rfl ?_ h.within (fun x hx => count_of_perm_cons hqueued hx) (fun _ _ => .rfl) ?_
    h.single
  · rw [occupied_same (iff_of_false idle (by decide))]
    exact h.counted
  · rintro _ ⟨⟩
    refine ⟨?_, iff_of_false nofun unheld⟩
    rw [hqueued.count_eq, List.count_cons_self, absent]
    rfl

theorem Tracked.wake (h : Tracked cores b) (ready : b.stateOf id = some .ready)
    {queued : List TaskId} (hqueued : b.queued = id :: queued) (free : b.running < cores) :
    Tracked cores { b with
      stateOf := Function.update b.stateOf id (some .toRun)
      queued := queued
      running := b.running + 1 } := by
  have hcount := h.queued id .ready ready
  rw [hqueued, List.count_cons_self, if_pos rfl] at hcount
  refine h.change rfl ?_ free ?_ (fun _ _ => .rfl) ?_ h.single
  · rw [occupied_update, if_pos (by decide), Set.encard_insert_of_notMem, h.counted]
    · rfl
    · show ¬ Occupies (b.stateOf id)
      rw [ready]
      decide
  · intro x hx
    rw [hqueued, List.count_cons_of_ne hx.symm]
  · rintro _ ⟨⟩
    refine ⟨?_, iff_of_false nofun fun hheld => ?_⟩
    · exact Nat.succ.inj hcount
    · exact absurd ((h.held id .ready ready).2 hheld) nofun

theorem Tracked.forget (h : Tracked cores b) (gone : b.stateOf id = none)
    {queued held : List TaskId} (hqueued : ∀ x, x ≠ id → queued.count x = b.queued.count x)
    (hheld : ∀ x, x ≠ id → (x ∈ held ↔ x ∈ b.held)) (single : held.Nodup) :
    Tracked cores { b with queued := queued, held := held } := by
  have hsame : b.stateOf = Function.update b.stateOf id none := by
    rw [← gone, Function.update_eq_self]
  refine h.change hsame ?_ h.within hqueued hheld nofun single
  rw [← hsame]
  exact h.counted

theorem Tracked.start (h : Tracked cores b) (toRun : b.stateOf id = some .toRun) :
    Tracked cores { b with
      stateOf := Function.update b.stateOf id (some .running)
      held := b.held ++ [id] } := by
  have unheld : id ∉ b.held := fun hheld => absurd ((h.held id .toRun toRun).2 hheld) nofun
  have hcount := h.queued id .toRun toRun
  refine h.change rfl ?_ h.within (fun _ _ => rfl) ?_ ?_ ?_
  · rw [occupied_same (iff_of_true (.inl toRun) (.inr rfl))]
    exact h.counted
  · intro x hx
    simp only [List.mem_append, List.mem_singleton, hx, or_false]
  · rintro _ ⟨⟩
    exact ⟨hcount, iff_of_true rfl (List.mem_append_right _ (List.mem_singleton.2 rfl))⟩
  · rw [List.nodup_append_comm]
    exact List.nodup_cons.2 ⟨unheld, h.single⟩

theorem Tracked.giveBack (h : Tracked cores b) (occupies : Occupies (b.stateOf id))
    (hstate : state = none ∨ state = some .idle) {held : List TaskId}
    (hheld : ∀ x, x ≠ id → (x ∈ held ↔ x ∈ b.held)) (unheld : state ≠ none → id ∉ held)
    (single : held.Nodup) :
    Tracked cores { b with
      stateOf := Function.update b.stateOf id state
      running := b.running - 1
      held := held } ∧ 1 ≤ b.running := by
  have hfreed : ¬ Occupies state := by
    rintro (rfl | rfl)
    · exact hstate.elim nofun nofun
    · exact hstate.elim nofun nofun
  have hless : {x | Occupies (Function.update b.stateOf id state x)}.encard + 1 = b.running := by
    rw [occupied_update, if_neg hfreed, ← h.counted]
    exact Set.encard_sdiff_singleton_add_one occupies
  have hpos : 1 ≤ b.running := by
    by_contra hzero
    have hzero : b.running = 0 := Nat.lt_one_iff.1 (Nat.not_le.1 hzero)
    rw [hzero] at hless
    exact absurd hless (by simp)
  have habsent : b.queued.count id = 0 := by
    obtain hs | hs := occupies
    · exact h.queued id .toRun hs
    · exact h.queued id .running hs
  refine ⟨h.change rfl ?_ ((Nat.sub_le _ _).trans h.within) (fun _ _ => rfl) hheld ?_ single, hpos⟩
  · obtain ⟨n, hn⟩ := Nat.exists_eq_add_of_le' hpos
    rw [hn] at hless ⊢
    exact ENat.add_left_injective_of_ne_top ENat.one_ne_top hless
  · rintro state' rfl
    obtain hs | hs := hstate
    · cases hs
    · cases hs
      exact ⟨habsent, iff_of_false nofun (unheld nofun)⟩

theorem Tracked.remove (h : Tracked cores b) (idle : ¬ Occupies (b.stateOf id)) :
    Tracked cores { b with stateOf := Function.update b.stateOf id none } := by
  refine h.change rfl ?_ h.within (fun _ _ => rfl) (fun _ _ => .rfl) nofun h.single
  rw [occupied_same (iff_of_false idle (by decide))]
  exact h.counted

end Board

/-! ## The scheduler's board -/

def World.board (s : World TaskId Waker) : Board TaskId where
  stateOf id := (s.tasks id).map Task.state
  queued := s.readyTasks.entries.map fun e => e.2.id
  running := s.runningTasks
  held := s.guards.map RunningGuard.taskId

omit [DecidableEq TaskId] in
theorem stateOf_eq {s : World TaskId Waker} {id : TaskId} {task : Option Task}
    (htask : s.tasks id = task) : s.board.stateOf id = task.map Task.state := by
  rw [← htask]
  rfl

theorem stateOf_update (tasks : TaskId → Option Task) (id : TaskId) (task : Option Task) :
    (fun x => (Function.update tasks id task x).map Task.state) =
      Function.update (fun x => (tasks x).map Task.state) id (task.map Task.state) := by
  ext1 x
  by_cases hx : x = id
  · subst hx
    rw [Function.update_self, Function.update_self]
  · rw [Function.update_of_ne hx, Function.update_of_ne hx]

structure Sound (cores : ℕ) (s : World TaskId Waker) : Prop where
  tracked : Tracked cores s.board
  size : s.virtualCores = cores
  /-- Nobody waits for a core that is free. -/
  full : s.board.queued ≠ [] → s.runningTasks = cores

structure Scheduled (s s' : World TaskId Waker) : Prop where
  others : ∀ id, s.board.stateOf id ≠ some .ready → s'.board.stateOf id = s.board.stateOf id
  guards : s'.guards = s.guards

section Schedule

variable {cores : ℕ} {s : World TaskId Waker}

theorem assign_gone {readyTask : ReadyTask TaskId Waker} (gone : s.tasks readyTask.id = none)
    (vruntime : ℕ) : assign s vruntime readyTask = s := by
  unfold assign
  rw [gone]

theorem board_assign {readyTask : ReadyTask TaskId Waker} {task : Task}
    (htask : s.tasks readyTask.id = some task) (vruntime : ℕ) :
    (assign s vruntime readyTask).board = { s.board with
      stateOf := Function.update s.board.stateOf readyTask.id (some .toRun)
      running := s.board.running + 1 } := by
  unfold assign World.board
  rw [htask]
  rw [stateOf_update]
  rfl

theorem assign_same (readyTask : ReadyTask TaskId Waker) (vruntime : ℕ) :
    let s' := assign s vruntime readyTask
    s'.guards = s.guards ∧ s'.virtualCores = s.virtualCores ∧ s'.readyTasks = s.readyTasks := by
  unfold assign
  split
  · exact ⟨rfl, rfl, rfl⟩
  · exact ⟨rfl, rfl, rfl⟩

theorem assign_tracked (h : Tracked cores s.board) (free : s.runningTasks < cores)
    {vruntime : ℕ} {readyTask : ReadyTask TaskId Waker}
    {readyTasks : RBTree ℕ (ReadyTask TaskId Waker)}
    (hpop : s.readyTasks.popFirst = some ((vruntime, readyTask), readyTasks)) :
    let s' := assign { s with readyTasks := readyTasks } vruntime readyTask
    Tracked cores s'.board ∧
      ∀ id, s.board.stateOf id ≠ some .ready → s'.board.stateOf id = s.board.stateOf id := by
  intro s'
  have hqueued : s.board.queued = readyTask.id :: readyTasks.entries.map fun e => e.2.id := by
    unfold World.board
    rw [RBTree.entries_of_popFirst hpop, List.map_cons]
  cases htask : s.tasks readyTask.id with
  | none =>
    have hassign : s' = { s with readyTasks := readyTasks } :=
      assign_gone (s := { s with readyTasks := readyTasks }) htask vruntime
    rw [hassign]
    refine ⟨h.forget (stateOf_eq htask) (fun x hx => ?_) (fun _ _ => .rfl) h.single, fun _ _ => rfl⟩
    rw [hqueued, List.count_cons_of_ne hx.symm]
  | some task =>
    have hstate : s.board.stateOf readyTask.id = some task.state := stateOf_eq htask
    have hready : task.state = .ready := by
      by_contra hne
      have hcount := h.queued _ _ hstate
      rw [if_neg hne, hqueued, List.count_cons_self] at hcount
      exact absurd hcount (Nat.succ_ne_zero _)
    rw [hready] at hstate
    have hboard := board_assign (s := { s with readyTasks := readyTasks }) htask vruntime
    rw [hboard]
    refine ⟨h.wake hstate hqueued free, fun id hid => ?_⟩
    have hne : id ≠ readyTask.id := by
      rintro rfl
      exact hid hstate
    exact Function.update_of_ne hne _ _

theorem sound_of_empty (h : Tracked cores s.board) (size : s.virtualCores = cores)
    (hqueue : s.readyTasks.entries = []) : Sound cores s := by
  refine ⟨h, size, fun hne => absurd ?_ hne⟩
  unfold World.board
  rw [hqueue, List.map_nil]

theorem scheduleLoop_sound (n : ℕ) (h : Tracked cores s.board) (size : s.virtualCores = cores)
    (hn : s.readyTasks.len ≤ n) :
    Sound cores (scheduleLoop n s) ∧ Scheduled s (scheduleLoop n s) := by
  induction n generalizing s with
  | zero =>
    have hempty : s.readyTasks.entries = [] := List.eq_nil_of_length_eq_zero (Nat.le_zero.1 hn)
    exact ⟨sound_of_empty h size hempty, fun _ _ => rfl, rfl⟩
  | succ n ih =>
    unfold scheduleLoop
    split
    · rename_i free
      split
      · rename_i hpop
        exact ⟨sound_of_empty h size (RBTree.popFirst_eq_none.1 hpop), fun _ _ => rfl, rfl⟩
      · rename_i vruntime readyTask readyTasks hpop
        obtain ⟨h', others⟩ := assign_tracked h (size ▸ free) hpop
        have hlen : readyTasks.len ≤ n := by
          unfold RBTree.len at hn ⊢
          rw [RBTree.entries_of_popFirst hpop, List.length_cons] at hn
          omega
        obtain ⟨guards, cores, ready⟩ := assign_same (s := { s with readyTasks := readyTasks })
          readyTask vruntime
        obtain ⟨sound, scheduled⟩ := ih h' (cores.trans size) (by rwa [ready])
        refine ⟨sound, fun id hid => ?_, scheduled.guards.trans guards⟩
        have hsame := others id hid
        rw [scheduled.others id (by rwa [hsame]), hsame]
    · rename_i busy
      rw [size] at busy
      exact ⟨⟨h, size, fun _ => le_antisymm h.within (Nat.le_of_not_lt busy)⟩, fun _ _ => rfl, rfl⟩

theorem schedule_sound (h : Tracked cores s.board) (size : s.virtualCores = cores) :
    Sound cores (schedule s) ∧ Scheduled s (schedule s) := scheduleLoop_sound _ h size le_rfl

theorem schedule_full (full : s.runningTasks = s.virtualCores) : schedule s = s := by
  unfold schedule
  cases s.readyTasks.len with
  | zero => rfl
  | succ n => rw [scheduleLoop, if_neg (by omega)]

end Schedule

/-! ## The calls -/

def Kept (s s' : World TaskId Waker) : Prop :=
  ∀ id, s.board.stateOf id = some .running → s'.board.stateOf id ≠ some .toRun

section Calls

variable {cores : ℕ} {s : World TaskId Waker} {id : TaskId} {task : Task}

theorem kept_of_scheduled {t s' : World TaskId Waker} (scheduled : Scheduled t s')
    (state : Option TaskState)
    (hboard : t.board.stateOf = Function.update s.board.stateOf id state)
    (hstate : s.board.stateOf id = some .running → state ≠ some .ready ∧ state ≠ some .toRun) :
    Kept s s' := by
  intro x hx
  by_cases heq : x = id
  · subst heq
    obtain ⟨hready, htoRun⟩ := hstate hx
    have hself : t.board.stateOf x = state := by
      rw [hboard, Function.update_self]
    rw [scheduled.others x (by rwa [hself]), hself]
    exact htoRun
  · have hother : t.board.stateOf x = some .running := by
      rw [hboard, Function.update_of_ne heq, hx]
    rw [scheduled.others x (by rw [hother]; nofun), hother]
    nofun

theorem tracked_update {task : Option Task}
    (h : Tracked cores { s.board with
      stateOf := Function.update s.board.stateOf id (task.map Task.state) }) :
    Tracked cores ({ s with tasks := Function.update s.tasks id task } : World _ _).board := by
  unfold World.board
  rwa [stateOf_update]

theorem schedule_update (task : Option Task) (size : s.virtualCores = cores)
    (tracked : Tracked cores { s.board with
      stateOf := Function.update s.board.stateOf id (task.map Task.state) })
    (hstate : s.board.stateOf id = some .running →
      task.map Task.state ≠ some .ready ∧ task.map Task.state ≠ some .toRun) :
    let s' := schedule { s with tasks := Function.update s.tasks id task }
    Sound cores s' ∧ Kept s s' := by
  have htracked := tracked_update tracked
  obtain ⟨sound, scheduled⟩ := schedule_sound htracked size
  exact ⟨sound, kept_of_scheduled scheduled _ (stateOf_update s.tasks id task) hstate⟩

theorem runs_exit (h : Sound cores s) (id : TaskId) :
    Runs (exit id) s (fun _ s' => Sound cores s' ∧ Kept s s') fun _ _ => False := by
  apply Runs.get_bind
  cases htask : s.tasks id with
  | none => exact ⟨h, fun _ hx => by rw [hx]; nofun⟩
  | some task =>
    have hstate := stateOf_eq htask
    apply Runs.when
    · intro occupies
      have hoccupies : Occupies (s.board.stateOf id) := by
        rw [hstate]
        exact occupies.imp (congrArg some) (congrArg some)
      obtain ⟨tracked, -⟩ := h.tracked.giveBack hoccupies (.inl rfl) (fun _ _ => .rfl) nofun
        h.tracked.single
      exact schedule_update (s := { s with runningTasks := s.runningTasks - 1 }) none h.size
        tracked fun _ => ⟨nofun, nofun⟩
    · intro occupies
      have hoccupies : ¬ Occupies (s.board.stateOf id) := by
        rw [hstate]
        exact fun hocc => occupies (hocc.imp Option.some.inj Option.some.inj)
      refine ⟨⟨tracked_update (h.tracked.remove hoccupies), h.size, h.full⟩, ?_⟩
      exact kept_of_scheduled ⟨fun _ _ => rfl, rfl⟩ none (stateOf_update s.tasks id none)
        fun _ => ⟨nofun, nofun⟩

theorem runs_park (h : Sound cores s) {guards : List (RunningGuard TaskId)}
    (held : id ∈ s.board.held) (vruntime : ℕ)
    (hguards : ∀ x, x ≠ id → (x ∈ guards.map RunningGuard.taskId ↔ x ∈ s.board.held))
    (unheld : id ∉ guards.map RunningGuard.taskId)
    (single : (guards.map RunningGuard.taskId).Nodup) :
    Runs (park id vruntime) { s with guards := guards } (fun _ s' => Sound cores s' ∧ Kept s s')
      fun _ _ => False := by
  apply Runs.get_bind
  cases htask : s.tasks id with
  | none =>
    refine ⟨⟨?_, h.size, h.full⟩, fun _ hx => ?_⟩
    · exact h.tracked.forget (stateOf_eq htask) (fun _ _ => rfl) hguards single
    · exact ne_of_eq_of_ne hx nofun
  | some task =>
    have hrunning : task.state = .running :=
      (h.tracked.held id task.state (stateOf_eq htask)).2 held
    have hstate : s.board.stateOf id = some .running := hrunning ▸ stateOf_eq htask
    apply Runs.ensure_bind
    case fails => exact fun hn => hn hrunning
    intro _
    generalize wrappingAdd 128 task.virtualRuntime (max vruntime 1) = virtualRuntime
    obtain ⟨tracked, -⟩ := h.tracked.giveBack (.inr hstate) (.inr rfl) hguards (fun _ => unheld)
      single
    exact schedule_update
      (s := { s with runningTasks := s.runningTasks - 1, guards := guards })
      (some ⟨.idle, virtualRuntime⟩) h.size tracked fun _ => ⟨nofun, nofun⟩

theorem runs_dropGuard (h : Sound cores s) (id : TaskId) (actualCost : ℕ) :
    Runs (dropGuard id actualCost) s (fun _ s' => Sound cores s' ∧ Kept s s')
      fun _ _ => False := by
  apply Runs.get_bind
  cases hfind : s.guards.find? (·.taskId = id) with
  | none => exact ⟨h, fun _ hx => ne_of_eq_of_ne hx nofun⟩
  | some guard =>
    have hmem := List.mem_of_find?_eq_some hfind
    have hperm : s.board.held.Perm
        (guard.taskId :: (s.guards.erase guard).map RunningGuard.taskId) :=
      (List.perm_cons_erase hmem).map _
    have hnodup := List.nodup_cons.1 (hperm.nodup_iff.1 h.tracked.single)
    apply runs_park h
    · exact List.mem_map_of_mem hmem
    · intro x hx
      rw [hperm.mem_iff, List.mem_cons]
      simp only [hx, false_or]
    · exact hnodup.1
    · exact hnodup.2

/-! ## Polling -/

omit [DecidableEq TaskId] in
theorem board_maybeResetClock (s : World TaskId Waker) : (maybeResetClock s).board = s.board := by
  unfold maybeResetClock
  split
  · unfold World.board
    dsimp only
    congr
    ext1 x
    cases s.tasks x with
    | none => rfl
    | some task => rfl
  · rfl

theorem Sound.maybeResetClock (h : Sound cores s) : Sound cores (maybeResetClock s) := by
  have hboard := board_maybeResetClock s
  refine ⟨by rw [hboard]; exact h.tracked, ?_, fun hne => ?_⟩
  · unfold TaskScheduler.maybeResetClock
    split
    · exact h.size
    · exact h.size
  · rw [hboard] at hne
    change (TaskScheduler.maybeResetClock s).board.running = cores
    rw [hboard]
    exact h.full hne

theorem enqueue_sound (h : Sound cores s) (idle : ¬ Occupies (s.board.stateOf id))
    (absent : s.board.queued.count id = 0) (unheld : id ∉ s.board.held) (virtualRuntime : ℕ)
    (waker : Waker) :
    let s' := schedule { s with
      tasks := Function.update s.tasks id (some ⟨.ready, virtualRuntime⟩)
      readyTasks := s.readyTasks.insert virtualRuntime ⟨id, waker⟩ }
    Sound cores s' ∧ Kept s s' := by
  have hqueued := (s.readyTasks.insert_perm virtualRuntime ⟨id, waker⟩).map fun e => e.2.id
  exact schedule_update
    (s := { s with readyTasks := s.readyTasks.insert virtualRuntime ⟨id, waker⟩ })
    (some ⟨.ready, virtualRuntime⟩) h.size
    (h.tracked.enqueue idle absent unheld hqueued) fun hrunning => absurd (.inr hrunning) idle

theorem rewake_sound (h : Sound cores s) (id : TaskId) (waker : Waker) :
    Sound cores { s with
      readyTasks := s.readyTasks.updateFirst (fun ready => ready.id = id)
        fun ready => { ready with waker := waker } } := by
  have hqueued : ((s.readyTasks.updateFirst (fun ready => ready.id = id)
      fun ready => { ready with waker := waker }).entries.map fun e => e.2.id) = s.board.queued :=
    RBTree.map_updateFirstEntry
      (f := fun ready : ReadyTask TaskId Waker => { ready with waker := waker })
      (fun _ ready => ready.id) (fun _ _ => rfl) _
  refine ⟨?_, h.size, ?_⟩
  · unfold World.board
    rw [hqueued]
    exact h.tracked
  · unfold World.board
    rw [hqueued]
    exact h.full

theorem start_sound (h : Sound cores s) (htask : s.tasks id = some task)
    (toRun : task.state = .toRun) (weight : ℕ) :
    Sound cores { s with
      tasks := Function.update s.tasks id (some { task with state := .running })
      guards := s.guards ++ [⟨id, weight⟩] } := by
  have hstate : s.board.stateOf id = some .toRun := toRun ▸ stateOf_eq htask
  refine ⟨?_, h.size, h.full⟩
  unfold World.board
  rw [stateOf_update, List.map_append]
  exact h.tracked.start hstate

theorem runs_poll (h : Sound cores s) (unheld : id ∉ s.board.held)
    (fresh : s.board.stateOf id = none → s.board.queued.count id = 0) (waker : Waker)
    (weight : ℕ) :
    Runs (Op.poll waker id weight).call s (fun _ s' => Sound cores s' ∧ Kept s s')
      fun _ _ => False := by
  apply Runs.bind
  apply Runs.alter_bind
  apply Runs.get_bind
  have h' := h.maybeResetClock
  unfold Kept
  rw [← board_maybeResetClock s] at unheld fresh ⊢
  generalize maybeResetClock s = t at *
  cases htask : t.tasks id with
  | none =>
    have gone : t.board.stateOf id = none := stateOf_eq htask
    have hsound := enqueue_sound h' (by rw [gone]; decide) (fresh gone) unheld
      (max t.virtualClock t.virtualClock) waker
    change _ ∧ _
    simp only [Option.toList_none, List.append_nil]
    exact hsound
  | some task =>
    have hstate : t.board.stateOf id = some task.state := stateOf_eq htask
    have hqueued := h'.tracked.queued id task.state hstate
    obtain ⟨state, virtualRuntime⟩ := task
    cases state with
    | idle =>
      have hsound := enqueue_sound h' (hstate ▸ not_occupies_idle) hqueued unheld
        (max virtualRuntime t.virtualClock) waker
      change _ ∧ _
      simp only [Option.toList_none, List.append_nil]
      exact hsound
    | ready =>
      change _ ∧ _
      simp only [Option.toList_none, List.append_nil]
      exact ⟨rewake_sound h' id waker, fun _ hx => ne_of_eq_of_ne hx nofun⟩
    | toRun =>
      refine ⟨start_sound h' htask rfl weight, ?_⟩
      apply kept_of_scheduled ⟨fun _ _ => rfl, rfl⟩ (some .running) (stateOf_update t.tasks id _)
      exact fun _ => ⟨nofun, nofun⟩
    | running => exact unheld ((h'.tracked.held id .running hstate).1 rfl)

theorem stale_poll (h : Sound cores s) (gone : s.board.stateOf id = none)
    (stale : s.board.queued.count id ≠ 0) (waker : Waker) (weight : ℕ) :
    Runs (Op.poll waker id weight).call s
      (fun _ s' => s'.board.stateOf id = some .ready ∧ s'.board.queued.count id ≠ 1)
      fun _ _ => False := by
  apply Runs.bind
  apply Runs.alter_bind
  apply Runs.get_bind
  have h' := h.maybeResetClock
  rw [← board_maybeResetClock s] at gone stale
  generalize maybeResetClock s = t at *
  have htask : t.tasks id = none := Option.map_eq_none_iff.1 gone
  have hfull : t.runningTasks = cores := by
    apply h'.full
    intro hnil
    rw [hnil] at stale
    exact stale rfl
  rw [htask]
  have hqueued := (t.readyTasks.insert_perm (max t.virtualClock t.virtualClock) ⟨id, waker⟩).map
    fun e => e.2.id
  change _ ∧ _
  simp only [Option.getD_none, Option.toList_none, List.append_nil]
  rw [schedule_full (by dsimp only; rw [h'.size]; exact hfull)]
  constructor
  · unfold World.board
    dsimp only
    rw [Function.update_self]
    rfl
  · unfold World.board at stale ⊢
    dsimp only at stale ⊢
    rw [hqueued.count_eq, List.map_cons, List.count_cons_self]
    omega

end Calls

/-! ## Runs -/

section Runs

variable {cores : ℕ} {s : World TaskId Waker} {op : Op TaskId Waker}

def Unheld (s : World TaskId Waker) : Op TaskId Waker → Prop
  | .poll _ id _ => id ∉ s.board.held
  | _ => True

def Fresh (s : World TaskId Waker) : Op TaskId Waker → Prop
  | .poll _ id _ => s.board.stateOf id = none → id ∉ s.board.queued
  | _ => True

instance (s : World TaskId Waker) (op : Op TaskId Waker) : Decidable (Unheld s op) :=
  match op with
  | .poll _ id _ => inferInstanceAs (Decidable (id ∉ s.board.held))
  | .drop _ _ | .reset _ | .exit _ => inferInstanceAs (Decidable True)

instance (s : World TaskId Waker) (op : Op TaskId Waker) : Decidable (Fresh s op) :=
  match op with
  | .poll _ id _ =>
    inferInstanceAs (Decidable (s.board.stateOf id = none → id ∉ s.board.queued))
  | .drop _ _ | .reset _ | .exit _ => inferInstanceAs (Decidable True)

def Consistent (cores : ℕ) (s : World TaskId Waker) : Prop :=
  {id | Occupies (s.board.stateOf id)}.encard = s.runningTasks ∧ s.runningTasks ≤ cores ∧
    ∀ id, s.board.stateOf id = some .ready → s.board.queued.count id = 1

def Proper (cores : ℕ) (s : World TaskId Waker) (op : Op TaskId Waker) : Prop :=
  op.call.result s = .ok () ∧ Consistent cores (op.call.after s) ∧ Kept s (op.call.after s)

theorem Sound.consistent (h : Sound cores s) : Consistent cores s :=
  ⟨h.tracked.counted, h.tracked.within, fun id hready => h.tracked.queued id .ready hready⟩

theorem Sound.step (h : Sound cores s) (unheld : Unheld s op) (fresh : Fresh s op) :
    Sound cores (op.call.after s) ∧ Proper cores s op := by
  have hruns : Runs op.call s (fun _ s' => Sound cores s' ∧ Kept s s') fun _ _ => False := by
    cases op with
    | poll waker id weight =>
      exact runs_poll h unheld (fun gone => List.count_eq_zero.2 (fresh gone)) waker weight
    | drop id actualCost => exact runs_dropGuard h id actualCost
    | reset id => exact runs_exit h id
    | exit id => exact runs_exit h id
  obtain ⟨_, hok, sound, kept⟩ | ⟨_, _, hf⟩ := hruns.outcome
  · exact ⟨sound, hok, sound.consistent, kept⟩
  · exact hf.elim

theorem Sound.proper_iff (h : Sound cores s) (unheld : Unheld s op) :
    Proper cores s op ↔ Fresh s op := by
  constructor
  · rintro ⟨-, ⟨-, -, once⟩, -⟩
    cases op with
    | poll waker id weight =>
      intro gone
      by_contra stale
      have hruns := stale_poll h gone (List.count_eq_zero.not.2 (not_not.2 stale)) waker weight
      obtain ⟨_, _, hready, htwice⟩ | ⟨_, _, hf⟩ := hruns.outcome
      · exact htwice (once id hready)
      · exact hf
    | drop id actualCost => trivial
    | reset id => trivial
    | exit id => trivial
  · exact fun fresh => (h.step unheld fresh).2

theorem Sound.run (h : Sound cores s) {ops : List (Op TaskId Waker)}
    (unheld : Throughout Op.call Unheld s ops) :
    Throughout Op.call (Proper cores) s ops ↔ Throughout Op.call Fresh s ops := by
  induction ops generalizing s with
  | nil => exact Iff.rfl
  | cons op ops ih =>
    constructor
    · rintro ⟨proper, hops⟩
      have fresh := (h.proper_iff unheld.1).1 proper
      obtain ⟨sound, -⟩ := h.step unheld.1 fresh
      exact ⟨fresh, (ih sound unheld.2).1 hops⟩
    · rintro ⟨fresh, hops⟩
      obtain ⟨sound, proper⟩ := h.step unheld.1 fresh
      exact ⟨proper, (ih sound unheld.2).2 hops⟩

theorem sound_new (cores : ℕ) : Sound cores (World.new TaskId Waker cores) := by
  refine ⟨⟨?_, Nat.zero_le _, nofun, nofun, List.nodup_nil⟩, rfl, fun hne => absurd rfl hne⟩
  have hnone : {id : TaskId | Occupies ((World.new TaskId Waker cores).board.stateOf id)} = ∅ := by
    ext id
    exact iff_of_false (by decide : ¬ Occupies none) (Set.notMem_empty id)
  rw [hnone]
  exact Set.encard_empty

theorem tasks_in_order_iff (cores : ℕ) (ops : List (Op TaskId Waker))
    (unheld : Throughout Op.call Unheld (World.new TaskId Waker cores) ops) :
    Throughout Op.call (Proper cores) (World.new TaskId Waker cores) ops ↔
      Throughout Op.call Fresh (World.new TaskId Waker cores) ops :=
  (sound_new cores).run unheld

theorem tasks_in_order_iff_restarted :
    let ops : List (Op ℕ ℕ) :=
      [.poll 0 7 1, .exit 7, .poll 1 7 1, .poll 1 7 1, .poll 2 8 1, .drop 7 5, .poll 2 8 1]
    Throughout Op.call Fresh (World.new ℕ ℕ 1) ops ∧
      (Throughout Op.call (Proper 1) (World.new ℕ ℕ 1) ops ↔
        Throughout Op.call Fresh (World.new ℕ ℕ 1) ops) := by
  intro ops
  exact ⟨by decide +kernel, tasks_in_order_iff 1 ops (by decide +kernel)⟩

theorem stale_entry_panics :
    let ops : List (Op ℕ ℕ) :=
      [.poll 0 0 1, .poll 0 0 1, .poll 1 1 1, .poll 1 1 1, .poll 2 2 1, .exit 2, .poll 2 2 1,
        .drop 0 5, .poll 2 2 1, .drop 1 5]
    let s := afterCalls Op.call (World.new ℕ ℕ 2) ops
    Throughout Op.call Unheld (World.new ℕ ℕ 2) ops ∧
      s.runningTasks = 2 ∧ [0, 1, 2].map s.board.stateOf = [some .idle, some .idle, some .toRun] ∧
      (Op.drop 2 5).call.result s = .error (.panic "BUG: parking a non-running task") := by
  decide +kernel

end Runs

end Cyrux.TaskScheduler
