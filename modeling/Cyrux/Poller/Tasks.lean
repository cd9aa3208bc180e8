import Cyrux.Lib.Exec
import Mathlib

/-!
# The task table of the poller

`standalone/phat-poller/src/app.rs`
-/

namespace Cyrux.Poller

abbrev TaskId := ℕ
abbrev Instant := ℕ
abbrev WorkerPublicKey := ℕ
abbrev ContractId := ℕ
abbrev AccountId := ℕ

/-! ## State -/

structure Worker where
  pubkey : WorkerPublicKey
  uri : String
  probeStart : Instant
  probeResult : Except String Instant

def Worker.latency (worker : Worker) : Option ℕ :=
  match worker.probeResult with
  | .ok probeEnd => some (probeEnd - worker.probeStart)
  | .error _ => none

def durationMax : ℕ := 2 ^ 64 * 10 ^ 9 - 1

structure Workflow where
  user : AccountId
  profile : ContractId
  ind : ℕ

inductive Job
  | probe (uri : String)
  | poll (worker : WorkerPublicKey) (profile : ContractId) (ind : ℕ)

inductive TaskResult
  | probed (pubkey : WorkerPublicKey) (time : Instant)
  | polled
  | failed (error : String)
deriving DecidableEq

structure Task where
  id : TaskId
  job : Job
  startTime : Instant
  endTime : Option Instant := none
  duration : Option ℕ := none
  result : Option (Except String Unit) := none

structure State where
  nextTaskId : TaskId := 0
  liveWorkers : List Worker := []
  runningTasks : TaskId → Option Task := fun _ => none
  history : List Task := []

inductive Status
  | unspawned
  | running
  | finished (result : TaskResult)
  | cancelled
deriving DecidableEq

def Status.done : Status → Bool
  | finished _ | cancelled => true
  | unspawned | running => false

structure ProbeRound where
  probeStart : Instant
  uris : List String
  handles : List TaskId

inductive PollRound
  | idle
  | inspecting (topWorkers : List Worker)
  | polling (topWorkers : List Worker) (workflows : List Workflow) (workerIndex : ℕ)
      (handles : List TaskId)

def PollRound.handles : PollRound → List TaskId
  | idle | inspecting _ => []
  | polling _ _ _ handles => handles

structure App where
  state : State := {}
  tasks : TaskId → Status := fun _ => .unspawned
  pushed : List Task := []
  probe : Option ProbeRound := none
  poll : PollRound := .idle

structure Config where
  maxHistory : ℕ
  useTopWorkers : Option ℕ

/-! ## Tasks -/

namespace App

def nextTaskId (app : App) : TaskId × App :=
  (app.state.nextTaskId,
    { app with state := { app.state with nextTaskId := app.state.nextTaskId + 1 } })

def spawn (app : App) (job : Job) (now : Instant) : TaskId × App :=
  let (id, app) := app.nextTaskId
  (id, { app with
    state := { app.state with
      runningTasks := Function.update app.state.runningTasks id
        (some { id, job, startTime := now }) }
    tasks := Function.update app.tasks id .running })

def reportTaskResult (app : App) (cfg : Config) (id : TaskId) (result : TaskResult)
    (now : Instant) : App :=
  match app.state.runningTasks id with
  | none => app
  | some task =>
    let task := { task with
      endTime := some now
      duration := some (now - task.startTime)
      result := some (match result with
        | .failed error => .error error
        | _ => .ok ()) }
    let history := app.state.history ++ [task]
    { app with
      state := { app.state with
        runningTasks := Function.update app.state.runningTasks id none
        history := if history.length > cfg.maxHistory then history.tail else history }
      pushed := app.pushed ++ [task] }

def finish (app : App) (cfg : Config) (id : TaskId) (result : TaskResult) (now : Instant) : App :=
  let app := app.reportTaskResult cfg id result now
  { app with tasks := Function.update app.tasks id (.finished result) }

def drop (app : App) (handles : List TaskId) : App :=
  { app with
    tasks := fun id =>
      if id ∈ handles ∧ app.tasks id = .running then .cancelled else app.tasks id }

def spawnProbes (app : App) (now : Instant) : List String → List TaskId × App
  | [] => ([], app)
  | uri :: uris =>
    let (handle, app) := app.spawn (.probe uri) now
    let (handles, app) := app.spawnProbes now uris
    (handle :: handles, app)

def probedWorkers (app : App) (round : ProbeRound) : List Worker :=
  (round.uris.zip round.handles).filterMap fun (uri, handle) =>
    match app.tasks handle with
    | .finished (.probed pubkey time) =>
      some { pubkey, uri, probeStart := round.probeStart, probeResult := .ok time }
    | _ => none

def topWorkers (app : App) (cfg : Config) : List Worker :=
  let liveWorkers := app.state.liveWorkers.filter fun worker => worker.latency.isSome
  let sorted := liveWorkers.insertionSort fun a b =>
    a.latency.getD durationMax ≤ b.latency.getD durationMax
  sorted.take (cfg.useTopWorkers.getD liveWorkers.length)

end App

/-! ## Runs -/

inductive Event
  | probeStart (uris : List String) (now : Instant)
  | probeFinish
  | pollStart
  | inspected (workflows : Except String (List Workflow))
  | pollSpawn (now : Instant)
  | pollFinish
  | pollTimeout
  | taskFinish (id : TaskId) (result : TaskResult) (now : Instant)

def step (cfg : Config) (app : App) : Event → Option App
  | .probeStart uris now =>
    match app.probe with
    | some _ => none
    | none =>
      let (handles, app) := app.spawnProbes now uris
      some { app with probe := some { probeStart := now, uris, handles } }
  | .probeFinish =>
    match app.probe with
    | none => none
    | some round =>
      if round.handles.all fun id => (app.tasks id).done then
        some { app with
          state := { app.state with liveWorkers := app.probedWorkers round }
          probe := none }
      else none
  | .pollStart =>
    match app.poll with
    | .idle =>
      if (app.state.liveWorkers.filter fun worker => worker.latency.isSome).isEmpty then some app
      else
        -- `top_workers[0]`
        if (app.topWorkers cfg).isEmpty then none
        else some { app with poll := .inspecting (app.topWorkers cfg) }
    | _ => none
  | .inspected result =>
    match app.poll with
    | .inspecting topWorkers =>
      match result with
      | .error _ => some { app with poll := .idle }
      | .ok workflows => some { app with poll := .polling topWorkers workflows 0 [] }
    | _ => none
  | .pollSpawn now =>
    match app.poll with
    | .polling topWorkers (workflow :: workflows) workerIndex handles => do
      let worker ← topWorkers[workerIndex]?
      let (handle, app) := app.spawn (.poll worker.pubkey workflow.profile workflow.ind) now
      some { app with
        poll := .polling topWorkers workflows ((workerIndex + 1) % topWorkers.length)
          (handles ++ [handle]) }
    | _ => none
  | .pollFinish =>
    match app.poll with
    | .polling _ [] _ handles =>
      if handles.all fun id => (app.tasks id).done then some { app with poll := .idle } else none
    | _ => none
  | .pollTimeout =>
    match app.poll with
    | .idle => none
    | round => some { app.drop round.handles with poll := .idle }
  | .taskFinish id result now =>
    if app.tasks id = .running then some (app.finish cfg id result now) else none

def Step (cfg : Config) (app app' : App) : Prop := ∃ event, step cfg app event = some app'

def CalmStep (cfg : Config) (app app' : App) : Prop :=
  ∃ event, step cfg app event = some app' ∧
    (event = .pollTimeout → ∀ id ∈ app.poll.handles, app.tasks id ≠ .running)

theorem step_keeps {cfg : Config} {app app' : App} {event : Event} {P : App → Prop}
    (rounds : ∀ (app : App) liveWorkers probe poll, P app → P { app with
      state := { app.state with liveWorkers }
      probe := probe
      poll := poll })
    (spawn : ∀ (app : App) job now, P app → P (app.spawn job now).2)
    (finish : ∀ id result now, app.tasks id = .running → P app →
      P (app.finish cfg id result now))
    (drop : event = .pollTimeout → P app → P (app.drop app.poll.handles))
    (run : step cfg app event = some app') (h : P app) : P app' := by
  have spawnProbes : ∀ uris (app : App) now, P app → P (app.spawnProbes now uris).2 := by
    intro uris
    induction uris with
    | nil => exact fun _ _ h => h
    | cons uri uris ih => exact fun app now h => ih _ now (spawn app _ now h)
  cases event with
  | probeStart uris now =>
    simp only [step] at run
    split at run
    · cases run
    · cases run
      exact rounds _ _ _ _ (spawnProbes uris app now h)
  | probeFinish =>
    simp only [step] at run
    split at run
    · cases run
    · split_ifs at run
      cases run
      exact rounds _ _ _ _ h
  | pollStart =>
    simp only [step] at run
    split at run
    · split_ifs at run
      · cases run
        exact h
      · cases run
        exact rounds _ app.state.liveWorkers app.probe _ h
    · cases run
  | inspected result =>
    simp only [step] at run
    split at run
    · split at run
      · cases run
        exact rounds _ app.state.liveWorkers app.probe _ h
      · cases run
        exact rounds _ app.state.liveWorkers app.probe _ h
    · cases run
  | pollSpawn now =>
    simp only [step] at run
    split at run
    · obtain ⟨worker, -, run⟩ := Option.bind_eq_some_iff.1 run
      cases run
      exact rounds _ app.state.liveWorkers app.probe _ (spawn app _ now h)
    · cases run
  | pollFinish =>
    simp only [step] at run
    split at run
    · split_ifs at run
      cases run
      exact rounds _ app.state.liveWorkers app.probe _ h
    · cases run
  | pollTimeout =>
    simp only [step] at run
    split at run
    · cases run
    · cases run
      exact rounds _ app.state.liveWorkers app.probe _ (drop rfl h)
  | taskFinish id result now =>
    simp only [step] at run
    split_ifs at run with hrunning
    cases run
    exact finish id result now hrunning h

/-! ## The table -/

structure Tracked (cfg : Config) (app : App) : Prop where
  spawned_iff : ∀ id, app.tasks id ≠ .unspawned ↔ id < app.state.nextTaskId
  running_iff : ∀ id, (app.state.runningTasks id).isSome ↔
    app.tasks id = .running ∨ app.tasks id = .cancelled
  id_eq : ∀ id task, app.state.runningTasks id = some task → task.id = id
  pushed_nodup : (app.pushed.map Task.id).Nodup
  pushed_iff : ∀ id, id ∈ app.pushed.map Task.id ↔ ∃ result, app.tasks id = .finished result
  history_suffix : app.state.history <:+ app.pushed
  history_le : app.state.history.length ≤ cfg.maxHistory

namespace Tracked

variable {cfg : Config} {app app' : App}

theorem empty : Tracked cfg {} where
  spawned_iff id := by simp
  running_iff id := by simp
  id_eq _ _ h := nomatch h
  pushed_nodup := List.nodup_nil
  pushed_iff id := by simp
  history_suffix := List.suffix_rfl
  history_le := Nat.zero_le _

theorem spawn (h : Tracked cfg app) (job : Job) (now : Instant) :
    Tracked cfg (app.spawn job now).2 := by
  have hnew : app.tasks app.state.nextTaskId = .unspawned := by
    by_contra hne
    exact Nat.lt_irrefl _ ((h.spawned_iff _).1 hne)
  constructor
  case spawned_iff =>
    intro id
    show Function.update app.tasks app.state.nextTaskId .running id ≠ .unspawned ↔
      id < app.state.nextTaskId + 1
    by_cases hid : id = app.state.nextTaskId
    · subst hid
      simp
    · rw [Function.update_of_ne hid, h.spawned_iff, Nat.lt_succ_iff_lt_or_eq, or_iff_left hid]
  case running_iff =>
    intro id
    show (Function.update app.state.runningTasks app.state.nextTaskId _ id).isSome ↔
      Function.update app.tasks app.state.nextTaskId .running id = .running ∨
        Function.update app.tasks app.state.nextTaskId .running id = .cancelled
    by_cases hid : id = app.state.nextTaskId
    · subst hid
      simp
    · rw [Function.update_of_ne hid, Function.update_of_ne hid]
      exact h.running_iff id
  case id_eq =>
    intro id task hsome
    have hsome : Function.update app.state.runningTasks app.state.nextTaskId _ id = some task :=
      hsome
    by_cases hid : id = app.state.nextTaskId
    · subst hid
      rw [Function.update_self] at hsome
      cases hsome
      rfl
    · rw [Function.update_of_ne hid] at hsome
      exact h.id_eq id task hsome
  case pushed_nodup => exact h.pushed_nodup
  case pushed_iff =>
    intro id
    show id ∈ app.pushed.map Task.id ↔
      ∃ result, Function.update app.tasks app.state.nextTaskId .running id = .finished result
    rw [h.pushed_iff]
    by_cases hid : id = app.state.nextTaskId
    · subst hid
      simp [hnew]
    · rw [Function.update_of_ne hid]
  case history_suffix => exact h.history_suffix
  case history_le => exact h.history_le

theorem history_push {history pushed : List Task} {max : ℕ} (suffix : history <:+ pushed)
    (le : history.length ≤ max) (task : Task) :
    (if (history ++ [task]).length > max then (history ++ [task]).tail else history ++ [task]) <:+
        pushed ++ [task] ∧
      (if (history ++ [task]).length > max then (history ++ [task]).tail
        else history ++ [task]).length ≤ max := by
  obtain ⟨before, rfl⟩ := suffix
  have happend : history ++ [task] <:+ before ++ history ++ [task] :=
    ⟨before, (List.append_assoc ..).symm⟩
  split_ifs with hlt
  · refine ⟨(List.tail_suffix _).trans happend, ?_⟩
    rw [List.length_tail, List.length_append, List.length_singleton]
    omega
  · exact ⟨happend, Nat.le_of_not_lt hlt⟩

theorem finish (h : Tracked cfg app) {id : TaskId} (result : TaskResult) (now : Instant)
    (running : app.tasks id = .running) : Tracked cfg (app.finish cfg id result now) := by
  obtain ⟨task, htask⟩ := Option.isSome_iff_exists.1 ((h.running_iff id).2 (.inl running))
  have hid := h.id_eq id task htask
  have hnot : id ∉ app.pushed.map Task.id := by
    rw [h.pushed_iff, running]
    exact fun ⟨_, hfinished⟩ => nomatch hfinished
  unfold App.finish App.reportTaskResult
  rw [htask]
  obtain ⟨suffix, le⟩ := history_push h.history_suffix h.history_le _
  constructor
  case spawned_iff =>
    intro x
    show Function.update app.tasks id (.finished result) x ≠ .unspawned ↔
      x < app.state.nextTaskId
    rw [← h.spawned_iff]
    by_cases hx : x = id
    · subst hx
      simp [running]
    · rw [Function.update_of_ne hx]
  case running_iff =>
    intro x
    show (Function.update app.state.runningTasks id none x).isSome ↔
      Function.update app.tasks id (.finished result) x = .running ∨
        Function.update app.tasks id (.finished result) x = .cancelled
    by_cases hx : x = id
    · subst hx
      simp
    · rw [Function.update_of_ne hx, Function.update_of_ne hx]
      exact h.running_iff x
  case id_eq =>
    intro x task' hsome
    have hsome : Function.update app.state.runningTasks id none x = some task' := hsome
    by_cases hx : x = id
    · subst hx
      rw [Function.update_self] at hsome
      cases hsome
    · rw [Function.update_of_ne hx] at hsome
      exact h.id_eq x task' hsome
  case pushed_nodup =>
    rw [List.map_append, List.map_singleton, hid]
    exact h.pushed_nodup.append (List.nodup_singleton id) (by simpa using hnot)
  case pushed_iff =>
    intro x
    show x ∈ (app.pushed ++ [_]).map Task.id ↔
      ∃ r, Function.update app.tasks id (.finished result) x = .finished r
    rw [List.map_append, List.mem_append, List.map_singleton, List.mem_singleton, hid]
    by_cases hx : x = id
    · subst hx
      simp
    · rw [Function.update_of_ne hx, or_iff_left hx]
      exact h.pushed_iff x
  case history_suffix => exact suffix
  case history_le => exact le

theorem drop (h : Tracked cfg app) (handles : List TaskId) : Tracked cfg (app.drop handles) := by
  have hcases : ∀ id, (app.drop handles).tasks id = app.tasks id ∨
      app.tasks id = .running ∧ (app.drop handles).tasks id = .cancelled := by
    intro id
    by_cases hid : id ∈ handles ∧ app.tasks id = .running
    · exact .inr ⟨hid.2, if_pos hid⟩
    · exact .inl (if_neg hid)
  constructor
  case spawned_iff =>
    intro id
    rw [show (app.drop handles).state = app.state from rfl, ← h.spawned_iff]
    rcases hcases id with hsame | ⟨hrunning, hcancelled⟩
    · rw [hsame]
    · simp [hrunning, hcancelled]
  case running_iff =>
    intro id
    rw [show (app.drop handles).state = app.state from rfl, h.running_iff]
    rcases hcases id with hsame | ⟨hrunning, hcancelled⟩
    · rw [hsame]
    · simp [hrunning, hcancelled]
  case id_eq => exact h.id_eq
  case pushed_nodup => exact h.pushed_nodup
  case pushed_iff =>
    intro id
    rw [show (app.drop handles).pushed = app.pushed from rfl, h.pushed_iff]
    rcases hcases id with hsame | ⟨hrunning, hcancelled⟩
    · rw [hsame]
    · simp [hrunning, hcancelled]
  case history_suffix => exact h.history_suffix
  case history_le => exact h.history_le

theorem step {event : Event} (h : Tracked cfg app) (run : step cfg app event = some app') :
    Tracked cfg app' := by
  refine step_keeps ?_ ?_ ?_ ?_ run h
  · exact fun app _ _ _ h => ⟨h.spawned_iff, h.running_iff, h.id_eq, h.pushed_nodup, h.pushed_iff,
      h.history_suffix, h.history_le⟩
  · exact fun app job now h => h.spawn job now
  · exact fun id result now running h => h.finish result now running
  · exact fun _ h => h.drop _

end Tracked

theorem tracked_of_reach {cfg : Config} {app : App}
    (reached : Reach (fun app => app = {}) (Step cfg) app) : Tracked cfg app := by
  induction reached with
  | init h =>
    rw [h]
    exact Tracked.empty
  | step _ step ih =>
    obtain ⟨event, run⟩ := step
    exact ih.step run

/-! ## Runs without cancelled tasks -/

theorem App.finish_tasks (app : App) (cfg : Config) (id : TaskId) (result : TaskResult)
    (now : Instant) :
    (app.finish cfg id result now).tasks = Function.update app.tasks id (.finished result) := by
  unfold App.finish App.reportTaskResult
  split <;> rfl

def NoneCancelled (app : App) : Prop := ∀ id, app.tasks id ≠ .cancelled

theorem NoneCancelled.calmStep {cfg : Config} {app app' : App} (h : NoneCancelled app)
    (step : CalmStep cfg app app') : NoneCancelled app' := by
  obtain ⟨event, run, calm⟩ := step
  refine step_keeps ?_ ?_ ?_ ?_ run h
  · exact fun _ _ _ _ h => h
  · intro app job now h id
    show Function.update app.tasks app.state.nextTaskId .running id ≠ .cancelled
    by_cases hid : id = app.state.nextTaskId
    · subst hid
      simp
    · rw [Function.update_of_ne hid]
      exact h id
  · intro id result now running h x
    rw [App.finish_tasks]
    by_cases hx : x = id
    · subst hx
      simp
    · rw [Function.update_of_ne hx]
      exact h x
  · intro timeout h id
    have hrunning := calm timeout id
    show (if id ∈ app.poll.handles ∧ app.tasks id = .running then .cancelled else app.tasks id) ≠
      Status.cancelled
    rw [if_neg (fun hid => hrunning hid.1 hid.2)]
    exact h id

theorem noneCancelled_of_reach {cfg : Config} {app : App}
    (reached : Reach (fun app => app = {}) (CalmStep cfg) app) : NoneCancelled app := by
  induction reached with
  | init h =>
    rw [h]
    exact fun _ => nofun
  | step _ step ih => exact ih.calmStep step

theorem reach_of_calm {cfg : Config} {app : App}
    (reached : Reach (fun app => app = {}) (CalmStep cfg) app) :
    Reach (fun app => app = {}) (Step cfg) app := by
  induction reached with
  | init h => exact .init h
  | step _ step ih => exact .step ih ⟨step.choose, step.choose_spec.1⟩

theorem task_table_exact (cfg : Config) (app : App)
    (reached : Reach (fun app => app = {}) (CalmStep cfg) app) :
    (∀ id, (app.state.runningTasks id).isSome ↔ app.tasks id ≠ .unspawned ∧
      (∀ result, app.tasks id ≠ .finished result) ∧ app.tasks id ≠ .cancelled) ∧
    (∀ id result, app.tasks id = .finished result → (app.pushed.map Task.id).count id = 1) ∧
    app.state.history <:+ app.pushed ∧ app.state.history.length ≤ cfg.maxHistory := by
  have tracked := tracked_of_reach (reach_of_calm reached)
  have none_cancelled := noneCancelled_of_reach reached
  refine ⟨fun id => ?_, fun id result hfinished => ?_, tracked.history_suffix, tracked.history_le⟩
  · rw [tracked.running_iff]
    have hnot := none_cancelled id
    cases htask : app.tasks id with
    | cancelled => exact absurd htask hnot
    | unspawned => simp
    | running => simp
    | finished result => simp
  · exact List.count_eq_one_of_mem tracked.pushed_nodup ((tracked.pushed_iff id).2 ⟨_, hfinished⟩)

def run (cfg : Config) (events : List Event) : Option App := events.foldlM (step cfg) {}

def untilPoll : List Event :=
  [.probeStart ["http://a"] 0, .taskFinish 0 (.probed 7 3) 3, .probeFinish, .pollStart,
    .inspected (.ok [⟨1, 2, 0⟩]), .pollSpawn 4]

theorem reach_of_run {cfg : Config} {R : App → App → Prop} {events : List Event} {app app' : App}
    (steps : ∀ event ∈ events, ∀ a a', step cfg a event = some a' → R a a')
    (reached : Reach (fun app => app = {}) R app)
    (ran : events.foldlM (step cfg) app = some app') : Reach (fun app => app = {}) R app' := by
  induction events generalizing app with
  | nil =>
    cases ran
    exact reached
  | cons event events ih =>
    obtain ⟨next, hnext, ran⟩ := Option.bind_eq_some_iff.1 ran
    rw [List.forall_mem_cons] at steps
    exact ih steps.2 (.step reached (steps.1 _ _ hnext)) ran

theorem task_table_exact_poll :
    ∃ app, run ⟨200, none⟩ untilPoll = some app ∧ app.state.history.map Task.id = [0] ∧
      app.tasks 1 = .running ∧
      (∀ id, (app.state.runningTasks id).isSome ↔ app.tasks id ≠ .unspawned ∧
        (∀ result, app.tasks id ≠ .finished result) ∧ app.tasks id ≠ .cancelled) ∧
      (app.pushed.map Task.id).count 0 = 1 ∧ app.state.history.length ≤ 200 := by
  obtain ⟨app, ran⟩ : ∃ app, run ⟨200, none⟩ untilPoll = some app := ⟨_, rfl⟩
  have reached : Reach (fun app => app = {}) (CalmStep ⟨200, none⟩) app := by
    refine reach_of_run ?_ (.init rfl) ran
    intro event hevent a a' hstep
    refine ⟨event, hstep, fun htimeout => ?_⟩
    subst htimeout
    simp [untilPoll] at hevent
  obtain ⟨exact_table, once, -, bounded⟩ := task_table_exact _ app reached
  obtain rfl := Option.some.inj ran
  exact ⟨_, rfl, rfl, rfl, exact_table, once 0 _ rfl, bounded⟩

theorem cancelled_task_stays :
    ∃ app, Reach (fun app => app = {}) (Step ⟨200, none⟩) app ∧
      app.tasks 1 = .cancelled ∧ (app.state.runningTasks 1).isSome = true := by
  obtain ⟨app, ran⟩ : ∃ app, run ⟨200, none⟩ (untilPoll ++ [.pollTimeout]) = some app := ⟨_, rfl⟩
  refine ⟨app, reach_of_run (fun event _ _ _ hstep => ⟨event, hstep⟩) (.init rfl) ran, ?_⟩
  obtain rfl := Option.some.inj ran
  exact ⟨rfl, rfl⟩

end Cyrux.Poller
