import Cyrux.Sidevm.Service

/-!
# One instance at a time
-/

namespace Cyrux.SidevmService

open Proc

variable {Hash : Type}

def Contract.Exited (s : Contract Hash) (n : ℕ) : Prop :=
  ∃ i, s.instances[n]? = some i ∧ i.isExited = true

def Contract.Placed (s : Contract Hash) (n : ℕ) : Phase → Prop
  | .starting (some prev) => n = prev + 1
  | .waiting prev => n = prev + 1
  | _ => ∀ j, j < n → s.Exited j

def Contract.Current (s : Contract Hash) : HandleRef → Prop
  | .fixed _ => ∀ j, j < s.instances.length → s.Exited j
  | .of n => n + 1 = s.instances.length

def Instance.Flagged (i : Instance) : Prop :=
  i.stopped = true ∨ i.handle.isSome = true → i.isExited = true

structure Sound (s : Contract Hash) : Prop where
  placed : ∀ n i, s.instances[n]? = some i → s.Placed n i.phase
  flagged : ∀ i ∈ s.instances, i.Flagged
  current : ∀ info, s.sidevmInfo = some info → s.Current info.handle
  unstarted : s.sidevmInfo = none → s.instances = []

section Sound

variable {s s' : Contract Hash} {n : ℕ} {i : Instance}

theorem Contract.Placed.mono {phase : Phase} (h : s.Placed n phase)
    (exited : ∀ j, s.Exited j → s'.Exited j) : s'.Placed n phase := by
  unfold Contract.Placed at *
  split
  · exact h
  · exact h
  · rename_i h₁ h₂
    split at h
    · exact absurd rfl (h₁ _)
    · exact absurd rfl (h₂ _)
    · exact fun j hj => exited j (h j hj)

theorem placed_exited (hi : i.isExited = true) (h : s.Placed n i.phase) :
    ∀ j, j < n → s.Exited j := by
  unfold Instance.isExited at hi
  split at hi
  · rename_i hphase
    rw [hphase] at h
    exact h
  · cases hi

theorem Sound.exited_lt (h : Sound s) (hn : s.Exited n) : ∀ j, j ≤ n → s.Exited j := by
  intro j hj
  obtain ⟨i, hget, hi⟩ := hn
  obtain rfl | hlt := Nat.eq_or_lt_of_le hj
  · exact ⟨i, hget, hi⟩
  · exact placed_exited hi (h.placed n i hget) j hlt

theorem Sound.exited_of_stopped (h : Sound s) (hn : s.isStopped n = true) : s.Exited n := by
  unfold Contract.isStopped at hn
  split at hn
  · rename_i i hget
    exact ⟨i, hget, h.flagged i (List.mem_of_getElem? hget) (.inl hn)⟩
  · cases hn

theorem exited_modify {f : Instance → Instance}
    (exited : ∀ i, i.isExited = true → (f i).isExited = true) (n j : ℕ) (hj : s.Exited j) :
    (s.modify n f).Exited j := by
  obtain ⟨i, hget, hi⟩ := hj
  unfold Contract.Exited Contract.modify
  rw [List.getElem?_modify, hget]
  split
  · exact ⟨f i, rfl, exited i hi⟩
  · exact ⟨i, rfl, hi⟩

theorem length_modify (s : Contract Hash) (n : ℕ) (f : Instance → Instance) :
    (s.modify n f).instances.length = s.instances.length := List.length_modify ..

theorem Sound.modify (h : Sound s) (n : ℕ) (f : Instance → Instance)
    (exited : ∀ i, i.isExited = true → (f i).isExited = true)
    (placed : ∀ i, s.instances[n]? = some i → s.Placed n i.phase → s.Placed n (f i).phase)
    (flagged : ∀ i, i.Flagged → (f i).Flagged) : Sound (s.modify n f) := by
  have hexited := exited_modify (s := s) exited n
  refine ⟨fun k i' hget' => ?_, fun i' hi' => ?_, fun info hinfo => ?_, fun hinfo => ?_⟩
  · unfold Contract.modify at hget'
    rw [List.getElem?_modify, Option.map_eq_map, Option.map_eq_some_iff] at hget'
    obtain ⟨i, hget, rfl⟩ := hget'
    have hplaced := h.placed k i hget
    split
    · rename_i hk
      subst hk
      exact (placed i hget hplaced).mono hexited
    · exact hplaced.mono hexited
  · obtain ⟨k, hk⟩ := List.mem_iff_getElem?.1 hi'
    unfold Contract.modify at hk
    rw [List.getElem?_modify, Option.map_eq_map, Option.map_eq_some_iff] at hk
    obtain ⟨i, hget, rfl⟩ := hk
    have hflagged := h.flagged i (List.mem_of_getElem? hget)
    split
    · exact flagged i hflagged
    · exact hflagged
  · have hcurrent := h.current info hinfo
    unfold Contract.Current at *
    rw [length_modify]
    split at hcurrent
    · exact fun j hj => hexited j (hcurrent j hj)
    · exact hcurrent
  · rw [← List.length_eq_zero_iff, length_modify, h.unstarted hinfo]
    rfl

theorem Sound.move (h : Sound s) (n : ℕ) {f : Instance → Instance}
    (flags : ∀ i, (f i).stopped = i.stopped ∧ (f i).handle = i.handle)
    (exited : ∀ i, i.isExited = true → (f i).isExited = true)
    (placed : ∀ i, s.instances[n]? = some i → s.Placed n i.phase → s.Placed n (f i).phase) :
    Sound (s.modify n f) := by
  refine h.modify n f exited placed fun i hi hflags => ?_
  rw [(flags i).1, (flags i).2] at hflags
  exact exited i (hi hflags)

/-! ### The moves -/

theorem exited_trySend (command : Command) (i : Instance) (hi : i.isExited = true) :
    (i.trySend command).isExited = true := by
  unfold Instance.trySend
  rw [if_neg (by rw [hi]; exact fun hand => Bool.noConfusion hand.1)]
  exact hi

theorem Sound.trySend (h : Sound s) (n : ℕ) (command : Command) :
    Sound (s.modify n fun i => i.trySend command) := by
  have hsame (i : Instance) : (i.trySend command).phase = i.phase ∧
      (i.trySend command).stopped = i.stopped ∧ (i.trySend command).handle = i.handle := by
    unfold Instance.trySend
    split
    · exact ⟨rfl, rfl, rfl⟩
    · exact ⟨rfl, rfl, rfl⟩
  refine h.move n (fun i => (hsame i).2) (exited_trySend command) fun i _ hplaced => ?_
  rwa [(hsame i).1]

theorem Sound.check (h : Sound s) (n : ℕ) : Sound (s.modify n (·.check s.isStopped)) := by
  apply h.move n
  · rintro ⟨phase, _, _, _, _⟩
    obtain (_ | _) | _ | _ | _ | _ := phase <;> exact ⟨rfl, rfl⟩
  · rintro ⟨phase, _, _, _, _⟩ hi
    obtain _ | _ | _ | _ | _ := phase <;> first | exact hi | cases hi
  · rintro ⟨phase, _, _, _, _⟩ _ hplaced
    obtain (_ | prev) | _ | _ | _ | _ := phase
    · exact hplaced
    · change s.Placed n (if s.isStopped prev then .loading else .waiting prev)
      split
      · rename_i hstopped
        intro j hj
        change n = prev + 1 at hplaced
        exact h.exited_lt (h.exited_of_stopped hstopped) j (by omega)
      · exact hplaced
    · exact hplaced
    · exact hplaced
    · exact hplaced
    · exact hplaced

theorem Sound.changed (h : Sound s) (n : ℕ) : Sound (s.modify n (·.changed s.isStopped)) := by
  apply h.move n
  · intro i
    unfold Instance.changed
    split
    · split
      · exact ⟨rfl, rfl⟩
      · exact ⟨rfl, rfl⟩
    · exact ⟨rfl, rfl⟩
  · rintro ⟨phase, _, _, _, _⟩ hi
    obtain _ | _ | _ | _ | _ := phase <;> first | exact hi | cases hi
  · intro i _ hplaced
    unfold Instance.changed
    split
    · rename_i prev hphase
      rw [hphase] at hplaced
      split
      · rename_i hstopped
        intro j hj
        change n = prev + 1 at hplaced
        exact h.exited_lt (h.exited_of_stopped hstopped) j (by omega)
      · rw [hphase]
        exact hplaced
    · exact hplaced

theorem Sound.receive (h : Sound s) (n : ℕ)
    (alone : ∀ i prev, s.instances[n]? = some i → i.phase = .waiting prev →
      ∀ j, j < n → s.Exited j) : Sound (s.modify n Instance.receive) := by
  apply h.move n
  · intro i
    unfold Instance.receive
    split
    · exact ⟨rfl, rfl⟩
    · rename_i command commands _
      split
      · cases command <;> exact ⟨rfl, rfl⟩
      · cases command <;> exact ⟨rfl, rfl⟩
      · exact ⟨rfl, rfl⟩
  · rintro ⟨phase, commands, _, _, _⟩ hi
    cases phase with
    | exited reason => cases commands <;> exact hi
    | _ => cases hi
  · intro i hget hplaced
    unfold Instance.receive
    split
    · exact hplaced
    · rename_i command commands _
      split
      · rename_i prev hphase
        have hclear := alone i prev hget hphase
        cases command <;> exact hclear
      · rename_i hphase
        rw [hphase] at hplaced
        cases command <;> first
          | exact hplaced
          | (change s.Placed n i.phase; rw [hphase]; exact hplaced)
      · exact hplaced

theorem Sound.load (h : Sound s) (n : ℕ) (ok : Bool) : Sound (s.modify n (·.load ok)) := by
  apply h.move n
  · intro i
    unfold Instance.load
    split
    · exact ⟨rfl, rfl⟩
    · exact ⟨rfl, rfl⟩
  · rintro ⟨phase, _, _, _, _⟩ hi
    obtain _ | _ | _ | _ | _ := phase <;> first | exact hi | cases hi
  · intro i _ hplaced
    unfold Instance.load
    split
    · rename_i hphase
      rw [hphase] at hplaced
      cases ok <;> exact hplaced
    · exact hplaced

theorem Sound.finish (h : Sound s) (n : ℕ) (ending : Ending) :
    Sound (s.modify n (·.finish ending)) := by
  apply h.move n
  · intro i
    unfold Instance.finish
    split
    · exact ⟨rfl, rfl⟩
    · exact ⟨rfl, rfl⟩
  · rintro ⟨phase, _, _, _, _⟩ hi
    obtain _ | _ | _ | _ | _ := phase <;> first | exact hi | cases hi
  · intro i _ hplaced
    unfold Instance.finish
    split
    · rename_i hphase
      rw [hphase] at hplaced
      exact hplaced
    · exact hplaced

theorem Sound.report (h : Sound s) (n : ℕ) : Sound (s.modify n Instance.report) := by
  have hphase (i : Instance) : i.report.phase = i.phase := by
    unfold Instance.report
    split
    · rfl
    · rfl
  have hexited (i : Instance) : i.report.isExited = i.isExited := by
    unfold Instance.isExited
    rw [hphase]
  refine h.modify n _ (fun i hi => (hexited i).trans hi) (fun i _ hplaced => ?_)
    fun i hi hflags => ?_
  · rwa [hphase]
  · rw [hexited]
    unfold Instance.report at hflags
    split at hflags
    · rename_i reason hreason
      unfold Instance.isExited
      rw [hreason]
    · exact hi hflags

theorem Sound.signal (h : Sound s) (n : ℕ) : Sound (s.modify n Instance.signal) := by
  have hphase (i : Instance) : i.signal.phase = i.phase := by
    unfold Instance.signal
    split
    · rfl
    · rfl
  have hexited (i : Instance) : i.signal.isExited = i.isExited := by
    unfold Instance.isExited
    rw [hphase]
  refine h.modify n _ (fun i hi => (hexited i).trans hi) (fun i _ hplaced => ?_)
    fun i hi hflags => ?_
  · rwa [hphase]
  · rw [hexited]
    unfold Instance.signal at hflags
    split at hflags
    · rename_i hhandle
      exact hi (.inr hhandle)
    · exact hi hflags

/-! ### The contract -/

def Contract.Ready (s : Contract Hash) : Option ℕ → Prop
  | none => ∀ j, j < s.instances.length → s.Exited j
  | some prev => prev + 1 = s.instances.length

theorem Sound.start (h : Sound s) {prev : Option ℕ} (ready : s.Ready prev) (weight : ℕ)
    {info : SidevmInfo Hash} (hinfo : info.handle = .of s.instances.length) :
    Sound { s with
      sidevmInfo := some info
      instances := s.instances ++ [{ phase := .starting prev, weight := weight }] } := by
  have hold (j : ℕ) (hj : j < s.instances.length) :
      (s.instances ++ [({ phase := .starting prev, weight := weight } : Instance)])[j]? =
        s.instances[j]? := List.getElem?_append_left hj
  have hexited : ∀ j, s.Exited j → Contract.Exited { s with
      instances := s.instances ++ [{ phase := .starting prev, weight := weight }] } j := by
    rintro j ⟨i, hget, hi⟩
    refine ⟨i, ?_, hi⟩
    rw [hold j (List.getElem?_eq_some_iff.1 hget).1, hget]
  refine ⟨fun n i hget => ?_, fun i hi => ?_, ?_, nofun⟩
  · obtain hlt | heq | hgt := Nat.lt_trichotomy n s.instances.length
    · rw [hold n hlt] at hget
      exact (h.placed n i hget).mono hexited
    · subst heq
      rw [List.getElem?_concat_length] at hget
      cases hget
      cases prev with
      | none => exact fun j hj => hexited j (ready j hj)
      | some prev => exact Eq.symm ready
    · rw [List.getElem?_eq_none] at hget
      · cases hget
      · rw [List.length_append, List.length_singleton]
        exact hgt
  · obtain hi | hi := List.mem_append.1 hi
    · exact h.flagged i hi
    · rw [List.mem_singleton.1 hi]
      rintro (hf | hf) <;> cases hf
  · rintro _ ⟨⟩
    rw [hinfo]
    change s.instances.length + 1 = (s.instances ++ [_]).length
    rw [List.length_append, List.length_singleton]

theorem Sound.setFixed (h : Sound s) (gone : ∀ j, j < s.instances.length → s.Exited j)
    {info : SidevmInfo Hash} {reason : ExitReason} (hinfo : info.handle = .fixed reason) :
    Sound { s with sidevmInfo := some info } := by
  refine ⟨h.placed, h.flagged, ?_, nofun⟩
  rintro _ ⟨⟩
  rw [hinfo]
  exact gone

theorem ready_of_sidevmHandle (h : Sound s) :
    match s.sidevmHandle with
    | some (.running n) => s.Ready (some n)
    | _ => s.Ready none := by
  unfold Contract.sidevmHandle
  cases hinfo : s.sidevmInfo with
  | none =>
    intro j hj
    rw [h.unstarted hinfo] at hj
    exact absurd hj (Nat.not_lt_zero j)
  | some info =>
    have hcurrent := h.current info hinfo
    cases hhandle : info.handle with
    | fixed reason =>
      rw [hhandle] at hcurrent
      rw [Option.map_some, hhandle]
      exact hcurrent
    | of n =>
      rw [hhandle] at hcurrent
      rw [Option.map_some, hhandle]
      unfold Contract.view
      dsimp only
      cases hreason : s.instances[n]?.bind Instance.handle with
      | none => exact hcurrent
      | some reason =>
        obtain ⟨i, hget, hi⟩ := Option.bind_eq_some_iff.1 hreason
        have hflagged := h.flagged i (List.mem_of_getElem? hget)
        have hexited : s.Exited n := ⟨i, hget, hflagged (.inr (Option.isSome_of_eq_some hi))⟩
        intro j hj
        change n + 1 = s.instances.length at hcurrent
        exact h.exited_lt hexited j (by omega)

end Sound

section Calls

variable {s : Contract Hash}

theorem runs_stopRunning (h : Sound s) :
    Runs (stopRunning s.sidevmHandle) s
      (fun prev s' => Sound s' ∧ s'.Ready prev ∧ s'.instances.length = s.instances.length ∧
        ∀ j, s.Exited j → s'.Exited j)
      fun _ _ => False := by
  have hready := ready_of_sidevmHandle h
  unfold stopRunning
  split
  · rename_i n hhandle
    rw [hhandle] at hready
    refine ⟨h.trySend n .stop, ?_, length_modify .., exited_modify (exited_trySend .stop) n⟩
    change n + 1 = (s.modify n fun i => i.trySend .stop).instances.length
    rw [length_modify]
    exact hready
  · rename_i hother
    refine ⟨h, ?_, rfl, fun _ hj => hj⟩
    split at hready
    · rename_i n hhandle
      exact absurd hhandle (hother n)
    · exact hready

def SidevmCode.bytes : SidevmCode Hash → List UInt8
  | .hash _ => []
  | .code bytes => bytes

variable [DecidableEq Hash] {blake2 : List UInt8 → Hash}

theorem runs_resolveCode (ensureWaitingCode : Bool) (code : SidevmCode Hash) :
    Runs (resolveCode blake2 ensureWaitingCode code) s (fun r s' => r.1 = code.bytes ∧ s' = s)
      fun _ s' => s' = s := by
  unfold resolveCode
  split
  · exact ⟨rfl, rfl⟩
  · apply Runs.bind
    refine (Runs.when (Q := fun _ s' => s' = s) (E := fun _ s' => s' = s) ?_ ?_).mono ?_
      fun _ _ he => he
    · intro _
      apply Runs.ensure_bind
      case fails => exact fun _ => rfl
      intro _
      apply Runs.demand_bind
      case missing => exact fun _ => rfl
      intro info _
      apply Runs.ensure
      · exact fun _ => rfl
      · exact fun _ => rfl
    · exact fun _ => rfl
    · rintro _ s' rfl
      exact ⟨rfl, rfl⟩

def Usable (code : SidevmCode Hash) (config : SidevmConfig) : Prop :=
  code.bytes ≠ [] ∧ code.bytes.length ≤ config.maxCodeSize

theorem runs_startSidevm (h : Sound s) (code : SidevmCode Hash) (ensureWaitingCode : Bool)
    (config : SidevmConfig)
    (gone : ¬ Usable code config → ∀ j, j < s.instances.length → s.Exited j) :
    Runs (startSidevm blake2 code ensureWaitingCode config) s (fun _ s' => Sound s')
      fun _ s' => Sound s' := by
  apply Runs.get_bind
  apply Runs.bind
  refine (runs_stopRunning h).mono ?_ fun _ _ he => he.elim
  rintro prev s₁ ⟨h₁, ready, hlength, hexited⟩
  apply Runs.bind
  refine (runs_resolveCode ensureWaitingCode code).mono ?_ ?_
  · rintro ⟨bytes, codeHash⟩ s₂ ⟨rfl, rfl⟩
    have gone' (hn : ¬ Usable code config) : ∀ j, j < s₂.instances.length → s₂.Exited j :=
      fun j hj => hexited j (gone hn j (hlength ▸ hj))
    apply Runs.bind
    unfold launch
    split
    · rename_i hempty
      refine h₁.setFixed (gone' fun usable => ?_) rfl
      exact usable.1 (List.isEmpty_iff.1 hempty)
    · split
      · rename_i hlarge
        refine h₁.setFixed (gone' fun usable => ?_) rfl
        exact absurd usable.2 (Nat.not_le.2 hlarge)
      · exact h₁.start ready s₂.weight rfl
  · rintro _ s₂ rfl
    exact h₁

omit [DecidableEq Hash] in
theorem runs_pushMessage (h : Sound s) (message : Command) :
    Runs (pushMessageToSidevm message) s (fun _ s' => Sound s') fun _ s' => Sound s' := by
  apply Runs.demand_bind
  case missing => exact fun _ => h
  intro info _
  split
  · exact h
  · exact h.trySend _ message

omit [DecidableEq Hash] in
theorem runs_setWeight (h : Sound s) (weight : ℕ) :
    Runs (setWeight weight) s (fun _ s' => Sound s') fun _ s' => Sound s' := by
  have h' : Sound { s with weight := weight } := ⟨h.placed, h.flagged, h.current, h.unstarted⟩
  apply Runs.alter_bind
  apply Runs.get_bind
  split
  · exact h'.trySend _ _
  · exact h'

omit [DecidableEq Hash] in
theorem runs_restartSidevmIfNeeded (h : Sound s) (currentBlock : ℕ) :
    Runs (restartSidevmIfNeeded currentBlock) s (fun _ s' => Sound s') fun _ s' => Sound s' := by
  have hready := ready_of_sidevmHandle h
  apply Runs.get_bind
  unfold Contract.sidevmHandle at hready
  cases hinfo : s.sidevmInfo with
  | none => exact h
  | some info =>
    rw [hinfo, Option.map_some] at hready
    dsimp only
    split
    · rename_i reason hview
      rw [hview] at hready
      apply Runs.when
      · intro _
        exact h.start hready s.weight rfl
      · exact fun _ => h
    · apply Runs.when
      · exact fun _ => runs_pushMessage h .stop
      · exact fun _ => h

end Calls

/-! ## Runs -/

section Runs

variable [DecidableEq Hash] {blake2 : List UInt8 → Hash} {s : Contract Hash} {op : Op Hash}

def Orderly (s : Contract Hash) : Op Hash → Prop
  | .receive n => ∀ i prev, s.instances[n]? = some i → i.phase = .waiting prev →
      ∀ j, j < n → s.Exited j
  | .startSidevm code _ config =>
    ¬ Usable code config → ∀ j, j < s.instances.length → s.Exited j
  | _ => True

def Exclusive (s : Contract Hash) : Prop :=
  ∀ n i, s.instances[n]? = some i → i.phase = .running → ∀ j, j < n → s.Exited j

theorem Sound.step (h : Sound s) (orderly : Orderly s op) : Sound ((op.call blake2).after s) := by
  apply Runs.of_after (P := Sound)
  cases op with
  | startSidevm code ensureWaitingCode config =>
    exact runs_startSidevm h code ensureWaitingCode config orderly
  | restartSidevmIfNeeded currentBlock => exact runs_restartSidevmIfNeeded h currentBlock
  | pushMessage message => exact runs_pushMessage h message
  | setWeight weight => exact runs_setWeight h weight
  | send n command => exact h.trySend n command
  | check n => exact h.check n
  | changed n => exact h.changed n
  | receive n => exact h.receive n orderly
  | load n ok => exact h.load n ok
  | finish n ending => exact h.finish n ending
  | report n => exact h.report n
  | signal n => exact h.signal n

theorem Sound.run (h : Sound s) {ops : List (Op Hash)}
    (orderly : Throughout (Op.call blake2) Orderly s ops) :
    Sound (afterCalls (Op.call blake2) s ops) := by
  induction ops generalizing s with
  | nil => exact h
  | cons op ops ih => exact ih (h.step orderly.1) orderly.2

omit [DecidableEq Hash] in
theorem Sound.exclusive (h : Sound s) : Exclusive s := by
  intro n i hget hrunning
  have hplaced := h.placed n i hget
  rw [hrunning] at hplaced
  exact hplaced

def Contract.Fresh (s : Contract Hash) : Prop :=
  s.instances = [] ∧ ∀ info, s.sidevmInfo = some info → ∃ reason, info.handle = .fixed reason

omit [DecidableEq Hash] in
theorem sound_of_fresh (h : s.Fresh) : Sound s := by
  obtain ⟨hinstances, hhandle⟩ := h
  refine ⟨fun n i hget => ?_, fun i hi => ?_, fun info hinfo => ?_, fun _ => hinstances⟩
  · rw [hinstances] at hget
    cases hget
  · rw [hinstances] at hi
    cases hi
  · obtain ⟨reason, hreason⟩ := hhandle info hinfo
    unfold Contract.Current
    rw [hreason, hinstances]
    exact fun j hj => absurd hj (Nat.not_lt_zero j)

/-- An instance executes guest code only when every earlier one has exited. -/
theorem one_instance_runs (blake2 : List UInt8 → Hash) (s : Contract Hash) (fresh : s.Fresh)
    (ops : List (Op Hash)) (orderly : Throughout (Op.call blake2) Orderly s ops) :
    Exclusive (afterCalls (Op.call blake2) s ops) :=
  ((sound_of_fresh fresh).run orderly).exclusive

end Runs

theorem one_instance_runs_successor :
    let config : SidevmConfig := ⟨10, 100⟩
    let ops : List (Op ℕ) :=
      [.startSidevm (.code [1]) false config, .check 0, .load 0 true,
        .startSidevm (.code [2]) false config, .check 1, .receive 0, .report 0, .signal 0,
        .changed 1, .load 1 true]
    let s : Contract ℕ := ⟨none, 1, []⟩
    (afterCalls (Op.call fun code => code.length) s ops).instances.map Instance.phase =
        [.exited .stopped, .running] ∧
      Exclusive (afterCalls (Op.call fun code => code.length) s ops) := by
  intro config ops s
  refine ⟨by decide +kernel, one_instance_runs _ s ⟨rfl, nofun⟩ ops ?_⟩
  refine ⟨fun hn => absurd ⟨nofun, by decide⟩ hn, trivial, trivial,
    fun hn => absurd ⟨nofun, by decide⟩ hn, trivial, ?_, trivial, trivial, trivial, trivial,
      trivial⟩
  exact fun _ _ _ _ j hj => absurd hj (Nat.not_lt_zero j)

theorem update_weight_ends_wait :
    let config : SidevmConfig := ⟨10, 100⟩
    let ops : List (Op ℕ) :=
      [.startSidevm (.code [1]) false config, .check 0, .load 0 true,
        .startSidevm (.code [2]) false config, .check 1, .setWeight 5, .receive 1, .load 1 true]
    let s := afterCalls (Op.call fun code => code.length) (⟨none, 1, []⟩ : Contract ℕ) ops
    s.instances.map Instance.phase = [.running, .running] := by
  decide +kernel

end Cyrux.SidevmService
