import Cyrux.Gatekeeper.Economics

/-!
# The gatekeeper and the workers agree on heartbeats
-/

namespace Cyrux.Economics

open Proc
open Mq (MessageOrigin)

/-! ## An entry and its worker -/

def Tracked (worker : WorkerState) (reports : List WorkingReportEvent) :
    Option WorkerInfo → Prop
  | none => worker.registered = false ∧ worker.workingState = none ∧ reports = []
  | some info => info.state.Alike worker ∧
      info.waitingHeartbeats = reports.map WorkingReportEvent.challengeBlock

def SameWait : Option WorkerInfo → Option WorkerInfo → Prop
  | none, none => True
  | some a, some b => b.state.Alike a.state ∧ b.waitingHeartbeats = a.waitingHeartbeats
  | _, _ => False

theorem SameWait.refl (entry : Option WorkerInfo) : SameWait entry entry := by
  cases entry with
  | none => trivial
  | some info => exact ⟨.refl _, rfl⟩

theorem SameWait.trans {a b c : Option WorkerInfo} (h : SameWait a b) (h' : SameWait b c) :
    SameWait a c := by
  cases a with
  | none =>
    cases b with
    | none => exact h'
    | some b => exact h.elim
  | some a =>
    cases b with
    | none => exact h.elim
    | some b =>
      cases c with
      | none => exact h'.elim
      | some c => exact ⟨h'.1.trans h.1, h'.2.trans h.2⟩

theorem Tracked.sameWait {worker : WorkerState} {reports : List WorkingReportEvent}
    {a b : Option WorkerInfo} (h : Tracked worker reports a) (hab : SameWait a b) :
    Tracked worker reports b := by
  cases a with
  | none =>
    cases b with
    | none => exact h
    | some b => exact hab.elim
  | some a =>
    cases b with
    | none => exact hab.elim
    | some b => exact ⟨hab.1.trans h.1, hab.2.trans h.2⟩

/-! ## Changes that leave the heartbeats alone -/

namespace ComputingEconomics

def Quiet (s s' : ComputingEconomics) : Prop :=
  ∀ pubkey, SameWait (s.workers pubkey) (s'.workers pubkey)

theorem Quiet.refl (s : ComputingEconomics) : Quiet s s := fun _ => .refl _

theorem Quiet.trans {a b c : ComputingEconomics} (h : Quiet a b) (h' : Quiet b c) : Quiet a c :=
  fun pubkey => (h pubkey).trans (h' pubkey)

theorem quiet_setWorker {s : ComputingEconomics} {pubkey : WorkerPublicKey}
    {info info' : WorkerInfo}
    (found : s.workers pubkey = some info) (h : SameWait (some info) (some info')) :
    Quiet s (s.setWorker pubkey info') := by
  intro key
  unfold setWorker
  dsimp only
  by_cases hkey : key = pubkey
  · rw [hkey, Function.update_self, found]
    exact h
  · rw [Function.update_of_ne hkey]
    exact .refl _

theorem quiet_forEachMut (s : ComputingEconomics) {f : WorkerInfo → WorkerInfo}
    (h : ∀ info, SameWait (some info) (some (f info))) : Quiet s (s.forEachMut f) := by
  intro key
  unfold forEachMut
  dsimp only
  cases s.workers key with
  | none => trivial
  | some info => exact h info

theorem quiet_valueFor (block : BlockInfo) (event : SystemEvent) (s : ComputingEconomics) :
    Quiet s (valueFor block event s) := by
  cases event with
  | heartbeatChallenge _ => exact .refl _
  | workerEvent pubkey event =>
    unfold valueFor valueEvent
    dsimp only
    split
    · exact .refl _
    · rename_i info found
      cases event with
      | registered _ => exact quiet_setWorker found ⟨.refl _, rfl⟩
      | started _ _ _ => exact quiet_setWorker found ⟨.refl _, rfl⟩
      | _ => exact .refl _

/-! ### The end of a block -/

section EndBlock

variable {s s₀ : ComputingEconomics} {block : BlockInfo} {pubkey : WorkerPublicKey}
  {info info' : WorkerInfo}

theorem runs_updateV (found : s.workers pubkey = some info)
    (h : SameWait (some info) (some info')) :
    Runs (updateV pubkey info') s (fun _ s' => Quiet s s') (fun _ _ => False) := by
  have hvalue : ∀ tokenomic, Quiet s (s.setWorker pubkey { info' with tokenomic := tokenomic }) :=
    fun _ => quiet_setWorker found ⟨h.1, h.2⟩
  unfold updateV
  apply Runs.get_bind
  split
  · exact hvalue _
  · split
    · exact quiet_setWorker found h
    · apply Runs.demand_bind
      case missing => exact info'.tokenomic.updateVIdle_ne_none s.tokenomicParams
      intro tokenomic _
      exact hvalue tokenomic

theorem runs_checkResponsive (found : s.workers pubkey = some info)
    (h : SameWait (some info) (some info')) :
    Runs (checkResponsive block pubkey info') s (fun _ s' => Quiet s s') (fun _ _ => False) := by
  unfold checkResponsive
  apply Runs.get_bind
  split
  · apply Runs.alter_bind
    exact runs_updateV (s := s.pushRecovered _) found ⟨h.1, h.2⟩
  · split
    · apply Runs.alter_bind
      exact runs_updateV (s := s.pushOffline _) found ⟨h.1, h.2⟩
    · exact runs_updateV found h

theorem runs_endBlock :
    Runs (endBlock block pubkey) s (fun _ s' => Quiet s s') (fun _ _ => False) := by
  unfold endBlock
  apply Runs.get_bind
  split
  · exact Quiet.refl s
  · rename_i info found
    have h : SameWait (some info) (some { info with
        state := (info.state.onBlockProcessed 0 block).1
        waitingHeartbeats := info.waitingHeartbeats ++
          (info.state.onBlockProcessed 0 block).2.filterMap WorkerSMTracker.due }) := by
      refine ⟨info.state.onBlockProcessed_alike 0 block, ?_⟩
      dsimp only
      rw [info.state.due_onBlockProcessed, List.append_nil]
    dsimp only
    split
    · exact quiet_setWorker found h
    · exact runs_checkResponsive found h

theorem runs_didProcessBlock :
    Runs (didProcessBlock block) s (fun _ s' => Quiet s s') (fun _ _ => False) := by
  unfold didProcessBlock
  apply Runs.get_bind
  apply Runs.bind
  have hloop := Runs.each (f := endBlock block) (l := s.keys) (I := fun _ s' => Quiet s s')
    (E := fun _ _ => False) (fun key later s' hs' => runs_endBlock.mono
      (fun _ _ h => hs'.trans h) fun _ _ h => h) (Quiet.refl s)
  exact hloop.mono (fun _ _ h => h) fun _ _ h => h

end EndBlock

/-! ## Reports -/

section Report

variable {sqrt : FixedPoint → FixedPoint} {s : ComputingEconomics} {block : BlockInfo}
  {pubkey : WorkerPublicKey} {event : WorkingReportEvent} {info : WorkerInfo}

theorem runs_acceptHeartbeat (found : s.workers pubkey = some info) :
    Runs (acceptHeartbeat sqrt block pubkey event info) s
      (fun _ s' => Quiet s s' ∧ ∃ info',
        s'.workers pubkey = some info' ∧ info'.heartbeatFlag = true)
      (fun _ _ => False) := by
  have haccepted : ∀ tokenomic : TokenomicInfo,
      Quiet s (s.setWorker pubkey { info with heartbeatFlag := true, tokenomic := tokenomic }) :=
    fun _ => quiet_setWorker found ⟨.refl _, rfl⟩
  unfold acceptHeartbeat
  apply Runs.get_bind
  apply Runs.demand_bind
  case missing => exact info.tokenomic.updatePInstant_ne_none block.nowMs_lt _ _
  intro measured _
  dsimp only
  split
  · exact ⟨haccepted _, _, Function.update_self .., rfl⟩
  · apply Runs.demand_bind
    case missing => exact TokenomicInfo.updateVHeartbeat_ne_none _ _ _ _ _ _
    intro paid _
    exact ⟨haccepted _, _, Function.update_self .., rfl⟩

def confirmed (info : WorkerInfo) : WorkerInfo :=
  { info with waitingHeartbeats := info.waitingHeartbeats.tail }

theorem runs_takeHeartbeat (front : info.waitingHeartbeats.head? = some event.challengeBlock) :
    Runs (takeHeartbeat sqrt block pubkey event info) s
      (fun _ s' => Quiet (s.setWorker pubkey (confirmed info)) s' ∧
        ∀ working, info.state.workingState = some working → event.sessionId = working.sessionId →
          ∃ info', s'.workers pubkey = some info' ∧ info'.heartbeatFlag = true)
      (fun _ _ => False) := by
  unfold takeHeartbeat
  apply Runs.ensure_bind
  case fails => exact fun h => h front
  intro _
  dsimp only
  apply Runs.alter_bind
  split
  · rename_i hstopped
    refine ⟨.refl _, fun working hworking => ?_⟩
    rw [hstopped] at hworking
    cases hworking
  · rename_i current hcurrent
    apply Runs.when
    · intro _
      exact (runs_acceptHeartbeat (Function.update_self ..)).mono
        (fun _ _ h => ⟨h.1, fun _ _ _ => h.2⟩) fun _ _ h => h
    · intro hother
      refine ⟨.refl _, fun working hworking hsession => ?_⟩
      rw [hcurrent] at hworking
      cases hworking
      exact absurd hsession hother

end Report

end ComputingEconomics

/-! ## Events -/

section Event

variable {hash : WorkerPublicKey → U256} {pubkey : WorkerPublicKey} {worker : WorkerState}
  {reports : List WorkingReportEvent} {block : BlockInfo}

theorem Tracked.replay {info : WorkerInfo} (h : Tracked worker reports (some info))
    (event : SystemEvent) (iterations nClusters nContracts : ℕ) :
    Tracked (worker.processEvent iterations block event).1
      (reports ++ (worker.processEvent iterations block event).2.filterMap
        (WorkerSMDelegate.report nClusters nContracts))
      (some (ComputingEconomics.replay block event info)) := by
  obtain ⟨halike, hdue⟩ := h.1.processEvent 0 iterations block event
  refine ⟨halike, ?_⟩
  change info.waitingHeartbeats ++
    (info.state.processEvent 0 block event).2.filterMap WorkerSMTracker.due = _
  rw [List.map_append, map_challengeBlock_report, hdue, h.2]

theorem Tracked.ignored (h : Tracked worker reports none) (event : SystemEvent)
    (hregistered : ∀ level, event ≠ .workerEvent worker.pubkey (.registered level))
    (hstarted : ∀ session v p, event ≠ .workerEvent worker.pubkey (.started session v p))
    (iterations nClusters nContracts : ℕ) :
    Tracked (worker.processEvent iterations block event).1
      (reports ++ (worker.processEvent iterations block event).2.filterMap
        (WorkerSMDelegate.report nClusters nContracts)) none := by
  obtain ⟨hunregistered, hidle, hempty⟩ := h
  have hsent : (worker.processEvent iterations block event).2.filterMap
      (WorkerSMDelegate.report nClusters nContracts) = [] := by
    apply List.map_eq_nil_iff.1
    rw [map_challengeBlock_report]
    cases event with
    | workerEvent key event =>
      unfold WorkerState.processEvent
      dsimp only
      split
      · rfl
      · exact worker.due_handleWorkerEvent iterations block event
    | heartbeatChallenge challenge =>
      change (worker.handleHeartbeatChallenge _ _ _).filterMap _ = []
      unfold WorkerState.handleHeartbeatChallenge
      rw [if_pos hunregistered]
      rfl
  rw [hsent, hempty]
  cases event with
  | heartbeatChallenge challenge => exact ⟨hunregistered, hidle, rfl⟩
  | workerEvent key event =>
    unfold WorkerState.processEvent
    dsimp only
    split
    · exact ⟨hunregistered, hidle, rfl⟩
    · rename_i hkey
      obtain rfl : key = worker.pubkey := not_not.1 hkey
      cases event with
      | registered level => exact absurd rfl (hregistered level)
      | started session v p => exact absurd rfl (hstarted session v p)
      | benchStart _ => exact ⟨hunregistered, hidle, rfl⟩
      | benchScore _ => exact ⟨hunregistered, hidle, rfl⟩
      | stopped => exact ⟨hunregistered, rfl, rfl⟩
      | enterUnresponsive => exact ⟨hunregistered, congrArg (Option.map _) hidle, rfl⟩
      | exitUnresponsive => exact ⟨hunregistered, congrArg (Option.map _) hidle, rfl⟩

theorem tracked_new (h : Tracked worker reports none) (hpubkey : worker.pubkey = pubkey)
    (hhash : worker.hashedId = hash pubkey) :
    Tracked worker reports (some (WorkerInfo.new hash pubkey)) := by
  obtain ⟨hunregistered, hidle, hempty⟩ := h
  constructor
  · refine ⟨hpubkey.symm, hhash.symm, hunregistered.symm, ?_⟩
    unfold WorkerState.session
    rw [hidle]
    rfl
  · rw [hempty]
    rfl

theorem Tracked.alike {worker' : WorkerState} {entry : Option WorkerInfo}
    (h : Tracked worker reports entry) (halike : worker.Alike worker') :
    Tracked worker' reports entry := by
  cases entry with
  | some info => exact ⟨h.1.trans halike, h.2⟩
  | none =>
    obtain ⟨hunregistered, hidle, hempty⟩ := h
    refine ⟨halike.registered ▸ hunregistered, ?_, hempty⟩
    have hsession := halike.session
    unfold WorkerState.session at hsession
    rw [hidle] at hsession
    exact Option.map_eq_none_iff.1 hsession.symm

end Event

/-! ## The network -/

section Network

variable {hash : WorkerPublicKey → U256} {sqrt : FixedPoint → FixedPoint} {s : World}
  {pubkey : WorkerPublicKey}

structure Agrees (hash : WorkerPublicKey → U256) (s : World) (pubkey : WorkerPublicKey) : Prop where
  pubkey_eq : (s.workers pubkey).pubkey = pubkey
  hashedId_eq : (s.workers pubkey).hashedId = hash pubkey
  known : s.registry pubkey = true → s.gatekeeper.workers pubkey ≠ none
  tracked : Tracked (s.workers pubkey) (s.reports pubkey) (s.gatekeeper.workers pubkey)

theorem agrees_new (block : BlockInfo) : Agrees hash (World.new hash block) pubkey where
  pubkey_eq := rfl
  hashedId_eq := rfl
  known := nofun
  tracked := ⟨rfl, rfl, rfl⟩

theorem SameWait.ne_none {a b : Option WorkerInfo} (h : SameWait a b) (ha : a ≠ none) :
    b ≠ none := by
  cases a with
  | none => exact absurd rfl ha
  | some a =>
    cases b with
    | none => exact h.elim
    | some b => exact Option.some_ne_none b

theorem Agrees.quiet (h : Agrees hash s pubkey) {gatekeeper : ComputingEconomics}
    (hquiet : s.gatekeeper.Quiet gatekeeper) :
    Agrees hash { s with gatekeeper := gatekeeper } pubkey where
  pubkey_eq := h.pubkey_eq
  hashedId_eq := h.hashedId_eq
  known := fun hregistered => (hquiet pubkey).ne_none (h.known hregistered)
  tracked := h.tracked.sameWait (hquiet pubkey)

theorem Agrees.workersEndBlock (h : Agrees hash s pubkey)
    (measured : WorkerPublicKey → Measured) :
    Agrees hash (s.workersEndBlock measured) pubkey := by
  have halike := (s.workers pubkey).onBlockProcessed_alike (measured pubkey).iterations s.block
  have hsent : ((s.workers pubkey).onBlockProcessed (measured pubkey).iterations
      s.block).2.filterMap
        (WorkerSMDelegate.report (measured pubkey).nClusters (measured pubkey).nContracts) =
          [] := by
    apply List.map_eq_nil_iff.1
    rw [map_challengeBlock_report]
    exact WorkerState.due_onBlockProcessed _ _ _
  refine ⟨halike.pubkey.trans h.pubkey_eq, halike.hashedId.trans h.hashedId_eq, h.known, ?_⟩
  unfold World.workersEndBlock
  dsimp only
  rw [hsent, List.append_nil]
  exact h.tracked.alike halike.symm

end Network

/-! ### An event of the chain -/

section ChainEvent

open ComputingEconomics

variable {hash : WorkerPublicKey → U256} {s : World} {pubkey : WorkerPublicKey}
  {gatekeeper : ComputingEconomics} {event : SystemEvent}

theorem createFor_registered (level : ℕ) :
    (createFor hash (.workerEvent pubkey (.registered level)) gatekeeper).workers pubkey =
      some ((gatekeeper.workers pubkey).getD (.new hash pubkey)) := by
  change (insertNew hash pubkey gatekeeper).workers pubkey = _
  unfold insertNew
  cases found : gatekeeper.workers pubkey with
  | some info =>
    dsimp only
    exact found
  | none =>
    dsimp only
    exact Function.update_self ..

theorem createFor_other (h : ∀ level, event ≠ .workerEvent pubkey (.registered level)) :
    (createFor hash event gatekeeper).workers pubkey = gatekeeper.workers pubkey := by
  unfold createFor
  split
  · rename_i key level
    unfold insertNew
    split
    · rfl
    · apply Function.update_of_ne
      rintro rfl
      exact h level rfl
  · rfl

theorem Agrees.tracked_event (h : Agrees hash s pubkey) (measured : WorkerPublicKey → Measured)
    (hstarted : ∀ session v p, event = .workerEvent pubkey (.started session v p) →
      s.registry pubkey = true) :
    Tracked ((s.workersProcess event measured).workers pubkey)
      ((s.workersProcess event measured).reports pubkey)
      ((processSystemEvent hash s.block World.registryOrigin event s.gatekeeper).workers
        pubkey) := by
  apply Tracked.sameWait _ (quiet_valueFor _ _ _ pubkey)
  change Tracked _ _ (((createFor hash event s.gatekeeper).workers pubkey).map _)
  by_cases hnew : ∃ level, event = .workerEvent pubkey (.registered level)
  · obtain ⟨level, rfl⟩ := hnew
    rw [createFor_registered]
    apply Tracked.replay
    cases found : s.gatekeeper.workers pubkey with
    | some info => exact found ▸ h.tracked
    | none => exact tracked_new (found ▸ h.tracked) h.pubkey_eq h.hashedId_eq
  · rw [createFor_other fun level heq => hnew ⟨level, heq⟩]
    cases found : s.gatekeeper.workers pubkey with
    | some info => exact (found ▸ h.tracked : Tracked _ _ (some info)).replay _ _ _ _
    | none =>
      apply Tracked.ignored (found ▸ h.tracked)
      · rw [h.pubkey_eq]
        exact fun level heq => hnew ⟨level, heq⟩
      · rw [h.pubkey_eq]
        exact fun session v p heq => h.known (hstarted session v p heq) found

theorem processSystemEvent_ne_none {block : BlockInfo}
    (h : gatekeeper.workers pubkey ≠ none ∨
      ∃ level, event = .workerEvent pubkey (.registered level)) :
    (processSystemEvent hash block World.registryOrigin event gatekeeper).workers pubkey ≠
      none := by
  apply SameWait.ne_none (quiet_valueFor _ _ _ pubkey)
  change ((createFor hash event gatekeeper).workers pubkey).map _ ≠ none
  by_cases hnew : ∃ level, event = .workerEvent pubkey (.registered level)
  · obtain ⟨level, rfl⟩ := hnew
    rw [createFor_registered]
    exact Option.some_ne_none _
  · rw [createFor_other fun level heq => hnew ⟨level, heq⟩]
    exact fun hnone => (h.resolve_right hnew) (Option.map_eq_none_iff.1 hnone)

theorem Agrees.process (h : Agrees hash s pubkey) (measured : WorkerPublicKey → Measured)
    {registry : WorkerPublicKey → Bool}
    (hregistry : registry pubkey = true → s.registry pubkey = true ∨
      ∃ level, event = .workerEvent pubkey (.registered level))
    (hstarted : ∀ session v p, event = .workerEvent pubkey (.started session v p) →
      s.registry pubkey = true) :
    Agrees hash { s.workersProcess event measured with
      registry := registry
      gatekeeper := processSystemEvent hash s.block World.registryOrigin event s.gatekeeper }
      pubkey where
  pubkey_eq := (WorkerState.processEvent_identity _ _ _ _).1.trans h.pubkey_eq
  hashedId_eq := (WorkerState.processEvent_identity _ _ _ _).2.trans h.hashedId_eq
  known := fun hregistered => processSystemEvent_ne_none ((hregistry hregistered).imp_left h.known)
  tracked := h.tracked_event measured hstarted

end ChainEvent

/-! ### Every move -/

section Moves

open ComputingEconomics

variable {hash : WorkerPublicKey → U256} {sqrt : FixedPoint → FixedPoint} {s : World}

def AllAgree (hash : WorkerPublicKey → U256) (s : World) : Prop := ∀ pubkey, Agrees hash s pubkey

def Refused (hash : WorkerPublicKey → U256) (fault : Fault) (s : World) : Prop :=
  fault = .workerNotRegistered ∧ AllAgree hash s

theorem runs_onGatekeeper {m : Program Unit} (h : AllAgree hash s)
    (hm : Runs m s.gatekeeper (fun _ s' => s.gatekeeper.Quiet s') (fun _ _ => False)) :
    Runs (World.onGatekeeper m) s (fun _ => AllAgree hash) (Refused hash) := by
  apply Runs.focus
  exact hm.mono (fun _ _ hquiet pubkey => (h pubkey).quiet hquiet) fun _ _ hfalse => hfalse.elim

theorem runs_event (h : AllAgree hash s) (event : SystemEvent)
    (measured : WorkerPublicKey → Measured) :
    Runs (Op.call hash sqrt (.event event measured)) s (fun _ => AllAgree hash)
      (Refused hash) := by
  unfold Op.call
  apply Runs.bind
  unfold World.accept
  split
  · rename_i key level
    intro pubkey
    apply (h pubkey).process measured
    · intro hregistered
      by_cases hkey : pubkey = key
      · rw [hkey]
        exact .inr ⟨level, rfl⟩
      · change Function.update s.registry key true pubkey = true at hregistered
        rw [Function.update_of_ne hkey] at hregistered
        exact .inl hregistered
    · nofun
  · rename_i key session v p
    apply Runs.get_bind
    apply Runs.ensure
    · intro hregistered pubkey
      apply (h pubkey).process measured .inl
      intro _ _ _ heq
      cases heq
      exact hregistered
    · exact fun _ => ⟨rfl, h⟩
  · rename_i hstarted
    intro pubkey
    exact (h pubkey).process measured .inl fun session v p heq =>
      absurd heq (hstarted pubkey session v p)

theorem Agrees.front {pubkey : WorkerPublicKey} (h : Agrees hash s pubkey)
    {event : WorkingReportEvent} {later : List WorkingReportEvent}
    (hreports : s.reports pubkey = event :: later) :
    ∃ info, s.gatekeeper.workers pubkey = some info ∧ info.state.Alike (s.workers pubkey) ∧
      info.waitingHeartbeats =
        event.challengeBlock :: later.map WorkingReportEvent.challengeBlock := by
  have htracked := h.tracked
  rw [hreports] at htracked
  cases found : s.gatekeeper.workers pubkey with
  | some info =>
    rw [found] at htracked
    exact ⟨info, rfl, htracked⟩
  | none =>
    rw [found] at htracked
    cases htracked.2.2

theorem Agrees.confirm {pubkey : WorkerPublicKey} (h : AllAgree hash s)
    {event : WorkingReportEvent} {later : List WorkingReportEvent}
    (hreports : s.reports pubkey = event :: later) {info : WorkerInfo}
    (found : s.gatekeeper.workers pubkey = some info) {gatekeeper : ComputingEconomics}
    (hquiet : (s.gatekeeper.setWorker pubkey (confirmed info)).Quiet gatekeeper) :
    AllAgree hash { s with
      reports := Function.update s.reports pubkey later
      gatekeeper := gatekeeper } := by
  intro key
  have hkey := h key
  have hentry := hquiet key
  unfold setWorker at hentry
  dsimp only at hentry
  by_cases heq : key = pubkey
  · subst heq
    rw [Function.update_self] at hentry
    have htracked := hkey.tracked
    rw [found, hreports] at htracked
    refine ⟨hkey.pubkey_eq, hkey.hashedId_eq, fun _ => hentry.ne_none (Option.some_ne_none _), ?_⟩
    dsimp only
    rw [Function.update_self]
    have hconfirmed : Tracked (s.workers key) later (some (confirmed info)) :=
      ⟨htracked.1, congrArg List.tail htracked.2⟩
    exact hconfirmed.sameWait hentry
  · rw [Function.update_of_ne heq] at hentry
    refine ⟨hkey.pubkey_eq, hkey.hashedId_eq, fun hr => hentry.ne_none (hkey.known hr), ?_⟩
    dsimp only
    rw [Function.update_of_ne heq]
    exact hkey.tracked.sameWait hentry

def FrontMatches (s s' : World) (pubkey : WorkerPublicKey) (event : WorkingReportEvent) : Prop :=
  ∃ info, s.gatekeeper.workers pubkey = some info ∧
    info.waitingHeartbeats.head? = some event.challengeBlock ∧
    ∀ working, info.state.workingState = some working → event.sessionId = working.sessionId →
      ∃ info', s'.gatekeeper.workers pubkey = some info' ∧ info'.heartbeatFlag = true

theorem runs_deliver (h : AllAgree hash s) {pubkey : WorkerPublicKey} {event : WorkingReportEvent}
    {later : List WorkingReportEvent} (hreports : s.reports pubkey = event :: later) :
    Runs (World.deliverReport sqrt pubkey) s
      (fun _ s' => AllAgree hash s' ∧ FrontMatches s s' pubkey event) (fun _ _ => False) := by
  obtain ⟨info, found, -, hwaiting⟩ := (h pubkey).front hreports
  have hfront : info.waitingHeartbeats.head? = some event.challengeBlock := by
    rw [hwaiting]
    rfl
  unfold World.deliverReport
  apply Runs.get_bind
  rw [hreports]
  apply Runs.alter_bind
  apply Runs.focus
  unfold processComputingReport
  apply Runs.get_bind
  dsimp only
  rw [found]
  exact (runs_takeHeartbeat hfront).mono
    (fun _ _ hs' => ⟨Agrees.confirm h hreports found hs'.1, info, found, hfront, hs'.2⟩)
    fun _ _ hfalse => hfalse

theorem runs_call (h : AllAgree hash s) (op : Op) :
    Runs (op.call hash sqrt) s (fun _ => AllAgree hash) (Refused hash) := by
  cases op with
  | beginBlock block =>
    apply Runs.alter_bind
    have hblock : AllAgree hash { s with block := block } := fun pubkey =>
      ⟨(h pubkey).pubkey_eq, (h pubkey).hashedId_eq, (h pubkey).known, (h pubkey).tracked⟩
    apply runs_onGatekeeper hblock
    exact quiet_forEachMut _ fun _ => ⟨.refl _, rfl⟩
  | event event measured => exact runs_event h event measured
  | deliver pubkey =>
    cases hreports : s.reports pubkey with
    | nil =>
      change Runs (World.deliverReport sqrt pubkey) _ _ _
      unfold World.deliverReport
      apply Runs.get_bind
      rw [hreports]
      exact h
    | cons event later =>
      exact (runs_deliver h hreports).mono (fun _ _ hs' => hs'.1) fun _ _ hfalse => hfalse.elim
  | parameters params =>
    apply runs_onGatekeeper h
    exact Quiet.refl s.gatekeeper
  | endBlock measured =>
    apply Runs.get_bind
    apply Runs.alter_bind
    exact runs_onGatekeeper (fun pubkey => (h pubkey).workersEndBlock measured)
      runs_didProcessBlock

end Moves

structure Accepted (hash : WorkerPublicKey → U256) (sqrt : FixedPoint → FixedPoint) (s : World)
    (op : Op) : Prop where
  no_panic : ∀ message, (op.call hash sqrt).result s ≠ .error (.panic message)
  front : ∀ pubkey event later, op = .deliver pubkey → s.reports pubkey = event :: later →
    FrontMatches s ((op.call hash sqrt).after s) pubkey event

theorem AllAgree.accepted {hash : WorkerPublicKey → U256} {sqrt : FixedPoint → FixedPoint}
    {s : World} (h : AllAgree hash s) (op : Op) : Accepted hash sqrt s op where
  no_panic := by
    intro message run
    cases ((runs_call h op).of_error run).1
  front := by
    rintro pubkey event later rfl hreports
    have hrun : Runs (World.deliverReport sqrt pubkey) s _ _ := runs_deliver h hreports
    exact (Runs.of_after (hrun.mono (fun _ _ hs' => hs') fun _ _ hfalse => hfalse.elim)).2

/-- Each heartbeat is the one that the gatekeeper waits for. -/
theorem heartbeats_agree (hash : WorkerPublicKey → U256) (sqrt : FixedPoint → FixedPoint)
    (block : BlockInfo) (ops : List Op) :
    Throughout (Op.call hash sqrt) (Accepted hash sqrt) (World.new hash block) ops := by
  have hrun : ∀ s, AllAgree hash s → Throughout (Op.call hash sqrt) (Accepted hash sqrt) s ops := by
    induction ops with
    | nil => exact fun _ _ => trivial
    | cons op ops ih =>
      intro s h
      refine ⟨h.accepted op, ih _ ?_⟩
      exact Runs.of_after ((runs_call h op).mono (fun _ _ hs' => hs') fun _ _ hs' => hs'.2)
  exact hrun _ fun _ => agrees_new block

/-- A heartbeat is on its way after the session that it belongs to was stopped. -/
example :
    let measured : WorkerPublicKey → Measured := fun _ => ⟨7, 0, 0⟩
    let events : List SystemEvent := [.workerEvent [1] (.registered 1),
      .workerEvent [1] (.started 5 0 0), .heartbeatChallenge ⟨0, 0⟩, .workerEvent [1] .stopped]
    let s := afterCalls (Op.call (fun _ => 0) id) (World.new (fun _ => 0) ⟨3, 9, by decide⟩)
      (events.map (Op.event · measured))
    s.reports [1] = [.heartbeatV2 5 3 9 0 0 0] ∧
      ((s.gatekeeper.workers [1]).map WorkerInfo.waitingHeartbeats) = some [3] := by
  decide +kernel

end Cyrux.Economics
