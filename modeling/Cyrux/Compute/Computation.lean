import Cyrux.Compute.Assets

/-!
# Computing sessions

`pallets/cyrux/src/compute/computation.rs`
-/

namespace Cyrux

open Exec

/-! ## Tokenomic -/

namespace TokenomicParams

def fromU32 (p : ℕ) : FixedPoint := Fixed.wrap (p * 2 ^ 64)

def minimalStake (params : TokenomicParams) (sqrt : FixedPoint → FixedPoint) (p : ℕ) :
    Option ℕ :=
  fromFixed (params.k.mul (sqrt (fromU32 p)))

def confidenceScore (confidenceLevel : ℕ) : FixedPoint :=
  if confidenceLevel = 4 then Fixed.wrap 14757395258967641293
  else if confidenceLevel = 5 then Fixed.wrap 12912720851596686131
  else fromU32 1

def rigCost (params : TokenomicParams) (p : ℕ) : FixedPoint :=
  (params.rigK.mul (fromU32 p)).add params.rigB

def ve (params : TokenomicParams) (stake : ℕ) (p confidenceLevel : ℕ) :
    Option FixedPoint := do
  let one := fromU32 1
  let tweakedRe := ((params.re.sub one).mul (confidenceScore confidenceLevel)).add one
  let s ← toFixed stake
  pure (tweakedRe.mul (s.add (params.rigCost p)))

end TokenomicParams

namespace SessionInfo

def calcFinalStake (_ : SessionInfo) (origStake : ℕ) : ℕ × ℕ := (origStake, 0)

def new (now : ℕ) : SessionInfo where
  state := .ready
  ve := Fixed.zero
  v := Fixed.zero
  vUpdatedAt := now
  benchmark := ⟨0, 0, 0, now, 0⟩
  coolDownStart := 0
  totalReward := 0

end SessionInfo

variable {A W : Type} [DecidableEq A] [DecidableEq W]

/-! ## What becomes of the state -/

namespace State

def putSession (s : State A W) (session : A) (info : SessionInfo) : State A W :=
  { s with sessions := Function.update s.sessions session (some info) }

def bindSession (s : State A W) (session : A) (worker : W) : State A W :=
  { s with
    sessionBindings := Function.update s.sessionBindings session (some worker)
    workerBindings := Function.update s.workerBindings worker (some session)
    sessions := Function.update s.sessions session (some (SessionInfo.new s.now)) }

def unbindSession (s : State A W) (session : A) (worker : W) : State A W :=
  { s with
    sessionBindings := Function.update s.sessionBindings session none
    workerBindings := Function.update s.workerBindings worker none }

def startSession (s : State A W) (session : A) (stake : ℕ) (info : SessionInfo) :
    State A W :=
  { s.putSession session info with
    stakes := Function.update s.stakes session (some stake)
    onlineWorkers := s.onlineWorkers + 1
    nextSessionId := s.nextSessionId + 1 }

def stopSession (s : State A W) (session : A) (info : SessionInfo) : State A W :=
  { s.putSession session info with onlineWorkers := s.onlineWorkers - 1 }

def reclaimSession (s : State A W) (session : A) (info : SessionInfo) : State A W :=
  { s.putSession session info with stakes := Function.update s.stakes session none }

end State

namespace Computation

/-! ## Sessions -/

def ensureSessionBound (session : A) : Pallet A W W := do
  let s ← get
  demand (s.sessionBindings session) (.error (.computation .sessionNotBound))

def canReclaim (info : SessionInfo) (checkCooldown : Bool) : Pallet A W Bool := do
  if info.state ≠ .workerCoolingDown then
    pure false
  else if checkCooldown then do
    let s ← get
    ensure (info.coolDownStart ≤ s.now) (.panic .coolDownTime none)
    pure (decide (s.coolDownPeriod ≤ s.now - info.coolDownStart))
  else
    pure true

def reclaim (session : A) (checkCooldown : Bool) : Pallet A W (ℕ × ℕ) := do
  let s ← get
  let info ← demand (s.sessions session) (.error (.computation .sessionNotFound))
  let ready ← canReclaim info checkCooldown
  ensure (ready = true) (.error (.computation .coolDownNotReady))
  let origStake := (s.stakes session).getD 0
  alter fun s => s.reclaimSession session { info with state := .ready, coolDownStart := 0 }
  pure (origStake, (info.calcFinalStake origStake).2)

def bind (cfg : Config A W) (session : A) (pubkey : W) : Pallet A W Unit := do
  let s ← get
  let worker ← demand (s.workers pubkey) (.error (.computation .workerNotRegistered))
  ensure (cfg.checkWorkerRegisterTime = true → worker.registeredAfterGkLaunched = true)
    (.error (.computation .workerReregisterNeeded))
  ensure worker.initialScore.isSome (.error (.computation .benchmarkMissing))
  ensure (s.sessionBindings session).isNone (.error (.computation .duplicateBoundSession))
  ensure (s.workerBindings pubkey).isNone (.error (.computation .duplicateBoundWorker))
  ensure ((s.sessions session).all fun info => info.state = .ready)
    (.error (.computation .workerNotReady))
  alter fun s => s.bindSession session pubkey

def stopComputing (session : A) : Pallet A W Unit := do
  let s ← get
  let _ ← demand (s.sessionBindings session) (.error (.computation .sessionNotBound))
  let info ← demand (s.sessions session) (.error (.computation .sessionNotFound))
  ensure (info.state ≠ .ready ∧ info.state ≠ .workerCoolingDown)
    (.error (.computation .workerNotComputing))
  ensure (0 < s.onlineWorkers) (.panic .onlineWorkers none)
  alter fun s =>
    s.stopSession session { info with state := .workerCoolingDown, coolDownStart := s.now }

def unbindSession (onUnbound : W → Bool → Pallet A W Unit) (session : A) (notify : Bool) :
    Pallet A W Unit := do
  let worker ← ensureSessionBound session
  let s ← get
  let info ← demand (s.sessions session) (.panic .boundSession none)
  let force := !info.state.canUnbind
  when force (stopComputing session)
  alter fun s => s.unbindSession session worker
  when notify (onUnbound worker force)

def unbind (onUnbound : W → Bool → Pallet A W Unit) (who : A) (session : A) : Pallet A W Unit := do
  let pubkey ← ensureSessionBound session
  let s ← get
  let worker ← demand (s.workers pubkey) (.error (.computation .workerNotRegistered))
  ensure (worker.operator = some who) (.error (.computation .badSender))
  unbindSession onUnbound session true

def startComputing (cfg : Config A W) (session : A) (stake : ℕ) : Pallet A W Unit := do
  let s ← get
  let worker ← demand (s.sessionBindings session) (.error (.computation .sessionNotFound))
  let info ← demand (s.sessions session) (.panic .startSession none)
  ensure (info.state = .ready) (.error (.computation .workerNotReady))
  ensure (s.stakes session).isNone
    (.error (.computation .internalErrorCannotStartWithExistingStake))
  let workerInfo ← demand (s.workers worker) (.panic .boundWorker none)
  let p ← demand workerInfo.initialScore (.error (.computation .benchmarkMissing))
  ensure (cfg.minInitP ≤ p) (.error (.computation .benchmarkTooLow))
  let tokenomic ← demand s.tokenomicParameters
    (.error (.computation .internalErrorBadTokenomicParameters))
  let minStake ← demand (tokenomic.minimalStake cfg.sqrt p) (.panic .conversion none)
  ensure (minStake ≤ stake) (.error (.computation .insufficientStake))
  let ve ← demand (tokenomic.ve stake p workerInfo.confidenceLevel) (.panic .conversion none)
  ensure (ve ≤ tokenomic.vMax) (.error (.computation .tooMuchStake))
  alter fun s => s.startSession session stake { info with
    state := .workerIdle, ve := ve, v := ve, vUpdatedAt := s.now
    benchmark := { info.benchmark with pInit := p } }

/-! ## The gatekeeper's reports -/

structure SettleInfo (W : Type) where
  pubkey : W
  v : FixedPoint
  payout : FixedPoint
  treasury : FixedPoint

structure WorkingInfoUpdate (W : Type) where
  timestampMs : ℕ
  offline : List W
  recoveredToOnline : List W
  settle : List (SettleInfo W)

def reportState (state : WorkerState) (worker : W) : Pallet A W Unit := do
  let s ← get
  match s.workerBindings worker with
  | none => pure ()
  | some account =>
    match s.sessions account with
    | none => pure ()
    | some info =>
      if info.state.isComputing then
        alter fun s => s.putSession account { info with state := state }
      else
        pure ()

def withdrawImbalanceFromSubsidyPool (cfg : Config A W) (value : ℕ) : Pallet A W Unit :=
  Currency.withdraw cfg.computationAccountId value

def withdrawSubsidyPool (cfg : Config A W) (target : A) (value : ℕ) : Pallet A W Unit :=
  Currency.transfer cfg cfg.computationAccountId target value true

def tryHandleSettle (cfg : Config A W) (emitTs : ℕ) (info : SettleInfo W) : Pallet A W Unit := do
  let s ← get
  match s.workerBindings info.pubkey with
  | none => pure ()
  | some account =>
    match s.sessions account with
    | none => pure ()
    | some session =>
      if emitTs ≤ session.vUpdatedAt then
        pure ()
      else do
        let payout ← demand (fromFixed info.payout) (.panic .conversion none)
        alter fun s => s.putSession account { session with
          v := info.v, vUpdatedAt := s.now, totalReward := session.totalReward + payout }
        let treasury ← demand (fromFixed info.treasury) (.panic .conversion none)
        let _ ← attempt Fault.isError (withdrawImbalanceFromSubsidyPool cfg treasury)
        pure ()

def onGkMessageReceived (cfg : Config A W) (onReward : List (SettleInfo W) → Pallet A W Unit)
    (event : WorkingInfoUpdate W) : Pallet A W Unit := do
  each (reportState .workerUnresponsive) event.offline
  each (reportState .workerIdle) event.recoveredToOnline
  each (tryHandleSettle cfg (event.timestampMs / 1000)) event.settle
  onReward event.settle

end Computation

end Cyrux
