import Mathlib.Data.List.Sort
import Cyrux.Gatekeeper.Tokenomic
import Cyrux.Gatekeeper.WorkerState
import Cyrux.Lib.Proc

/-!
# The economics of computing

`crates/phactory/src/system/gk.rs`
-/

namespace Cyrux.Economics

open Proc
open Mq (MessageOrigin)

structure WorkerInfo where
  state : WorkerState
  waitingHeartbeats : List ℕ := []
  unresponsive : Bool := false
  tokenomic : TokenomicInfo := {}
  heartbeatFlag : Bool := false

def WorkerInfo.new (hash : WorkerPublicKey → U256) (pubkey : WorkerPublicKey) : WorkerInfo where
  state := WorkerState.new hash pubkey

structure SettleInfo where
  pubkey : WorkerPublicKey
  v : FixedPoint
  payout : FixedPoint
  treasury : FixedPoint

structure WorkingInfoUpdateEvent where
  blockNumber : ℕ := 0
  timestampMs : ℕ := 0
  offline : List WorkerPublicKey := []
  recoveredToOnline : List WorkerPublicKey := []
  settle : List SettleInfo := []

def WorkingInfoUpdateEvent.isEmpty (self : WorkingInfoUpdateEvent) : Bool :=
  self.offline.isEmpty && self.settle.isEmpty && self.recoveredToOnline.isEmpty

structure EconomicCalcCache where
  sumShare : FixedPoint := fp 0
  report : WorkingInfoUpdateEvent := {}

structure ComputingEconomics where
  egress : List WorkingInfoUpdateEvent := []
  keys : List WorkerPublicKey := []
  workers : WorkerPublicKey → Option WorkerInfo := fun _ => none
  tokenomicParams : Params := testParams
  ecoCache : EconomicCalcCache := {}

inductive Fault
  | workerNotRegistered
  | panic (message : String)
  deriving DecidableEq

abbrev Program := Proc ComputingEconomics Fault

namespace ComputingEconomics

variable (hash : WorkerPublicKey → U256) (sqrt : FixedPoint → FixedPoint)

def setWorker (pubkey : WorkerPublicKey) (info : WorkerInfo) (s : ComputingEconomics) :
    ComputingEconomics :=
  { s with workers := Function.update s.workers pubkey (some info) }

def forEachMut (f : WorkerInfo → WorkerInfo) (s : ComputingEconomics) : ComputingEconomics :=
  { s with workers := fun pubkey => (s.workers pubkey).map f }

def insertNew (pubkey : WorkerPublicKey) (s : ComputingEconomics) : ComputingEconomics :=
  match s.workers pubkey with
  | some _ => s
  | none => { s.setWorker pubkey (.new hash pubkey) with
      keys := s.keys.orderedInsert (· ≤ ·) pubkey }

def pushSettle (info : SettleInfo) (s : ComputingEconomics) : ComputingEconomics :=
  { s with ecoCache.report.settle := s.ecoCache.report.settle ++ [info] }

def pushOffline (pubkey : WorkerPublicKey) (s : ComputingEconomics) : ComputingEconomics :=
  { s with ecoCache.report.offline := s.ecoCache.report.offline ++ [pubkey] }

def pushRecovered (pubkey : WorkerPublicKey) (s : ComputingEconomics) : ComputingEconomics :=
  { s with
    ecoCache.report.recoveredToOnline := s.ecoCache.report.recoveredToOnline ++ [pubkey] }

def sumShare (s : ComputingEconomics) : FixedPoint :=
  let responsive := (s.keys.filterMap s.workers).filter fun info =>
    !info.unresponsive && info.state.workingState.isSome
  (responsive.map fun info => info.tokenomic.share sqrt).foldl Fixed.add (fp 0)

def willProcessBlock (block : BlockInfo) (s : ComputingEconomics) : ComputingEconomics :=
  let cached := { s with
    ecoCache.sumShare := s.sumShare sqrt
    ecoCache.report := { blockNumber := block.blockNumber, timestampMs := block.nowMs } }
  cached.forEachMut fun info => { info with heartbeatFlag := false }

/-! ## The end of a block -/

def overdue (heartbeatWindow : ℕ) (block : BlockInfo) (info : WorkerInfo) : Bool :=
  match info.waitingHeartbeats.head? with
  | none => false
  | some sentAt => heartbeatWindow < Unsigned.wrappingSub 32 block.blockNumber sentAt

def updateV (pubkey : WorkerPublicKey) (info : WorkerInfo) : Program Unit := do
  let s ← get
  if info.unresponsive then
    alter (setWorker pubkey
      { info with tokenomic := info.tokenomic.updateVSlash s.tokenomicParams })
  else if info.heartbeatFlag then
    alter (setWorker pubkey info)
  else do
    let tokenomic ← demand (info.tokenomic.updateVIdle s.tokenomicParams)
      (.panic "Division by zero")
    alter (setWorker pubkey { info with tokenomic := tokenomic })

def checkResponsive (block : BlockInfo) (pubkey : WorkerPublicKey) (info : WorkerInfo) :
    Program Unit := do
  let s ← get
  if info.unresponsive && info.heartbeatFlag then do
    alter (pushRecovered info.state.pubkey)
    updateV pubkey { info with unresponsive := false }
  else if !info.unresponsive && overdue s.tokenomicParams.heartbeatWindow block info then do
    alter (pushOffline info.state.pubkey)
    updateV pubkey { info with unresponsive := true }
  else
    updateV pubkey info

def endBlock (block : BlockInfo) (pubkey : WorkerPublicKey) : Program Unit := do
  let s ← get
  match s.workers pubkey with
  | none => pure ()
  | some before =>
    let (state, calls) := before.state.onBlockProcessed 0 block
    let info := { before with
      state := state
      waitingHeartbeats :=
        before.waitingHeartbeats ++ calls.filterMap WorkerSMTracker.due }
    match state.workingState with
    | none => alter (setWorker pubkey info)
    | some _ => checkResponsive block pubkey info

def takeReport (s : ComputingEconomics) : ComputingEconomics :=
  { s with
    egress := if s.ecoCache.report.isEmpty then s.egress else s.egress ++ [s.ecoCache.report]
    ecoCache.report := {} }

def didProcessBlock (block : BlockInfo) : Program Unit := do
  let s ← get
  each (endBlock block) s.keys
  alter takeReport

/-! ## Messages -/

def acceptHeartbeat (block : BlockInfo) (pubkey : WorkerPublicKey) (event : WorkingReportEvent)
    (info : WorkerInfo) : Program Unit := do
  let s ← get
  let measured ← demand
    (info.tokenomic.updatePInstant block.nowMs event.iterations event.contractRunning)
    (.panic "Division by zero")
  let tokenomic := { measured with
    challengeTimeLast := event.challengeTime
    iterationLast := event.iterations }
  if info.unresponsive then
    alter (setWorker pubkey { info with
      heartbeatFlag := true
      tokenomic := tokenomic.updateVRecover block.nowMs block.blockNumber })
  else do
    let (paid, payout, treasury) ← demand
      (tokenomic.updateVHeartbeat sqrt s.tokenomicParams s.ecoCache.sumShare block.nowMs
        block.blockNumber)
      (.panic "Division by zero")
    alter (setWorker pubkey { info with heartbeatFlag := true, tokenomic := paid })
    -- The settlements are reported in this order, also against those of stopped workers.
    alter (pushSettle ⟨pubkey, paid.v, payout, treasury⟩)

def takeHeartbeat (block : BlockInfo) (pubkey : WorkerPublicKey) (event : WorkingReportEvent)
    (waiting : WorkerInfo) : Program Unit := do
  ensure (waiting.waitingHeartbeats.head? = some event.challengeBlock)
    (.panic "GK or Worker state poisoned")
  let info := { waiting with waitingHeartbeats := waiting.waitingHeartbeats.tail }
  alter (setWorker pubkey info)
  match info.state.workingState with
  | none => pure ()
  | some working =>
    when (event.sessionId = working.sessionId) (acceptHeartbeat sqrt block pubkey event info)

def processComputingReport (block : BlockInfo) (origin : MessageOrigin)
    (event : WorkingReportEvent) : Program Unit := do
  let s ← get
  match origin with
  | .worker pubkey =>
    match s.workers pubkey with
    | none => pure ()
    | some info => takeHeartbeat sqrt block pubkey event info
  | _ => pure ()

def replay (block : BlockInfo) (event : SystemEvent) (info : WorkerInfo) : WorkerInfo :=
  let (state, calls) := info.state.processEvent 0 block event
  { info with
    state := state
    waitingHeartbeats := info.waitingHeartbeats ++ calls.filterMap WorkerSMTracker.due }

def startedInfo (block : BlockInfo) (initV initP : ℕ) (info : WorkerInfo) : WorkerInfo :=
  { info with
    unresponsive := false
    tokenomic :=
      { v := Fixed.wrap initV
        vUpdateAt := block.nowMs
        vUpdateBlock := block.blockNumber
        challengeTimeLast := block.nowMs
        pBench := fp initP
        pInstant := fp initP
        confidenceLevel := info.tokenomic.confidenceLevel } }

def valueEvent (block : BlockInfo) (pubkey : WorkerPublicKey) (event : WorkerEvent)
    (s : ComputingEconomics) : ComputingEconomics :=
  match s.workers pubkey with
  | none => s
  | some info =>
    match event with
    | .registered confidenceLevel =>
      s.setWorker pubkey
        { info with tokenomic := { info.tokenomic with confidenceLevel := confidenceLevel } }
    | .started _ initV initP => s.setWorker pubkey (startedInfo block initV initP info)
    | .stopped => s.pushSettle ⟨info.state.pubkey, info.tokenomic.v, fp 0, fp 0⟩
    | _ => s

def createFor : SystemEvent → ComputingEconomics → ComputingEconomics
  | .workerEvent pubkey (.registered _), s => s.insertNew hash pubkey
  | _, s => s

def valueFor (block : BlockInfo) : SystemEvent → ComputingEconomics → ComputingEconomics
  | .workerEvent pubkey event, s => s.valueEvent block pubkey event
  | .heartbeatChallenge _, s => s

def processSystemEvent (block : BlockInfo) (origin : MessageOrigin) (event : SystemEvent)
    (s : ComputingEconomics) : ComputingEconomics :=
  match origin with
  | .pallet _ => valueFor block event ((createFor hash event s).forEachMut (replay block event))
  | _ => s

def updateTokenomicParameters (params : TokenomicParameters) (s : ComputingEconomics) :
    ComputingEconomics := { s with tokenomicParams := params.into }

end ComputingEconomics

/-! ## The network -/

structure World where
  registry : WorkerPublicKey → Bool
  workers : WorkerPublicKey → WorkerState
  reports : WorkerPublicKey → List WorkingReportEvent
  gatekeeper : ComputingEconomics
  block : BlockInfo

structure Measured where
  iterations : ℕ
  nClusters : ℕ
  nContracts : ℕ

inductive Op
  | beginBlock (block : BlockInfo)
  | event (event : SystemEvent) (measured : WorkerPublicKey → Measured)
  | deliver (pubkey : WorkerPublicKey)
  | parameters (params : TokenomicParameters)
  | endBlock (measured : WorkerPublicKey → Measured)

namespace World

variable (hash : WorkerPublicKey → U256) (sqrt : FixedPoint → FixedPoint)

def new (block : BlockInfo) : World where
  registry := fun _ => false
  workers := WorkerState.new hash
  reports := fun _ => []
  gatekeeper := {}
  block := block

def accept : SystemEvent → Proc World Fault Unit
  | .workerEvent pubkey (.registered _) =>
    alter fun s => { s with registry := Function.update s.registry pubkey true }
  | .workerEvent pubkey (.started _ _ _) => do
    let s ← get
    ensure (s.registry pubkey = true) .workerNotRegistered
  | _ => pure ()

def workersProcess (event : SystemEvent) (measured : WorkerPublicKey → Measured) (s : World) :
    World :=
  { s with
    workers := fun pubkey =>
      ((s.workers pubkey).processEvent (measured pubkey).iterations s.block event).1
    reports := fun pubkey => s.reports pubkey ++
      ((s.workers pubkey).processEvent (measured pubkey).iterations s.block event).2.filterMap
        (WorkerSMDelegate.report (measured pubkey).nClusters (measured pubkey).nContracts) }

def workersEndBlock (measured : WorkerPublicKey → Measured) (s : World) : World :=
  { s with
    workers := fun pubkey =>
      ((s.workers pubkey).onBlockProcessed (measured pubkey).iterations s.block).1
    reports := fun pubkey => s.reports pubkey ++
      ((s.workers pubkey).onBlockProcessed (measured pubkey).iterations s.block).2.filterMap
        (WorkerSMDelegate.report (measured pubkey).nClusters (measured pubkey).nContracts) }

def onGatekeeper (m : Program Unit) : Proc World Fault Unit :=
  focus World.gatekeeper (fun gatekeeper s => { s with gatekeeper := gatekeeper }) m

def registryOrigin : MessageOrigin := .pallet []

def deliverReport (pubkey : WorkerPublicKey) : Proc World Fault Unit := do
  let s ← get
  match s.reports pubkey with
  | [] => pure ()
  | event :: later => do
    alter fun s => { s with reports := Function.update s.reports pubkey later }
    onGatekeeper (ComputingEconomics.processComputingReport sqrt s.block (.worker pubkey) event)

end World

def Op.call (hash : WorkerPublicKey → U256) (sqrt : FixedPoint → FixedPoint) :
    Op → Proc World Fault Unit
  | .beginBlock block => do
    alter fun s => { s with block := block }
    World.onGatekeeper (alter (ComputingEconomics.willProcessBlock sqrt block))
  | .event message measured => do
    World.accept message
    let s ← get
    alter (World.workersProcess message measured)
    World.onGatekeeper (alter (ComputingEconomics.processSystemEvent hash s.block
      World.registryOrigin message))
  | .deliver pubkey => World.deliverReport sqrt pubkey
  | .parameters params =>
    World.onGatekeeper (alter (ComputingEconomics.updateTokenomicParameters params))
  | .endBlock measured => do
    let s ← get
    alter (World.workersEndBlock measured)
    World.onGatekeeper (ComputingEconomics.didProcessBlock s.block)

end Cyrux.Economics
