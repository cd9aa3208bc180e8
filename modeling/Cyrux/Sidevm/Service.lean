import Mathlib.Data.Int.Notation
import Mathlib.Data.List.Basic
import Cyrux.Lib.Proc

/-!
# Instances of a contract's sidevm

`crates/phactory/src/contracts/support.rs`
-/

namespace Cyrux.SidevmService

open Proc

inductive OcallAborted where
  | gasExhausted
  | stifled
  deriving DecidableEq

inductive ExitReason where
  | exited (code : ℤ)
  | stopped
  | inputClosed
  | panicked
  | cancelled
  | ocallAborted (reason : OcallAborted)
  | restore
  | waitingForCode
  | codeTooLarge
  | failedToStart
  deriving DecidableEq

inductive Command where
  | stop
  | pushMessage
  | pushSystemMessage
  | pushQuery
  | updateWeight (weight : ℕ)
  | httpRequest
  deriving DecidableEq

inductive Phase where
  /-- The task was spawned and has not looked at the watch channel yet. -/
  | starting (prev : Option ℕ)
  | waiting (prev : ℕ)
  /-- The module is compiled and instantiated. -/
  | loading
  /-- Guest code is executed. -/
  | running
  | exited (reason : ExitReason)
  deriving DecidableEq

structure Instance where
  phase : Phase
  commands : List Command := []
  weight : ℕ
  /-- The reason that was put into the handle, which says `Running` before. -/
  handle : Option ExitReason := none
  /-- The value of the watch channel. -/
  stopped : Bool := false
  deriving DecidableEq

def Instance.isExited (i : Instance) : Bool :=
  match i.phase with
  | .exited _ => true
  | _ => false

def channelSize : ℕ := 128

def Instance.trySend (i : Instance) (command : Command) : Instance :=
  if i.isExited = false ∧ i.commands.length < channelSize then
    { i with commands := i.commands ++ [command] }
  else i

inductive HandleRef where
  | fixed (reason : ExitReason)
  | of (n : ℕ)
  deriving DecidableEq

inductive SidevmHandle where
  | running (n : ℕ)
  | stopped (reason : ExitReason)
  deriving DecidableEq

structure SidevmConfig where
  maxCodeSize : ℕ
  deadline : ℕ
  deriving DecidableEq

structure SidevmInfo (Hash : Type) where
  code : List UInt8
  codeHash : Hash
  handle : HandleRef
  config : SidevmConfig

structure Contract (Hash : Type) where
  sidevmInfo : Option (SidevmInfo Hash)
  weight : ℕ
  instances : List Instance

inductive SidevmCode (Hash : Type) where
  | hash (hash : Hash)
  | code (code : List UInt8)

inductive Fault (Hash : Type) where
  | notWaitingForCode
  | noSidevmInfo
  | codeHashMismatch (expected actual : Hash)
  | noInstance
  | terminated

abbrev Program (Hash : Type) := Proc (Contract Hash) (Fault Hash)

variable {Hash : Type} [DecidableEq Hash]

def Contract.view (s : Contract Hash) : HandleRef → SidevmHandle
  | .fixed reason => .stopped reason
  | .of n =>
    match s.instances[n]?.bind Instance.handle with
    | some reason => .stopped reason
    | none => .running n

def Contract.sidevmHandle (s : Contract Hash) : Option SidevmHandle :=
  s.sidevmInfo.map fun info => s.view info.handle

def Contract.isStopped (s : Contract Hash) (n : ℕ) : Bool :=
  match s.instances[n]? with
  | some i => i.stopped
  | none => false

def Contract.modify (s : Contract Hash) (n : ℕ) (f : Instance → Instance) : Contract Hash :=
  { s with instances := s.instances.modify n f }

def trySend (n : ℕ) (command : Command) : Program Hash Unit :=
  alter fun s => s.modify n fun i => i.trySend command

/-! ## The contract -/

def doStartSidevm (prev : Option ℕ) : Program Hash HandleRef := do
  let s ← get
  alter fun s => { s with
    instances := s.instances ++ [{ phase := .starting prev, weight := s.weight }] }
  pure (.of s.instances.length)

def stopRunning : Option SidevmHandle → Program Hash (Option ℕ)
  | some (.running n) => do
    trySend n .stop
    pure (some n)
  | _ => pure none

section Start

variable (blake2 : List UInt8 → Hash)

def ensureWaiting (actualHash : Hash) : Program Hash Unit := do
  let s ← get
  ensure (s.sidevmHandle = some (.stopped .waitingForCode)) .notWaitingForCode
  let info ← demand s.sidevmInfo .noSidevmInfo
  ensure (actualHash = info.codeHash) (.codeHashMismatch info.codeHash actualHash)

def resolveCode (ensureWaitingCode : Bool) : SidevmCode Hash → Program Hash (List UInt8 × Hash)
  | .hash hash => pure ([], hash)
  | .code code => do
    when (ensureWaitingCode = true) (ensureWaiting (blake2 code))
    pure (code, blake2 code)

def launch (code : List UInt8) (config : SidevmConfig) (prev : Option ℕ) :
    Program Hash HandleRef :=
  if code.isEmpty then
    pure (.fixed .waitingForCode)
  else if config.maxCodeSize < code.length then
    pure (.fixed .codeTooLarge)
  else
    doStartSidevm prev

def startSidevm (code : SidevmCode Hash) (ensureWaitingCode : Bool) (config : SidevmConfig) :
    Program Hash Unit := do
  let s ← get
  let prev ← stopRunning s.sidevmHandle
  let (code, codeHash) ← resolveCode blake2 ensureWaitingCode code
  let handle ← launch code config prev
  alter fun s => { s with sidevmInfo := some ⟨code, codeHash, handle, config⟩ }

end Start

def pushMessageToSidevm (message : Command) : Program Hash Unit := do
  let s ← get
  let info ← demand s.sidevmInfo .noInstance
  match s.view info.handle with
  | .stopped _ => throw .terminated
  | .running n => trySend n message

def ExitReason.needRestart : ExitReason → Bool
  | .exited _ => false
  | .stopped => false
  | .inputClosed => false
  | .panicked => true
  | .cancelled => false
  | .ocallAborted .gasExhausted => false
  | .ocallAborted .stifled => true
  | .restore => true
  | .waitingForCode => false
  | .codeTooLarge => false
  | .failedToStart => false

def restartSidevmIfNeeded (currentBlock : ℕ) : Program Hash Unit := do
  let s ← get
  match s.sidevmInfo with
  | none => pure ()
  | some info =>
    match s.view info.handle with
    | .stopped reason =>
      when (reason.needRestart = true) do
        let handle ← doStartSidevm none
        alter fun s => { s with sidevmInfo := some { info with handle := handle } }
    | .running _ => when (info.config.deadline < currentBlock) (pushMessageToSidevm .stop)

def setWeight (weight : ℕ) : Program Hash Unit := do
  alter fun s => { s with weight := weight }
  let s ← get
  match s.sidevmHandle with
  | some (.running n) => trySend n (.updateWeight weight)
  | _ => pure ()

/-! ## The instances -/

def Instance.check (isStopped : ℕ → Bool) (i : Instance) : Instance :=
  match i.phase with
  | .starting none => { i with phase := .loading }
  | .starting (some prev) => { i with phase := if isStopped prev then .loading else .waiting prev }
  | _ => i

def Instance.changed (isStopped : ℕ → Bool) (i : Instance) : Instance :=
  match i.phase with
  | .waiting prev => if isStopped prev then { i with phase := .loading } else i
  | _ => i

def Instance.takeWaiting (i : Instance) : Command → Instance
  | .stop => { i with phase := .exited .stopped }
  | .updateWeight weight => { i with phase := .loading, weight := weight }
  | _ => { i with phase := .loading }

def Instance.takeRunning (i : Instance) : Command → Instance
  | .stop => { i with phase := .exited .stopped }
  | .updateWeight weight => { i with weight := weight }
  | _ => i

def Instance.receive (i : Instance) : Instance :=
  match i.commands with
  | [] => i
  | command :: commands =>
    match i.phase with
    | .waiting _ => { i with commands := commands }.takeWaiting command
    | .running => { i with commands := commands }.takeRunning command
    | _ => i

def Instance.load (ok : Bool) (i : Instance) : Instance :=
  match i.phase with
  | .loading => { i with phase := if ok then .running else .exited .failedToStart }
  | _ => i

inductive Ending where
  | returned (code : ℤ)
  | aborted (reason : OcallAborted)
  | panicked
  deriving DecidableEq

def Ending.reason : Ending → ExitReason
  | .returned code => .exited code
  | .aborted reason => .ocallAborted reason
  | .panicked => .panicked

def Instance.finish (ending : Ending) (i : Instance) : Instance :=
  match i.phase with
  | .running => { i with phase := .exited ending.reason }
  | _ => i

def Instance.report (i : Instance) : Instance :=
  match i.phase with
  | .exited reason => { i with handle := some reason }
  | _ => i

def Instance.signal (i : Instance) : Instance :=
  if i.handle.isSome then { i with stopped := true } else i

inductive Op (Hash : Type) where
  | startSidevm (code : SidevmCode Hash) (ensureWaitingCode : Bool) (config : SidevmConfig)
  | restartSidevmIfNeeded (currentBlock : ℕ)
  | pushMessage (message : Command)
  | setWeight (weight : ℕ)
  /-- A command from somebody who has a copy of the sender. -/
  | send (n : ℕ) (command : Command)
  | check (n : ℕ)
  | changed (n : ℕ)
  | receive (n : ℕ)
  | load (n : ℕ) (ok : Bool)
  | finish (n : ℕ) (ending : Ending)
  | report (n : ℕ)
  | signal (n : ℕ)

def Op.call (blake2 : List UInt8 → Hash) : Op Hash → Program Hash Unit
  | .startSidevm code ensureWaitingCode config =>
    SidevmService.startSidevm blake2 code ensureWaitingCode config
  | .restartSidevmIfNeeded currentBlock => SidevmService.restartSidevmIfNeeded currentBlock
  | .pushMessage message => pushMessageToSidevm message
  | .setWeight weight => SidevmService.setWeight weight
  | .send n command => trySend n command
  | .check n => alter fun s => s.modify n (·.check s.isStopped)
  | .changed n => alter fun s => s.modify n (·.changed s.isStopped)
  | .receive n => alter fun s => s.modify n Instance.receive
  | .load n ok => alter fun s => s.modify n (·.load ok)
  | .finish n ending => alter fun s => s.modify n (·.finish ending)
  | .report n => alter fun s => s.modify n Instance.report
  | .signal n => alter fun s => s.modify n Instance.signal

end Cyrux.SidevmService
