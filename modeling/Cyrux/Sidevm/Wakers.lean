import Mathlib
import Cyrux.Lib.Proc

/-!
# Wakers of a sidevm guest

`crates/sidevm/env/src/tasks.rs`
-/

namespace Cyrux.Sidevm

open Proc

structure GuestWaker (W : Type) where
  id : ℕ
  waker : W
  deriving DecidableEq

structure Notice (W : Type) where
  code : ℤ
  waker : W
  deriving DecidableEq

structure World (W R : Type) where
  /-- The slots of the guest. -/
  wakers : List (Option W) := []
  resources : List (Option R) := []
  awakeWakers : List (Notice W) := []
  /-- The `GuestWaker`s that the host has references to. -/
  held : List (GuestWaker W) := []
  /-- For every wake that has arrived, the waker it was for and the waker that was woken. -/
  woken : List (W × Option W) := []

inductive Fault where
  | notFound
  | resourceLimited
  | panic (message : String)
  deriving DecidableEq

variable {W R : Type}

abbrev Program (W R : Type) := Proc (World W R) Fault

/-! ## The guest -/

def maxNWakers : ℕ := (2 ^ 31 - 1) / 2

def internWaker (waker : W) : Program W R ℕ := do
  let s ← get
  match s.wakers.findIdx? Option.isNone with
  | some id =>
    alter fun s => { s with wakers := s.wakers.set id (some waker) }
    pure id
  | none =>
    ensure (s.wakers.length < maxNWakers) (.panic "Too many wakers")
    alter fun s => { s with wakers := s.wakers ++ [some waker] }
    pure s.wakers.length

def wakeWaker (wakerId : ℕ) (meant : W) : Program W R Unit :=
  alter fun s => { s with woken := s.woken ++ [(meant, s.wakers[wakerId]?.join)] }

def dropWaker (wakerId : ℕ) : Program W R Unit :=
  alter fun s => { s with wakers := s.wakers.set wakerId none }

def takeNotice (notice : Notice W) : Program W R Unit :=
  if 0 ≤ notice.code then
    wakeWaker notice.code.toNat notice.waker
  else
    dropWaker (-1 - notice.code).toNat

def sidevmPoll : Program W R Unit := do
  let s ← get
  alter fun s => { s with awakeWakers := [] }
  each takeNotice s.awakeWakers

/-! ## The host -/

def fromId (id : ℕ) (waker : W) : Program W R ℕ := do
  let s ← get
  alter fun s => { s with held := s.held ++ [⟨id, waker⟩] }
  pure s.held.length

def wakeGuestWaker (n : ℕ) : Program W R Unit := do
  let s ← get
  match s.held[n]? with
  | none => pure ()
  | some guest => alter fun s =>
    { s with awakeWakers := s.awakeWakers ++ [⟨guest.id, guest.waker⟩] }

def dropGuestWaker (n : ℕ) : Program W R Unit := do
  let s ← get
  match s.held[n]? with
  | none => pure ()
  | some guest =>
    alter fun s => { s with
      held := s.held.eraseIdx n
      awakeWakers := s.awakeWakers ++ [⟨-1 - guest.id, guest.waker⟩] }

def World.resource (s : World W R) (id : ℤ) : Option R :=
  if 0 ≤ id then s.resources[id.toNat]?.join else none

def getMut (id : ℤ) : Program W R R := do
  let s ← get
  demand (s.resource id) .notFound

def resourceIdMax : ℕ := 8192

def push (resource : R) : Program W R Unit := do
  let s ← get
  match s.resources.findIdx? Option.isNone with
  | some id => alter fun s => { s with resources := s.resources.set id (some resource) }
  | none =>
    ensure (s.resources.length < resourceIdMax) .resourceLimited
    alter fun s => { s with resources := s.resources ++ [some resource] }

def close (id : ℤ) : Program W R Unit := do
  let _ ← getMut id
  alter fun s => { s with resources := s.resources.set id.toNat none }

structure Outcome (R : Type) where
  /-- The waker is kept until the resource is ready. -/
  kept : Bool
  /-- The resource that `poll_res` or `tcp_accept` returns. -/
  made : Option R

def settle (n : ℕ) (outcome : Outcome R) : Program W R Unit :=
  when (outcome.kept = false) (dropGuestWaker n)

def pollResource (id : ℕ) (waker : W) (outcome : Outcome R) : Program W R Unit := do
  let n ← fromId id waker
  settle n outcome

def pushMade (outcome : Outcome R) : Program W R Unit :=
  match outcome.made with
  | none => pure ()
  | some resource => push resource

inductive Ocall where
  | poll
  | pollRead
  | pollWrite
  | pollShutdown
  | pollRes
  | tcpAccept
  deriving DecidableEq

def Ocall.looksUpFirst : Ocall → Bool
  | .tcpAccept => false
  | _ => true

def Ocall.call (id : ℕ) (waker : W) (resourceId : ℤ) (outcome : Outcome R) :
    Ocall → Program W R Unit
  | .poll | .pollRead | .pollWrite | .pollShutdown => do
    let _ ← getMut resourceId
    pollResource id waker outcome
  | .pollRes => do
    let _ ← getMut resourceId
    pollResource id waker outcome
    pushMade outcome
  | .tcpAccept => do
    let n ← fromId id waker
    let s ← get
    match s.resource resourceId with
    | none => do
      dropGuestWaker n
      throw .notFound
    | some _ => do
      settle n outcome
      pushMade outcome

inductive Op (W R : Type) where
  | poll (ocall : Ocall) (waker : W) (resourceId : ℤ) (outcome : Outcome R)
  | create (resource : R)
  | close (resourceId : ℤ)
  | wake (n : ℕ)
  | drop (n : ℕ)
  | sidevmPoll

def Op.call : Op W R → Program W R Unit
  | .poll ocall waker resourceId outcome => do
    let id ← internWaker waker
    ocall.call id waker resourceId outcome
  | .create resource => push resource
  | .close resourceId => Sidevm.close resourceId
  | .wake n => wakeGuestWaker n
  | .drop n => dropGuestWaker n
  | .sidevmPoll => Sidevm.sidevmPoll

end Cyrux.Sidevm
