import Cyrux.Lib.Exec
import Mathlib.Data.List.Basic
import Mathlib.Logic.Function.Basic

/-!
# The message queue

`crates/cyrux-mq/src/send_queue.rs`
-/

namespace Cyrux.Mq

open Exec

abbrev Bytes := List UInt8

/-! ## Messages -/

inductive MessageOrigin
  | pallet (name : Bytes)
  | contract (id : Bytes)
  | worker (pubkey : Bytes)
  | accountId (id : Bytes)
  | multiLocation (location : Bytes)
  | gatekeeper
  | cluster (id : Bytes)
  | reserved
deriving DecidableEq

abbrev SenderId := MessageOrigin

def MessageOrigin.isOffchain : MessageOrigin → Bool
  | .cluster _ | .contract _ | .worker _ | .gatekeeper => true
  | _ => false

structure Topic where
  path : Bytes
deriving DecidableEq

def Topic.reservedBytes : Bytes :=
  [0x7e, 0x21, 0x40, 0x23, 0x24, 0x25, 0x26, 0x2a, 0x5f, 0x2b, 0x2d, 0x3d, 0x7c, 0x3c, 0x3e, 0x3f,
    0x2c, 0x2e, 0x2f, 0x3b, 0x3a, 0x27]

def Topic.isValid (t : Topic) : Bool :=
  match t.path with
  | [] => false
  | b :: _ => b ∉ reservedBytes

structure Message where
  sender : SenderId
  destination : Topic
  payload : Bytes
deriving DecidableEq

structure SignedMessage where
  message : Message
  sequence : ℕ
  signature : Bytes
deriving DecidableEq

abbrev MessageSigner := Message → ℕ → Bytes

structure SigningMessage where
  message : Message
  signer : MessageSigner

def SigningMessage.sign (m : SigningMessage) (sequence : ℕ) : SignedMessage :=
  ⟨m.message, sequence, m.signer m.message sequence⟩

/-! ## The send queue -/

structure Channel where
  sequence : ℕ := 0
  messages : List SignedMessage := []
  dummy : Bool := false

abbrev MessageSendQueue := SenderId → Option Channel

namespace MessageSendQueue

def new : MessageSendQueue := fun _ => none

def entry (q : MessageSendQueue) (sender : SenderId) : Channel := (q sender).getD {}

def enqueueMessage (q : MessageSendQueue) (sender : SenderId)
    (constructor : ℕ → SignedMessage) : MessageSendQueue :=
  let entry := q.entry sender
  let messages :=
    if entry.dummy then entry.messages else entry.messages ++ [constructor entry.sequence]
  Function.update q sender
    (some { entry with messages := messages, sequence := entry.sequence + 1 })

def setDummyMode (q : MessageSendQueue) (sender : SenderId) (dummy : Bool) : MessageSendQueue :=
  Function.update q sender (some { q.entry sender with dummy := dummy })

def messages (q : MessageSendQueue) (sender : SenderId) : List SignedMessage :=
  ((q sender).map Channel.messages).getD []

def purge (q : MessageSendQueue) (nextSequenceFor : SenderId → ℕ) : MessageSendQueue := fun k =>
  (q k).map fun v =>
    { v with messages := v.messages.filter fun msg => nextSequenceFor k ≤ msg.sequence }

section

variable {q : MessageSendQueue} {sender k : SenderId} {constructor : ℕ → SignedMessage}

theorem messages_eq : q.messages k = (q.entry k).messages := by
  unfold messages entry
  cases q k <;> rfl

theorem entry_enqueueMessage_self : (q.enqueueMessage sender constructor).entry sender =
    { q.entry sender with
      messages := if (q.entry sender).dummy then (q.entry sender).messages
        else (q.entry sender).messages ++ [constructor (q.entry sender).sequence]
      sequence := (q.entry sender).sequence + 1 } := by
  simp [enqueueMessage, entry]

theorem entry_enqueueMessage_of_ne (h : k ≠ sender) :
    (q.enqueueMessage sender constructor).entry k = q.entry k := by
  simp [enqueueMessage, entry, h]

theorem entry_purge {next : SenderId → ℕ} : (q.purge next).entry k =
    { q.entry k with
      messages := (q.entry k).messages.filter fun msg => next k ≤ msg.sequence } := by
  cases h : q k <;> simp [purge, entry, h]

end

end MessageSendQueue

structure MessageChannel where
  sender : SenderId
  signer : MessageSigner

def MessageChannel.prepareWithData (c : MessageChannel) (payload : Bytes) (topic : Topic) :
    SigningMessage :=
  ⟨⟨c.sender, topic, payload⟩, c.signer⟩

def MessageChannel.pushData (c : MessageChannel) (q : MessageSendQueue) (payload : Bytes)
    (topic : Topic) : MessageSendQueue :=
  q.enqueueMessage c.sender (c.prepareWithData payload topic).sign

/-! ## The chain -/

structure Registry where
  clusterKeys : Bytes → Option Bytes := fun _ => none
  contractKeys : Bytes → Option Bytes := fun _ => none
  gatekeeperMasterPubkey : Option Bytes := none

inductive MqError
  | badOrigin
  | badSender
  | badSequence
  | badDestination
  | unknownCluster
  | unknownContract
  | masterKeyUninitialized
  | cannotHandleUnknownMessage
  | invalidSignatureLength
  | invalidSignature
deriving DecidableEq

abbrev Verifier := (signature : Bytes) → Message → (sequence : ℕ) → (pubkey : Bytes) → Bool

structure Chain where
  offchainIngress : SenderId → Option ℕ := fun _ => none
  dispatched : List Message := []
  registry : Registry := {}

def Chain.mqSequence (c : Chain) (sender : SenderId) : ℕ := (c.offchainIngress sender).getD 0

def pubkeyOf (r : Registry) : MessageOrigin → Exec Chain MqError Bytes
  | .worker pubkey => pure pubkey
  | .cluster id => demand (r.clusterKeys id) .unknownCluster
  | .contract id => demand (r.contractKeys id) .unknownContract
  | .gatekeeper => demand r.gatekeeperMasterPubkey .masterKeyUninitialized
  | _ => throw .cannotHandleUnknownMessage

def checkMessage (verify : Verifier) (m : SignedMessage) : Exec Chain MqError Unit := do
  let c ← get
  let pubkey ← pubkeyOf c.registry m.message.sender
  ensure (m.signature.length = 64) .invalidSignatureLength
  ensure (verify m.signature m.message m.sequence pubkey = true) .invalidSignature

def dispatchMessage (m : Message) : Exec Chain MqError Unit :=
  alter fun c => { c with dispatched := c.dispatched ++ [m] }

inductive Pays
  | yes
  | no

def syncOffchainMessage (verify : Verifier) (signed : Bool) (m : SignedMessage) :
    Exec Chain MqError Pays := do
  ensure (signed = true) .badOrigin
  let sender := m.message.sender
  ensure (sender.isOffchain = true) .badSender
  ensure (m.message.destination.isValid = true) .badDestination
  let c ← get
  let expectedSeq := c.mqSequence sender
  ensure (m.sequence = expectedSeq) .badSequence
  checkMessage verify m
  alter fun c => { c with
    offchainIngress := Function.update c.offchainIngress sender (some (expectedSeq + 1)) }
  dispatchMessage m.message
  pure (if sender = .gatekeeper then .no else .yes)

theorem checkMessage_spec (verify : Verifier) (m : SignedMessage) (c : Chain) :
    Sat (checkMessage verify m) c (fun _ c' => c' = c) (fun _ => True) := by
  refine Sat.get_bind (Sat.bind (R := fun _ c' => c' = c) (F := fun _ => True) ?_
    (fun _ _ => trivial) ?_)
  · unfold pubkeyOf
    split <;> simp
  · rintro pubkey c rfl
    refine Sat.ensure_bind (fun _ => ?_) fun _ => trivial
    simp

theorem syncOffchainMessage_spec (verify : Verifier) (signed : Bool) (m : SignedMessage)
    (c : Chain) :
    Sat (syncOffchainMessage verify signed m) c
      (fun _ c' => m.sequence = c.mqSequence m.message.sender ∧
        c'.dispatched = c.dispatched ++ [m.message] ∧
        ∀ k, c'.mqSequence k =
          if k = m.message.sender then m.sequence + 1 else c.mqSequence k)
      (fun _ => True) := by
  refine Sat.ensure_bind (fun _ => ?_) fun _ => trivial
  refine Sat.ensure_bind (fun _ => ?_) fun _ => trivial
  refine Sat.ensure_bind (fun _ => ?_) fun _ => trivial
  refine Sat.get_bind (Sat.ensure_bind (fun expected => ?_) fun _ => trivial)
  refine (checkMessage_spec verify m c).bind (fun _ _ => trivial) ?_
  rintro _ c rfl
  refine Sat.alter_bind (Sat.alter_bind ⟨expected, rfl, fun k => ?_⟩)
  by_cases h : k = m.message.sender
  · simp [Chain.mqSequence, h, expected]
  · simp [Chain.mqSequence, h]

end Cyrux.Mq
