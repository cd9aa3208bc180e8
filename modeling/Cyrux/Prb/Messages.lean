import Cyrux.Lib.Dict
import Cyrux.Lib.Proc
import Mathlib.Data.List.Infix

/-!
# Submission of offchain messages

`standalone/prb/src/messages.rs`
-/

namespace Cyrux.Prb.Messages

abbrev Text := List Char

def txTimeoutInBlocks : ℕ := 6

inductive MessageState
  | pending
  | successful
  | failure
  | timeout
  deriving DecidableEq

structure MessageContext where
  state : MessageState
  submittedAt : ℕ
  prevTryCount : ℕ

namespace MessageContext

def isPending (m : MessageContext) (currentHeight : ℕ) : Bool :=
  match m.state with
  | .timeout =>
    if currentHeight ≤ m.submittedAt then true
    else if currentHeight - m.submittedAt ≤ txTimeoutInBlocks then true
    else false
  | .pending =>
    if m.submittedAt < currentHeight ∧ txTimeoutInBlocks < currentHeight - m.submittedAt then false
    else true
  | _ => false

def isPendingOrSuccess (m : MessageContext) (currentHeight : ℕ) : Bool :=
  m.isPending currentHeight || m.state = .successful

def isTimeoutOrFailure (m : MessageContext) (currentHeight : ℕ) : Bool :=
  !m.isPendingOrSuccess currentHeight

end MessageContext

structure SenderContext where
  nodeNextSequence : ℕ
  pendingMessages : AList fun _ : ℕ => MessageContext := ∅

namespace SenderContext

def setMessage (context : SenderContext) (sequence : ℕ) (m : MessageContext) : SenderContext :=
  { context with pendingMessages := context.pendingMessages.insert sequence m }

def isUnderway (context : SenderContext) (currentHeight sequence : ℕ) : Bool :=
  match context.pendingMessages.lookup sequence with
  | some m => m.isPendingOrSuccess currentHeight
  | none => false

def skipUnderway (context : SenderContext) (currentHeight : ℕ) : ℕ → ℕ → ℕ
  | 0, next => next
  | rounds + 1, next =>
    if context.isUnderway currentHeight next then
      context.skipUnderway currentHeight rounds (next + 1)
    else next

def calculateNextSequence (context : SenderContext) (currentHeight : ℕ) : ℕ :=
  context.skipUnderway currentHeight (context.pendingMessages.entries.length + 1)
    context.nodeNextSequence

end SenderContext

structure Attempt (O : Type) where
  sender : O
  sequence : ℕ
  submittedAt : ℕ
  completed : Bool

structure Submission (O : Type) where
  sender : O
  sequence : ℕ
  context : SenderContext
  currentHeight : ℕ
  attempts : List (Attempt O)

structure Master (O : Type) where
  senderContexts : AList fun _ : O => SenderContext := ∅
  currentHeight : ℕ := 0
  /-- Messages sent on for a look at the next sequence of the chain. -/
  checks : List (O × List ℕ) := []
  /-- Errors shown to the workers. -/
  updates : List Text := []
  attempts : List (Attempt O) := []
  submissions : List (Submission O) := []

namespace Master

variable {O : Type} [DecidableEq O]

def filterMessages (w : Master O) (sender : O) (messages : List ℕ) : List ℕ :=
  match w.senderContexts.lookup sender with
  | some context => messages.filter fun sequence =>
      match context.pendingMessages.lookup sequence with
      | some m => m.isTimeoutOrFailure w.currentHeight
      | none => true
  | none => messages

def syncMessages (w : Master O) (sender : O) (messages : List ℕ) : Master O :=
  let messages := w.filterMessages sender messages
  if messages = [] then w else { w with checks := w.checks ++ [(sender, messages)] }

def submit (w : Master O) (sender : O) (context : SenderContext) (sequence tries : ℕ) : Master O :=
  { w with
    senderContexts := w.senderContexts.insert sender
      (context.setMessage sequence ⟨.pending, w.currentHeight, tries⟩)
    attempts := w.attempts ++ [⟨sender, sequence, w.currentHeight, false⟩]
    submissions := w.submissions ++ [⟨sender, sequence, context, w.currentHeight, w.attempts⟩] }

def doSyncMessage (sender : O) (w : Master O) (sequence : ℕ) : Master O :=
  match w.senderContexts.lookup sender with
  | none => w
  | some context =>
    if sequence ≠ context.calculateNextSequence w.currentHeight then w
    else match context.pendingMessages.lookup sequence with
      | some m =>
        if m.isPendingOrSuccess w.currentHeight then w
        else w.submit sender context sequence (m.prevTryCount + 1)
      | none => w.submit sender context sequence 0

def doSyncMessages (w : Master O) (sender : O) (messages : List ℕ) (nextSequence : Option ℕ) :
    Master O :=
  match w.senderContexts.lookup sender, nextSequence with
  | none, none => w
  | none, some nextSequence =>
    messages.foldl (doSyncMessage sender) { w with
      senderContexts := w.senderContexts.insert sender ⟨nextSequence, ∅⟩ }
  | some context, nextSequence =>
    messages.foldl (doSyncMessage sender) { w with
      senderContexts := w.senderContexts.insert sender { context with
        nodeNextSequence := nextSequence.getD context.nodeNextSequence } }

def isTimeout (err : Text) : Bool := "Tx timed out!".toList <:+: err

def stateOf : Except Text Unit → MessageState
  | .ok _ => .successful
  | .error err => if isTimeout err then .timeout else .failure

def updateOf (tries : ℕ) : Except Text Unit → List Text
  | .error err =>
    if 0 < tries then ["Sync offchain message met error, will retry. ".toList ++ err] else []
  | .ok _ => []

def completed (w : Master O) (sender : O) (sequence : ℕ) (result : Except Text Unit) : Master O :=
  match w.senderContexts.lookup sender with
  | none => w
  | some context =>
    match context.pendingMessages.lookup sequence with
    | none => w
    | some m =>
      { w with
        senderContexts := w.senderContexts.insert sender
          (context.setMessage sequence { m with state := stateOf result })
        updates := w.updates ++ updateOf m.prevTryCount result }

def removeSender (w : Master O) (sender : O) : Master O :=
  { w with senderContexts := w.senderContexts.erase sender }

end Master

inductive Event (O : Type)
  | syncMessages (sender : O) (messages : List ℕ)
  | doSyncMessages (sender : O) (messages : List ℕ) (nextSequence : Option ℕ)
  | completed (attempt : ℕ) (result : Except Text Unit)
  | removeSender (sender : O)
  | currentHeight (height : ℕ)

variable {O : Type} [DecidableEq O]

def Event.handle (event : Event O) (w : Master O) : Master O :=
  match event with
  | .syncMessages sender messages => w.syncMessages sender messages
  | .doSyncMessages sender messages nextSequence => w.doSyncMessages sender messages nextSequence
  | .completed i result =>
    match w.attempts[i]? with
    | none => w
    | some a =>
      if a.completed then w
      else { w with attempts := w.attempts.set i { a with completed := true } }.completed
        a.sender a.sequence result
  | .removeSender sender => w.removeSender sender
  | .currentHeight height => { w with currentHeight := height }

def Event.run (event : Event O) : Proc (Master O) Empty Unit := Proc.alter event.handle

end Cyrux.Prb.Messages
