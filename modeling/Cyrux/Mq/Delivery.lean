import Cyrux.Lib.SeqLog
import Cyrux.Mq.SendQueue

/-!
# Delivery of off-chain messages
-/

namespace Cyrux.Mq

/-! ## The system -/

structure Relay where
  queue : MessageSendQueue := .new
  chain : Chain := {}
  /-- The states of the chain so far, the latest first. -/
  past : List Chain := []
  /-- The messages that the relayer has read from the queue. -/
  relayed : List SignedMessage := []
  /-- Every message that was put into the queue, by sender. -/
  enqueued : SenderId → List SignedMessage := fun _ => []
  /-- Every message that the chain accepted. -/
  accepted : List SignedMessage := []

inductive Action
  /-- A component sends a message over its channel. -/
  | push (channel : MessageChannel) (payload : Bytes) (topic : Topic)
  /-- The relayer reads the queue of a sender. -/
  | fetch (sender : SenderId)
  /-- The enclave purges its queue, with an earlier state of the chain for each sender. -/
  | purge (age : SenderId → ℕ)
  /-- The relayer submits one of the messages it has read. -/
  | submit (signed : Bool) (index : ℕ)
  /-- The keys known to the chain change. -/
  | register (registry : Registry)

namespace Relay

def pastSequence (s : Relay) (age : SenderId → ℕ) (sender : SenderId) : ℕ :=
  ((s.chain :: s.past)[age sender]?.getD {}).mqSequence sender

def deliver (verify : Verifier) (s : Relay) (signed : Bool) (m : SignedMessage) : Relay :=
  match syncOffchainMessage verify signed m s.chain with
  | .ok (_, chain) =>
    { s with chain := chain, past := s.chain :: s.past, accepted := s.accepted ++ [m] }
  | .error _ => s

def step (verify : Verifier) (s : Relay) : Action → Relay
  | .push channel payload topic =>
    let m := (channel.prepareWithData payload topic).sign (s.queue.entry channel.sender).sequence
    { s with
      queue := channel.pushData s.queue payload topic
      enqueued := Function.update s.enqueued channel.sender (s.enqueued channel.sender ++ [m]) }
  | .fetch sender => { s with relayed := s.relayed ++ s.queue.messages sender }
  | .purge age => { s with queue := s.queue.purge (s.pastSequence age) }
  | .submit signed index =>
    match s.relayed[index]? with
    | some m => s.deliver verify signed m
    | none => s
  | .register registry =>
    { s with chain := { s.chain with registry := registry }, past := s.chain :: s.past }

def run (verify : Verifier) (actions : List Action) : Relay :=
  actions.foldl (step verify) {}

/-! ## What is preserved -/

def acceptedFrom (s : Relay) (k : SenderId) : List SignedMessage :=
  s.accepted.filter fun m => m.message.sender = k

structure InOrder (s : Relay) (k : SenderId) : Prop where
  numbered : Numbered SignedMessage.sequence (s.enqueued k)
  sender : ∀ m ∈ s.enqueued k, m.message.sender = k
  sequence : (s.queue.entry k).sequence = (s.enqueued k).length
  active : (s.queue.entry k).dummy = false
  messages : ∃ p ≤ s.chain.mqSequence k, (s.queue.entry k).messages = (s.enqueued k).drop p
  accepted : s.acceptedFrom k = (s.enqueued k).take (s.chain.mqSequence k)
  expected : s.chain.mqSequence k ≤ (s.enqueued k).length
  past : ∀ c ∈ s.past, c.mqSequence k ≤ s.chain.mqSequence k

structure Sound (s : Relay) : Prop where
  inOrder : ∀ k, s.InOrder k
  relayed : ∀ m ∈ s.relayed, m ∈ s.enqueued m.message.sender
  dispatched : s.chain.dispatched = s.accepted.map SignedMessage.message

variable {verify : Verifier} {s : Relay}

theorem Sound.init : Sound {} := by
  refine ⟨fun k => ?_, by simp, rfl⟩
  constructor
  case numbered => exact .nil
  case messages => exact ⟨0, le_rfl, rfl⟩
  all_goals simp [MessageSendQueue.new, MessageSendQueue.entry, acceptedFrom, Chain.mqSequence]

theorem InOrder.frame {s' : Relay} {k : SenderId} (h : s.InOrder k)
    (enqueued : s'.enqueued k = s.enqueued k) (entry : s'.queue.entry k = s.queue.entry k)
    (expected : s'.chain.mqSequence k = s.chain.mqSequence k)
    (accepted : s'.acceptedFrom k = s.acceptedFrom k)
    (past : ∀ c ∈ s'.past, c.mqSequence k ≤ s.chain.mqSequence k) : s'.InOrder k := by
  constructor
  all_goals simp only [enqueued, entry, expected, accepted]
  exacts [h.numbered, h.sender, h.sequence, h.active, h.messages, h.accepted, h.expected, past]

/-! ### The steps -/

def pushed (s : Relay) (channel : MessageChannel) (payload : Bytes) (topic : Topic) :
    SignedMessage :=
  (channel.prepareWithData payload topic).sign (s.queue.entry channel.sender).sequence

theorem InOrder.push {channel : MessageChannel} (h : s.InOrder channel.sender) (payload : Bytes)
    (topic : Topic) : (s.step verify (.push channel payload topic)).InOrder channel.sender := by
  obtain ⟨p, le, messages⟩ := h.messages
  have expected := h.expected
  have entry : (s.step verify (.push channel payload topic)).queue.entry channel.sender =
      { s.queue.entry channel.sender with
        messages := (s.queue.entry channel.sender).messages ++ [s.pushed channel payload topic]
        sequence := (s.queue.entry channel.sender).sequence + 1 } := by
    simp only [step, MessageChannel.pushData, MessageSendQueue.entry_enqueueMessage_self, h.active]
    rfl
  have enqueued : (s.step verify (.push channel payload topic)).enqueued channel.sender =
      s.enqueued channel.sender ++ [s.pushed channel payload topic] := Function.update_self ..
  constructor
  case numbered =>
    rw [enqueued]
    exact h.numbered.append h.sequence
  case sender =>
    rw [enqueued]
    intro m mem
    rcases List.mem_append.1 mem with old | new
    · exact h.sender m old
    · rw [List.mem_singleton.1 new]
      rfl
  case sequence => simp [entry, enqueued, h.sequence]
  case active => simp [entry, h.active]
  case messages =>
    refine ⟨p, le, ?_⟩
    rw [entry, enqueued, List.drop_append_of_le_length (by omega), ← messages]
  case accepted =>
    rw [enqueued]
    exact h.accepted.trans (List.take_append_of_le_length expected).symm
  case expected =>
    rw [enqueued, List.length_append]
    exact Nat.le_add_right_of_le expected
  case past => exact h.past

theorem Sound.push (h : s.Sound) (channel : MessageChannel) (payload : Bytes) (topic : Topic) :
    (s.step verify (.push channel payload topic)).Sound := by
  refine ⟨fun k => ?_, fun m mem => ?_, h.dispatched⟩
  · by_cases hk : k = channel.sender
    · subst hk
      exact (h.inOrder _).push payload topic
    · exact (h.inOrder k).frame (Function.update_of_ne hk _ _)
        (MessageSendQueue.entry_enqueueMessage_of_ne hk) rfl rfl (h.inOrder k).past
  · have old := h.relayed m mem
    by_cases hk : m.message.sender = channel.sender
    · simp only [step, hk, Function.update_self]
      exact List.mem_append_left _ (hk ▸ old)
    · simpa [step, hk] using old

theorem Sound.fetch (h : s.Sound) (sender : SenderId) : (s.step verify (.fetch sender)).Sound := by
  refine ⟨fun k => (h.inOrder k).frame rfl rfl rfl rfl (h.inOrder k).past, fun m mem => ?_,
    h.dispatched⟩
  rcases List.mem_append.1 mem with old | new
  · exact h.relayed m old
  · rw [MessageSendQueue.messages_eq] at new
    obtain ⟨p, -, messages⟩ := (h.inOrder sender).messages
    rw [messages] at new
    have mem := List.mem_of_mem_drop new
    rwa [(h.inOrder sender).sender m mem]

theorem InOrder.pastSequence_le {k : SenderId} (h : s.InOrder k) (age : SenderId → ℕ) :
    s.pastSequence age k ≤ s.chain.mqSequence k := by
  unfold pastSequence
  cases found : (s.chain :: s.past)[age k]? with
  | none => exact Nat.zero_le _
  | some c =>
    rcases List.mem_cons.1 (List.mem_of_getElem? found) with rfl | old
    · exact le_rfl
    · exact h.past c old

theorem Sound.purge (h : s.Sound) (age : SenderId → ℕ) : (s.step verify (.purge age)).Sound := by
  refine ⟨fun k => ?_, h.relayed, h.dispatched⟩
  have old := h.inOrder k
  have entry : (s.step verify (.purge age)).queue.entry k = _ := MessageSendQueue.entry_purge
  obtain ⟨p, le, messages⟩ := old.messages
  constructor
  case messages =>
    refine ⟨max p (s.pastSequence age k), Nat.max_le.2 ⟨le, old.pastSequence_le age⟩, ?_⟩
    rw [entry, messages]
    exact old.numbered.filter_drop p _
  case sequence => exact (congrArg Channel.sequence entry).trans old.sequence
  case active => exact (congrArg Channel.dummy entry).trans old.active
  exacts [old.numbered, old.sender, old.accepted, old.expected, old.past]

theorem Sound.accept (h : s.Sound) {m : SignedMessage} (mem : m ∈ s.enqueued m.message.sender)
    {chain : Chain} (expected : m.sequence = s.chain.mqSequence m.message.sender)
    (dispatched : chain.dispatched = s.chain.dispatched ++ [m.message])
    (next : ∀ k, chain.mqSequence k =
      if k = m.message.sender then m.sequence + 1 else s.chain.mqSequence k) :
    Sound { s with
      chain := chain
      past := s.chain :: s.past
      accepted := s.accepted ++ [m] } := by
  have later : ∀ k, s.chain.mqSequence k ≤ chain.mqSequence k := by
    intro k
    rw [next]
    split_ifs with hk
    · rw [hk, expected]
      exact Nat.le_succ _
    · exact le_rfl
  refine ⟨fun k => ?_, h.relayed, ?_⟩
  · have old := h.inOrder k
    have past : ∀ c ∈ s.chain :: s.past, c.mqSequence k ≤ chain.mqSequence k := by
      intro c mem
      rcases List.mem_cons.1 mem with rfl | old'
      · exact later k
      · exact Nat.le_trans (old.past c old') (later k)
    have from' : acceptedFrom { s with
        chain := chain, past := s.chain :: s.past, accepted := s.accepted ++ [m] } k =
        s.acceptedFrom k ++ if m.message.sender = k then [m] else [] := by
      unfold acceptedFrom
      by_cases hk : m.message.sender = k <;> simp [hk]
    by_cases hk : k = m.message.sender
    · subst hk
      have next : chain.mqSequence m.message.sender = m.sequence + 1 := by
        rw [next, if_pos rfl]
      obtain ⟨p, le, messages⟩ := old.messages
      constructor
      case messages => exact ⟨p, Nat.le_trans le (later _), messages⟩
      case accepted =>
        rw [from', if_pos rfl, old.accepted]
        change _ = (s.enqueued m.message.sender).take (chain.mqSequence m.message.sender)
        rw [next, ← expected]
        exact (old.numbered.take_succ mem).symm
      case expected =>
        change chain.mqSequence m.message.sender ≤ _
        rw [next]
        exact old.numbered.seq_lt mem
      case past => exact past
      exacts [old.numbered, old.sender, old.sequence, old.active]
    · have same : chain.mqSequence k = s.chain.mqSequence k := by rw [next, if_neg hk]
      refine old.frame rfl rfl same ?_ fun c mem => same ▸ past c mem
      rw [from', if_neg fun e => hk e.symm, List.append_nil]
  · change chain.dispatched = (s.accepted ++ [m]).map SignedMessage.message
    rw [dispatched, h.dispatched, List.map_append]
    rfl

theorem Sound.submit (h : s.Sound) (signed : Bool) (index : ℕ) :
    (s.step verify (.submit signed index)).Sound := by
  simp only [step]
  cases found : s.relayed[index]? with
  | none => exact h
  | some m =>
    have spec := syncOffchainMessage_spec verify signed m s.chain
    have mem := h.relayed m (List.mem_of_getElem? found)
    simp only [deliver]
    split
    · rename_i pays chain accepted
      obtain ⟨expected, dispatched, next⟩ := spec.of_ok accepted
      exact h.accept mem expected dispatched next
    · exact h

theorem Sound.step (h : s.Sound) (a : Action) : (s.step verify a).Sound := by
  cases a with
  | push channel payload topic => exact h.push channel payload topic
  | fetch sender => exact h.fetch sender
  | purge age => exact h.purge age
  | submit signed index => exact h.submit signed index
  | register registry =>
    refine ⟨fun k => (h.inOrder k).frame rfl rfl rfl rfl fun c mem => ?_, h.relayed, h.dispatched⟩
    rcases List.mem_cons.1 mem with rfl | old
    · exact le_rfl
    · exact (h.inOrder k).past c old

theorem Sound.run (verify : Verifier) (actions : List Action) : (run verify actions).Sound := by
  suffices all : ∀ s : Relay, s.Sound → (actions.foldl (Relay.step verify) s).Sound from
    all {} .init
  induction actions with
  | nil => exact fun s h => h
  | cons a actions ih => exact fun s h => ih _ (h.step a)

end Relay

open Relay in
/-- The chain accepts the messages of a sender in order, each once. -/
theorem offchain_messages_delivered_in_order (verify : Verifier) (actions : List Action)
    (k : SenderId) :
    let s := run verify actions
    s.acceptedFrom k <+: s.enqueued k ∧ (s.acceptedFrom k).Nodup ∧
    s.chain.dispatched = s.accepted.map SignedMessage.message ∧
    ∀ m ∈ s.enqueued k, m ∉ s.acceptedFrom k → m ∈ s.queue.messages k := by
  intro s
  have sound : s.Sound := Sound.run verify actions
  have order := sound.inOrder k
  rw [order.accepted]
  refine ⟨List.take_prefix _ _, order.numbered.nodup.sublist (List.take_sublist _ _),
    sound.dispatched, fun m mem left => ?_⟩
  obtain ⟨p, le, messages⟩ := order.messages
  rw [MessageSendQueue.messages_eq, messages]
  rw [order.numbered.mem_take_iff mem] at left
  rw [List.mem_iff_getElem?]
  refine ⟨m.sequence - p, ?_⟩
  rw [List.getElem?_drop, Nat.add_sub_cancel' (by omega)]
  exact order.numbered.getElem?_seq mem

end Cyrux.Mq
