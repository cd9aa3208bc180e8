import Cyrux.Mq.SendQueue
import Mathlib

/-!
# The next sequence number of a sender

`crates/cyrux-node-rpc-ext/src/mq_seq.rs`
-/

namespace Cyrux.Mq

/-! ## Tags -/

inductive PoolTag
  | offchainMessages (sender : SenderId) (seq : ℕ)
  | other (tag : Bytes)
deriving DecidableEq

def tag (sender : SenderId) (seq : ℕ) : PoolTag := .offchainMessages sender seq

inductive InvalidTransaction
  | stale
deriving DecidableEq

structure ValidTransaction where
  provides : List PoolTag := []
  requires : List PoolTag := []

def validate (chain : Chain) (call : Option SignedMessage) :
    Except InvalidTransaction ValidTransaction :=
  match call with
  | none => .ok {}
  | some signedMessage =>
    let sender := signedMessage.message.sender
    let sequence := signedMessage.sequence
    let expectedSeq := (chain.offchainIngress sender).getD 0
    if sequence < expectedSeq then .error .stale
    else
      .ok {
        provides := [tag sender sequence]
        requires := if expectedSeq < sequence then [tag sender (sequence - 1)] else [] }

structure PoolTransaction where
  call : Option SignedMessage
  validatedAt : Chain
  valid : ValidTransaction
  accepted : validate validatedAt call = .ok valid
  provides : List PoolTag
  requires : List PoolTag
  provides_iff : ∀ sender seq, tag sender seq ∈ provides ↔ tag sender seq ∈ valid.provides
  requires_of_valid : ∀ t ∈ valid.requires, t ∈ requires

/-! ## The request -/

inductive MqSeqError
  | invalidSender
  | apiError
deriving DecidableEq

def nextSeq (sender : SenderId) : List PoolTransaction → ℕ → ℕ
  | [], currentSeq => currentSeq
  | tx :: ready, currentSeq =>
    if tag sender currentSeq ∈ tx.provides then nextSeq sender ready (currentSeq + 1)
    else nextSeq sender ready currentSeq

def getMqSeq (decodeSender : String → Option SenderId) (best : Option Chain)
    (ready : List PoolTransaction) (senderHex : String) : Except MqSeqError ℕ :=
  match decodeSender senderHex with
  | none => .error .invalidSender
  | some sender =>
    match best with
    | none => .error .apiError
    | some chain => .ok (nextSeq sender ready ((chain.offchainIngress sender).getD 0))

/-! ## Tags of a transaction -/

theorem validate_ok {chain : Chain} {call : Option SignedMessage} {valid : ValidTransaction}
    {sender : SenderId} {seq : ℕ} (accepted : validate chain call = .ok valid)
    (h : tag sender seq ∈ valid.provides) :
    valid.provides = [tag sender seq] ∧
      (chain.mqSequence sender < seq → tag sender (seq - 1) ∈ valid.requires) := by
  cases call with
  | none =>
    rw [← Except.ok.inj accepted] at h
    cases h
  | some signedMessage =>
    simp only [validate] at accepted
    split_ifs at accepted with hstale hahead
    all_goals
      rw [← Except.ok.inj accepted] at h ⊢
      simp only [tag, List.mem_singleton, PoolTag.offchainMessages.injEq] at h
      obtain ⟨rfl, rfl⟩ := h
    · exact ⟨rfl, fun _ => List.mem_singleton_self _⟩
    · exact ⟨rfl, fun hlt => absurd hlt hahead⟩

namespace PoolTransaction

variable {sender : SenderId} {seq seq' : ℕ} {tx : PoolTransaction}

theorem seq_unique (h : tag sender seq ∈ tx.provides) (h' : tag sender seq' ∈ tx.provides) :
    seq' = seq := by
  rw [tx.provides_iff] at h h'
  rw [(validate_ok tx.accepted h).1, List.mem_singleton] at h'
  exact (PoolTag.offchainMessages.inj h').2

theorem requires_previous (h : tag sender seq ∈ tx.provides)
    (hlt : tx.validatedAt.mqSequence sender < seq) : tag sender (seq - 1) ∈ tx.requires := by
  rw [tx.provides_iff] at h
  exact tx.requires_of_valid _ ((validate_ok tx.accepted h).2 hlt)

end PoolTransaction

/-! ## The loop -/

section

variable {sender : SenderId} {ready : List PoolTransaction} {c n : ℕ}

theorem le_nextSeq : c ≤ nextSeq sender ready c := by
  induction ready generalizing c with
  | nil => exact le_rfl
  | cons tx ready ih =>
    rw [nextSeq]
    split_ifs
    · exact Nat.le_of_succ_le ih
    · exact ih

theorem provided_of_lt_nextSeq {k : ℕ} (hk : c ≤ k) (hlt : k < nextSeq sender ready c) :
    ∃ tx ∈ ready, tag sender k ∈ tx.provides := by
  induction ready generalizing c with
  | nil => exact absurd hlt (Nat.not_lt.mpr hk)
  | cons tx ready ih =>
    rw [nextSeq] at hlt
    split_ifs at hlt with hc
    · rcases Nat.eq_or_lt_of_le hk with rfl | hlt'
      · exact ⟨tx, List.mem_cons_self, hc⟩
      · obtain ⟨tx', htx', hp⟩ := ih hlt' hlt
        exact ⟨tx', List.mem_cons_of_mem _ htx', hp⟩
    · obtain ⟨tx', htx', hp⟩ := ih hk hlt
      exact ⟨tx', List.mem_cons_of_mem _ htx', hp⟩

def Ordered (ready : List PoolTransaction) : Prop :=
  ready.Pairwise fun tx later => ∀ t ∈ tx.requires, t ∉ later.provides

theorem nextSeq_not_provided (ordered : Ordered ready)
    (validated : ∀ tx ∈ ready, tx.validatedAt.mqSequence sender ≤ n) (hn : n ≤ c) :
    ∀ tx ∈ ready, tag sender (nextSeq sender ready c) ∉ tx.provides := by
  induction ready generalizing c with
  | nil => exact fun tx htx => absurd htx List.not_mem_nil
  | cons tx ready ih =>
    unfold Ordered at ordered
    rw [List.pairwise_cons] at ordered
    have hvalidated := fun tx' htx' => validated tx' (List.mem_cons_of_mem _ htx')
    intro tx' htx'
    rw [nextSeq]
    split_ifs with hc
    · rcases List.mem_cons.mp htx' with rfl | htx'
      · intro hp
        have hle : c + 1 ≤ nextSeq sender ready (c + 1) := le_nextSeq
        have heq := PoolTransaction.seq_unique hc hp
        omega
      · exact ih ordered.2 hvalidated (by omega) tx' htx'
    · rcases List.mem_cons.mp htx' with rfl | htx'
      · intro hp
        have hle : c ≤ nextSeq sender ready c := le_nextSeq
        have hne : c ≠ nextSeq sender ready c := fun h => hc (by rw [h]; exact hp)
        have hbound := validated tx' List.mem_cons_self
        have hrequires := PoolTransaction.requires_previous hp (by omega)
        have hprevious : nextSeq sender ready c - 1 < nextSeq sender ready c := by omega
        obtain ⟨later, hlater, hprovides⟩ := provided_of_lt_nextSeq (by omega) hprevious
        exact ordered.1 later hlater _ hrequires hprovides
      · exact ih ordered.2 hvalidated hn tx' htx'

end

/-- `get_mq_seq` returns the least number that nothing ready provides. -/
theorem mq_seq_least (decodeSender : String → Option SenderId) (chain : Chain)
    (ready : List PoolTransaction) (senderHex : String) (sender : SenderId)
    (decoded : decodeSender senderHex = some sender)
    (ordered : Ordered ready)
    (validated : ∀ tx ∈ ready, tx.validatedAt.mqSequence sender ≤ chain.mqSequence sender) :
    ∃ s, getMqSeq decodeSender (some chain) ready senderHex = .ok s ∧
      IsLeast {s | chain.mqSequence sender ≤ s ∧
        ∀ tx ∈ ready, tag sender s ∉ tx.provides} s := by
  refine ⟨nextSeq sender ready (chain.mqSequence sender), ?_, ⟨le_nextSeq, ?_⟩, ?_⟩
  · unfold getMqSeq
    rw [decoded]
    rfl
  · exact nextSeq_not_provided ordered validated le_rfl
  · rintro s ⟨hle, hnone⟩
    by_contra hlt
    obtain ⟨tx, htx, hp⟩ := provided_of_lt_nextSeq hle (Nat.lt_of_not_le hlt)
    exact hnone tx htx hp

def PoolTransaction.ofMessage (chain : Chain) (message : SignedMessage) (valid : ValidTransaction)
    (accepted : validate chain (some message) = .ok valid) : PoolTransaction where
  call := some message
  validatedAt := chain
  valid := valid
  accepted := accepted
  provides := valid.provides
  requires := valid.requires
  provides_iff _ _ := Iff.rfl
  requires_of_valid _ h := h

def pooled (expected seq : ℕ) (h : expected < seq) : PoolTransaction :=
  .ofMessage { offchainIngress := fun _ => some expected }
    ⟨⟨.gatekeeper, ⟨[]⟩, []⟩, seq, []⟩ ⟨[tag .gatekeeper seq], [tag .gatekeeper (seq - 1)]⟩ (by
      simp [validate, h, Nat.not_lt.mpr h.le])

theorem mq_seq_least_two :
    ∃ s, getMqSeq (fun _ => some .gatekeeper) (some { offchainIngress := fun _ => some 2 })
        [pooled 1 2 (by decide), pooled 2 3 (by decide)] "00" = .ok s ∧
      IsLeast {s | (2 : ℕ) ≤ s ∧
        ∀ tx ∈ [pooled 1 2 (by decide), pooled 2 3 (by decide)],
          tag .gatekeeper s ∉ tx.provides} s :=
  mq_seq_least _ { offchainIngress := fun _ => some 2 } _ "00" .gatekeeper rfl
    (by unfold Ordered; decide) (by decide)

end Cyrux.Mq
