import Cyrux.Prb.Messages

/-!
# Messages that are out are not submitted again
-/

namespace Cyrux.Prb.Messages

variable {O : Type}

def Attempt.Live (a : Attempt O) (currentHeight : ℕ) : Prop :=
  a.completed = false ∧ currentHeight - a.submittedAt ≤ txTimeoutInBlocks

instance (a : Attempt O) (currentHeight : ℕ) : Decidable (a.Live currentHeight) :=
  inferInstanceAs (Decidable (_ ∧ _))

structure Submission.Safe (s : Submission O) : Prop where
  in_order : ∀ n, s.context.nodeNextSequence ≤ n → n < s.sequence →
    ∃ m, s.context.pendingMessages.lookup n = some m ∧ m.isPendingOrSuccess s.currentHeight
  alone : ∀ a ∈ s.attempts, a.sender = s.sender → a.sequence = s.sequence →
    ¬ a.Live s.currentHeight

/-! ## The next sequence -/

namespace SenderContext

variable {context : SenderContext} {currentHeight next n rounds : ℕ}

theorem isUnderway_of_lt (hle : next ≤ n)
    (hlt : n < context.skipUnderway currentHeight rounds next) :
    context.isUnderway currentHeight n = true := by
  induction rounds generalizing next with
  | zero => exact absurd (hle.trans_lt hlt) (lt_irrefl next)
  | succ rounds ih =>
    unfold skipUnderway at hlt
    split at hlt
    · rename_i hnext
      obtain rfl | hlt' := Nat.eq_or_lt_of_le hle
      · exact hnext
      · exact ih hlt' hlt
    · exact absurd (hle.trans_lt hlt) (lt_irrefl next)

end SenderContext

/-! ## The invariant -/

structure Covers (currentHeight : ℕ) (m : MessageContext) (a : Attempt O) : Prop where
  submitted_le : a.submittedAt ≤ m.submittedAt
  submitted_le_current : m.submittedAt ≤ currentHeight
  live : a.Live currentHeight → m.state ≠ .failure

theorem Covers.not_live {currentHeight : ℕ} {m : MessageContext} {a : Attempt O}
    (h : Covers currentHeight m a) (hfree : m.isPendingOrSuccess currentHeight = false) :
    ¬ a.Live currentHeight := by
  intro hlive
  have hage := hlive.2
  have hsubmitted := h.submitted_le
  have hfailure := h.live hlive
  unfold MessageContext.isPendingOrSuccess MessageContext.isPending at hfree
  cases hstate : m.state with
  | failure => exact hfailure hstate
  | successful =>
    rw [hstate] at hfree
    cases hfree
  | pending =>
    rw [hstate] at hfree
    dsimp only at hfree
    split at hfree
    · omega
    · cases hfree
  | timeout =>
    rw [hstate] at hfree
    dsimp only at hfree
    split at hfree
    · cases hfree
    · split at hfree
      · cases hfree
      · omega

variable [DecidableEq O] {w w' : Master O}

def Master.message (w : Master O) (sender : O) (sequence : ℕ) : Option MessageContext :=
  (w.senderContexts.lookup sender).bind fun context => context.pendingMessages.lookup sequence

structure Master.Orderly (w : Master O) : Prop where
  covered : ∀ a ∈ w.attempts, ∃ m, w.message a.sender a.sequence = some m ∧
    Covers w.currentHeight m a
  safe : ∀ s ∈ w.submissions, s.Safe

namespace Master

theorem orderly_new : Orderly ({} : Master O) := ⟨nofun, nofun⟩

theorem message_insert {sender sender' : O} {context : SenderContext} {sequence sequence' : ℕ}
    {m : MessageContext} (hcontext : w.senderContexts.lookup sender = some context) :
    ({ w with senderContexts :=
        w.senderContexts.insert sender (context.setMessage sequence m) } : Master O).message
      sender' sequence' =
      if sender' = sender ∧ sequence' = sequence then some m else w.message sender' sequence' := by
  unfold message SenderContext.setMessage
  by_cases hsender : sender' = sender
  · subst hsender
    rw [AList.lookup_insert, hcontext]
    dsimp only [Option.bind_some]
    by_cases hsequence : sequence' = sequence
    · rw [if_pos ⟨rfl, hsequence⟩, hsequence, AList.lookup_insert]
    · rw [if_neg fun hboth => hsequence hboth.2, AList.lookup_insert_ne hsequence]
  · rw [if_neg fun hboth => hsender hboth.1, AList.lookup_insert_ne hsender]

theorem Orderly.submit (h : w.Orderly) {sender : O} {context : SenderContext} {sequence tries : ℕ}
    (hcontext : w.senderContexts.lookup sender = some context)
    (hnext : sequence = context.calculateNextSequence w.currentHeight)
    (hfree : ∀ m, context.pendingMessages.lookup sequence = some m →
      m.isPendingOrSuccess w.currentHeight = false) :
    (w.submit sender context sequence tries).Orderly := by
  have hmessage : w.message sender sequence = context.pendingMessages.lookup sequence := by
    unfold message
    rw [hcontext]
    rfl
  have hchanged : ∀ sender' sequence', (w.submit sender context sequence tries).message sender'
      sequence' = if sender' = sender ∧ sequence' = sequence then
        some ⟨.pending, w.currentHeight, tries⟩ else w.message sender' sequence' :=
    fun _ _ => message_insert hcontext
  constructor
  · intro a ha
    change ∃ m, (w.submit sender context sequence tries).message _ _ = some m ∧
      Covers w.currentHeight m a
    rw [hchanged]
    obtain ha | ha := List.mem_append.1 ha
    · obtain ⟨m, hm, hcovers⟩ := h.covered a ha
      split
      · exact ⟨_, rfl, hcovers.submitted_le.trans hcovers.submitted_le_current, le_rfl, nofun⟩
      · exact ⟨m, hm, hcovers⟩
    · obtain rfl := List.mem_singleton.1 ha
      rw [if_pos ⟨rfl, rfl⟩]
      exact ⟨_, rfl, le_rfl, le_rfl, nofun⟩
  · intro s hs
    obtain hs | hs := List.mem_append.1 hs
    · exact h.safe s hs
    · obtain rfl := List.mem_singleton.1 hs
      refine ⟨fun n hle hlt => ?_, fun a ha hsender hsequence => ?_⟩
      · rw [hnext] at hlt
        have hunderway := SenderContext.isUnderway_of_lt hle hlt
        unfold SenderContext.isUnderway at hunderway
        split at hunderway
        · rename_i m hm
          exact ⟨m, hm, hunderway⟩
        · cases hunderway
      · obtain ⟨m, hm, hcovers⟩ := h.covered a ha
        rw [hsender, hsequence, hmessage] at hm
        exact hcovers.not_live (hfree m hm)

theorem Orderly.doSyncMessage (h : w.Orderly) (sender : O) (sequence : ℕ) :
    (doSyncMessage sender w sequence).Orderly := by
  unfold Master.doSyncMessage
  split
  · exact h
  · rename_i context hcontext
    split
    · exact h
    · rename_i hnext
      have hnext := not_not.1 hnext
      split
      · rename_i m hm
        split
        · exact h
        · rename_i hfree
          apply h.submit hcontext hnext
          intro m' hm'
          rw [hm] at hm'
          cases hm'
          exact Bool.eq_false_iff.2 hfree
      · rename_i hnone
        apply h.submit hcontext hnext
        intro m hm
        rw [hnone] at hm
        cases hm

theorem Orderly.doSyncMessages (h : w.Orderly) (sender : O) (messages : List ℕ)
    (nextSequence : Option ℕ) : (w.doSyncMessages sender messages nextSequence).Orderly := by
  have hloop : ∀ w : Master O, w.Orderly →
      (messages.foldl (Master.doSyncMessage sender) w).Orderly := by
    intro w hw
    induction messages generalizing w with
    | nil => exact hw
    | cons sequence messages ih => exact ih _ (hw.doSyncMessage sender sequence)
  -- The next sequence of the chain is no part of the invariant.
  have hcontext : ∀ context : SenderContext,
      (∀ n, (w.senderContexts.lookup sender).bind (fun c => c.pendingMessages.lookup n) =
        context.pendingMessages.lookup n) →
      Orderly { w with senderContexts := w.senderContexts.insert sender context } := by
    intro context hsame
    refine ⟨fun a ha => ?_, h.safe⟩
    obtain ⟨m, hm, hcovers⟩ := h.covered a ha
    refine ⟨m, ?_, hcovers⟩
    rw [← hm]
    unfold message
    by_cases hsender : a.sender = sender
    · rw [hsender, AList.lookup_insert, hsame]
      rfl
    · rw [AList.lookup_insert_ne hsender]
  unfold Master.doSyncMessages
  split
  · exact h
  · rename_i hnone
    apply hloop
    apply hcontext
    intro n
    rw [hnone]
    rfl
  · rename_i context _ hsome
    apply hloop
    apply hcontext
    intro n
    rw [hsome]
    rfl

theorem Orderly.completed (h : w.Orderly) {i : ℕ} {a : Attempt O} (ha : w.attempts[i]? = some a)
    {result : Except Text Unit}
    (hothers : stateOf result = .failure → ∀ b ∈ w.attempts.eraseIdx i,
      b.sender = a.sender → b.sequence = a.sequence → ¬ b.Live w.currentHeight) :
    ({ w with attempts := w.attempts.set i { a with completed := true } }.completed a.sender
      a.sequence result).Orderly := by
  obtain ⟨m, hm, -⟩ := h.covered a (List.mem_of_getElem? ha)
  obtain ⟨context, hcontext, hmessage⟩ := Option.bind_eq_some_iff.1 hm
  unfold Master.completed
  rw [hcontext]
  dsimp only
  rw [hmessage]
  dsimp only
  refine ⟨fun b hb => ?_, h.safe⟩
  change b ∈ w.attempts.set i _ at hb
  -- The attempt itself is not out any more, and the others are as they were.
  have hold : b = { a with completed := true } ∨ b ∈ w.attempts.eraseIdx i := by
    obtain ⟨j, hj, hget⟩ := List.getElem_of_mem hb
    rw [List.length_set] at hj
    rw [List.getElem_set] at hget
    split at hget
    · exact Or.inl hget.symm
    · rename_i hne
      refine Or.inr (List.mem_eraseIdx_iff_getElem.2 ⟨j, hj, Ne.symm hne, hget⟩)
  have hcovered : ∃ m', w.message b.sender b.sequence = some m' ∧ Covers w.currentHeight m' b := by
    obtain rfl | hb := hold
    · obtain ⟨m', hm', hcovers⟩ := h.covered a (List.mem_of_getElem? ha)
      exact ⟨m', hm', hcovers.submitted_le, hcovers.submitted_le_current, nofun⟩
    · exact h.covered b (List.mem_of_mem_eraseIdx hb)
  obtain ⟨m', hm', hcovers⟩ := hcovered
  have hinsert : ({ w with
      senderContexts := w.senderContexts.insert a.sender
        (context.setMessage a.sequence { m with state := stateOf result }) } : Master O).message
      b.sender b.sequence = if b.sender = a.sender ∧ b.sequence = a.sequence then
        some { m with state := stateOf result } else w.message b.sender b.sequence :=
    message_insert hcontext
  refine ⟨if b.sender = a.sender ∧ b.sequence = a.sequence then { m with state := stateOf result }
    else m', ?_, ?_⟩
  · refine hinsert.trans ?_
    split
    · rfl
    · exact hm'
  · split
    · rename_i hsame
      rw [hsame.1, hsame.2, hm] at hm'
      cases hm'
      refine ⟨hcovers.submitted_le, hcovers.submitted_le_current, fun hlive hfailure => ?_⟩
      obtain rfl | hb := hold
      · cases hlive.1
      · exact hothers hfailure b hb hsame.1 hsame.2 hlive
    · exact hcovers

theorem Orderly.currentHeight (h : w.Orderly) {height : ℕ} (hle : w.currentHeight ≤ height) :
    Orderly { w with currentHeight := height } := by
  refine ⟨fun a ha => ?_, h.safe⟩
  obtain ⟨m, hm, hcovers⟩ := h.covered a ha
  refine ⟨m, hm, hcovers.submitted_le, hcovers.submitted_le_current.trans hle, fun hlive => ?_⟩
  refine hcovers.live ⟨hlive.1, ?_⟩
  have hage := hlive.2
  dsimp only at hage
  omega

end Master

/-! ## Runs -/

def Event.Ordinary (w : Master O) : Event O → Prop
  | .removeSender _ => False
  | .currentHeight height => w.currentHeight ≤ height
  | .syncMessages .. | .doSyncMessages .. | .completed .. => True

def Event.Timely (w : Master O) : Event O → Prop
  | .completed i result => Master.stateOf result = .failure → ∀ a ∈ w.attempts[i]?,
      ∀ b ∈ w.attempts.eraseIdx i, b.sender = a.sender → b.sequence = a.sequence →
        ¬ b.Live w.currentHeight
  | _ => True

instance (w : Master O) (event : Event O) : Decidable (event.Ordinary w) :=
  match event with
  | .removeSender _ => inferInstanceAs (Decidable False)
  | .currentHeight height => inferInstanceAs (Decidable (w.currentHeight ≤ height))
  | .syncMessages .. | .doSyncMessages .. | .completed .. => inferInstanceAs (Decidable True)

instance (w : Master O) (event : Event O) : Decidable (event.Timely w) :=
  match event with
  | .completed i result => inferInstanceAs (Decidable (Master.stateOf result = .failure →
      ∀ a ∈ w.attempts[i]?, ∀ b ∈ w.attempts.eraseIdx i, b.sender = a.sender →
        b.sequence = a.sequence → ¬ b.Live w.currentHeight))
  | .removeSender _ | .currentHeight _ | .syncMessages .. | .doSyncMessages .. =>
    inferInstanceAs (Decidable True)

theorem Event.handle_orderly (h : w.Orderly) {event : Event O} (hordinary : event.Ordinary w)
    (htimely : event.Timely w) : (event.handle w).Orderly := by
  cases event with
  | syncMessages sender messages =>
    have hchecks : ∀ checks, Master.Orderly { w with checks := checks } :=
      fun _ => ⟨h.covered, h.safe⟩
    change (w.syncMessages sender messages).Orderly
    unfold Master.syncMessages
    dsimp only
    split
    · exact h
    · exact hchecks _
  | doSyncMessages sender messages nextSequence =>
    exact h.doSyncMessages sender messages nextSequence
  | completed i result =>
    unfold Event.handle
    dsimp only
    split
    · exact h
    · rename_i a ha
      split
      · exact h
      · exact h.completed ha fun hfailure => htimely hfailure a ha
  | removeSender sender => exact hordinary.elim
  | currentHeight height => exact h.currentHeight hordinary

open Proc

/-- A message is submitted only when all before it are pending or successful. -/
theorem submissions_safe (events : List (Event O))
    (hordinary : Throughout Event.run Event.Ordinary ({} : Master O) events)
    (htimely : Throughout Event.run Event.Timely ({} : Master O) events) :
    ∀ s ∈ (afterCalls Event.run ({} : Master O) events).submissions,
      (∀ n, s.context.nodeNextSequence ≤ n → n < s.sequence →
        ∃ m, s.context.pendingMessages.lookup n = some m ∧ m.isPendingOrSuccess s.currentHeight) ∧
      ∀ a ∈ s.attempts, a.sender = s.sender → a.sequence = s.sequence →
        ¬ (a.completed = false ∧ s.currentHeight - a.submittedAt ≤ txTimeoutInBlocks) := by
  have horderly : (afterCalls Event.run ({} : Master O) events).Orderly := by
    apply Runs.afterCalls _ Master.orderly_new (hordinary.and htimely)
    exact fun w event h hallowed => Event.handle_orderly h hallowed.1 hallowed.2
  exact fun s hs => ⟨(horderly.safe s hs).in_order, (horderly.safe s hs).alone⟩

theorem submissions_safe_retried :
    let late : Text := "Tx timed out!".toList
    let events : List (Event ℕ) := [.syncMessages 1 [0], .doSyncMessages 1 [0] (some 0),
      .currentHeight 7, .doSyncMessages 1 [0] none, .completed 0 (.error late),
      .doSyncMessages 1 [0] none, .completed 1 (.error []), .doSyncMessages 1 [0] none]
    let w := afterCalls Event.run ({} : Master ℕ) events
    w.submissions.length = 3 ∧ ∀ s ∈ w.submissions, ∀ a ∈ s.attempts, a.sender = s.sender →
      a.sequence = s.sequence →
        ¬ (a.completed = false ∧ s.currentHeight - a.submittedAt ≤ txTimeoutInBlocks) := by
  intro late events
  refine ⟨by decide +kernel, fun s hs => (submissions_safe events ?_ ?_ s hs).2⟩ <;>
    decide +kernel

theorem submission_of_live_message :
    let events : List (Event ℕ) := [.doSyncMessages 1 [0] (some 0), .currentHeight 7,
      .doSyncMessages 1 [0] none, .completed 0 (.error []), .doSyncMessages 1 [0] none]
    let w := afterCalls Event.run ({} : Master ℕ) events
    Throughout Event.run Event.Ordinary ({} : Master ℕ) events ∧
      ∃ s ∈ w.submissions, ∃ a ∈ s.attempts, a.sender = s.sender ∧ a.sequence = s.sequence ∧
        a.completed = false ∧ s.currentHeight - a.submittedAt ≤ txTimeoutInBlocks := by
  decide +kernel

end Cyrux.Prb.Messages
