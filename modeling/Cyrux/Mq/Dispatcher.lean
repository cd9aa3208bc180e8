import Cyrux.Mq.Select
import Mathlib

/-!
# The dispatcher

`crates/cyrux-mq/src/dispatcher.rs`
-/

namespace Cyrux.Mq.Dispatch

variable {T : Type}

structure Receiver where
  inner : Channel
  topic : Bytes

structure MessageDispatcher where
  subscribers : Bytes → List ℕ := fun _ => []
  localIndex : ℕ := 0
  receivers : List Receiver := []

theorem Channel.tryNext_taken (ch : Channel) :
    ch.tryNext.2.receiverCount = ch.receiverCount ∧
      ch.tryNext.1.toOption.join.toList ++ ch.tryNext.2.deque = ch.deque := by
  unfold Channel.tryNext
  cases h : ch.deque with
  | nil => split_ifs <;> simp [h, Except.toOption]
  | cons value rest => simp [Except.toOption]

namespace MessageDispatcher

def subscribe (d : MessageDispatcher) (path : Bytes) : MessageDispatcher :=
  { d with
    subscribers := Function.update d.subscribers path (d.subscribers path ++ [d.receivers.length])
    receivers := d.receivers ++ [⟨{}, path⟩] }

def sendAll (value : ℕ × Message) : List ℕ → List Receiver → List ℕ × List Receiver
  | [], rs => ([], rs)
  | i :: ids, rs =>
    match rs[i]? with
    | none => sendAll value ids rs
    | some r =>
      match r.inner.send value with
      | none => sendAll value ids rs
      | some ch =>
        let (kept, rs) := sendAll value ids (rs.set i { r with inner := ch })
        (i :: kept, rs)

def dispatch (d : MessageDispatcher) (message : Message) : MessageDispatcher :=
  let path := message.destination.path
  let (kept, receivers) := sendAll (d.localIndex, message) (d.subscribers path) d.receivers
  { subscribers := Function.update d.subscribers path kept
    localIndex := d.localIndex + 1
    receivers }

def clear (d : MessageDispatcher) : MessageDispatcher :=
  { d with receivers := d.receivers.mapIdx fun i r =>
      if i ∈ d.subscribers r.topic then { r with inner := r.inner.clear } else r }

def take (d : MessageDispatcher) (i : ℕ) : MessageDispatcher :=
  { d with receivers := d.receivers.modify i fun r => { r with inner := r.inner.tryNext.2 } }

def dropReceiver (d : MessageDispatcher) (i : ℕ) : MessageDispatcher :=
  { d with receivers := d.receivers.modify i fun r =>
      { r with inner := { r.inner with receiverCount := r.inner.receiverCount - 1 } } }

inductive Step : MessageDispatcher → MessageDispatcher → Prop
  | subscribe (d path) : Step d (d.subscribe path)
  | dispatch (d message) : Step d (d.dispatch message)
  | clear (d) : Step d d.clear
  | take (d i) : Step d (d.take i)
  | dropReceiver (d i) : Step d (d.dropReceiver i)

/-! ### Numbers of queued messages -/

structure Numbered (d : MessageDispatcher) : Prop where
  subscribed : ∀ p i, i ∈ d.subscribers p → (d.receivers.map Receiver.topic)[i]? = some p
  nodup : ∀ p, (d.subscribers p).Nodup
  increasing : ∀ r ∈ d.receivers, r.inner.deque.Pairwise fun a b => a.1 < b.1
  entry : ∀ r ∈ d.receivers, ∀ e ∈ r.inner.deque,
    e.1 < d.localIndex ∧ e.2.destination.path = r.topic
  same : ∀ r ∈ d.receivers, ∀ r' ∈ d.receivers, ∀ e ∈ r.inner.deque, ∀ e' ∈ r'.inner.deque,
    e.1 = e'.1 → e.2 = e'.2

variable {d d' : MessageDispatcher}

theorem Numbered.new : Numbered {} :=
  ⟨by simp, by simp, by simp, by simp, by simp⟩

def Shrinks (rs rs' : List Receiver) : Prop :=
  rs'.map Receiver.topic = rs.map Receiver.topic ∧
    ∀ r' ∈ rs', ∃ r ∈ rs, r'.topic = r.topic ∧ r'.inner.deque.Sublist r.inner.deque

theorem Numbered.shrink (h : Numbered d) {rs' : List Receiver} (hs : Shrinks d.receivers rs') :
    Numbered { d with receivers := rs' } where
  subscribed p i hi := by
    show (rs'.map Receiver.topic)[i]? = some p
    rw [hs.1]
    exact h.subscribed p i hi
  nodup := h.nodup
  increasing r' hr' := by
    obtain ⟨r, hr, -, hsub⟩ := hs.2 r' hr'
    exact (h.increasing r hr).sublist hsub
  entry r' hr' e he := by
    obtain ⟨r, hr, ht, hsub⟩ := hs.2 r' hr'
    rw [ht]
    exact h.entry r hr e (hsub.subset he)
  same r₁' hr₁' r₂' hr₂' e he e' he' := by
    obtain ⟨r₁, hr₁, -, hsub₁⟩ := hs.2 r₁' hr₁'
    obtain ⟨r₂, hr₂, -, hsub₂⟩ := hs.2 r₂' hr₂'
    exact h.same r₁ hr₁ r₂ hr₂ e (hsub₁.subset he) e' (hsub₂.subset he')

theorem shrinks_mapIdx {rs : List Receiver} {f : ℕ → Receiver → Receiver}
    (ht : ∀ i r, (f i r).topic = r.topic)
    (hd : ∀ i r, (f i r).inner.deque.Sublist r.inner.deque) : Shrinks rs (rs.mapIdx f) := by
  constructor
  · apply List.ext_getElem? fun i => ?_
    simp only [List.getElem?_map, List.getElem?_mapIdx, Option.map_map]
    congr 1
    funext r
    exact ht i r
  · intro r' hr'
    obtain ⟨i, hi, rfl⟩ := List.mem_mapIdx.mp hr'
    exact ⟨rs[i], List.getElem_mem hi, ht i _, hd i _⟩

theorem modify_eq_mapIdx (rs : List Receiver) (i : ℕ) (f : Receiver → Receiver) :
    rs.modify i f = rs.mapIdx fun j r => if i = j then f r else r := by
  apply List.ext_getElem? fun j => ?_
  by_cases hij : i = j <;> simp [hij]

theorem shrinks_modify {rs : List Receiver} {i : ℕ} {f : Receiver → Receiver}
    (ht : ∀ r, (f r).topic = r.topic) (hd : ∀ r, (f r).inner.deque.Sublist r.inner.deque) :
    Shrinks rs (rs.modify i f) := by
  rw [modify_eq_mapIdx]
  refine shrinks_mapIdx (fun j r => ?_) fun j r => ?_
  · split_ifs
    · exact ht r
    · rfl
  · split_ifs
    · exact hd r
    · exact List.Sublist.refl _

theorem tryNext_deque_sublist (ch : Channel) : ch.tryNext.2.deque.Sublist ch.deque := by
  unfold Channel.tryNext
  split
  · next value rest heq =>
    rw [heq]
    exact List.sublist_cons_self _ _
  · split_ifs <;> exact List.Sublist.refl _

theorem Numbered.subscribe (h : Numbered d) (path : Bytes) : Numbered (d.subscribe path) := by
  have hcases : ∀ r ∈ (d.subscribe path).receivers, r ∈ d.receivers ∨ r.inner.deque = [] := by
    intro r hr
    rcases List.mem_append.mp hr with hr | hr
    · exact Or.inl hr
    · obtain rfl : r = ⟨{}, path⟩ := by simpa using hr
      exact Or.inr rfl
  have hlt : ∀ p i, i ∈ d.subscribers p → i < d.receivers.length := by
    intro p i hi
    simpa using (List.getElem?_eq_some_iff.mp (h.subscribed p i hi)).1
  refine ⟨fun p i hi => ?_, fun p => ?_, fun r hr => ?_, fun r hr e he => ?_,
    fun r hr r' hr' e he e' he' => ?_⟩
  · show ((d.receivers ++ [(⟨{}, path⟩ : Receiver)]).map Receiver.topic)[i]? = some p
    rw [List.map_append]
    have hold : i ∈ d.subscribers p →
        (d.receivers.map Receiver.topic ++ [path])[i]? = some p := by
      intro hi
      rw [List.getElem?_append_left (by simpa using hlt p i hi)]
      exact h.subscribed p i hi
    by_cases hp : p = path
    · subst hp
      have hi' : i ∈ d.subscribers p ++ [d.receivers.length] := by
        simpa [MessageDispatcher.subscribe] using hi
      rcases List.mem_append.mp hi' with hi' | hi'
      · exact hold hi'
      · obtain rfl : i = d.receivers.length := by simpa using hi'
        simp
    · exact hold (by simpa [MessageDispatcher.subscribe, hp] using hi)
  · show (Function.update d.subscribers path _ p).Nodup
    by_cases hp : p = path
    · subst hp
      rw [Function.update_self, List.nodup_append]
      refine ⟨h.nodup p, List.nodup_singleton _, fun a ha b hb => ?_⟩
      obtain rfl : b = d.receivers.length := by simpa using hb
      exact (hlt p a ha).ne
    · rw [Function.update_of_ne hp]
      exact h.nodup p
  · rcases hcases r hr with hr | hnil
    · exact h.increasing r hr
    · rw [hnil]
      exact List.Pairwise.nil
  · rcases hcases r hr with hr | hnil
    · exact h.entry r hr e he
    · rw [hnil] at he
      cases he
  · rcases hcases r hr with hr | hnil
    · rcases hcases r' hr' with hr' | hnil'
      · exact h.same r hr r' hr' e he e' he'
      · rw [hnil'] at he'
        cases he'
    · rw [hnil] at he
      cases he

theorem sendAll_spec {value : ℕ × Message} {ids : List ℕ} {rs : List Receiver}
    (hnodup : ids.Nodup) :
    (sendAll value ids rs).1.Sublist ids ∧
    (sendAll value ids rs).2.map Receiver.topic = rs.map Receiver.topic ∧
    ∀ j r', (sendAll value ids rs).2[j]? = some r' → ∃ r, rs[j]? = some r ∧
      r'.topic = r.topic ∧ (r'.inner.deque = r.inner.deque ∨
        j ∈ ids ∧ r'.inner.deque = r.inner.deque ++ [value]) := by
  induction ids generalizing rs with
  | nil => exact ⟨List.Sublist.refl _, rfl, fun j r' h => ⟨r', h, rfl, Or.inl rfl⟩⟩
  | cons i ids ih =>
    rw [List.nodup_cons] at hnodup
    -- a sender that is dropped leaves the rest of the loop
    have hskip : (sendAll value ids rs).1.Sublist (i :: ids) ∧
        (sendAll value ids rs).2.map Receiver.topic = rs.map Receiver.topic ∧
        ∀ j r', (sendAll value ids rs).2[j]? = some r' → ∃ r, rs[j]? = some r ∧
          r'.topic = r.topic ∧ (r'.inner.deque = r.inner.deque ∨
            j ∈ i :: ids ∧ r'.inner.deque = r.inner.deque ++ [value]) := by
      obtain ⟨h1, h2, h3⟩ := @ih rs hnodup.2
      refine ⟨h1.cons i, h2, fun j r' hj => ?_⟩
      obtain ⟨r, hr, ht, hd | ⟨hmem, hd⟩⟩ := h3 j r' hj
      · exact ⟨r, hr, ht, Or.inl hd⟩
      · exact ⟨r, hr, ht, Or.inr ⟨List.mem_cons_of_mem i hmem, hd⟩⟩
    unfold sendAll
    cases hi : rs[i]? with
    | none => exact hskip
    | some r =>
      cases hsend : r.inner.send value with
      | none => simpa only [hsend] using hskip
      | some ch =>
        have hch : ch.deque = r.inner.deque ++ [value] := by
          unfold Channel.send at hsend
          split_ifs at hsend
          cases hsend
          rfl
        obtain ⟨h1, h2, h3⟩ := @ih (rs.set i { r with inner := ch }) hnodup.2
        simp only [hsend]
        obtain ⟨hlt, hget⟩ := List.getElem?_eq_some_iff.mp hi
        refine ⟨h1.cons_cons i, ?_, fun j r' hj => ?_⟩
        · rw [h2, List.map_set]
          subst hget
          have := @List.set_getElem_self _ (rs.map Receiver.topic) i (by simpa using hlt)
          simpa using this
        · obtain ⟨r₁, hr₁, ht, hd⟩ := h3 j r' hj
          rw [List.getElem?_set] at hr₁
          by_cases hij : i = j
          · subst hij
            rw [if_pos rfl, if_pos hlt] at hr₁
            cases hr₁
            rcases hd with hd | ⟨hmem, -⟩
            · exact ⟨r, hi, ht, Or.inr ⟨List.mem_cons_self, hd.trans hch⟩⟩
            · exact absurd hmem hnodup.1
          · rw [if_neg hij] at hr₁
            rcases hd with hd | ⟨hmem, hd⟩
            · exact ⟨r₁, hr₁, ht, Or.inl hd⟩
            · exact ⟨r₁, hr₁, ht, Or.inr ⟨List.mem_cons_of_mem i hmem, hd⟩⟩

theorem Numbered.dispatch (h : Numbered d) (message : Message) : Numbered (d.dispatch message) := by
  obtain ⟨hkept, htopics, hget⟩ := @sendAll_spec (d.localIndex, message) _
    d.receivers (h.nodup message.destination.path)
  -- every entry of a queue afterwards is an old one of the same topic, or the new one
  have hentry : ∀ r' ∈ (d.dispatch message).receivers, ∃ r ∈ d.receivers, r'.topic = r.topic ∧
      ∀ e ∈ r'.inner.deque, e ∈ r.inner.deque ∨
        e = (d.localIndex, message) ∧ message.destination.path = r.topic := by
    intro r' hr'
    obtain ⟨j, hj⟩ := List.getElem?_of_mem hr'
    obtain ⟨r, hr, ht, hd | ⟨hmem, hd⟩⟩ := hget j r' hj
    · exact ⟨r, List.mem_of_getElem? hr, ht, fun e he => Or.inl (hd ▸ he)⟩
    · have htopic := h.subscribed _ j hmem
      rw [List.getElem?_map, hr] at htopic
      refine ⟨r, List.mem_of_getElem? hr, ht, fun e he => ?_⟩
      rw [hd, List.mem_append, List.mem_singleton] at he
      rcases he with he | he
      · exact Or.inl he
      · exact Or.inr ⟨he, by simpa using htopic.symm⟩
  refine ⟨fun p i hi => ?_, fun p => ?_, fun r' hr' => ?_, fun r' hr' e he => ?_,
    fun r₁' hr₁' r₂' hr₂' e he e' he' heq => ?_⟩
  · show ((sendAll _ _ d.receivers).2.map Receiver.topic)[i]? = some p
    rw [htopics]
    change i ∈ Function.update d.subscribers _ _ p at hi
    by_cases hp : p = message.destination.path
    · subst hp
      rw [Function.update_self] at hi
      exact h.subscribed _ i (hkept.subset hi)
    · rw [Function.update_of_ne hp] at hi
      exact h.subscribed p i hi
  · show (Function.update d.subscribers _ _ p).Nodup
    by_cases hp : p = message.destination.path
    · subst hp
      rw [Function.update_self]
      exact (h.nodup _).sublist hkept
    · rw [Function.update_of_ne hp]
      exact h.nodup p
  · obtain ⟨j, hj⟩ := List.getElem?_of_mem hr'
    obtain ⟨r, hr, -, hd⟩ := hget j r' hj
    have hmem := List.mem_of_getElem? hr
    rcases hd with hd | ⟨-, hd⟩
    · rw [hd]
      exact h.increasing r hmem
    · rw [hd, List.pairwise_append]
      refine ⟨h.increasing r hmem, List.pairwise_singleton _ _, fun a ha b hb => ?_⟩
      obtain rfl : b = (d.localIndex, message) := by simpa using hb
      exact (h.entry r hmem a ha).1
  · obtain ⟨r, hr, ht, hcases⟩ := hentry r' hr'
    rw [ht]
    rcases hcases e he with hold | ⟨rfl, hp⟩
    · exact ⟨Nat.lt_succ_of_lt (h.entry r hr e hold).1, (h.entry r hr e hold).2⟩
    · exact ⟨Nat.lt_succ_self _, hp⟩
  · obtain ⟨r₁, hr₁, -, hcases₁⟩ := hentry r₁' hr₁'
    obtain ⟨r₂, hr₂, -, hcases₂⟩ := hentry r₂' hr₂'
    rcases hcases₁ e he with hold₁ | ⟨rfl, -⟩ <;> rcases hcases₂ e' he' with hold₂ | ⟨rfl, -⟩
    · exact h.same r₁ hr₁ r₂ hr₂ e hold₁ e' hold₂ heq
    · exact absurd heq (h.entry r₁ hr₁ e hold₁).1.ne
    · exact absurd heq.symm (h.entry r₂ hr₂ e' hold₂).1.ne
    · rfl

theorem Numbered.step (h : Numbered d) (hs : Step d d') : Numbered d' := by
  cases hs with
  | subscribe path => exact h.subscribe path
  | dispatch message => exact h.dispatch message
  | clear =>
    refine h.shrink (shrinks_mapIdx (fun i r => ?_) fun i r => ?_)
    · split_ifs <;> rfl
    · split_ifs
      · exact List.nil_sublist _
      · exact List.Sublist.refl _
  | take i => exact h.shrink (shrinks_modify (fun _ => rfl) fun r => tryNext_deque_sublist r.inner)
  | dropReceiver i => exact h.shrink (shrinks_modify (fun _ => rfl) fun r => List.Sublist.refl _)

abbrev Run (d : MessageDispatcher) : Prop := Reach (fun d => d = {}) Step d

theorem numbered_of_run (h : Run d) : Numbered d := by
  refine Reach.invariant ?_ (fun _ _ hn hs => hn.step hs) h
  rintro _ rfl
  exact Numbered.new

theorem number_ne_of_topic_ne (h : Run d) {r r' : Receiver} (hr : r ∈ d.receivers)
    (hr' : r' ∈ d.receivers) (hne : r.topic ≠ r'.topic) {e e' : ℕ × Message}
    (he : e ∈ r.inner.deque) (he' : e' ∈ r'.inner.deque) : e.1 ≠ e'.1 := by
  have hn := numbered_of_run h
  intro heq
  have hmsg := hn.same r hr r' hr' e he e' he' heq
  apply hne
  rw [← (hn.entry r hr e he).2, ← (hn.entry r' hr' e' he').2, hmsg]

def typed (chosen : List (Receiver × (Bytes → Option T))) : List (TypedReceiver T) :=
  chosen.map fun c => ⟨c.1.inner, c.2⟩

theorem queuedFrom_pairwise_ne {rs : List (TypedReceiver T)} {k : ℕ}
    (hinc : ∀ r ∈ rs, r.queue.deque.Pairwise fun a b => a.1 < b.1)
    (hne : rs.Pairwise fun r r' => ∀ e ∈ r.queue.deque, ∀ e' ∈ r'.queue.deque, e.1 ≠ e'.1) :
    (queuedFrom k rs).Pairwise fun a b => a.sn ≠ b.sn := by
  induction rs generalizing k with
  | nil => exact List.Pairwise.nil
  | cons r rs ih =>
    rw [List.pairwise_cons] at hne
    rw [queuedFrom, List.pairwise_append]
    refine ⟨?_, ih (fun r' hr' => hinc r' (List.mem_cons_of_mem _ hr')) hne.2, ?_⟩
    · rw [List.pairwise_map]
      exact (hinc r List.mem_cons_self).imp fun h => h.ne
    · intro a ha b hb
      obtain ⟨e, he, rfl⟩ := List.mem_map.mp ha
      obtain ⟨j, r', hj, e', he', rfl⟩ := mem_queuedFrom.mp hb
      exact hne.1 r' (List.mem_of_getElem? hj) e he e' he'

/-- What `select!` hands over follows the order of dispatch. -/
theorem select_follows_dispatch (h : Run d) {chosen : List (Receiver × (Bytes → Option T))}
    (hmem : ∀ c ∈ chosen, c.1 ∈ d.receivers)
    (htopics : chosen.Pairwise fun c c' => c.1.topic ≠ c'.1.topic)
    (live : ∀ c ∈ chosen, 0 < c.1.inner.senderCount)
    (decodes : ∀ c ∈ chosen, ∀ e ∈ c.1.inner.deque, e.2.sender.alwaysWellFormed →
      (c.2 e.2.payload).isSome) :
    ∃ order : List (Queued T), order.Perm (queued (typed chosen)) ∧
      order.Pairwise (fun a b => a.sn < b.sn) ∧
      ∀ fuel, (queued (typed chosen)).length < fuel →
        selectLoop recordArm fuel (typed chosen) =
          .ok (order.map fun a => (a.ind, a.bound), emptied (typed chosen)) := by
  have hinc : ∀ r ∈ typed chosen, r.queue.deque.Pairwise fun a b => a.1 < b.1 := by
    intro r hr
    obtain ⟨c, hc, rfl⟩ := List.mem_map.mp hr
    exact (numbered_of_run h).increasing c.1 (hmem c hc)
  have hgood : ∀ r ∈ typed chosen, Good r := by
    intro r hr
    have := hinc r hr
    obtain ⟨c, hc, rfl⟩ := List.mem_map.mp hr
    exact ⟨live c hc, this, decodes c hc⟩
  have hne : (typed chosen).Pairwise fun r r' =>
      ∀ e ∈ r.queue.deque, ∀ e' ∈ r'.queue.deque, e.1 ≠ e'.1 := by
    unfold typed
    rw [List.pairwise_map]
    refine htopics.imp_of_mem fun {c c'} hc hc' hct e he e' he' => ?_
    exact number_ne_of_topic_ne h (hmem c hc) (hmem c' hc') hct he he'
  obtain ⟨order, hperm, hsorted, hrun⟩ := selectLoop_takes hgood rfl
  refine ⟨order, hperm, ?_, fun fuel hfuel => ?_⟩
  · apply strictly_of_before hsorted
    exact (hperm.pairwise_iff fun h => Ne.symm h).mpr (queuedFrom_pairwise_ne hinc hne)
  · rw [hrun recordArm _ (fun a _ => recordArm_bound a) fuel hfuel, List.map_eq_flatMap]

def twoTopics : MessageDispatcher :=
  (((({} : MessageDispatcher).subscribe [1]).subscribe [2]).dispatch
    ⟨.contract [5], ⟨[2]⟩, [7]⟩).dispatch ⟨.contract [5], ⟨[1]⟩, [8]⟩

theorem twoTopics_run : Run twoTopics := by
  have h₀ : Run {} := Reach.init rfl
  have h₁ := (h₀.step (Step.subscribe _ [1])).step (Step.subscribe _ [2])
  exact (h₁.step (Step.dispatch _ _)).step (Step.dispatch _ _)

theorem select_follows_dispatch_twoTopics :
    let chosen := twoTopics.receivers.map fun r => (r, (some : Bytes → Option Bytes))
    ∃ order : List (Queued Bytes), order.Perm (queued (typed chosen)) ∧
      order.Pairwise (fun a b => a.sn < b.sn) ∧
      selectLoop recordArm 3 (typed chosen) =
        .ok (order.map fun a => (a.ind, a.bound), emptied (typed chosen)) := by
  intro chosen
  have hmem : ∀ c ∈ chosen, c.1 ∈ twoTopics.receivers := by simp [chosen]
  obtain ⟨order, hperm, hsorted, hrun⟩ :=
    select_follows_dispatch twoTopics_run hmem (by decide) (by decide) (by decide)
  exact ⟨order, hperm, hsorted, hrun 3 (by decide)⟩

/-! ### Every subscriber gets every message -/

theorem sendAll_of_notMem {value : ℕ × Message} {ids : List ℕ} {rs : List Receiver} {i : ℕ}
    (h : i ∉ ids) : (sendAll value ids rs).2[i]? = rs[i]? := by
  induction ids generalizing rs with
  | nil => rfl
  | cons j ids ih =>
    rw [List.mem_cons, not_or] at h
    unfold sendAll
    split
    · exact ih h.2
    · split
      · exact ih h.2
      · exact (ih h.2).trans (List.getElem?_set_ne (Ne.symm h.1))

theorem sendAll_of_mem {value : ℕ × Message} {ids : List ℕ} {rs : List Receiver} {i : ℕ}
    {r : Receiver} (nodup : ids.Nodup) (mem : i ∈ ids) (hr : rs[i]? = some r)
    (live : r.inner.receiverCount ≠ 0) :
    i ∈ (sendAll value ids rs).1 ∧ (sendAll value ids rs).2[i]? =
      some { r with inner := { r.inner with deque := r.inner.deque ++ [value] } } := by
  induction ids generalizing rs with
  | nil => cases mem
  | cons j ids ih =>
    rw [List.nodup_cons] at nodup
    unfold sendAll
    rcases List.mem_cons.mp mem with rfl | mem
    · obtain ⟨hlt, -⟩ := List.getElem?_eq_some_iff.mp hr
      simp only [hr, Channel.send, if_neg live]
      exact ⟨List.mem_cons_self, by rw [sendAll_of_notMem nodup.1, List.getElem?_set_self hlt]⟩
    · have hne : j ≠ i := fun h => nodup.1 (h ▸ mem)
      split
      · exact ih nodup.2 mem hr
      · split
        · exact ih nodup.2 mem hr
        · obtain ⟨hmem, hget⟩ := @ih (rs.set j _) nodup.2 mem ((List.getElem?_set_ne hne).trans hr)
          exact ⟨List.mem_cons_of_mem _ hmem, hget⟩

inductive Action
  | subscribe (path : Bytes)
  | dispatch (message : Message)
  | take (receiver : ℕ)
  | dropReceiver (receiver : ℕ)

def act (d : MessageDispatcher) : Action → MessageDispatcher
  | .subscribe path => d.subscribe path
  | .dispatch message => d.dispatch message
  | .take j => d.take j
  | .dropReceiver j => d.dropReceiver j

theorem Step.act (d : MessageDispatcher) (a : Action) : Step d (d.act a) := by
  cases a <;> constructor

def sent (path : Bytes) (d : MessageDispatcher) : Action → List (ℕ × Message)
  | .dispatch m => if m.destination.path = path then [(d.localIndex, m)] else []
  | _ => []

def got (i : ℕ) (d : MessageDispatcher) : Action → List (ℕ × Message)
  | .take j => if j = i then
      (d.receivers[i]?.bind fun r => r.inner.tryNext.1.toOption.join).toList else []
  | _ => []

def collect (f : MessageDispatcher → Action → List (ℕ × Message)) (d : MessageDispatcher) :
    List Action → List (ℕ × Message)
  | [] => []
  | a :: actions => f d a ++ collect f (d.act a) actions

theorem act_receiver (hn : Numbered d) {i : ℕ} {r : Receiver} (hr : d.receivers[i]? = some r)
    (subscribed : i ∈ d.subscribers r.topic) (live : r.inner.receiverCount ≠ 0) {a : Action}
    (held : a ≠ .dropReceiver i) :
    ∃ r', (d.act a).receivers[i]? = some r' ∧ r'.topic = r.topic ∧
      r'.inner.receiverCount ≠ 0 ∧ i ∈ (d.act a).subscribers r.topic ∧
      got i d a ++ r'.inner.deque = r.inner.deque ++ sent r.topic d a := by
  cases a with
  | subscribe path =>
    obtain ⟨hlt, -⟩ := List.getElem?_eq_some_iff.mp hr
    refine ⟨r, (List.getElem?_append_left hlt).trans hr, rfl, live, ?_, by simp [got, sent]⟩
    by_cases hpath : r.topic = path
    · simp [act, subscribe, ← hpath, subscribed]
    · simp [act, subscribe, Function.update_of_ne hpath, subscribed]
  | dispatch m =>
    by_cases hpath : m.destination.path = r.topic
    · obtain ⟨hmem, hget⟩ := @sendAll_of_mem (d.localIndex, m) _ _ _ _
        (hn.nodup r.topic) subscribed hr live
      rw [← hpath] at hmem hget
      exact ⟨_, hget, hpath, live, by simpa [act, dispatch, ← hpath] using hmem,
        by simp [got, sent, hpath]⟩
    · have hother : i ∉ d.subscribers m.destination.path := by
        intro hi
        have htopic := hn.subscribed _ i hi
        rw [List.getElem?_map, hr] at htopic
        exact hpath (by simpa using htopic.symm)
      exact ⟨r, (sendAll_of_notMem hother).trans hr, rfl, live,
        by simpa [act, dispatch, Function.update_of_ne (Ne.symm hpath)] using subscribed,
        by simp [got, sent, hpath]⟩
  | take j =>
    by_cases hj : j = i
    · subst hj
      obtain ⟨count, queue⟩ := r.inner.tryNext_taken
      exact ⟨{ r with inner := r.inner.tryNext.2 }, by simp [act, take, hr], rfl,
        count.trans_ne live, subscribed, by simpa [got, sent, hr] using queue⟩
    · exact ⟨r, by simpa [act, take, List.getElem?_modify_ne, hj] using hr, rfl, live, subscribed,
        by simp [got, sent, hj]⟩
  | dropReceiver j =>
    have hj : j ≠ i := fun h => held (h ▸ rfl)
    exact ⟨r, by simpa [act, dropReceiver, List.getElem?_modify_ne, hj] using hr, rfl, live,
      subscribed, by simp [got, sent]⟩

/-- A subscriber gets every message dispatched to its path, once and in order. -/
theorem subscriber_gets_all (h : Run d) {i : ℕ} {r : Receiver} (hr : d.receivers[i]? = some r)
    (subscribed : i ∈ d.subscribers r.topic) (live : r.inner.receiverCount ≠ 0)
    (actions : List Action) (held : .dropReceiver i ∉ actions) :
    ∃ r', (actions.foldl act d).receivers[i]? = some r' ∧
      collect (got i) d actions ++ r'.inner.deque =
        r.inner.deque ++ collect (sent r.topic) d actions := by
  induction actions generalizing d r with
  | nil => exact ⟨r, hr, by simp [collect]⟩
  | cons a actions ih =>
    rw [List.mem_cons, not_or] at held
    obtain ⟨r₁, hr₁, topic, live₁, subscribed₁, queue⟩ :=
      act_receiver (numbered_of_run h) hr subscribed live (Ne.symm held.1)
    obtain ⟨r', hr', rest⟩ := ih (h.step (Step.act d a)) hr₁ (topic ▸ subscribed₁) live₁ held.2
    refine ⟨r', hr', ?_⟩
    rw [collect, collect, List.append_assoc, rest, topic, ← List.append_assoc, queue,
      List.append_assoc]

theorem subscriber_gets_all_twoTopics :
    let actions : List Action := [.take 0, .dispatch ⟨.contract [5], ⟨[1]⟩, [9]⟩, .take 1, .take 0]
    ∃ r', (actions.foldl act twoTopics).receivers[0]? = some r' ∧
      collect (got 0) twoTopics actions ++ r'.inner.deque =
        [(1, ⟨.contract [5], ⟨[1]⟩, [8]⟩), (2, ⟨.contract [5], ⟨[1]⟩, [9]⟩)] :=
  subscriber_gets_all twoTopics_run (i := 0) rfl (by decide) (by decide)
    [.take 0, .dispatch ⟨.contract [5], ⟨[1]⟩, [9]⟩, .take 1, .take 0] (by simp)

/-! ### Receivers of one topic -/

def twoOfOneTopic : MessageDispatcher :=
  ((({} : MessageDispatcher).subscribe [1]).subscribe [1]).dispatch ⟨.contract [5], ⟨[1]⟩, [7]⟩

theorem selected_twice_or_never :
    Run twoOfOneTopic ∧
    (selectLoop recordArm 3 (twoOfOneTopic.receivers.map fun r =>
        (⟨r.inner, some⟩ : TypedReceiver Bytes))).map Prod.fst =
      .ok [(0, .ok (0, [7], .contract [5])), (1, .ok (0, [7], .contract [5]))] ∧
    (∀ fuel, selectLoop recordArm fuel
        [(⟨{deque := [(1, ⟨.contract [5], ⟨[1]⟩, [7]⟩)]}, some⟩ : TypedReceiver Bytes),
          ⟨{senderCount := 0}, some⟩] = .error .outOfFuel) ∧
    (selectLoop recordArm 3
        [(⟨{deque := [(1, ⟨.pallet [5], ⟨[1]⟩, [7]⟩)]}, fun _ => none⟩ :
          TypedReceiver Bytes)]).map Prod.fst = .error .panicked := by
  refine ⟨?_, rfl, fun fuel => ?_, rfl⟩
  · have h₀ : Run {} := Reach.init rfl
    have h₁ := h₀.step (Step.subscribe _ [1])
    have h₂ := h₁.step (Step.subscribe _ [1])
    exact h₂.step (Step.dispatch _ ⟨.contract [5], ⟨[1]⟩, [7]⟩)
  · exact selectLoop_of_gone ⟨⟨{senderCount := 0}, some⟩, by simp, rfl, rfl⟩ fuel

end MessageDispatcher

end Cyrux.Mq.Dispatch
