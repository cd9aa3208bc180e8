import Mathlib.Data.List.Perm.Basic
import Cyrux.Sidevm.Wakers

/-!
# The slots of the guest's wakers
-/

namespace Cyrux.Sidevm

open Proc

variable {W R : Type}

def Occupied (wakers : List (Option W)) (id : ℕ) : Prop := ∃ waker, wakers[id]? = some (some waker)

def Notice.IsDrop (notice : Notice W) : Prop := notice.code < 0

instance (notice : Notice W) : Decidable notice.IsDrop :=
  inferInstanceAs (Decidable (notice.code < 0))

def Notice.id (notice : Notice W) : ℕ :=
  if 0 ≤ notice.code then notice.code.toNat else (-1 - notice.code).toNat

def dropped (queue : List (Notice W)) : List ℕ :=
  (queue.filter fun notice => notice.IsDrop).map Notice.id

section Notices

variable {queue : List (Notice W)} {notice : Notice W}

theorem dropped_append_wake (h : ¬ notice.IsDrop) :
    dropped (queue ++ [notice]) = dropped queue := by
  unfold dropped
  rw [List.filter_append, List.filter_singleton, decide_eq_false h]
  simp

theorem dropped_append_drop (h : notice.IsDrop) :
    dropped (queue ++ [notice]) = dropped queue ++ [notice.id] := by
  unfold dropped
  rw [List.filter_append, List.filter_singleton, decide_eq_true h, List.map_append]
  rfl

theorem dropped_cons_wake (h : ¬ notice.IsDrop) : dropped (notice :: queue) = dropped queue := by
  unfold dropped
  rw [List.filter_cons_of_neg (by simpa using h)]

theorem dropped_cons_drop (h : notice.IsDrop) :
    dropped (notice :: queue) = notice.id :: dropped queue := by
  unfold dropped
  rw [List.filter_cons_of_pos (by simpa using h), List.map_cons]

theorem mem_dropped {id : ℕ} :
    id ∈ dropped queue ↔ ∃ notice ∈ queue, notice.code = -1 - (id : ℤ) := by
  unfold dropped
  rw [List.mem_map]
  constructor
  · rintro ⟨notice, hn, rfl⟩
    obtain ⟨hmem, hdrop⟩ := List.mem_filter.1 hn
    have hneg : notice.code < 0 := of_decide_eq_true hdrop
    refine ⟨notice, hmem, ?_⟩
    unfold Notice.id
    rw [if_neg (by omega)]
    omega
  · rintro ⟨notice, hmem, hcode⟩
    have hdrop : notice.IsDrop := by
      unfold Notice.IsDrop
      omega
    refine ⟨notice, List.mem_filter.2 ⟨hmem, decide_eq_true hdrop⟩, ?_⟩
    unfold Notice.id
    rw [if_neg (by omega)]
    omega

end Notices

structure Accounted (wakers : List (Option W)) (held : List (GuestWaker W))
    (queue : List (Notice W)) : Prop where
  distinct : (dropped queue ++ held.map GuestWaker.id).Nodup
  occupied : ∀ id, Occupied wakers id ↔ id ∈ dropped queue ++ held.map GuestWaker.id
  held : ∀ guest ∈ held, wakers[guest.id]? = some (some guest.waker)
  queued : ∀ notice ∈ queue, wakers[notice.id]? = some (some notice.waker)
  /-- Nothing about a slot comes after its drop. -/
  last : queue.Pairwise fun a b => a.IsDrop → a.id ≠ b.id

def HasSlot (wakers : List (Option W)) : Prop := none ∈ wakers ∨ wakers.length < maxNWakers

structure Interned (waker : W) (id : ℕ) (wakers wakers' : List (Option W)) : Prop where
  free : ¬ Occupied wakers id
  get : ∀ x, wakers'[x]? = if x = id then some (some waker) else wakers[x]?

section Accounted

variable {wakers wakers' : List (Option W)} {held : List (GuestWaker W)} {queue : List (Notice W)}
  {waker : W} {id : ℕ} {guest : GuestWaker W} {notice : Notice W}

theorem Interned.occupied (h : Interned waker id wakers wakers') (x : ℕ) :
    Occupied wakers' x ↔ x = id ∨ Occupied wakers x := by
  unfold Occupied
  rw [h.get]
  split
  · rename_i hx
    exact iff_of_true ⟨waker, rfl⟩ (.inl hx)
  · rename_i hx
    simp only [hx, false_or]

theorem Accounted.intern (h : Accounted wakers held queue)
    (new : Interned waker id wakers wakers') :
    Accounted wakers' (held ++ [⟨id, waker⟩]) queue := by
  have hfree : id ∉ dropped queue ++ held.map GuestWaker.id := by
    rw [← h.occupied]
    exact new.free
  have hperm : (dropped queue ++ (held ++ [(⟨id, waker⟩ : GuestWaker W)]).map GuestWaker.id).Perm
      (id :: (dropped queue ++ held.map GuestWaker.id)) := by
    rw [List.map_append, ← List.append_assoc]
    exact List.perm_append_comm
  have hkeep {x : ℕ} {w : W} (hx : wakers[x]? = some (some w)) : wakers'[x]? = some (some w) := by
    have hne : x ≠ id := by
      rintro rfl
      exact new.free ⟨w, hx⟩
    rw [new.get, if_neg hne, hx]
  refine ⟨hperm.nodup_iff.2 (List.nodup_cons.2 ⟨hfree, h.distinct⟩), fun x => ?_, ?_,
    fun n hn => hkeep (h.queued n hn), h.last⟩
  · rw [new.occupied, h.occupied, hperm.mem_iff, List.mem_cons]
  · intro g hg
    obtain hg | hg := List.mem_append.1 hg
    · exact hkeep (h.held g hg)
    · rw [List.mem_singleton.1 hg, new.get, if_pos rfl]

theorem Accounted.wake (h : Accounted wakers held queue) (hguest : guest ∈ held) :
    Accounted wakers held (queue ++ [⟨guest.id, guest.waker⟩]) := by
  have hwake : ¬ (⟨guest.id, guest.waker⟩ : Notice W).IsDrop :=
    Int.not_lt.2 (Int.natCast_nonneg guest.id)
  have hid : (⟨guest.id, guest.waker⟩ : Notice W).id = guest.id := by
    unfold Notice.id
    rw [if_pos (Int.natCast_nonneg _), Int.toNat_natCast]
  refine ⟨?_, ?_, h.held, ?_, ?_⟩
  · rw [dropped_append_wake hwake]
    exact h.distinct
  · rw [dropped_append_wake hwake]
    exact h.occupied
  · intro n hn
    obtain hn | hn := List.mem_append.1 hn
    · exact h.queued n hn
    · rw [List.mem_singleton.1 hn, hid]
      exact h.held guest hguest
  · rw [List.pairwise_append]
    refine ⟨h.last, List.pairwise_singleton _ _, fun a ha b hb hdrop => ?_⟩
    rw [List.mem_singleton.1 hb, hid]
    -- a slot that the host has a reference to is not one whose drop is on its way
    have hdropped : a.id ∈ dropped queue :=
      List.mem_map_of_mem (List.mem_filter.2 ⟨ha, decide_eq_true hdrop⟩)
    exact List.nodup_append.1 h.distinct |>.2.2 _ hdropped _ (List.mem_map_of_mem hguest)

theorem Accounted.drop (h : Accounted wakers held queue) {n : ℕ} (hguest : held[n]? = some guest) :
    Accounted wakers (held.eraseIdx n) (queue ++ [⟨-1 - guest.id, guest.waker⟩]) := by
  have hdrop : (⟨-1 - guest.id, guest.waker⟩ : Notice W).IsDrop := by
    unfold Notice.IsDrop
    dsimp only
    omega
  have hid : (⟨-1 - guest.id, guest.waker⟩ : Notice W).id = guest.id := by
    unfold Notice.id
    rw [if_neg (Int.not_le.2 hdrop)]
    dsimp only
    omega
  have hmem : guest ∈ held := List.mem_of_getElem? hguest
  have herase : (guest :: held.eraseIdx n).Perm held := by
    obtain ⟨hn, rfl⟩ := List.getElem?_eq_some_iff.1 hguest
    exact List.getElem_cons_eraseIdx_perm hn
  have hperm : (dropped (queue ++ [⟨-1 - guest.id, guest.waker⟩]) ++
      (held.eraseIdx n).map GuestWaker.id).Perm (dropped queue ++ held.map GuestWaker.id) := by
    rw [dropped_append_drop hdrop, hid, List.append_assoc]
    exact (herase.map GuestWaker.id).append_left _
  refine ⟨hperm.nodup_iff.2 h.distinct, fun x => ?_, fun g hg => ?_, ?_, ?_⟩
  · rw [hperm.mem_iff]
    exact h.occupied x
  · exact h.held g (List.mem_of_mem_eraseIdx hg)
  · intro m hm
    obtain hm | hm := List.mem_append.1 hm
    · exact h.queued m hm
    · rw [List.mem_singleton.1 hm, hid]
      exact h.held guest hmem
  · rw [List.pairwise_append]
    refine ⟨h.last, List.pairwise_singleton _ _, fun a ha b hb hdrop' => ?_⟩
    rw [List.mem_singleton.1 hb, hid]
    have hdropped : a.id ∈ dropped queue :=
      List.mem_map_of_mem (List.mem_filter.2 ⟨ha, decide_eq_true hdrop'⟩)
    exact List.nodup_append.1 h.distinct |>.2.2 _ hdropped _ (List.mem_map_of_mem hmem)

theorem Accounted.takeWake (h : Accounted wakers held (notice :: queue)) (hwake : ¬ notice.IsDrop) :
    Accounted wakers held queue := by
  have hsame : dropped (notice :: queue) = dropped queue := dropped_cons_wake hwake
  refine ⟨hsame ▸ h.distinct, fun id => hsame ▸ h.occupied id, h.held,
    fun n hn => h.queued n (List.mem_cons_of_mem _ hn), (List.pairwise_cons.1 h.last).2⟩

theorem Accounted.takeDrop (h : Accounted wakers held (notice :: queue)) (hdrop : notice.IsDrop) :
    Accounted (wakers.set notice.id none) held queue := by
  have hcons : dropped (notice :: queue) = notice.id :: dropped queue := dropped_cons_drop hdrop
  have hdistinct := h.distinct
  rw [hcons, List.cons_append, List.nodup_cons] at hdistinct
  obtain ⟨hfree, hnodup⟩ := hdistinct
  have hother {x : ℕ} (hx : notice.id ≠ x) : (wakers.set notice.id none)[x]? = wakers[x]? :=
    List.getElem?_set_ne hx
  refine ⟨hnodup, fun x => ?_, fun g hg => ?_, fun n hn => ?_, (List.pairwise_cons.1 h.last).2⟩
  · by_cases hx : notice.id = x
    · subst hx
      refine iff_of_false ?_ hfree
      rintro ⟨waker, hw⟩
      rw [List.getElem?_set_self', Option.map_eq_map, Option.map_eq_some_iff] at hw
      obtain ⟨_, _, hnone⟩ := hw
      cases hnone
    · have hocc := h.occupied x
      rw [hcons, List.cons_append, List.mem_cons] at hocc
      unfold Occupied at hocc ⊢
      rw [hother hx, hocc, or_iff_right (Ne.symm hx)]
  · rw [hother fun heq => hfree (heq ▸ List.mem_append_right _ (List.mem_map_of_mem hg))]
    exact h.held g hg
  · rw [hother ((List.pairwise_cons.1 h.last).1 n hn hdrop)]
    exact h.queued n (List.mem_cons_of_mem _ hn)

end Accounted

/-! ## The calls -/

def Reached (s : World W R) : Prop := ∀ wake ∈ s.woken, wake.2 = some wake.1

structure Sound (s : World W R) : Prop where
  accounted : Accounted s.wakers s.held s.awakeWakers
  reached : Reached s

section Calls

variable {s : World W R} {waker : W} {id : ℕ}

theorem runs_internWaker (waker : W) :
    Runs (internWaker waker) s
      (fun id s' => HasSlot s.wakers ∧ Interned waker id s.wakers s'.wakers ∧
        s' = { s with wakers := s'.wakers })
      fun _ s' => ¬ HasSlot s.wakers ∧ s' = s := by
  apply Runs.get_bind
  cases hfind : s.wakers.findIdx? Option.isNone with
  | some id =>
    obtain ⟨hlt, hfree, -⟩ := List.findIdx?_eq_some_iff_getElem.1 hfind
    have hnone : s.wakers[id] = none := Option.isNone_iff_eq_none.1 hfree
    refine ⟨.inl (List.mem_of_getElem hnone), ⟨?_, fun x => ?_⟩, rfl⟩
    · rintro ⟨waker', hw⟩
      rw [List.getElem?_eq_getElem hlt, hnone] at hw
      cases hw
    · split
      · rename_i hx
        subst hx
        exact List.getElem?_set_self hlt
      · rename_i hx
        exact List.getElem?_set_ne (Ne.symm hx)
  | none =>
    apply Runs.ensure_bind
    case fails =>
      intro full
      refine ⟨?_, rfl⟩
      rintro (hnone | hlt)
      · exact absurd (List.findIdx?_eq_none_iff.1 hfind none hnone) nofun
      · exact full hlt
    intro hlt
    refine ⟨.inr hlt, ⟨?_, fun x => ?_⟩, rfl⟩
    · rintro ⟨waker', hw⟩
      rw [List.getElem?_eq_none (Nat.le_refl _)] at hw
      cases hw
    · split
      · rename_i hx
        subst hx
        exact List.getElem?_concat_length
      · rename_i hx
        obtain hlt | hgt := Nat.lt_or_gt_of_ne hx
        · exact List.getElem?_append_left hlt
        · rw [List.getElem?_eq_none (Nat.le_of_lt hgt), List.getElem?_eq_none]
          rw [List.length_append, List.length_singleton]
          exact hgt

theorem runs_dropGuestWaker (h : Sound s) (n : ℕ) :
    Runs (dropGuestWaker n) s (fun _ s' => Sound s') fun _ _ => False := by
  apply Runs.get_bind
  cases hguest : s.held[n]? with
  | none => exact h
  | some guest => exact ⟨h.accounted.drop hguest, h.reached⟩

theorem runs_wakeGuestWaker (h : Sound s) (n : ℕ) :
    Runs (wakeGuestWaker n) s (fun _ s' => Sound s') fun _ _ => False := by
  apply Runs.get_bind
  cases hguest : s.held[n]? with
  | none => exact h
  | some guest => exact ⟨h.accounted.wake (List.mem_of_getElem? hguest), h.reached⟩

theorem runs_push (h : Sound s) (resource : R) :
    Runs (push resource) s (fun _ s' => Sound s') fun _ s' => Sound s' := by
  apply Runs.get_bind
  split
  · exact ⟨h.accounted, h.reached⟩
  · apply Runs.ensure_bind
    case fails => exact fun _ => h
    exact fun _ => ⟨h.accounted, h.reached⟩

theorem runs_getMut_bind {α : Type} {resourceId : ℤ} {f : R → Program W R α}
    {Q : α → World W R → Prop} {E : Fault → World W R → Prop}
    (found : ∀ resource, s.resource resourceId = some resource → Runs (f resource) s Q E)
    (missing : s.resource resourceId = none → E .notFound s) :
    Runs (getMut resourceId >>= f) s Q E := by
  apply Runs.bind
  apply Runs.get_bind
  cases hr : s.resource resourceId with
  | none => exact missing hr
  | some resource => exact found resource hr

theorem runs_close (h : Sound s) (resourceId : ℤ) :
    Runs (close resourceId) s (fun _ s' => Sound s') fun _ s' => Sound s' := by
  apply runs_getMut_bind
  · exact fun _ _ => ⟨h.accounted, h.reached⟩
  · exact fun _ => h

theorem runs_sidevmPoll (h : Sound s) :
    Runs sidevmPoll s (fun _ s' => Sound s') fun _ _ => False := by
  -- the notices that are not taken yet stand for the queue
  refine (Runs.each (I := fun rest (t : World W R) =>
    Accounted t.wakers t.held rest ∧ t.awakeWakers = [] ∧ Reached t) ?_ ?_).mono ?_ fun _ _ he => he
  · rintro notice rest t ⟨accounted, hempty, reached⟩
    have hqueued := accounted.queued notice List.mem_cons_self
    unfold takeNotice
    unfold Notice.id at hqueued
    split
    · rename_i hcode
      rw [if_pos hcode] at hqueued
      refine ⟨accounted.takeWake (Int.not_lt.2 hcode), hempty, fun wake hwake => ?_⟩
      obtain hwake | hwake := List.mem_append.1 hwake
      · exact reached wake hwake
      · rw [List.mem_singleton.1 hwake, hqueued]
        rfl
    · rename_i hcode
      have hdrop : notice.IsDrop := Int.not_le.1 hcode
      have hid : notice.id = (-1 - notice.code).toNat := if_neg hcode
      have accounted' := accounted.takeDrop hdrop
      rw [hid] at accounted'
      exact ⟨accounted', hempty, reached⟩
  · exact ⟨h.accounted, rfl, h.reached⟩
  · rintro _ t ⟨accounted, hempty, reached⟩
    exact ⟨hempty ▸ accounted, reached⟩

section Ocalls

variable {wakers : List (Option W)} {outcome : Outcome R} {resourceId : ℤ}

theorem runs_settle (h : Sound s) (n : ℕ) (outcome : Outcome R) :
    Runs (settle n outcome) s (fun _ s' => Sound s') fun _ _ => False := by
  apply Runs.when
  · exact fun _ => runs_dropGuestWaker h n
  · exact fun _ => h

theorem runs_pushMade (h : Sound s) (outcome : Outcome R) :
    Runs (pushMade outcome) s (fun _ s' => Sound s') fun _ s' => Sound s' := by
  unfold pushMade
  split
  · exact h
  · exact runs_push h _

theorem Sound.fromId (h : Sound s) (new : Interned waker id s.wakers wakers) :
    Sound { s with
      wakers := wakers
      held := s.held ++ [⟨id, waker⟩] } := ⟨h.accounted.intern new, h.reached⟩

theorem runs_fromId_bind {α : Type} {f : ℕ → Program W R α} {Q : α → World W R → Prop}
    {E : Fault → World W R → Prop}
    (h : Runs (f s.held.length) { s with held := s.held ++ [⟨id, waker⟩] } Q E) :
    Runs (fromId id waker >>= f) s Q E := Runs.bind h

theorem runs_pollResource (h : Sound s) (new : Interned waker id s.wakers wakers)
    (outcome : Outcome R) :
    Runs (pollResource id waker outcome) { s with wakers := wakers } (fun _ s' => Sound s')
      fun _ _ => False := by
  exact runs_settle (h.fromId new) _ outcome

theorem runs_ocall (h : Sound s) (new : Interned waker id s.wakers wakers) (ocall : Ocall)
    (named : ocall.looksUpFirst → s.resource resourceId ≠ none) :
    Runs (ocall.call id waker resourceId outcome) { s with wakers := wakers }
      (fun _ s' => Sound s') fun _ s' => Sound s' := by
  have polled : ocall.looksUpFirst → Runs (do
      let _ ← getMut resourceId
      pollResource id waker outcome) { s with wakers := wakers } (fun _ s' => Sound s')
      fun _ s' => Sound s' := by
    intro first
    apply runs_getMut_bind
    · intro _ _
      exact (runs_pollResource h new outcome).mono (fun _ _ h' => h') fun _ _ he => he.elim
    · exact fun hnone => absurd hnone (named first)
  cases ocall with
  | poll => exact polled rfl
  | pollRead => exact polled rfl
  | pollWrite => exact polled rfl
  | pollShutdown => exact polled rfl
  | pollRes =>
    apply runs_getMut_bind
    · intro _ _
      apply Runs.bind
      refine (runs_pollResource h new outcome).mono (fun _ _ h' => ?_) fun _ _ he => he.elim
      exact runs_pushMade h' outcome
    · exact fun hnone => absurd hnone (named rfl)
  | tcpAccept =>
    apply runs_fromId_bind
    apply Runs.get_bind
    have h' := h.fromId new
    split
    · apply Runs.bind
      exact (runs_dropGuestWaker h' _).mono (fun _ _ h'' => h'') fun _ _ he => he.elim
    · apply Runs.bind
      refine (runs_settle h' _ outcome).mono (fun _ _ h'' => ?_) fun _ _ he => he.elim
      exact runs_pushMade h'' outcome

theorem runs_ocall_missing {ocall : Ocall} (first : ocall.looksUpFirst)
    (missing : s.resource resourceId = none) :
    Runs (ocall.call id waker resourceId outcome) s (fun _ _ => False) fun _ s' => s' = s := by
  have lookup {f : R → Program W R Unit} :
      Runs (getMut resourceId >>= f) s (fun _ _ => False) fun _ s' => s' = s := by
    apply runs_getMut_bind
    · intro resource hr
      rw [missing] at hr
      cases hr
    · exact fun _ => rfl
  cases ocall with
  | poll => exact lookup
  | pollRead => exact lookup
  | pollWrite => exact lookup
  | pollShutdown => exact lookup
  | pollRes => exact lookup
  | tcpAccept => cases first

end Ocalls

end Calls

/-! ## Runs -/

structure Clean (s : World W R) : Prop where
  occupied : ∀ id, Occupied s.wakers id ↔
    (∃ guest ∈ s.held, guest.id = id) ∨ ∃ notice ∈ s.awakeWakers, notice.code = -1 - (id : ℤ)
  distinct : (s.held.map GuestWaker.id).Nodup
  held : ∀ guest ∈ s.held, s.wakers[guest.id]? = some (some guest.waker)
  queued : ∀ notice ∈ s.awakeWakers, s.wakers[notice.id]? = some (some notice.waker)
  reached : Reached s

theorem Sound.clean {s : World W R} (h : Sound s) : Clean s := by
  refine ⟨fun id => ?_, (List.nodup_append.1 h.accounted.distinct).2.1, h.accounted.held,
    h.accounted.queued, h.reached⟩
  rw [h.accounted.occupied, List.mem_append, mem_dropped, List.mem_map, Or.comm]

def Named (s : World W R) : Op W R → Prop
  | .poll ocall _ resourceId _ =>
    ocall.looksUpFirst → HasSlot s.wakers → s.resource resourceId ≠ none
  | _ => True

section Runs

variable {s : World W R} {op : Op W R}

theorem Sound.step (h : Sound s) (named : Named s op) : Sound (op.call.after s) := by
  apply Runs.of_after (P := Sound)
  have weaken {m : Program W R Unit} (hruns : Runs m s (fun _ s' => Sound s') fun _ _ => False) :
      Runs m s (fun _ s' => Sound s') fun _ s' => Sound s' :=
    hruns.mono (fun _ _ h' => h') fun _ _ he => he.elim
  cases op with
  | poll ocall waker resourceId outcome =>
    change Runs (internWaker waker >>= fun id => ocall.call id waker resourceId outcome) s _ _
    apply Runs.bind
    refine (runs_internWaker waker).mono ?_ ?_
    · rintro id s' ⟨slot, new, hs'⟩
      rw [hs']
      exact runs_ocall h new ocall fun first => named first slot
    · rintro _ s' ⟨-, rfl⟩
      exact h
  | create resource => exact runs_push h resource
  | close resourceId => exact runs_close h resourceId
  | wake n => exact weaken (runs_wakeGuestWaker h n)
  | drop n => exact weaken (runs_dropGuestWaker h n)
  | sidevmPoll => exact weaken (runs_sidevmPoll h)

theorem Sound.leak (h : Sound s) (named : ¬ Named s op) : ¬ Clean (op.call.after s) := by
  cases op with
  | poll ocall waker resourceId outcome =>
    unfold Named at named
    push Not at named
    obtain ⟨first, slot, missing⟩ := named
    apply Runs.of_after (P := fun s' => ¬ Clean s')
    change Runs (internWaker waker >>= fun id => ocall.call id waker resourceId outcome) s _ _
    apply Runs.bind
    refine (runs_internWaker waker).mono ?_ ?_
    · rintro id s' ⟨-, new, hs'⟩
      have missing' : s'.resource resourceId = none := by
        rw [hs']
        exact missing
      refine (runs_ocall_missing first missing').mono (fun _ _ hf => hf.elim) ?_
      rintro _ s'' rfl clean
      have hoccupied := (clean.occupied id).1 ((new.occupied id).2 (.inl rfl))
      rw [hs'] at hoccupied
      exact new.free ((h.clean.occupied id).2 hoccupied)
    · rintro _ s' ⟨full, -⟩
      exact absurd slot full
  | create resource => exact absurd trivial named
  | close resourceId => exact absurd trivial named
  | wake n => exact absurd trivial named
  | drop n => exact absurd trivial named
  | sidevmPoll => exact absurd trivial named

theorem Sound.run (h : Sound s) (ops : List (Op W R)) :
    Throughout Op.call (fun s op => Clean (op.call.after s)) s ops ↔
      Throughout Op.call Named s ops := by
  induction ops generalizing s with
  | nil => exact Iff.rfl
  | cons op ops ih =>
    constructor
    · rintro ⟨clean, hops⟩
      have named : Named s op := by
        by_contra hn
        exact h.leak hn clean
      exact ⟨named, (ih (h.step named)).1 hops⟩
    · rintro ⟨named, hops⟩
      have h' := h.step named
      exact ⟨h'.clean, (ih h').2 hops⟩

theorem sound_new : Sound ({} : World W R) where
  accounted := {
    distinct := List.nodup_nil
    occupied := fun _ => iff_of_false nofun List.not_mem_nil
    held := nofun
    queued := nofun
    last := .nil }
  reached := nofun

theorem slots_accounted_iff (ops : List (Op W R)) :
    Throughout Op.call (fun s op => Clean (op.call.after s)) {} ops ↔
      Throughout Op.call Named {} ops := sound_new.run ops

theorem missing_resource_leaks :
    let op : Op ℕ ℕ := .poll .pollRead 7 0 ⟨true, none⟩
    let s := op.call.after {}
    op.call.result {} = .error .notFound ∧
      Occupied s.wakers 0 ∧ s.held = [] ∧ s.awakeWakers = [] :=
  ⟨rfl, ⟨7, rfl⟩, rfl, rfl⟩

end Runs

end Cyrux.Sidevm
