import Cyrux.Mq.SendQueue
import Mathlib

/-!
# Selecting among receivers

`crates/cyrux-mq/src/simple_mpsc.rs`
-/

namespace Cyrux.Mq

def MessageOrigin.alwaysWellFormed : MessageOrigin → Bool
  | .pallet _ | .worker _ | .gatekeeper => true
  | _ => false

namespace Dispatch

variable {T β : Type}

/-! ## Channels -/

structure Channel where
  deque : List (ℕ × Message) := []
  receiverCount : ℕ := 1
  senderCount : ℕ := 1
deriving DecidableEq

inductive ReceiveError
  | senderGone
deriving DecidableEq

namespace Channel

def send (ch : Channel) (value : ℕ × Message) : Option Channel :=
  if ch.receiverCount = 0 then none else some { ch with deque := ch.deque ++ [value] }

def clear (ch : Channel) : Channel := { ch with deque := [] }

def tryNext (ch : Channel) : Except ReceiveError (Option (ℕ × Message)) × Channel :=
  match ch.deque with
  | value :: rest => (.ok (some value), { ch with deque := rest })
  | [] => if ch.senderCount = 0 then (.error .senderGone, ch) else (.ok none, ch)

def peekInd (ch : Channel) : Except ReceiveError (Option ℕ) :=
  match ch.deque with
  | value :: _ => .ok (some value.1)
  | [] => if ch.senderCount = 0 then .error .senderGone else .ok none

end Channel

/-! ## Typed receivers -/

inductive TypedReceiveError
  | senderGone
  | codecError
deriving DecidableEq

inductive Stop
  | panicked
  | outOfFuel
deriving DecidableEq

structure TypedReceiver (T : Type) where
  queue : Channel
  decode : Bytes → Option T

abbrev Bound (T : Type) := Except TypedReceiveError (ℕ × T × MessageOrigin)

namespace TypedReceiver

def tryNext (r : TypedReceiver T) :
    Except Stop (Except TypedReceiveError (Option (ℕ × T × MessageOrigin)) × TypedReceiver T) :=
  match r.queue.tryNext with
  | (.error .senderGone, queue) => .ok (.error .senderGone, { r with queue })
  | (.ok none, queue) => .ok (.ok none, { r with queue })
  | (.ok (some (sn, msg)), queue) =>
    match r.decode msg.payload with
    | some typed => .ok (.ok (some (sn, typed, msg.sender)), { r with queue })
    | none =>
      if msg.sender.alwaysWellFormed then .error .panicked
      else .ok (.error .codecError, { r with queue })

def peekInd (r : TypedReceiver T) : Except ReceiveError (Option ℕ) := r.queue.peekInd

def withDeque (r : TypedReceiver T) (deque : List (ℕ × Message)) : TypedReceiver T :=
  { r with queue := { r.queue with deque } }

end TypedReceiver

/-! ## `select!` -/

structure Scan where
  min : Option ℕ := none
  minInd : ℕ := 0
  ind : ℕ := 0

def Scan.visit (s : Scan) (r : TypedReceiver T) : Scan :=
  match r.peekInd with
  | .ok (some sn) =>
    match s.min with
    | none => ⟨some sn, s.ind, s.ind + 1⟩
    | some old => if sn < old then ⟨some sn, s.ind, s.ind + 1⟩ else { s with ind := s.ind + 1 }
  | .error _ => ⟨some 0, s.ind, s.ind + 1⟩
  | .ok none => { s with ind := s.ind + 1 }

def scan (rs : List (TypedReceiver T)) : Scan := rs.foldl Scan.visit {}

def Scan.take (s : Scan) (rs : List (TypedReceiver T)) :
    Except Stop (Option (ℕ × Bound T) × List (TypedReceiver T)) :=
  match s.min, rs[s.minInd]? with
  | some _, some r =>
    match r.tryNext with
    | .error stop => .error stop
    | .ok (.ok (some msg), r') => .ok (some (s.minInd, .ok msg), rs.set s.minInd r')
    | .ok (.error e, r') => .ok (some (s.minInd, .error e), rs.set s.minInd r')
    | .ok (.ok none, r') => .ok (none, rs.set s.minInd r')
  | _, _ => .ok (none, rs)

def select (rs : List (TypedReceiver T)) :
    Except Stop (Option (ℕ × Bound T) × List (TypedReceiver T)) := (scan rs).take rs

def selectLoop (arm : ℕ → Bound T → Except Stop (List β)) :
    ℕ → List (TypedReceiver T) → Except Stop (List β × List (TypedReceiver T))
  | 0, _ => .error .outOfFuel
  | fuel + 1, rs => do
    match ← select rs with
    | (none, rs) => pure ([], rs)
    | (some (ind, msg), rs) =>
      let done ← arm ind msg
      let (log, rs) ← selectLoop arm fuel rs
      pure (done ++ log, rs)

def recordArm (ind : ℕ) (msg : Bound T) : Except Stop (List (ℕ × Bound T)) := .ok [(ind, msg)]

def ignoreErrorsArm (ind : ℕ) : Bound T → Except Stop (List (ℕ × T × MessageOrigin))
  | .ok (_, typed, origin) => .ok [(ind, typed, origin)]
  | .error .senderGone => .error .panicked
  | .error .codecError => .ok []

/-! ## What is queued -/

structure Queued (T : Type) where
  ind : ℕ
  sn : ℕ
  message : Message
  typed : Option T

namespace Queued

def bound (a : Queued T) : Bound T :=
  match a.typed with
  | some typed => .ok (a.sn, typed, a.message.sender)
  | none => .error .codecError

def handed (a : Queued T) : List (ℕ × T × MessageOrigin) :=
  match a.typed with
  | some typed => [(a.ind, typed, a.message.sender)]
  | none => []

def Before (a b : Queued T) : Prop := a.sn < b.sn ∨ a.sn = b.sn ∧ a.ind < b.ind

end Queued

def queuedAt (ind : ℕ) (r : TypedReceiver T) (e : ℕ × Message) : Queued T :=
  ⟨ind, e.1, e.2, r.decode e.2.payload⟩

def queuedFrom (k : ℕ) : List (TypedReceiver T) → List (Queued T)
  | [] => []
  | r :: rs => r.queue.deque.map (queuedAt k r) ++ queuedFrom (k + 1) rs

def queued (rs : List (TypedReceiver T)) : List (Queued T) := queuedFrom 0 rs

def emptied (rs : List (TypedReceiver T)) : List (TypedReceiver T) :=
  rs.map fun r => r.withDeque []

section

variable {rs : List (TypedReceiver T)} {r : TypedReceiver T} {i k : ℕ} {e : ℕ × Message}
  {rest : List (ℕ × Message)}

theorem mem_queuedFrom {a : Queued T} : a ∈ queuedFrom k rs ↔
    ∃ i r, rs[i]? = some r ∧ ∃ e ∈ r.queue.deque, a = queuedAt (k + i) r e := by
  induction rs generalizing k with
  | nil => simp [queuedFrom]
  | cons r rs ih =>
    simp only [queuedFrom, List.mem_append, List.mem_map, ih]
    constructor
    · rintro (⟨e, he, rfl⟩ | ⟨i, r', hi, e, he, rfl⟩)
      · exact ⟨0, r, rfl, e, he, rfl⟩
      · exact ⟨i + 1, r', hi, e, he, by rw [Nat.add_right_comm, Nat.add_assoc]⟩
    · rintro ⟨i, r', hi, e, he, rfl⟩
      cases i with
      | zero =>
        obtain rfl : r = r' := by simpa using hi
        exact Or.inl ⟨e, he, rfl⟩
      | succ i => exact Or.inr ⟨i, r', hi, e, he, by rw [Nat.add_right_comm, Nat.add_assoc]⟩

theorem mem_queued {a : Queued T} : a ∈ queued rs ↔
    ∃ i r, rs[i]? = some r ∧ ∃ e ∈ r.queue.deque, a = queuedAt i r e := by
  simp [queued, mem_queuedFrom]

theorem queuedFrom_perm (hi : rs[i]? = some r) (hr : r.queue.deque = e :: rest) :
    (queuedFrom k rs).Perm
      (queuedAt (k + i) r e :: queuedFrom k (rs.set i (r.withDeque rest))) := by
  induction rs generalizing i k with
  | nil => simp at hi
  | cons r' rs ih =>
    cases i with
    | zero =>
      obtain rfl : r' = r := by simpa using hi
      simp only [queuedFrom, hr, List.set_cons_zero, List.map_cons, List.cons_append]
      exact List.Perm.refl _
    | succ i =>
      have hperm := ih (k := k + 1) (i := i) hi
      rw [Nat.add_right_comm, Nat.add_assoc] at hperm
      exact (hperm.append_left _).trans List.perm_middle

theorem queued_perm (hi : rs[i]? = some r) (hr : r.queue.deque = e :: rest) :
    (queued rs).Perm (queuedAt i r e :: queued (rs.set i (r.withDeque rest))) := by
  have := queuedFrom_perm (k := 0) hi hr
  rwa [Nat.zero_add] at this

theorem emptied_set (hi : rs[i]? = some r) :
    emptied (rs.set i (r.withDeque rest)) = emptied rs := by
  unfold emptied
  rw [List.map_set]
  apply List.ext_getElem? fun j => ?_
  rw [List.getElem?_set]
  by_cases hj : i = j
  · subst hj
    have hlt : i < rs.length := (List.getElem?_eq_some_iff.mp hi).1
    rw [if_pos rfl, List.length_map, if_pos hlt, List.getElem?_map, hi]
    rfl
  · rw [if_neg hj, List.getElem?_map]

theorem emptied_of_empty (h : ∀ r ∈ rs, r.queue.deque = []) : emptied rs = rs := by
  unfold emptied
  rw [List.map_congr_left (g := id), List.map_id]
  intro r hr
  have := h r hr
  rcases r with ⟨⟨deque, _, _⟩, _⟩
  subst this
  rfl

/-! ## Good receivers -/

structure Good (r : TypedReceiver T) : Prop where
  live : 0 < r.queue.senderCount
  increasing : r.queue.deque.Pairwise fun a b => a.1 < b.1
  decodes : ∀ e ∈ r.queue.deque, e.2.sender.alwaysWellFormed → (r.decode e.2.payload).isSome

theorem Good.tail (h : Good r) (hr : r.queue.deque = e :: rest) : Good (r.withDeque rest) := by
  have hinc := h.increasing
  rw [hr, List.pairwise_cons] at hinc
  exact ⟨h.live, hinc.2, fun e he => h.decodes e (by rw [hr]; exact List.mem_cons_of_mem _ he)⟩

theorem Good.peekInd (h : Good r) : r.peekInd = .ok (r.queue.deque.head?.map Prod.fst) := by
  unfold TypedReceiver.peekInd Channel.peekInd
  cases r.queue.deque with
  | nil => simp [h.live.ne']
  | cons e rest => rfl

theorem Good.tryNext (h : Good r) (hr : r.queue.deque = e :: rest) :
    r.tryNext = .ok ((queuedAt i r e).bound.map some, r.withDeque rest) := by
  have hdec := h.decodes e (by rw [hr]; exact List.mem_cons_self)
  unfold TypedReceiver.tryNext Channel.tryNext
  simp only [hr]
  unfold Queued.bound queuedAt
  cases hd : r.decode e.2.payload with
  | some typed => rfl
  | none =>
    have hne : ¬ e.2.sender.alwaysWellFormed = true := by
      intro hw
      simpa [hd] using hdec hw
    simp only [hne]
    rfl

/-! ## The first half of `select!` -/

structure Scanned (rs : List (TypedReceiver T)) (s : Scan) : Prop where
  ind : s.ind = rs.length
  idle : s.min = none → ∀ r ∈ rs, r.queue.deque = []
  front : ∀ m, s.min = some m → ∃ r e rest, rs[s.minInd]? = some r ∧
    r.queue.deque = e :: rest ∧ e.1 = m
  least : ∀ m, s.min = some m → ∀ j r e rest, rs[j]? = some r → r.queue.deque = e :: rest →
    m < e.1 ∨ m = e.1 ∧ s.minInd ≤ j

theorem Scanned.nil : Scanned ([] : List (TypedReceiver T)) {} :=
  ⟨rfl, by simp, by simp, by simp⟩

theorem getElem?_concat_cases {j : ℕ} {r' : TypedReceiver T} (h : (rs ++ [r])[j]? = some r') :
    rs[j]? = some r' ∧ j < rs.length ∨ j = rs.length ∧ r' = r := by
  rcases lt_trichotomy j rs.length with hj | hj | hj
  · rw [List.getElem?_append_left hj] at h
    exact Or.inl ⟨h, hj⟩
  · subst hj
    exact Or.inr ⟨rfl, by simpa using h.symm⟩
  · rw [List.getElem?_eq_none (by simp; omega)] at h
    cases h

theorem Scanned.keep {s : Scan} (h : Scanned rs s) (hidle : s.min = none → r.queue.deque = [])
    (hge : ∀ m, s.min = some m → ∀ e rest, r.queue.deque = e :: rest → m ≤ e.1) :
    Scanned (rs ++ [r]) { s with ind := s.ind + 1 } where
  ind := by simp [h.ind]
  idle hm r' hr' := by
    rcases List.mem_append.mp hr' with hr' | hr'
    · exact h.idle hm r' hr'
    · obtain rfl : r' = r := by simpa using hr'
      exact hidle hm
  front m hm := by
    obtain ⟨r', e, rest, hi, hd, he⟩ := h.front m hm
    have hlt : s.minInd < rs.length := (List.getElem?_eq_some_iff.mp hi).1
    exact ⟨r', e, rest, by rw [List.getElem?_append_left hlt]; exact hi, hd, he⟩
  least m hm j r' e rest hj hd := by
    rcases getElem?_concat_cases hj with ⟨hj', -⟩ | ⟨rfl, rfl⟩
    · exact h.least m hm j r' e rest hj' hd
    · obtain ⟨_, _, _, hi, -, -⟩ := h.front m hm
      have hlt : s.minInd < rs.length := (List.getElem?_eq_some_iff.mp hi).1
      show m < e.1 ∨ m = e.1 ∧ s.minInd ≤ rs.length
      have := hge m hm e rest hd
      omega

theorem Scanned.take {s : Scan} (h : Scanned rs s) (hr : r.queue.deque = e :: rest)
    (hlt : ∀ m, s.min = some m → e.1 < m) :
    Scanned (rs ++ [r]) ⟨some e.1, s.ind, s.ind + 1⟩ where
  ind := by simp [h.ind]
  idle hm := by cases hm
  front m hm := by
    obtain rfl : e.1 = m := by simpa using hm
    exact ⟨r, e, rest, by simp [h.ind], hr, rfl⟩
  least m hm j r' e' rest' hj hd := by
    obtain rfl : e.1 = m := by simpa using hm
    rcases getElem?_concat_cases hj with ⟨hj', -⟩ | ⟨rfl, rfl⟩
    · cases hmin : s.min with
      | none =>
        rw [h.idle hmin r' (List.mem_of_getElem? hj')] at hd
        cases hd
      | some m =>
        have h1 := hlt m hmin
        have h2 := h.least m hmin j r' e' rest' hj' hd
        omega
    · rw [hr] at hd
      cases hd
      exact Or.inr ⟨rfl, h.ind.le⟩

theorem Scanned.visit {s : Scan} (h : Scanned rs s) (hg : Good r) :
    Scanned (rs ++ [r]) (s.visit r) := by
  unfold Scan.visit
  rw [hg.peekInd]
  cases hd : r.queue.deque with
  | nil => exact h.keep (fun _ => hd) fun _ _ e rest he => by rw [hd] at he; cases he
  | cons e rest =>
    simp only [List.head?_cons, Option.map_some]
    cases hm : s.min with
    | none => exact h.take hd fun m hm' => by rw [hm] at hm'; cases hm'
    | some old =>
      by_cases hlt : e.1 < old
      · simp only [hlt, if_true]
        refine h.take hd fun m hm' => ?_
        rw [hm] at hm'
        cases hm'
        exact hlt
      · simp only [hlt, if_false]
        have := h.keep (r := r) (fun hn => by rw [hm] at hn; cases hn) fun m hm' e' rest' he => by
          rw [hm] at hm'
          rw [hd] at he
          cases hm'
          cases he
          omega
        rw [hm] at this
        exact this

theorem scanned_scan (hg : ∀ r ∈ rs, Good r) : Scanned rs (scan rs) := by
  induction rs using List.reverseRecOn with
  | nil => exact Scanned.nil
  | append_singleton rs r ih =>
    unfold scan at ih ⊢
    rw [List.foldl_append]
    exact (ih fun r' hr' => hg r' (List.mem_append_left _ hr')).visit (hg r (by simp))

/-! ## One selection -/

theorem select_of_empty (hg : ∀ r ∈ rs, Good r) (h : ∀ r ∈ rs, r.queue.deque = []) :
    select rs = .ok (none, rs) := by
  have hs := scanned_scan hg
  have hmin : (scan rs).min = none := by
    by_contra hne
    obtain ⟨m, hm⟩ := Option.ne_none_iff_exists'.mp hne
    obtain ⟨r, e, rest, hi, hd, -⟩ := hs.front m hm
    rw [h r (List.mem_of_getElem? hi)] at hd
    cases hd
  unfold select Scan.take
  rw [hmin]

theorem select_cases (hg : ∀ r ∈ rs, Good r) :
    (∀ r ∈ rs, r.queue.deque = []) ∨
    ∃ i r e rest, rs[i]? = some r ∧ r.queue.deque = e :: rest ∧
      (∀ b ∈ queued (rs.set i (r.withDeque rest)), (queuedAt i r e).Before b) ∧
      select rs = .ok (some (i, (queuedAt i r e).bound), rs.set i (r.withDeque rest)) := by
  have hs := scanned_scan hg
  cases hm : (scan rs).min with
  | none => exact Or.inl (hs.idle hm)
  | some m =>
    obtain ⟨r, e, rest, hi, hd, he⟩ := hs.front m hm
    have hgood := hg r (List.mem_of_getElem? hi)
    refine Or.inr ⟨_, r, e, rest, hi, hd, ?_, ?_⟩
    · intro b hb
      obtain ⟨j, r', hj, e', he', rfl⟩ := mem_queued.mp hb
      rw [List.getElem?_set] at hj
      show e.1 < e'.1 ∨ e.1 = e'.1 ∧ (scan rs).minInd < j
      by_cases hij : (scan rs).minInd = j
      · -- behind the selected message in its own queue
        have hlt : (scan rs).minInd < rs.length := (List.getElem?_eq_some_iff.mp hi).1
        subst hij
        rw [if_pos rfl, if_pos hlt] at hj
        obtain rfl : r.withDeque rest = r' := by simpa using hj
        have hinc := hgood.increasing
        rw [hd, List.pairwise_cons] at hinc
        exact Or.inl (hinc.1 e' he')
      · -- in another queue, not before its front
        rw [if_neg hij] at hj
        have hgood' := hg r' (List.mem_of_getElem? hj)
        cases hd' : r'.queue.deque with
        | nil =>
          rw [hd'] at he'
          cases he'
        | cons f rest' =>
          have hfront := hs.least m hm j r' f rest' hj hd'
          have hinc := hgood'.increasing
          rw [hd', List.pairwise_cons] at hinc
          rw [hd', List.mem_cons] at he'
          rcases he' with rfl | he'
          · omega
          · have := hinc.1 e' he'
            omega
    · unfold select Scan.take
      rw [hm, hi]
      simp only [hgood.tryNext (i := (scan rs).minInd) hd]
      unfold Queued.bound
      cases (queuedAt (scan rs).minInd r e).typed <;> rfl

theorem good_set (hg : ∀ r ∈ rs, Good r) (hi : rs[i]? = some r) (hr : r.queue.deque = e :: rest) :
    ∀ r' ∈ rs.set i (r.withDeque rest), Good r' := by
  intro r' hr'
  rcases List.mem_or_eq_of_mem_set hr' with h | rfl
  · exact hg r' h
  · exact (hg r (List.mem_of_getElem? hi)).tail hr

end

/-! ## The loop -/

theorem selectLoop_takes {n : ℕ} {rs : List (TypedReceiver T)} (hg : ∀ r ∈ rs, Good r)
    (hn : (queued rs).length = n) :
    ∃ order : List (Queued T), order.Perm (queued rs) ∧ order.Pairwise Queued.Before ∧
      ∀ {β : Type} (arm : ℕ → Bound T → Except Stop (List β)) (f : Queued T → List β),
        (∀ a ∈ queued rs, arm a.ind a.bound = .ok (f a)) →
        ∀ fuel, n < fuel → selectLoop arm fuel rs = .ok (order.flatMap f, emptied rs) := by
  -- induction on the number of queued messages: one selection takes the first of them
  induction n generalizing rs with
  | zero =>
    have hnil : queued rs = [] := List.length_eq_zero_iff.mp hn
    have hempty : ∀ r ∈ rs, r.queue.deque = [] := by
      intro r hr
      obtain ⟨i, hi⟩ := List.getElem?_of_mem hr
      apply List.eq_nil_iff_forall_not_mem.mpr fun e he => ?_
      have : queuedAt i r e ∈ queued rs := mem_queued.mpr ⟨i, r, hi, e, he, rfl⟩
      rw [hnil] at this
      cases this
    refine ⟨[], by rw [hnil], List.Pairwise.nil, fun arm f _ fuel hfuel => ?_⟩
    obtain ⟨fuel, rfl⟩ : ∃ k, fuel = k + 1 := ⟨fuel - 1, by omega⟩
    simp only [selectLoop, select_of_empty hg hempty, emptied_of_empty hempty]
    rfl
  | succ n ih =>
    rcases select_cases hg with hempty | ⟨i, r, e, rest, hi, hd, hfirst, hsel⟩
    · have hnil : queued rs = [] := by
        apply List.eq_nil_iff_forall_not_mem.mpr fun a ha => ?_
        obtain ⟨i, r, hi, e, he, -⟩ := mem_queued.mp ha
        rw [hempty r (List.mem_of_getElem? hi)] at he
        cases he
      rw [hnil] at hn
      cases hn
    · have hperm := queued_perm hi hd
      have hlen : (queued (rs.set i (r.withDeque rest))).length = n := by
        have := hperm.length_eq
        rw [hn, List.length_cons] at this
        omega
      obtain ⟨order, hp, hsorted, hrun⟩ := ih (good_set hg hi hd) hlen
      refine ⟨queuedAt i r e :: order, (hp.cons _).trans hperm.symm, ?_, ?_⟩
      · exact List.pairwise_cons.mpr ⟨fun b hb => hfirst b (hp.mem_iff.mp hb), hsorted⟩
      · intro β arm f harm fuel hfuel
        obtain ⟨fuel, rfl⟩ : ∃ k, fuel = k + 1 := ⟨fuel - 1, by omega⟩
        have hhead := harm (queuedAt i r e) (hperm.mem_iff.mpr List.mem_cons_self)
        have htail := hrun arm f
          (fun a ha => harm a (hperm.mem_iff.mpr (List.mem_cons_of_mem _ ha))) fuel (by omega)
        rw [emptied_set hi] at htail
        change arm i (queuedAt i r e).bound = _ at hhead
        simp only [selectLoop, hsel]
        show (do
          let done ← arm i (queuedAt i r e).bound
          let x ← selectLoop arm fuel (rs.set i (r.withDeque rest))
          pure (done ++ x.1, x.2)) = _
        rw [hhead, htail]
        rfl

theorem recordArm_bound (a : Queued T) : recordArm a.ind a.bound = .ok [(a.ind, a.bound)] := rfl

theorem ignoreErrorsArm_bound (a : Queued T) :
    ignoreErrorsArm a.ind a.bound = .ok a.handed := by
  unfold Queued.bound Queued.handed
  cases a.typed <;> rfl

theorem strictly_of_before {order : List (Queued T)} (h : order.Pairwise Queued.Before)
    (hne : order.Pairwise fun a b => a.sn ≠ b.sn) : order.Pairwise fun a b => a.sn < b.sn := by
  refine (h.and hne).imp fun {a b} hab => ?_
  rcases hab.1 with hlt | ⟨heq, -⟩
  · exact hlt
  · exact absurd heq hab.2

/-- `select!` hands every message to its arm once, by increasing number. -/
theorem select_handles_in_order (rs : List (TypedReceiver T))
    (live : ∀ r ∈ rs, 0 < r.queue.senderCount)
    (increasing : ∀ r ∈ rs, r.queue.deque.Pairwise fun a b => a.1 < b.1)
    (decodes : ∀ r ∈ rs, ∀ e ∈ r.queue.deque, e.2.sender.alwaysWellFormed →
      (r.decode e.2.payload).isSome) :
    ∃ order : List (Queued T), order.Perm (queued rs) ∧ order.Pairwise Queued.Before ∧
      ((queued rs).Pairwise (fun a b => a.sn ≠ b.sn) → order.Pairwise fun a b => a.sn < b.sn) ∧
      ∀ fuel, (queued rs).length < fuel →
        selectLoop recordArm fuel rs =
          .ok (order.map fun a => (a.ind, a.bound), emptied rs) ∧
        selectLoop ignoreErrorsArm fuel rs = .ok (order.flatMap Queued.handed, emptied rs) := by
  have hg : ∀ r ∈ rs, Good r := fun r hr => ⟨live r hr, increasing r hr, decodes r hr⟩
  obtain ⟨order, hperm, hsorted, hrun⟩ := selectLoop_takes hg rfl
  refine ⟨order, hperm, hsorted, ?_, fun fuel hfuel => ⟨?_, ?_⟩⟩
  · intro hne
    exact strictly_of_before hsorted ((hperm.pairwise_iff fun h => Ne.symm h).mpr hne)
  · rw [hrun recordArm _ (fun a _ => recordArm_bound a) fuel hfuel, List.map_eq_flatMap]
  · exact hrun ignoreErrorsArm _ (fun a _ => ignoreErrorsArm_bound a) fuel hfuel

def twoReceivers : List (TypedReceiver Bytes) :=
  [⟨{deque := [(0, ⟨.gatekeeper, ⟨[1]⟩, [10]⟩), (3, ⟨.gatekeeper, ⟨[1]⟩, [13]⟩)]}, some⟩,
    ⟨{deque := [(1, ⟨.contract [5], ⟨[2]⟩, [11]⟩)]}, fun _ => none⟩]

theorem select_handles_in_order_two :
    ∃ order : List (Queued Bytes), order.Perm (queued twoReceivers) ∧
      order.Pairwise Queued.Before ∧
      ((queued twoReceivers).Pairwise (fun a b => a.sn ≠ b.sn) →
        order.Pairwise fun a b => a.sn < b.sn) ∧
      ∀ fuel, (queued twoReceivers).length < fuel →
        selectLoop recordArm fuel twoReceivers =
          .ok (order.map fun a => (a.ind, a.bound), emptied twoReceivers) ∧
        selectLoop ignoreErrorsArm fuel twoReceivers =
          .ok (order.flatMap Queued.handed, emptied twoReceivers) :=
  select_handles_in_order twoReceivers (by simp [twoReceivers]) (by simp [twoReceivers])
    (by simp [twoReceivers, MessageOrigin.alwaysWellFormed])

/-! ## A receiver whose senders are gone -/

def Gone (r : TypedReceiver T) : Prop := r.queue.deque = [] ∧ r.queue.senderCount = 0

theorem scan_of_gone {rs : List (TypedReceiver T)} (h : ∃ r ∈ rs, Gone r) :
    (scan rs).ind = rs.length ∧ (scan rs).min = some 0 ∧
      ∃ r, rs[(scan rs).minInd]? = some r ∧ Gone r := by
  have hind : ∀ rs : List (TypedReceiver T), (scan rs).ind = rs.length := by
    intro rs
    induction rs using List.reverseRecOn with
    | nil => rfl
    | append_singleton rs r ih =>
      unfold scan at ih ⊢
      rw [List.foldl_append, List.length_append, ← ih]
      show (Scan.visit _ r).ind = _
      unfold Scan.visit
      split
      · split
        · rfl
        · split_ifs <;> rfl
      · rfl
      · rfl
  refine ⟨hind rs, ?_⟩
  induction rs using List.reverseRecOn with
  | nil =>
    obtain ⟨r, hr, -⟩ := h
    cases hr
  | append_singleton rs r ih =>
    have hstep : scan (rs ++ [r]) = (scan rs).visit r := by
      unfold scan
      rw [List.foldl_append]
      rfl
    rw [hstep]
    by_cases hr : Gone r
    · have hpeek : r.peekInd = .error .senderGone := by
        unfold TypedReceiver.peekInd Channel.peekInd
        rw [hr.1, hr.2]
        rfl
      unfold Scan.visit
      rw [hpeek]
      exact ⟨rfl, r, by simp [hind rs], hr⟩
    · have hbefore : ∃ r ∈ rs, Gone r := by
        obtain ⟨r', hr', hg⟩ := h
        rcases List.mem_append.mp hr' with h' | h'
        · exact ⟨r', h', hg⟩
        · obtain rfl : r' = r := by simpa using h'
          exact absurd hg hr
      obtain ⟨hmin, r', hi, hg⟩ := ih hbefore
      have hkeep : ((scan rs).visit r).min = some 0 ∧
          ((scan rs).visit r).minInd = (scan rs).minInd := by
        unfold Scan.visit TypedReceiver.peekInd Channel.peekInd
        cases hd : r.queue.deque with
        | nil =>
          have hne : r.queue.senderCount ≠ 0 := fun h0 => hr ⟨hd, h0⟩
          simp [hne, hmin]
        | cons e rest => simp [hmin]
      have hlt : (scan rs).minInd < rs.length := (List.getElem?_eq_some_iff.mp hi).1
      rw [hkeep.1, hkeep.2, List.getElem?_append_left hlt]
      exact ⟨rfl, r', hi, hg⟩

theorem select_of_gone {rs : List (TypedReceiver T)} (h : ∃ r ∈ rs, Gone r) :
    ∃ i, select rs = .ok (some (i, .error .senderGone), rs) := by
  obtain ⟨-, hmin, r, hi, hg⟩ := scan_of_gone h
  have hnext : r.tryNext = .ok (.error .senderGone, r) := by
    unfold TypedReceiver.tryNext Channel.tryNext
    rw [hg.1, hg.2]
    rfl
  refine ⟨(scan rs).minInd, ?_⟩
  unfold select Scan.take
  rw [hmin, hi]
  simp only [hnext]
  obtain ⟨hlt, rfl⟩ := List.getElem?_eq_some_iff.mp hi
  rw [List.set_getElem_self]

theorem selectLoop_of_gone {rs : List (TypedReceiver T)} (h : ∃ r ∈ rs, Gone r) (fuel : ℕ) :
    selectLoop recordArm fuel rs = .error .outOfFuel := by
  induction fuel with
  | zero => rfl
  | succ fuel ih =>
    obtain ⟨i, hsel⟩ := select_of_gone h
    simp only [selectLoop, hsel]
    show (do
      let x ← selectLoop recordArm fuel rs
      pure ([(i, Except.error TypedReceiveError.senderGone)] ++ x.1, x.2)) = _
    rw [ih]
    rfl

end Dispatch

end Cyrux.Mq
