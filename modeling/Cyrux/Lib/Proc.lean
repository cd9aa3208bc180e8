import Mathlib.Logic.Basic

/-!
# Procedures with early return
-/

namespace Cyrux

abbrev Proc (σ ε : Type) := EStateM ε σ

namespace Proc

variable {σ ε α β : Type}

def ensure (c : Prop) [Decidable c] (e : ε) : Proc σ ε Unit :=
  if c then pure () else throw e

def demand (o : Option α) (e : ε) : Proc σ ε α :=
  match o with
  | some a => pure a
  | none => throw e

def alter (f : σ → σ) : Proc σ ε Unit := fun s => .ok () (f s)

def when (c : Prop) [Decidable c] (m : Proc σ ε Unit) : Proc σ ε Unit := if c then m else pure ()

def focus {τ : Type} (part : τ → σ) (update : σ → τ → τ) (m : Proc σ ε α) : Proc τ ε α := fun t =>
  match m (part t) with
  | .ok a s => .ok a (update s t)
  | .error e s => .error e (update s t)

def mapError (g : ε → ε) (m : Proc σ ε α) : Proc σ ε α := fun s =>
  match m s with
  | .ok a s' => .ok a s'
  | .error e s' => .error (g e) s'

def attempt (caught : ε → Bool) (m : Proc σ ε α) : Proc σ ε (Option α) := fun s =>
  match m s with
  | .ok a s' => .ok (some a) s'
  | .error e s' => if caught e then .ok none s' else .error e s'

def each (f : α → Proc σ ε Unit) : List α → Proc σ ε Unit
  | [] => pure ()
  | a :: l => do
      f a
      each f l

def result (m : Proc σ ε α) (s : σ) : Except ε α :=
  match m s with
  | .ok a _ => .ok a
  | .error e _ => .error e

def after (m : Proc σ ε α) (s : σ) : σ :=
  match m s with
  | .ok _ s' => s'
  | .error _ s' => s'

end Proc

open Proc

variable {σ ε α β : Type}

def Runs (m : Proc σ ε α) (s : σ) (Q : α → σ → Prop) (E : ε → σ → Prop) : Prop :=
  match m s with
  | .ok a s' => Q a s'
  | .error e s' => E e s'

variable {m : Proc σ ε α} {s : σ} {Q Q' : α → σ → Prop} {E E' : ε → σ → Prop}

theorem Runs.mono (h : Runs m s Q E) (hQ : ∀ a s', Q a s' → Q' a s')
    (hE : ∀ e s', E e s' → E' e s') : Runs m s Q' E' := by
  unfold Runs at *
  split at h
  · exact hQ _ _ h
  · exact hE _ _ h

theorem Runs.and (h : Runs m s Q E) (h' : Runs m s Q' E') :
    Runs m s (fun a s' => Q a s' ∧ Q' a s') (fun e s' => E e s' ∧ E' e s') := by
  unfold Runs at *
  split at h
  · rename_i run
    rw [run] at h'
    exact ⟨h, h'⟩
  · rename_i run
    rw [run] at h'
    exact ⟨h, h'⟩

theorem Runs.outcome (h : Runs m s Q E) :
    (∃ a, m.result s = .ok a ∧ Q a (m.after s)) ∨ ∃ e, m.result s = .error e ∧ E e (m.after s) := by
  unfold Runs at h
  unfold result after
  split at h
  · exact .inl ⟨_, rfl, h⟩
  · exact .inr ⟨_, rfl, h⟩

theorem Runs.of_after {P : σ → Prop} (h : Runs m s (fun _ => P) (fun _ => P)) :
    P (m.after s) := by
  obtain ⟨_, -, h⟩ | ⟨_, -, h⟩ := h.outcome
  · exact h
  · exact h

theorem Runs.of_ok {a : α} (h : Runs m s Q E) (run : m.result s = .ok a) : Q a (m.after s) := by
  obtain ⟨b, hb, h⟩ | ⟨e, he, -⟩ := h.outcome
  · rw [run] at hb
    cases hb
    exact h
  · rw [run] at he
    cases he

theorem Runs.of_error {e : ε} (h : Runs m s Q E) (run : m.result s = .error e) :
    E e (m.after s) := by
  obtain ⟨b, hb, -⟩ | ⟨e', he, h⟩ := h.outcome
  · rw [run] at hb
    cases hb
  · rw [run] at he
    cases he
    exact h

theorem Runs.bind {f : α → Proc σ ε β} {Q : β → σ → Prop}
    (h : Runs m s (fun a s' => Runs (f a) s' Q E) E) : Runs (m >>= f) s Q E := by
  unfold Runs at *
  change match (EStateM.bind m f s) with
    | .ok a s' => Q a s'
    | .error e s' => E e s'
  unfold EStateM.bind
  split at h
  · rename_i run
    rw [run]
    exact h
  · rename_i run
    rw [run]
    exact h

theorem Runs.map {f : α → β} {Q : β → σ → Prop} (h : Runs m s (fun a s' => Q (f a) s') E) :
    Runs (f <$> m) s Q E := by
  unfold Runs at *
  change match (EStateM.map f m s) with
    | .ok b s' => Q b s'
    | .error e s' => E e s'
  unfold EStateM.map
  split at h
  · rename_i run
    rw [run]
    exact h
  · rename_i run
    rw [run]
    exact h

theorem Runs.get_bind {f : σ → Proc σ ε α} (h : Runs (f s) s Q E) :
    Runs (get >>= f) s Q E := Runs.bind h

theorem Runs.alter_bind {g : σ → σ} {f : Unit → Proc σ ε α} (h : Runs (f ()) (g s) Q E) :
    Runs (alter g >>= f) s Q E := Runs.bind h

theorem Runs.ensure {c : Prop} [Decidable c] {e : ε} {Q : Unit → σ → Prop} (holds : c → Q () s)
    (fails : ¬ c → E e s) : Runs (ensure c e) s Q E := by
  unfold Proc.ensure
  split
  · exact holds ‹_›
  · exact fails ‹_›

theorem Runs.ensure_bind {c : Prop} [Decidable c] {e : ε} {f : Unit → Proc σ ε α}
    (holds : c → Runs (f ()) s Q E) (fails : ¬ c → E e s) : Runs (Proc.ensure c e >>= f) s Q E :=
  Runs.bind (Runs.ensure holds fails)

theorem Runs.when {c : Prop} [Decidable c] {m : Proc σ ε Unit} {Q : Unit → σ → Prop}
    (holds : c → Runs m s Q E) (fails : ¬ c → Q () s) : Runs (when c m) s Q E := by
  unfold Proc.when
  split
  · exact holds ‹_›
  · exact fails ‹_›

theorem Runs.focus {τ : Type} {part : τ → σ} {update : σ → τ → τ} {t : τ} {Q : α → τ → Prop}
    {E : ε → τ → Prop}
    (h : Runs m (part t) (fun a s => Q a (update s t)) (fun e s => E e (update s t))) :
    Runs (focus part update m) t Q E := by
  unfold Runs Proc.focus at *
  cases run : m (part t) with
  | ok a s =>
    rw [run] at h
    exact h
  | error e s =>
    rw [run] at h
    exact h

theorem Runs.demand_bind {o : Option β} {e : ε} {f : β → Proc σ ε α}
    (found : ∀ b, o = some b → Runs (f b) s Q E) (missing : o = none → E e s) :
    Runs (demand o e >>= f) s Q E := by
  cases o with
  | some b => exact found b rfl
  | none => exact missing rfl

theorem Runs.mapError {g : ε → ε} (h : Runs m s Q fun e s' => E (g e) s') :
    Runs (mapError g m) s Q E := by
  unfold Runs Proc.mapError at *
  cases run : m s with
  | ok a s' =>
    rw [run] at h
    exact h
  | error e s' =>
    rw [run] at h
    exact h

theorem Runs.attempt_bind {caught : ε → Bool} {f : Option β → Proc σ ε α} {n : Proc σ ε β}
    (h : Runs n s (fun b s' => Runs (f (some b)) s' Q E)
      fun e s' => if caught e = true then Runs (f none) s' Q E else E e s') :
    Runs (attempt caught n >>= f) s Q E := by
  apply Runs.bind
  unfold Runs Proc.attempt at *
  cases run : n s with
  | ok b s' =>
    rw [run] at h
    exact h
  | error e s' =>
    rw [run] at h
    cases hc : caught e with
    | true =>
      simp only [hc, if_true] at h ⊢
      exact h
    | false =>
      simp only [hc, Bool.false_eq_true, if_false] at h ⊢
      exact h

theorem Runs.each {f : α → Proc σ ε Unit} {l : List α} {I : List α → σ → Prop}
    (body : ∀ a l s, I (a :: l) s → Runs (f a) s (fun _ s' => I l s') E) (h : I l s) :
    Runs (each f l) s (fun _ s' => I [] s') E := by
  induction l generalizing s with
  | nil => exact h
  | cons a l ih => exact Runs.bind ((body a l s h).mono (fun _ _ hs' => ih hs') fun _ _ he => he)

/-! ## Two runs -/

def Together {τ : Type} (m : Proc σ ε α) (m' : Proc τ ε α) (s : σ) (t : τ)
    (Q : α → σ → τ → Prop) (E : ε → σ → τ → Prop) : Prop :=
  match m s, m' t with
  | .ok a s', .ok b t' => a = b ∧ Q a s' t'
  | .error e s', .error e' t' => e = e' ∧ E e s' t'
  | _, _ => False

section Together

variable {τ : Type} {m : Proc σ ε α} {m' : Proc τ ε α} {s : σ} {t : τ} {Q Q' : α → σ → τ → Prop}
  {E E' : ε → σ → τ → Prop}

theorem Together.mono (h : Together m m' s t Q E) (hQ : ∀ a s' t', Q a s' t' → Q' a s' t')
    (hE : ∀ e s' t', E e s' t' → E' e s' t') : Together m m' s t Q' E' := by
  unfold Together at *
  split at h
  · exact ⟨h.1, hQ _ _ _ h.2⟩
  · exact ⟨h.1, hE _ _ _ h.2⟩
  · exact h

theorem Together.result_eq (h : Together m m' s t Q E) : m.result s = m'.result t := by
  unfold Together at h
  unfold result
  split at h
  · rename_i run run'
    rw [run, run', h.1]
  · rename_i run run'
    rw [run, run', h.1]
  · exact h.elim

theorem Together.after {R : σ → τ → Prop} (h : Together m m' s t (fun _ => R) (fun _ => R)) :
    R (m.after s) (m'.after t) := by
  unfold Together at h
  unfold Proc.after
  split at h
  · rename_i run run'
    rw [run, run']
    exact h.2
  · rename_i run run'
    rw [run, run']
    exact h.2
  · exact h.elim

theorem Together.refl {R : σ → σ → Prop} {s : σ} (hR : ∀ s', R s' s') :
    Together m m s s (fun _ => R) (fun _ => R) := by
  unfold Together
  cases m s with
  | ok a s' => exact ⟨rfl, hR s'⟩
  | error e s' => exact ⟨rfl, hR s'⟩

theorem Together.bind {f : α → Proc σ ε β} {f' : α → Proc τ ε β} {Q : β → σ → τ → Prop}
    (h : Together m m' s t (fun a s' t' => Together (f a) (f' a) s' t' Q E) E) :
    Together (m >>= f) (m' >>= f') s t Q E := by
  unfold Together at h
  change match EStateM.bind m f s, EStateM.bind m' f' t with
    | .ok a s', .ok b t' => a = b ∧ Q a s' t'
    | .error e s', .error e' t' => e = e' ∧ E e s' t'
    | _, _ => False
  unfold EStateM.bind
  split at h
  · rename_i run run'
    rw [run, run', ← h.1]
    exact h.2
  · rename_i run run'
    rw [run, run']
    exact h
  · exact h.elim

theorem Together.right_bind {n : Proc τ ε β} {f' : β → Proc τ ε α} {b : β} {t' : τ}
    (run : n t = .ok b t') (h : Together m (f' b) s t' Q E) : Together m (n >>= f') s t Q E := by
  unfold Together at *
  have step : (n >>= f') t = f' b t' := by
    change EStateM.bind n f' t = _
    unfold EStateM.bind
    rw [run]
  rw [step]
  exact h

theorem Together.get_bind {f : σ → Proc σ ε α} {f' : τ → Proc τ ε α}
    (h : Together (f s) (f' t) s t Q E) : Together (get >>= f) (get >>= f') s t Q E := h

theorem Together.ensure_bind {c : Prop} [Decidable c] {e : ε} {f : Unit → Proc σ ε α}
    {f' : Unit → Proc τ ε α} (holds : c → Together (f ()) (f' ()) s t Q E)
    (fails : ¬ c → E e s t) : Together (ensure c e >>= f) (ensure c e >>= f') s t Q E := by
  apply Together.bind
  unfold ensure
  split
  · exact ⟨rfl, holds ‹_›⟩
  · exact ⟨rfl, fails ‹_›⟩

theorem Together.demand_bind {o : Option β} {e : ε} {f : β → Proc σ ε α} {f' : β → Proc τ ε α}
    (found : ∀ b, o = some b → Together (f b) (f' b) s t Q E) (missing : o = none → E e s t) :
    Together (demand o e >>= f) (demand o e >>= f') s t Q E := by
  apply Together.bind
  cases o with
  | some b => exact ⟨rfl, found b rfl⟩
  | none => exact ⟨rfl, missing rfl⟩

theorem Together.focus {ρ : Type} {part part' : ρ → σ} {update update' : σ → ρ → ρ} {r r' : ρ}
    {n n' : Proc σ ε α} {Q : α → ρ → ρ → Prop} {E : ε → ρ → ρ → Prop}
    (h : Together n n' (part r) (part' r') (fun a s s' => Q a (update s r) (update' s' r'))
      (fun e s s' => E e (update s r) (update' s' r'))) :
    Together (focus part update n) (focus part' update' n') r r' Q E := by
  unfold Together at h
  unfold Together Proc.focus
  split at h
  · rename_i run run'
    rw [run, run']
    exact h
  · rename_i run run'
    rw [run, run']
    exact h
  · exact h.elim

end Together

/-! ## Sequences of calls -/

section Calls

variable {C : Type} (call : C → Proc σ ε α)

def afterCalls (s : σ) (calls : List C) : σ := calls.foldl (fun s c => (call c).after s) s

def resultsOf (s : σ) : List C → List (Except ε α)
  | [] => []
  | c :: calls => (call c).result s :: resultsOf ((call c).after s) calls

def succeeded (s : σ) : List C → List C
  | [] => []
  | c :: calls =>
    match (call c).result s with
    | .ok _ => c :: succeeded ((call c).after s) calls
    | .error _ => succeeded ((call c).after s) calls

def Throughout (allowed : σ → C → Prop) (s : σ) : List C → Prop
  | [] => True
  | c :: calls => allowed s c ∧ Throughout allowed ((call c).after s) calls

instance decidableThroughout {call : C → Proc σ ε α} {allowed : σ → C → Prop}
    [∀ s c, Decidable (allowed s c)] (s : σ) (calls : List C) :
    Decidable (Throughout call allowed s calls) :=
  match calls with
  | [] => inferInstanceAs (Decidable True)
  | c :: calls =>
    have : Decidable (Throughout call allowed ((call c).after s) calls) :=
      decidableThroughout _ calls
    inferInstanceAs (Decidable (allowed s c ∧ Throughout call allowed ((call c).after s) calls))

variable {call} {allowed : σ → C → Prop} {R : σ → σ → Prop}

theorem throughout_append {s : σ} {calls later : List C}
    (h : Throughout call allowed s (calls ++ later)) :
    Throughout call allowed s calls ∧ Throughout call allowed (afterCalls call s calls) later := by
  induction calls generalizing s with
  | nil => exact ⟨trivial, h⟩
  | cons c calls ih =>
    obtain ⟨hcalls, hlater⟩ := ih h.2
    exact ⟨⟨h.1, hcalls⟩, hlater⟩

theorem throughout_of_forall (h : ∀ s c, allowed s c) (s : σ) (calls : List C) :
    Throughout call allowed s calls := by
  induction calls generalizing s with
  | nil => trivial
  | cons c calls ih => exact ⟨h s c, ih _⟩

theorem Throughout.and {allowed' : σ → C → Prop} {s : σ} {calls : List C}
    (h : Throughout call allowed s calls) (h' : Throughout call allowed' s calls) :
    Throughout call (fun s c => allowed s c ∧ allowed' s c) s calls := by
  induction calls generalizing s with
  | nil => trivial
  | cons c calls ih => exact ⟨⟨h.1, h'.1⟩, ih h.2 h'.2⟩

theorem Runs.afterCalls {I : σ → Prop}
    (step : ∀ s c, I s → allowed s c → Runs (call c) s (fun _ => I) (fun _ => I)) {s : σ} (h : I s)
    {calls : List C} (hallowed : Throughout call allowed s calls) :
    I (afterCalls call s calls) := by
  induction calls generalizing s with
  | nil => exact h
  | cons c calls ih => exact ih (step s c h hallowed.1).of_after hallowed.2

theorem Runs.resultsOf {I : σ → Prop}
    (step : ∀ s c, I s → allowed s c → Runs (call c) s (fun _ => I) (fun _ _ => False)) {s : σ}
    (h : I s) {calls : List C} (hallowed : Throughout call allowed s calls) :
    ∀ reply ∈ resultsOf call s calls, ∃ a, reply = .ok a := by
  induction calls generalizing s with
  | nil => nofun
  | cons c calls ih =>
    intro reply hreply
    obtain ⟨a, hresult, hI⟩ | ⟨_, _, hfalse⟩ := (step s c h hallowed.1).outcome
    · obtain rfl | hreply := List.mem_cons.1 hreply
      · exact ⟨a, hresult⟩
      · exact ih hI hallowed.2 reply hreply
    · exact hfalse.elim

theorem resultsOf_eq
    (same : ∀ s t c, R s t → allowed s c →
      Together (call c) (call c) s t (fun _ => R) (fun _ => R))
    {s t : σ} (h : R s t) {calls : List C} (hallowed : Throughout call allowed s calls) :
    resultsOf call s calls = resultsOf call t calls := by
  induction calls generalizing s t with
  | nil => rfl
  | cons c calls ih =>
    have hc := same s t c h hallowed.1
    unfold resultsOf
    rw [hc.result_eq, ih hc.after hallowed.2]

theorem afterCalls_succeeded
    (same : ∀ s t c, R s t → allowed s c →
      Together (call c) (call c) s t (fun _ => R) (fun _ => R))
    (failed : ∀ s t c e, R s t → allowed s c → (call c).result s = .error e →
      R ((call c).after s) t)
    {s t : σ} (h : R s t) {calls : List C} (hallowed : Throughout call allowed s calls) :
    R (afterCalls call s calls) (afterCalls call t (succeeded call s calls)) := by
  induction calls generalizing s t with
  | nil => exact h
  | cons c calls ih =>
    have hc := same s t c h hallowed.1
    unfold succeeded
    split
    · exact ih hc.after hallowed.2
    · rename_i e run
      exact ih (failed s t c e h hallowed.1 run) hallowed.2

end Calls

end Cyrux
