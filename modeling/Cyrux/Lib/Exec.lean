import Mathlib.Logic.Relation
import Mathlib.Data.Nat.Basic

/-!
# Fallible stateful programs
-/

namespace Cyrux

abbrev Exec (σ φ : Type) := StateT σ (Except φ)

namespace Exec

variable {σ φ α β : Type}

def ensure (c : Prop) [Decidable c] (f : φ) : Exec σ φ Unit :=
  if c then pure () else throw f

def demand (o : Option α) (f : φ) : Exec σ φ α :=
  match o with
  | some a => pure a
  | none => throw f

def gets (f : σ → α) : Exec σ φ α := fun s => .ok (f s, s)

def alter (f : σ → σ) : Exec σ φ Unit := fun s => .ok ((), f s)

def when (c : Bool) (m : Exec σ φ Unit) : Exec σ φ Unit := if c then m else pure ()

def mapFault (g : φ → φ) (m : Exec σ φ α) : Exec σ φ α := fun s =>
  match m s with
  | .ok r => .ok r
  | .error f => .error (g f)

def attempt (caught : φ → Bool) (m : Exec σ φ α) : Exec σ φ (Option α) := fun s =>
  match m s with
  | .ok (a, s') => .ok (some a, s')
  | .error f => if caught f then .ok (none, s) else .error f

def each (f : α → Exec σ φ Unit) : List α → Exec σ φ Unit
  | [] => pure ()
  | a :: l => do
      f a
      each f l

end Exec

open Exec

variable {σ φ α β : Type}

def Sat (m : Exec σ φ α) (s : σ) (Q : α → σ → Prop) (E : φ → Prop) : Prop :=
  match m s with
  | .ok (a, s') => Q a s'
  | .error f => E f

theorem Sat.of_ok {m : Exec σ φ α} {s s' : σ} {a : α} {Q : α → σ → Prop} {E : φ → Prop}
    (h : Sat m s Q E) (run : m s = .ok (a, s')) : Q a s' := by
  unfold Sat at h
  rwa [run] at h

theorem Sat.of_error {m : Exec σ φ α} {s : σ} {f : φ} {Q : α → σ → Prop} {E : φ → Prop}
    (h : Sat m s Q E) (run : m s = .error f) : E f := by
  unfold Sat at h
  rwa [run] at h

theorem Sat.mono {m : Exec σ φ α} {s : σ} {Q Q' : α → σ → Prop} {E E' : φ → Prop}
    (h : Sat m s Q E) (hQ : ∀ a s', Q a s' → Q' a s') (hE : ∀ f, E f → E' f) :
    Sat m s Q' E' := by
  unfold Sat at *
  split at h
  · exact hQ _ _ h
  · exact hE _ h

theorem Sat.and {m : Exec σ φ α} {s : σ} {Q Q' : α → σ → Prop} {E E' : φ → Prop}
    (h : Sat m s Q E) (h' : Sat m s Q' E') :
    Sat m s (fun a s' => Q a s' ∧ Q' a s') (fun f => E f ∧ E' f) := by
  unfold Sat at *
  split at h
  · rename_i run
    rw [run] at h'
    exact ⟨h, h'⟩
  · rename_i run
    rw [run] at h'
    exact ⟨h, h'⟩

theorem Sat.elim {m : Exec σ φ α} {s : σ} {Q : α → σ → Prop} {E : φ → Prop} (h : Sat m s Q E)
    (ok : ∀ a s', ¬ Q a s') (error : ∀ f, ¬ E f) : False := by
  unfold Sat at h
  split at h
  · exact ok _ _ h
  · exact error _ h

theorem Sat.error_eq {m : Exec σ φ α} {s : σ} {f : φ}
    (h : Sat m s (fun _ _ => False) (fun f' => f' = f)) : m s = .error f := by
  unfold Sat at h
  split at h
  · exact h.elim
  · rename_i run
    rw [run, h]

theorem Sat.returns {m : Exec σ φ α} {s : σ} {Q : α → σ → Prop}
    (h : Sat m s Q (fun _ => False)) : ∃ a s', m s = .ok (a, s') ∧ Q a s' := by
  unfold Sat at h
  split at h
  · rename_i a s' run
    exact ⟨a, s', run, h⟩
  · exact h.elim

theorem Sat.with_run {m : Exec σ φ α} {s : σ} {Q : α → σ → Prop} {E : φ → Prop}
    (h : Sat m s Q E) : Sat m s (fun a s' => Q a s' ∧ m s = .ok (a, s')) E := by
  unfold Sat at *
  split at h
  · rename_i run
    exact ⟨h, run⟩
  · exact h

@[simp] theorem sat_pure {a : α} {s : σ} {Q : α → σ → Prop} {E : φ → Prop} :
    Sat (pure a : Exec σ φ α) s Q E ↔ Q a s := Iff.rfl

@[simp] theorem sat_throw {f : φ} {s : σ} {Q : α → σ → Prop} {E : φ → Prop} :
    Sat (throw f : Exec σ φ α) s Q E ↔ E f := Iff.rfl

@[simp] theorem sat_get {s : σ} {Q : σ → σ → Prop} {E : φ → Prop} :
    Sat (get : Exec σ φ σ) s Q E ↔ Q s s := Iff.rfl

@[simp] theorem sat_alter {f : σ → σ} {s : σ} {Q : Unit → σ → Prop} {E : φ → Prop} :
    Sat (alter f : Exec σ φ Unit) s Q E ↔ Q () (f s) := Iff.rfl

theorem bind_apply (m : Exec σ φ α) (f : α → Exec σ φ β) (s : σ) :
    (m >>= f) s = match m s with
      | .ok (a, s') => f a s'
      | .error e => .error e := by
  change (StateT.bind m f) s = _
  unfold StateT.bind
  cases m s <;> rfl

theorem sat_bind {m : Exec σ φ α} {f : α → Exec σ φ β} {s : σ} {Q : β → σ → Prop}
    {E : φ → Prop} :
    Sat (m >>= f) s Q E ↔ Sat m s (fun a s' => Sat (f a) s' Q E) E := by
  unfold Sat
  rw [bind_apply]
  cases m s <;> rfl

theorem Sat.bind {m : Exec σ φ α} {f : α → Exec σ φ β} {s : σ} {R : α → σ → Prop}
    {Q : β → σ → Prop} {E F : φ → Prop} (h : Sat m s R F) (hE : ∀ f, F f → E f)
    (rest : ∀ a s', R a s' → Sat (f a) s' Q E) : Sat (m >>= f) s Q E :=
  sat_bind.2 (h.mono rest hE)

theorem Sat.bind_congr {m : Exec σ φ α} {k k' : α → Exec σ φ β} {s : σ} {R : α → σ → Prop}
    {E : φ → Prop} (h : Sat m s R E) (same : ∀ a s', R a s' → k a s' = k' a s') :
    (m >>= k) s = (m >>= k') s := by
  rw [bind_apply, bind_apply]
  cases run : m s with
  | error f => rfl
  | ok r => exact same r.1 r.2 (h.of_ok run)

@[simp] theorem sat_ensure {c : Prop} [Decidable c] {f : φ} {s : σ} {Q : Unit → σ → Prop}
    {E : φ → Prop} :
    Sat (ensure c f : Exec σ φ Unit) s Q E ↔ (c → Q () s) ∧ (¬ c → E f) := by
  unfold ensure
  split_ifs with h <;> simp [h]

@[simp] theorem sat_demand {o : Option α} {f : φ} {s : σ} {Q : α → σ → Prop} {E : φ → Prop} :
    Sat (demand o f : Exec σ φ α) s Q E ↔ (∀ a, o = some a → Q a s) ∧ (o = none → E f) := by
  cases o <;> simp [demand]

@[simp] theorem sat_mapFault {g : φ → φ} {m : Exec σ φ α} {s : σ} {Q : α → σ → Prop}
    {E : φ → Prop} : Sat (mapFault g m) s Q E ↔ Sat m s Q (fun f => E (g f)) := by
  unfold Sat mapFault
  cases m s <;> rfl

theorem sat_attempt {caught : φ → Bool} {m : Exec σ φ α} {s : σ} {Q : Option α → σ → Prop}
    {E : φ → Prop} :
    Sat (attempt caught m) s Q E ↔
      Sat m s (fun a s' => Q (some a) s') (fun f => if caught f then Q none s else E f) := by
  unfold Sat attempt
  rcases m s with f | ⟨a, s'⟩
  · cases h : caught f <;> simp [h]
  · rfl

@[simp] theorem sat_when {c : Bool} {m : Exec σ φ Unit} {s : σ} {Q : Unit → σ → Prop}
    {E : φ → Prop} :
    Sat (when c m) s Q E ↔ (c = true → Sat m s Q E) ∧ (c = false → Q () s) := by
  cases c <;> simp [when]

/-! ## Stepping through a program -/

section Stepping

variable {m : Exec σ φ α} {k : α → Exec σ φ β} {s : σ} {Q : β → σ → Prop} {E : φ → Prop}

theorem Sat.get_bind {k : σ → Exec σ φ β} (h : Sat (k s) s Q E) : Sat (get >>= k) s Q E :=
  sat_bind.2 h

theorem Sat.alter_bind {f : σ → σ} {k : Unit → Exec σ φ β} (h : Sat (k ()) (f s) Q E) :
    Sat (alter f >>= k) s Q E :=
  sat_bind.2 h

theorem Sat.ensure_bind {c : Prop} [Decidable c] {f : φ} {k : Unit → Exec σ φ β}
    (h : c → Sat (k ()) s Q E) (h' : ¬ c → E f) : Sat (ensure c f >>= k) s Q E :=
  sat_bind.2 (sat_ensure.2 ⟨h, h'⟩)

theorem Sat.demand_bind {o : Option α} {f : φ} (h : ∀ a, o = some a → Sat (k a) s Q E)
    (h' : o = none → E f) : Sat (demand o f >>= k) s Q E :=
  sat_bind.2 (sat_demand.2 ⟨h, h'⟩)

theorem Sat.mapFault {g : φ → φ} {Q : α → σ → Prop} {F : φ → Prop} (h : Sat m s Q F)
    (hE : ∀ f, F f → E (g f)) : Sat (mapFault g m) s Q E :=
  sat_mapFault.2 (h.mono (fun _ _ hq => hq) hE)

theorem Sat.ite {c : Prop} [Decidable c] {n : Exec σ φ α} {Q : α → σ → Prop}
    (h : c → Sat m s Q E) (h' : ¬ c → Sat n s Q E) : Sat (if c then m else n) s Q E := by
  split_ifs with hc
  · exact h hc
  · exact h' hc

theorem Sat.pure_bind {a : α} (h : Sat (k a) s Q E) : Sat (pure a >>= k) s Q E := sat_bind.2 h

end Stepping

/-! ## Loops -/

theorem sat_foldlM {f : β → α → Exec σ φ β} {l : List α} {b : β} {s : σ} {I : β → σ → Prop}
    {E : φ → Prop}
    (body : ∀ b, ∀ a ∈ l, ∀ s, I b s → Sat (f b a) s (fun b' s' => I b' s') E) (h : I b s) :
    Sat (l.foldlM f b) s I E := by
  induction l generalizing b s with
  | nil => exact h
  | cons a l ih =>
    exact (body b a List.mem_cons_self s h).bind (fun _ he => he)
      fun b' s' hs' => ih (fun b c hc => body b c (List.mem_cons_of_mem _ hc)) hs'

def sumOf (g : α → Option ℕ) : List α → Option ℕ
  | [] => some 0
  | a :: l => do
    let x ← g a
    let y ← sumOf g l
    pure (x + y)

theorem sat_foldlM_sumOf {f : ℕ → α → Exec σ φ ℕ} {g : α → Option ℕ} {l : List α} {s : σ}
    {E : φ → Prop} (total : ℕ)
    (body : ∀ total, ∀ a ∈ l,
      Sat (f total a) s (fun r s' => (g a).map (total + ·) = some r ∧ s' = s) E) :
    Sat (l.foldlM f total) s (fun r s' => (sumOf g l).map (total + ·) = some r ∧ s' = s) E := by
  induction l generalizing total with
  | nil => exact ⟨rfl, rfl⟩
  | cons a l ih =>
    refine (body total a List.mem_cons_self).bind (fun _ h => h) ?_
    rintro r _ ⟨added, rfl⟩
    refine (ih r fun total b mem => body total b (List.mem_cons_of_mem _ mem)).mono ?_ fun _ h => h
    rintro r' _ ⟨rest, rfl⟩
    obtain ⟨x, value, rfl⟩ := Option.map_eq_some_iff.1 added
    obtain ⟨y, sum, rfl⟩ := Option.map_eq_some_iff.1 rest
    simp [sumOf, value, sum, Nat.add_assoc]

theorem each_cons (f : α → Exec σ φ Unit) (a : α) (l : List α) :
    each f (a :: l) = f a >>= fun _ => each f l := rfl

theorem each_cons_of_ok {f : α → Exec σ φ Unit} {a : α} {s s' : σ} (run : f a s = .ok ((), s'))
    (l : List α) : each f (a :: l) s = each f l s' := by
  rw [each_cons, bind_apply, run]

theorem sat_each {f : α → Exec σ φ Unit} {l : List α} {s : σ} {I : σ → Prop} {E : φ → Prop}
    (body : ∀ a ∈ l, ∀ s, I s → Sat (f a) s (fun _ s' => I s') E) (h : I s) :
    Sat (each f l) s (fun _ s' => I s') E := by
  induction l generalizing s with
  | nil => exact h
  | cons a l ih =>
    exact (body a List.mem_cons_self s h).bind (fun _ he => he)
      fun _ s' hs' => ih (fun b hb => body b (List.mem_cons_of_mem _ hb)) hs'

/-! ## Frames -/

def Leaves {τ : Type} (g : σ → τ) (E : φ → Prop) (m : Exec σ φ α) : Prop :=
  ∀ s, Sat m s (fun _ s' => g s' = g s) E

namespace Leaves

variable {τ : Type} {g : σ → τ} {E : φ → Prop} {m : Exec σ φ α} {k : α → Exec σ φ β}

theorem pure (a : α) : Leaves g E (Pure.pure a : Exec σ φ α) := fun _ => rfl

theorem map {ρ : Type} (h : Leaves g E m) (f : τ → ρ) : Leaves (fun s => f (g s)) E m :=
  fun s => (h s).mono (fun _ _ same => congrArg f same) fun _ he => he

theorem throw {f : φ} (h : E f) : Leaves g E (MonadExcept.throw f : Exec σ φ α) := fun _ => h

theorem get : Leaves g E (MonadState.get : Exec σ φ σ) := fun _ => rfl

theorem bind (h : Leaves g E m) (rest : ∀ a, Leaves g E (k a)) : Leaves g E (m >>= k) := fun s =>
  (h s).bind (fun _ he => he) fun a s' same =>
    (rest a s').mono (fun _ _ same' => same'.trans same) fun _ he => he

theorem ensure {c : Prop} [Decidable c] {f : φ} (h : E f) :
    Leaves g E (Exec.ensure c f : Exec σ φ Unit) :=
  fun _ => sat_ensure.2 ⟨fun _ => rfl, fun _ => h⟩

theorem demand {o : Option α} {f : φ} (h : E f) : Leaves g E (Exec.demand o f : Exec σ φ α) :=
  fun _ => sat_demand.2 ⟨fun _ _ => rfl, fun _ => h⟩

theorem alter {f : σ → σ} (h : ∀ s, g (f s) = g s) :
    Leaves g E (Exec.alter f : Exec σ φ Unit) := fun s => sat_alter.2 (h s)

theorem mapFault {f : φ → φ} {F : φ → Prop} (h : Leaves g F m) (hE : ∀ x, F x → E (f x)) :
    Leaves g E (Exec.mapFault f m) := fun s => (h s).mapFault hE

theorem attempt {caught : φ → Bool} (h : Leaves g E m) : Leaves g E (Exec.attempt caught m) := by
  intro s
  refine sat_attempt.2 ((h s).mono (fun _ _ same => same) fun f he => ?_)
  split_ifs
  · rfl
  · exact he

theorem ite {c : Prop} [Decidable c] {n : Exec σ φ α} (h : Leaves g E m) (h' : Leaves g E n) :
    Leaves g E (if c then m else n) := fun s => Sat.ite (fun _ => h s) fun _ => h' s

theorem foldlM {f : β → α → Exec σ φ β} {l : List α} {b : β} (h : ∀ b a, Leaves g E (f b a)) :
    Leaves g E (l.foldlM f b) := fun s =>
  sat_foldlM (I := fun _ s' => g s' = g s)
    (fun b a _ s' same => (h b a s').mono (fun _ _ same' => same'.trans same) fun _ he => he) rfl

theorem each {f : α → Exec σ φ Unit} {l : List α} (h : ∀ a, Leaves g E (f a)) :
    Leaves g E (Exec.each f l) := fun s =>
  sat_each (I := fun s' => g s' = g s)
    (fun a _ s' same => (h a s').mono (fun _ _ same' => same'.trans same) fun _ he => he) rfl

end Leaves

inductive Reach (init : σ → Prop) (step : σ → σ → Prop) : σ → Prop
  | init {s : σ} (h : init s) : Reach init step s
  | step {s s' : σ} (reached : Reach init step s) (h : step s s') : Reach init step s'

theorem Reach.invariant {init : σ → Prop} {step : σ → σ → Prop} {I : σ → Prop}
    (base : ∀ s, init s → I s) (preserved : ∀ s s', I s → step s s' → I s') {s : σ}
    (reached : Reach init step s) : I s := by
  induction reached with
  | init h => exact base _ h
  | step _ h ih => exact preserved _ _ ih h

end Cyrux
