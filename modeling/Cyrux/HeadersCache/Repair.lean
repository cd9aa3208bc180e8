import Cyrux.Lib.HashChain
import Cyrux.Lib.Proc
import Mathlib

/-!
# Repair of cached headers

`standalone/headers-cache/src/grab.rs`
-/

namespace Cyrux.HeadersCache

open Proc

inductive Chain
  | relay
  | para
deriving DecidableEq

def Chain.ofString : String → Option Chain
  | "relay" => some relay
  | "para" => some para
  | _ => none

structure Nodes (B Hd H : Type) extends Linkage Hd H where
  decodeHeader : B → Option Hd
  canonical : Chain → ℕ → Hd
  record : Chain → ℕ → B
  /-- Whether the `n`-th grab is answered. -/
  answers : ℕ → Bool
  decode_record : ∀ c n, decodeHeader (record c n) = some (canonical c n)
  number_canonical : ∀ c n, number (canonical c n) = n
  parent_canonical : ∀ c n, parent (canonical c (n + 1)) = hash (canonical c n)

structure Serve where
  grabHeaders : Bool
  grabParaHeaders : Bool

def Serve.enabled (config : Serve) : Chain → Bool
  | .relay => config.grabHeaders
  | .para => config.grabParaHeaders

structure State (B : Type) where
  db : Chain → ℕ → Option B
  grabs : ℕ

inductive Error
  | unknownCheckType
  | invalidRange
  | grabDisabled
  | failedToGrab
  | cannotFixMismatch (block : ℕ)
deriving DecidableEq

structure Report where
  first : ℕ
  last : ℕ
  mismatches : ℕ
deriving DecidableEq

variable {B Hd H : Type}

section Program

variable (N : Nodes B Hd H) (config : Serve) (chain : Chain)

def State.put (s : State B) (number : ℕ) (value : B) : State B :=
  { s with db := Function.update s.db chain (Function.update (s.db chain) number (some value)) }

def regrabHeader (number : ℕ) : Proc (State B) Error Hd := do
  ensure (config.enabled chain = true) .grabDisabled
  let s ← get
  alter fun s => { s with grabs := s.grabs + 1 }
  ensure (N.answers s.grabs = true) .failedToGrab
  alter fun s => s.put chain number (N.record chain number)
  pure (N.canonical chain number)

def loadHeaderOrRegrab (block : ℕ) : Proc (State B) Error Hd := do
  let s ← get
  match (s.db chain block).bind N.decodeHeader with
  | some header => pure header
  | none => regrabHeader N config chain block

def checkBlocks [DecidableEq H] : ℕ → ℕ → Hd → ℕ → Proc (State B) Error ℕ
  | 0, _, _, mismatches => pure mismatches
  | n + 1, block, prev, mismatches => do
    let curHeader ← loadHeaderOrRegrab N config chain block
    if N.hash prev ≠ N.parent curHeader then
      let prev' ← regrabHeader N config chain (N.number prev)
      let curHeader' ← regrabHeader N config chain (N.number curHeader)
      ensure (N.hash prev' = N.parent curHeader') (.cannotFixMismatch block)
      checkBlocks n (block + 1) curHeader (mismatches + 1)
    else
      checkBlocks n (block + 1) curHeader mismatches

def checkRange [DecidableEq H] (first last : ℕ) : Proc (State B) Error Report := do
  ensure (first ≤ last) .invalidRange
  let before := first - 1
  let prev ← loadHeaderOrRegrab N config chain before
  let mismatches ← checkBlocks N config chain (last - before) (before + 1) prev 0
  pure ⟨before + 1, last, mismatches⟩

def checkAndFixHeaders [DecidableEq H] (name : String) (first : ℕ) (upTo count : Option ℕ) :
    Proc (State B) Error Report := do
  let chain ← demand (Chain.ofString name) .unknownCheckType
  checkRange N config chain first (upTo.getD ((first + count.getD 1) % 2 ^ 32))

end Program

/-! ## Stored headers -/

section

variable (N : Nodes B Hd H) (chain : Chain)

def State.stored (s : State B) (block : ℕ) : Option Hd := (s.db chain block).bind N.decodeHeader

def found (f : ℕ → Option Hd) (block : ℕ) : Hd := (f block).getD (N.canonical chain block)

end

section

variable {N : Nodes B Hd H} {config : Serve} {chain : Chain} {s : State B}

theorem runs_regrabHeader (number : ℕ) :
    Runs (regrabHeader N config chain number) s
      (fun h s' => h = N.canonical chain number ∧
        s'.stored N chain = Function.update (s.stored N chain) number
          (some (N.canonical chain number)))
      fun _ _ => True := by
  apply Runs.ensure_bind
  case fails => exact fun _ => trivial
  intro _
  apply Runs.ensure_bind
  case fails => exact fun _ => trivial
  intro _
  refine ⟨rfl, ?_⟩
  funext block
  show (Function.update s.db chain (Function.update (s.db chain) number
    (some (N.record chain number))) chain block).bind N.decodeHeader = _
  rw [Function.update_self]
  by_cases hb : block = number
  · subst hb
    rw [Function.update_self, Function.update_self]
    exact N.decode_record chain block
  · rw [Function.update_of_ne hb, Function.update_of_ne hb]
    rfl

theorem runs_loadHeaderOrRegrab (block : ℕ) :
    Runs (loadHeaderOrRegrab N config chain block) s
      (fun h s' => h = found N chain (s.stored N chain) block ∧
        s'.stored N chain = Function.update (s.stored N chain) block (some h))
      fun _ _ => True := by
  apply Runs.get_bind
  cases hb : (s.db chain block).bind N.decodeHeader with
  | some header =>
    have hstored : s.stored N chain block = some header := hb
    refine ⟨?_, ?_⟩
    · unfold found
      rw [hstored]
      rfl
    · rw [← hstored, Function.update_eq_self]
  | none =>
    have hstored : s.stored N chain block = none := hb
    refine (runs_regrabHeader block).mono ?_ fun _ _ _ => trivial
    rintro h s' ⟨rfl, hs'⟩
    refine ⟨?_, hs'⟩
    unfold found
    rw [hstored]
    rfl

end

/-! ## The check -/

section

variable (N : Nodes B Hd H) (chain : Chain) (f : ℕ → Option Hd) (a : ℕ)

def Mismatch (k : ℕ) : Prop :=
  a < k ∧ N.hash (found N chain f (k - 1)) ≠ N.parent (found N chain f k)

instance [DecidableEq H] (k : ℕ) : Decidable (Mismatch N chain f a k) :=
  inferInstanceAs (Decidable (_ ∧ _))

structure Repairable (last : ℕ) : Prop where
  numbers : ∀ k, a ≤ k → k ≤ last → N.number (found N chain f k) = k
  after : ∀ k, k < last → Mismatch N chain f a k → ¬ Mismatch N chain f a (k + 1) →
    N.hash (found N chain f k) = N.hash (N.canonical chain k)
  before : ∀ k, a < k → k < last → Mismatch N chain f a (k + 1) → ¬ Mismatch N chain f a k →
    N.hash (found N chain f (k - 1)) = N.hash (N.canonical chain (k - 1))

def checked [DecidableEq H] (k : ℕ) : Hd :=
  if Mismatch N chain f a k then N.canonical chain k else found N chain f k

structure CheckedTo [DecidableEq H] (b : ℕ) (g : ℕ → Option Hd) : Prop where
  ahead : ∀ k, b < k → g k = f k
  last : g b = some (checked N chain f a b)
  previous : a < b → g (b - 1) = some (if Mismatch N chain f a b then N.canonical chain (b - 1)
    else checked N chain f a (b - 1))
  linked : ∀ k, a < k → k ≤ b → ∃ h h', g (k - 1) = some h ∧ g k = some h' ∧
    N.parent h' = N.hash h

end

section

variable [DecidableEq H] {N : Nodes B Hd H} {config : Serve} {chain : Chain}
  {f g : ℕ → Option Hd} {a b last : ℕ}

theorem checkedTo_start (hg : g = Function.update f a (some (found N chain f a))) :
    CheckedTo N chain f a a g := by
  have hno : ¬ Mismatch N chain f a a := fun h => absurd h.1 (lt_irrefl a)
  refine ⟨fun k hk => ?_, ?_, fun h => absurd h (lt_irrefl a), fun k hk hkb => ?_⟩
  · rw [hg, Function.update_of_ne hk.ne']
  · rw [hg, Function.update_self, checked, if_neg hno]
  · omega

theorem CheckedTo.step_linked (h : CheckedTo N chain f a b g) (hab : a ≤ b)
    (hr : Repairable N chain f a last) (hb : b < last) (hno : ¬ Mismatch N chain f a (b + 1)) :
    CheckedTo N chain f a (b + 1) (Function.update g (b + 1) (some (found N chain f (b + 1)))) := by
  have hnext : checked N chain f a (b + 1) = found N chain f (b + 1) := if_neg hno
  have hparent : N.hash (found N chain f b) = N.parent (found N chain f (b + 1)) := by
    by_contra hne
    exact hno ⟨Nat.lt_succ_of_le hab, hne⟩
  have hkeep : ∀ k, k ≤ b →
      Function.update g (b + 1) (some (found N chain f (b + 1))) k = g k := fun k hk =>
    Function.update_of_ne (by omega) _ _
  -- a header that was grabbed again was canonical before
  have hhash : N.hash (checked N chain f a b) = N.hash (found N chain f b) := by
    unfold checked
    split_ifs with hm
    · exact (hr.after b hb hm hno).symm
    · rfl
  refine ⟨fun k hk => ?_, ?_, fun _ => ?_, fun k hk hkb => ?_⟩
  · rw [Function.update_of_ne (by omega)]
    exact h.ahead k (by omega)
  · rw [Function.update_self, hnext]
  · rw [if_neg hno, Nat.add_sub_cancel, hkeep b le_rfl]
    exact h.last
  · rcases Nat.lt_or_ge b k with hbk | hbk
    · obtain rfl : k = b + 1 := by omega
      refine ⟨checked N chain f a b, found N chain f (b + 1), ?_, Function.update_self .., ?_⟩
      · rw [Nat.add_sub_cancel, hkeep b le_rfl]
        exact h.last
      · rw [hhash, hparent]
    · rw [hkeep k hbk, hkeep (k - 1) (by omega)]
      exact h.linked k hk hbk

theorem CheckedTo.step_mismatch (h : CheckedTo N chain f a b g) (hab : a ≤ b)
    (hr : Repairable N chain f a last) (hb : b < last) (hm : Mismatch N chain f a (b + 1)) :
    CheckedTo N chain f a (b + 1)
      (Function.update (Function.update g b (some (N.canonical chain b))) (b + 1)
        (some (N.canonical chain (b + 1)))) := by
  have hnext : checked N chain f a (b + 1) = N.canonical chain (b + 1) := if_pos hm
  have hself : Function.update (Function.update g b (some (N.canonical chain b))) (b + 1)
      (some (N.canonical chain (b + 1))) b = some (N.canonical chain b) := by
    rw [Function.update_of_ne (by omega), Function.update_self]
  have hkeep : ∀ k, k < b →
      Function.update (Function.update g b (some (N.canonical chain b))) (b + 1)
        (some (N.canonical chain (b + 1))) k = g k := fun k hk => by
    rw [Function.update_of_ne (by omega), Function.update_of_ne (by omega)]
  refine ⟨fun k hk => ?_, ?_, fun _ => ?_, fun k hk hkb => ?_⟩
  · rw [Function.update_of_ne (by omega), Function.update_of_ne (by omega)]
    exact h.ahead k (by omega)
  · rw [Function.update_self, hnext]
  · rw [if_pos hm, Nat.add_sub_cancel, hself]
  · rcases lt_trichotomy k b with hkb' | rfl | hkb'
    · rw [hkeep k hkb', hkeep (k - 1) (by omega)]
      exact h.linked k hk hkb'.le
    · -- the link behind the two headers: the one before them is canonical too
      obtain ⟨n, rfl⟩ : ∃ n, k = n + 1 := ⟨k - 1, by omega⟩
      rw [hself, Nat.add_sub_cancel, hkeep n (by omega)]
      have hprev := h.previous hk
      rw [Nat.add_sub_cancel] at hprev
      rw [hprev]
      refine ⟨_, _, rfl, rfl, ?_⟩
      rw [N.parent_canonical]
      split_ifs with hm'
      · rfl
      · have hsame := hr.before (n + 1) hk hb hm hm'
        unfold checked
        split_ifs
        · rfl
        · exact hsame.symm
    · obtain rfl : k = b + 1 := by omega
      refine ⟨_, _, ?_, Function.update_self .., N.parent_canonical chain b⟩
      exact hself

theorem runs_checkBlocks (hr : Repairable N chain f a last) (n : ℕ) {s : State B} {mismatches : ℕ}
    (h : CheckedTo N chain f a b (s.stored N chain)) (hab : a ≤ b) (hlast : b + n = last) :
    Runs (checkBlocks N config chain n (b + 1) (found N chain f b) mismatches) s
      (fun _ s' => CheckedTo N chain f a last (s'.stored N chain)) fun _ _ => True := by
  induction n generalizing b s mismatches with
  | zero =>
    obtain rfl : b = last := hlast
    exact h
  | succ n ih =>
    apply Runs.bind
    refine (runs_loadHeaderOrRegrab (b + 1)).mono ?_ fun _ _ _ => trivial
    rintro cur s₁ ⟨hcur, hs₁⟩
    have hfound : cur = found N chain f (b + 1) := by
      rw [hcur]
      unfold found
      rw [h.ahead (b + 1) (by omega)]
    subst hfound
    by_cases hm : N.hash (found N chain f b) ≠ N.parent (found N chain f (b + 1))
    · have hmis : Mismatch N chain f a (b + 1) := ⟨by omega, hm⟩
      rw [if_pos hm]
      apply Runs.bind
      refine (runs_regrabHeader _).mono ?_ fun _ _ _ => trivial
      rintro prev' s₂ ⟨rfl, hs₂⟩
      apply Runs.bind
      refine (runs_regrabHeader _).mono ?_ fun _ _ _ => trivial
      rintro cur' s₃ ⟨rfl, hs₃⟩
      apply Runs.ensure_bind
      case fails => exact fun _ => trivial
      intro _
      refine ih ?_ (by omega) (by omega)
      rw [hr.numbers b hab (by omega)] at hs₂
      rw [hr.numbers (b + 1) (by omega) (by omega), hs₂, hs₁] at hs₃
      have hstep := h.step_mismatch hab hr (by omega) hmis
      have heq : s₃.stored N chain = Function.update
          (Function.update (s.stored N chain) b (some (N.canonical chain b))) (b + 1)
          (some (N.canonical chain (b + 1))) := by
        rw [hs₃, Function.update_comm (show b ≠ b + 1 by omega), Function.update_idem]
        exact Function.update_comm (by omega) _ _ _
      rw [heq]
      exact hstep
    · have hno : ¬ Mismatch N chain f a (b + 1) := fun hmis => hm hmis.2
      rw [if_neg hm]
      refine ih ?_ (by omega) (by omega)
      rw [hs₁]
      exact h.step_linked hab hr (by omega) hno

theorem runs_checkRange {first : ℕ} {s : State B}
    (hr : Repairable N chain (s.stored N chain) (first - 1) last) :
    Runs (checkRange N config chain first last) s
      (fun _ s' => CheckedTo N chain (s.stored N chain) (first - 1) last (s'.stored N chain))
      fun _ _ => True := by
  apply Runs.ensure_bind
  case fails => exact fun _ => trivial
  intro hle
  apply Runs.bind
  refine (runs_loadHeaderOrRegrab (first - 1)).mono ?_ fun _ _ _ => trivial
  rintro prev s₁ ⟨rfl, hs₁⟩
  apply Runs.bind
  refine (runs_checkBlocks hr (last - (first - 1)) (checkedTo_start hs₁) le_rfl (by omega)).mono ?_
    fun _ _ _ => trivial
  intro _ s₂ hs₂
  exact hs₂

end

structure SimpleHeader where
  number : ℕ
  parent : ℕ
  hash : ℕ
deriving DecidableEq

def simpleNodes : Nodes SimpleHeader SimpleHeader ℕ where
  hash := SimpleHeader.hash
  parent := SimpleHeader.parent
  number := SimpleHeader.number
  decodeHeader := some
  canonical _ n := ⟨n, n, n + 1⟩
  record _ n := ⟨n, n, n + 1⟩
  answers _ := true
  decode_record _ _ := rfl
  number_canonical _ _ := rfl
  parent_canonical _ _ := rfl

def storedHeaders (headers : List SimpleHeader) : State SimpleHeader where
  db chain n := if chain = .relay then headers[n]? else none
  grabs := 0

end Cyrux.HeadersCache
