import Cyrux.Compute.Types
import Cyrux.Mq.SendQueue
import Mathlib

/-!
# Benchmark scores

`pallets/cyrux/src/registry.rs`
-/

namespace Cyrux

open Exec

/-! ## The initial score -/

namespace Registry

variable {A : Type}

inductive Error
  | invalidSender
  | invalidBenchReport
deriving DecidableEq

inductive Fault
  | error (e : Error)
  | divisionByZero
deriving DecidableEq

structure Worker (A : Type) extends WorkerInfo A where
  lastUpdated : ℕ

structure State (A : Type) where
  workers : Mq.Bytes → Option (Worker A)
  benchScores : List (Mq.Bytes × ℕ)
  initialScoreSet : List (Mq.Bytes × ℕ)

def maxScore : ℕ := 6000

def State.record (s : State A) (worker : Mq.Bytes) (now score : ℕ) : State A where
  workers := Function.update s.workers worker ((s.workers worker).map fun val =>
    { val with initialScore := some score, lastUpdated := now / 1000 })
  benchScores := s.benchScores ++ [(worker, score)]
  initialScoreSet := s.initialScoreSet ++ [(worker, score)]

def onBenchReport (now : ℕ) (sender : Mq.MessageOrigin) (startTime iterations : ℕ) :
    Exec (State A) Fault Unit :=
  match sender with
  | .worker workerPubkey => do
    ensure (startTime < now) (.error .invalidBenchReport)
    ensure ((now - startTime) / 1000 ≠ 0) .divisionByZero
    let score := iterations / ((now - startTime) / 1000)
    let score := score * 6 % 2 ^ 64
    let score := min maxScore (score % 2 ^ 32)
    alter fun s => s.record workerPubkey now score
  | _ => throw (.error .invalidSender)

def exactScore (now startTime iterations : ℕ) : ℕ :=
  min maxScore (6 * (iterations / ((now - startTime) / 1000)))

def Scorable (now startTime iterations : ℕ) : Prop :=
  1000 ≤ now - startTime ∧ 6 * (iterations / ((now - startTime) / 1000)) < 2 ^ 32

theorem onBenchReport_eq {now startTime iterations : ℕ} {worker : Mq.Bytes} (s : State A)
    (h : startTime < now → Scorable now startTime iterations) :
    onBenchReport now (.worker worker) startTime iterations s =
      if now ≤ startTime then .error (.error .invalidBenchReport)
      else .ok ((), s.record worker now (exactScore now startTime iterations)) := by
  by_cases hle : now ≤ startTime
  · have hlt : ¬ startTime < now := by omega
    rw [if_pos hle]
    simp only [onBenchReport, ensure, hlt, if_false]
    rfl
  · have hlt : startTime < now := by omega
    obtain ⟨hsec, hfit⟩ := h hlt
    have hne : (now - startTime) / 1000 ≠ 0 := (Nat.div_pos hsec (by decide)).ne'
    have h64 : 6 * (iterations / ((now - startTime) / 1000)) < 2 ^ 64 :=
      hfit.trans (by decide)
    rw [if_neg hle]
    simp only [onBenchReport, ensure, hlt, hne, if_true, ne_eq, not_false_eq_true]
    rw [Nat.mul_comm, Nat.mod_eq_of_lt h64, Nat.mod_eq_of_lt hfit]
    rfl

end Registry

/-! ## The instant score -/

def Benchmark.update (b : Benchmark) (now iterations challengeTime : ℕ) : Option Benchmark :=
  if now ≤ b.challengeTimeLast then none
  else
    -- a lower counter means that the worker has been restarted
    let last := if iterations < b.iterations then iterations else b.iterations
    let deltaTs := now - b.challengeTimeLast
    let deltaIter := iterations - last
    let pInstant := deltaIter * 6 % 2 ^ 64 / deltaTs % 2 ^ 32
    some { b with
      challengeTimeLast := challengeTime
      iterations := iterations
      pInstant := min pInstant (b.pInit * 12 % 2 ^ 32 / 10) }

def Benchmark.exactInstant (b : Benchmark) (now iterations : ℕ) : ℕ :=
  min (6 * (iterations - b.iterations) / (now - b.challengeTimeLast)) (12 * b.pInit / 10)

def Benchmark.Scorable (b : Benchmark) (now iterations : ℕ) : Prop :=
  6 * (iterations - b.iterations) < 2 ^ 64 ∧
    6 * (iterations - b.iterations) / (now - b.challengeTimeLast) < 2 ^ 32 ∧
    12 * b.pInit < 2 ^ 32

theorem Benchmark.update_eq {b : Benchmark} {now iterations challengeTime : ℕ}
    (h : b.challengeTimeLast < now → b.Scorable now iterations) :
    b.update now iterations challengeTime =
      if now ≤ b.challengeTimeLast then none
      else some { b with
        challengeTimeLast := challengeTime
        iterations := iterations
        pInstant := b.exactInstant now iterations } := by
  unfold Benchmark.update
  by_cases hle : now ≤ b.challengeTimeLast
  · rw [if_pos hle, if_pos hle]
  · obtain ⟨hprod, hquot, hcap⟩ := h (by omega)
    have hdelta : (iterations - if iterations < b.iterations then iterations else b.iterations) =
        iterations - b.iterations := by
      split_ifs <;> omega
    simp only [hdelta]
    rw [Nat.mul_comm _ 6, Nat.mul_comm _ 12, Nat.mod_eq_of_lt hprod, Nat.mod_eq_of_lt hquot,
      Nat.mod_eq_of_lt hcap]
    rfl

/-! ## Exact scores -/

def oneWorker : Registry.State Unit where
  workers k := if k = [1] then some ⟨⟨none, none, 1, true⟩, 0⟩ else none
  benchScores := []
  initialScoreSet := []

end Cyrux
