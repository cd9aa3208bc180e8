import Mathlib.Data.List.Basic
import Mathlib.Data.List.Nodup
import Mathlib.Order.Nat
import Cyrux.Lib.Proc

/-!
# Master keys and random numbers

`crates/phactory/src/system/mod.rs`
-/

namespace Cyrux.MasterKey

open Proc

structure RotatedMasterKey (Secret : Type) where
  rotationId : ℕ
  blockHeight : ℕ
  secret : Secret
  deriving DecidableEq

structure Gatekeeper (Secret Random : Type) where
  masterKey : Secret
  masterKeyHistory : List (RotatedMasterKey Secret)
  lastRandomNumber : Random
  deriving DecidableEq

structure RandomNumberEvent (Random : Type) where
  blockNumber : ℕ
  randomNumber : Random
  lastRandomNumber : Random

inductive Fault where
  | panic (message : String)
  deriving DecidableEq

abbrev Program (Secret Random : Type) := Proc (Gatekeeper Secret Random) Fault

variable {Secret Random : Type} [DecidableEq Secret]

def Gatekeeper.new (masterKeyHistory : List (RotatedMasterKey Secret)) (zero : Random) :
    Except Fault (Gatekeeper Secret Random) :=
  match masterKeyHistory.head? with
  | none => .error (.panic "empty master key history")
  | some key => .ok ⟨key.secret, masterKeyHistory, zero⟩

def setMasterKeyHistory (masterKeyHistory : List (RotatedMasterKey Secret)) :
    Program Secret Random Bool := do
  let s ← get
  if masterKeyHistory.length ≤ s.masterKeyHistory.length then
    pure false
  else do
    alter fun s => { s with masterKeyHistory := masterKeyHistory }
    pure true

def appendMasterKey (rotatedMasterKey : RotatedMasterKey Secret) : Program Secret Random Bool := do
  let s ← get
  if rotatedMasterKey ∈ s.masterKeyHistory then
    pure false
  else do
    ensure (rotatedMasterKey.rotationId = s.masterKeyHistory.length)
      (.panic "Gatekeeper Master key history corrupted")
    alter fun s => { s with masterKeyHistory := s.masterKeyHistory ++ [rotatedMasterKey] }
    pure true

def switchMasterKey (rotationId blockHeight : ℕ) : Program Secret Random Bool := do
  let s ← get
  match s.masterKeyHistory[rotationId]? with
  | none => pure false
  | some rawKey => do
    ensure (rawKey.rotationId = rotationId ∧ rawKey.blockHeight = blockHeight)
      (.panic "Gatekeeper Master key history corrupted")
    alter fun s => { s with masterKey := rawKey.secret }
    pure true

def receiveMasterKey (rotationId blockNumber : ℕ) : Option Secret → Program Secret Random Unit
  | none => pure ()
  | some secret => do
    let _ ← appendMasterKey ⟨rotationId, blockNumber, secret⟩

def processBatchRotateMasterKey (rotationId blockNumber : ℕ) (secret : Option Secret) :
    Program Secret Random Bool := do
  receiveMasterKey rotationId blockNumber secret
  switchMasterKey rotationId blockNumber

def randomKey (blockNumber : ℕ) : Program Secret Random Secret := do
  let s ← get
  let last ← demand s.masterKeyHistory.getLast? (.panic "at least one key in gk; qed")
  if blockNumber < last.blockHeight then do
    ensure (2 ≤ s.masterKeyHistory.length) (.panic "no proper key for random generation")
    let key ← demand s.masterKeyHistory[s.masterKeyHistory.length - 2]?
      (.panic "index out of bounds")
    pure key.secret
  else
    pure s.masterKey

section Random

variable (nextRandomNumber : Secret → ℕ → Random → Random)

def processRandomNumberEvent [DecidableEq Random] (isGatekeeper : Bool)
    (event : RandomNumberEvent Random) :
    Program Secret Random Unit :=
  when (isGatekeeper = true) do
    let masterKey ← randomKey event.blockNumber
    ensure (nextRandomNumber masterKey event.blockNumber event.lastRandomNumber =
      event.randomNumber) (.panic "GK state poisoned")

def vrfInterval : ℕ := 5

def emitRandomNumber (blockNumber : ℕ) :
    Program Secret Random (Option (RandomNumberEvent Random)) := do
  let s ← get
  if blockNumber % vrfInterval ≠ 0 then
    pure none
  else do
    let randomNumber := nextRandomNumber s.masterKey blockNumber s.lastRandomNumber
    alter fun s => { s with lastRandomNumber := randomNumber }
    pure (some ⟨blockNumber, randomNumber, s.lastRandomNumber⟩)

end Random

/-! ## The keys of the chain -/

structure KeyChain (Secret : Type) where
  keys : List (RotatedMasterKey Secret)
  increasing : keys.Pairwise fun a b => a.blockHeight < b.blockHeight
  numbered : ∀ (k : ℕ) (key : RotatedMasterKey Secret), keys[k]? = some key → key.rotationId = k

def InForce (keys : List (RotatedMasterKey Secret)) (n : ℕ) (key : RotatedMasterKey Secret) :
    Prop :=
  ∃ k : ℕ, keys[k]? = some key ∧ key.blockHeight ≤ n ∧
    ∀ next, keys[k + 1]? = some next → n < next.blockHeight

inductive Replay (nextRandomNumber : Secret → ℕ → Random → Random) (chain : KeyChain Secret) :
    ℕ → Gatekeeper Secret Random → Prop
  /-- The gatekeeper starts with the first key, before any rotation, and may know later ones. -/
  | start {gk : Gatekeeper Secret Random} (count n : ℕ) (zero : Random)
      (new : Gatekeeper.new (chain.keys.take count) zero = .ok gk)
      (begun : ∀ key : RotatedMasterKey Secret, chain.keys[0]? = some key → key.blockHeight ≤ n)
      (later : ∀ key : RotatedMasterKey Secret, chain.keys[1]? = some key → n < key.blockHeight) :
      Replay nextRandomNumber chain n gk
  /-- The history of the keys is sent to the gatekeeper. -/
  | learn {n : ℕ} {gk : Gatekeeper Secret Random} (count : ℕ)
      (replay : Replay nextRandomNumber chain n gk) :
      Replay nextRandomNumber chain n ((setMasterKeyHistory (chain.keys.take count)).after gk)
  | emit {n : ℕ} {gk : Gatekeeper Secret Random} (replay : Replay nextRandomNumber chain n gk) :
      Replay nextRandomNumber chain n ((emitRandomNumber nextRandomNumber n).after gk)
  /-- A block without a rotation. -/
  | block {n : ℕ} {gk : Gatekeeper Secret Random} (replay : Replay nextRandomNumber chain n gk)
      (quiet : ∀ key ∈ chain.keys, key.blockHeight ≠ n + 1) :
      Replay nextRandomNumber chain (n + 1) gk
  /-- A block with a rotation, whose key may be encrypted for this gatekeeper. -/
  | rotate {n : ℕ} {gk : Gatekeeper Secret Random} (key : RotatedMasterKey Secret) (shared : Bool)
      (replay : Replay nextRandomNumber chain n gk) (member : key ∈ chain.keys)
      (now : key.blockHeight = n + 1)
      (known : (processBatchRotateMasterKey key.rotationId (n + 1)
        (if shared then some key.secret else none)).result gk = .ok true) :
      Replay nextRandomNumber chain (n + 1)
        ((processBatchRotateMasterKey key.rotationId (n + 1)
          (if shared then some key.secret else none)).after gk)

section Keys

variable {keys : List (RotatedMasterKey Secret)} {a b : RotatedMasterKey Secret} {i j n : ℕ}

omit [DecidableEq Secret] in
theorem height_lt (increasing : keys.Pairwise fun a b => a.blockHeight < b.blockHeight)
    (hi : keys[i]? = some a) (hj : keys[j]? = some b) (hij : i < j) :
    a.blockHeight < b.blockHeight := by
  obtain ⟨hi', rfl⟩ := List.getElem?_eq_some_iff.1 hi
  obtain ⟨hj', rfl⟩ := List.getElem?_eq_some_iff.1 hj
  exact List.pairwise_iff_getElem.1 increasing i j hi' hj' hij

omit [DecidableEq Secret] in
theorem index_lt (increasing : keys.Pairwise fun a b => a.blockHeight < b.blockHeight)
    (hi : keys[i]? = some a) (hj : keys[j]? = some b) (hlt : a.blockHeight < b.blockHeight) :
    i < j := by
  by_contra hge
  obtain heq | hgt := Nat.eq_or_lt_of_le (Nat.not_lt.1 hge)
  · subst heq
    rw [hi] at hj
    cases hj
    exact absurd hlt (Nat.lt_irrefl _)
  · exact absurd (height_lt increasing hj hi hgt) (Nat.not_lt.2 (Nat.le_of_lt hlt))

omit [DecidableEq Secret] in
theorem InForce.index_le (increasing : keys.Pairwise fun a b => a.blockHeight < b.blockHeight)
    (next : ∀ next, keys[i + 1]? = some next → n < next.blockHeight) (hj : keys[j]? = some b)
    (begun : b.blockHeight ≤ n) : j ≤ i := by
  by_contra hgt
  have hlt : i < j := Nat.not_le.1 hgt
  obtain ⟨hj', -⟩ := List.getElem?_eq_some_iff.1 hj
  have hsucc : keys[i + 1]? = some keys[i + 1] := List.getElem?_eq_getElem (by omega)
  have hnext := next _ hsucc
  obtain heq | hgt' := Nat.eq_or_lt_of_le (Nat.succ_le_of_lt hlt)
  · subst heq
    rw [hsucc] at hj
    rw [Option.some.inj hj] at hnext
    omega
  · have := height_lt increasing hsucc hj hgt'
    omega

end Keys

/-! ## Replaying the chain -/

section Replay

variable {nextRandomNumber : Secret → ℕ → Random → Random} {chain : KeyChain Secret} {n : ℕ}
  {gk : Gatekeeper Secret Random}

structure Synced (chain : KeyChain Secret) (n : ℕ) (gk : Gatekeeper Secret Random) : Prop where
  known : gk.masterKeyHistory = chain.keys.take gk.masterKeyHistory.length
  covers : ∀ (k : ℕ) key, chain.keys[k]? = some key → key.blockHeight ≤ n →
    k < gk.masterKeyHistory.length
  current : ∃ key, InForce chain.keys n key ∧ gk.masterKey = key.secret

omit [DecidableEq Secret] in
theorem Synced.get (h : Synced chain n gk) {k : ℕ} (hk : k < gk.masterKeyHistory.length) :
    gk.masterKeyHistory[k]? = chain.keys[k]? := by
  rw [h.known, List.getElem?_take_of_lt hk]

omit [DecidableEq Secret] in
theorem synced_start {count : ℕ} {zero : Random}
    (new : Gatekeeper.new (chain.keys.take count) zero = .ok gk)
    (begun : ∀ key : RotatedMasterKey Secret, chain.keys[0]? = some key → key.blockHeight ≤ n)
    (later : ∀ key : RotatedMasterKey Secret, chain.keys[1]? = some key → n < key.blockHeight) :
    Synced chain n gk := by
  unfold Gatekeeper.new at new
  cases hhead : (chain.keys.take count).head? with
  | none =>
    rw [hhead] at new
    cases new
  | some key =>
    rw [hhead] at new
    cases new
    have hpos : 0 < (chain.keys.take count).length := by
      apply List.length_pos_of_ne_nil
      intro hnil
      rw [hnil] at hhead
      cases hhead
    have hfirst : chain.keys[0]? = some key := by
      rw [List.head?_eq_getElem?, List.getElem?_take_of_lt] at hhead
      · exact hhead
      · rw [List.length_take] at hpos
        omega
    refine ⟨?_, fun k key' hk hle => ?_, key, ⟨0, hfirst, begun key hfirst, later⟩, rfl⟩
    · rw [List.length_take, ← List.take_eq_take_min]
    · have hk0 : k ≤ 0 := InForce.index_le chain.increasing (i := 0) later hk hle
      dsimp only
      omega

omit [DecidableEq Secret] in
theorem Synced.learn (h : Synced chain n gk) (count : ℕ) :
    Synced chain n ((setMasterKeyHistory (chain.keys.take count)).after gk) := by
  apply Runs.of_after (P := Synced chain n)
  apply Runs.get_bind
  split
  · exact h
  · rename_i hlonger
    refine ⟨?_, fun k key hk hle => ?_, h.current⟩
    · rw [List.length_take, ← List.take_eq_take_min]
    · exact (h.covers k key hk hle).trans (Nat.not_le.1 hlonger)

omit [DecidableEq Secret] in
theorem Synced.emit (h : Synced chain n gk) (block : ℕ) :
    Synced chain n ((emitRandomNumber nextRandomNumber block).after gk) := by
  unfold emitRandomNumber
  split
  · exact h
  · exact ⟨h.known, h.covers, h.current⟩

omit [DecidableEq Secret] in
theorem Synced.block (h : Synced chain n gk) (quiet : ∀ key ∈ chain.keys, key.blockHeight ≠ n + 1) :
    Synced chain (n + 1) gk := by
  refine ⟨h.known, fun k key hk hle => ?_, ?_⟩
  · have hne := quiet key (List.mem_of_getElem? hk)
    exact h.covers k key hk (by omega)
  · obtain ⟨key, ⟨k, hk, hle, hnext⟩, hkey⟩ := h.current
    refine ⟨key, ⟨k, hk, hle.trans (Nat.le_succ n), fun next hn => ?_⟩, hkey⟩
    have hne := quiet next (List.mem_of_getElem? hn)
    have hlt := hnext next hn
    omega

theorem Synced.receive (h : Synced chain n gk) {k : ℕ} {key : RotatedMasterKey Secret}
    (hk : chain.keys[k]? = some key) (shared : Bool) :
    Runs (receiveMasterKey key.rotationId key.blockHeight
        (if shared then some key.secret else none)) gk
      (fun _ gk' => gk'.masterKeyHistory = chain.keys.take gk'.masterKeyHistory.length ∧
        gk.masterKeyHistory.length ≤ gk'.masterKeyHistory.length)
      fun _ _ => True := by
  cases shared with
  | false => exact ⟨h.known, Nat.le_refl _⟩
  | true =>
    change Runs (do let _ ← appendMasterKey key) gk _ _
    apply Runs.bind
    apply Runs.get_bind
    split
    · exact ⟨h.known, Nat.le_refl _⟩
    · apply Runs.ensure_bind
      case fails => exact fun _ => trivial
      intro hid
      rw [chain.numbered k key hk] at hid
      have happend : (gk.masterKeyHistory ++ [key]).length = k + 1 := by
        rw [List.length_append, List.length_singleton, hid]
      refine ⟨?_, ?_⟩
      · change gk.masterKeyHistory ++ [key] = chain.keys.take (gk.masterKeyHistory ++ [key]).length
        rw [happend, List.take_add_one, hk, Option.toList_some, hid, ← h.known]
      · change gk.masterKeyHistory.length ≤ (gk.masterKeyHistory ++ [key]).length
        rw [happend, hid]
        exact Nat.le_succ _

theorem Synced.rotate (h : Synced chain n gk) {key : RotatedMasterKey Secret} {shared : Bool}
    (member : key ∈ chain.keys) (now : key.blockHeight = n + 1)
    (known : (processBatchRotateMasterKey key.rotationId (n + 1)
      (if shared then some key.secret else none)).result gk = .ok true) :
    Synced chain (n + 1) ((processBatchRotateMasterKey key.rotationId (n + 1)
      (if shared then some key.secret else none)).after gk) := by
  obtain ⟨k, hk⟩ := List.mem_iff_getElem?.1 member
  have hruns : Runs (processBatchRotateMasterKey key.rotationId (n + 1)
      (if shared then some key.secret else none)) gk
      (fun switched gk' => switched = true → Synced chain (n + 1) gk') fun _ _ => True := by
    apply Runs.bind
    rw [← now]
    refine (h.receive hk shared).mono ?_ fun _ _ he => he
    rintro _ gk' ⟨hknown, hlength⟩
    apply Runs.get_bind
    rw [chain.numbered k key hk]
    split
    · exact fun hf => absurd hf nofun
    · rename_i rawKey hraw
      have hlt : k < gk'.masterKeyHistory.length := (List.getElem?_eq_some_iff.1 hraw).1
      have hrawKey : rawKey = key := by
        rw [hknown, List.getElem?_take_of_lt hlt, hk] at hraw
        exact (Option.some.inj hraw).symm
      apply Runs.ensure_bind
      case fails => exact fun _ => trivial
      intro _ _
      have hnext : ∀ next, chain.keys[k + 1]? = some next → key.blockHeight < next.blockHeight :=
        fun next hn => height_lt chain.increasing hk hn (Nat.lt_succ_self k)
      refine ⟨hknown, fun j key' hj hle => ?_, key, ⟨k, hk, le_rfl, hnext⟩, ?_⟩
      · exact (InForce.index_le chain.increasing hnext hj hle).trans_lt hlt
      · rw [hrawKey]
  exact hruns.of_ok known rfl

theorem Replay.synced (h : Replay nextRandomNumber chain n gk) : Synced chain n gk := by
  induction h with
  | start count n zero new begun later => exact synced_start new begun later
  | learn count replay ih => exact ih.learn count
  | emit replay ih => exact ih.emit _
  | block replay quiet ih => exact ih.block quiet
  | rotate key shared replay member now known ih => exact ih.rotate member now known

/-! ## Which key is taken -/

def Recent (gk : Gatekeeper Secret Random) (b : ℕ) : Prop :=
  ∀ key, gk.masterKeyHistory.dropLast.getLast? = some key → key.blockHeight ≤ b

omit [DecidableEq Secret] in
theorem runs_randomKey {b : ℕ} {last : RotatedMasterKey Secret}
    (hlast : gk.masterKeyHistory.getLast? = some last) (begun : last.blockHeight ≤ b) :
    Runs (randomKey b) gk (fun secret gk' => secret = gk.masterKey ∧ gk' = gk)
      fun _ _ => False := by
  apply Runs.get_bind
  rw [hlast]
  apply Runs.demand_bind
  case missing => exact nofun
  rintro _ ⟨⟩
  rw [if_neg (Nat.not_lt.2 begun)]
  exact ⟨rfl, rfl⟩

omit [DecidableEq Secret] in
theorem runs_randomKey_before {b : ℕ} {last second : RotatedMasterKey Secret}
    (hlast : gk.masterKeyHistory.getLast? = some last) (later : b < last.blockHeight)
    (hlength : 2 ≤ gk.masterKeyHistory.length)
    (hsecond : gk.masterKeyHistory[gk.masterKeyHistory.length - 2]? = some second) :
    Runs (randomKey b) gk (fun secret gk' => secret = second.secret ∧ gk' = gk)
      fun _ _ => False := by
  apply Runs.get_bind
  rw [hlast]
  apply Runs.demand_bind
  case missing => exact nofun
  rintro _ ⟨⟩
  rw [if_pos later]
  apply Runs.ensure_bind
  case fails => exact fun hn => hn hlength
  intro _
  rw [hsecond]
  exact ⟨rfl, rfl⟩

omit [DecidableEq Secret] in
theorem Synced.randomKey (h : Synced chain n gk) {b : ℕ} (hb : b ≤ n)
    {key : RotatedMasterKey Secret} (inForce : InForce chain.keys b key) :
    ∃ taken ∈ chain.keys,
      Runs (randomKey b) gk (fun secret gk' => secret = taken.secret ∧ gk' = gk)
        (fun _ _ => False) ∧ (Recent gk b ↔ taken = key) := by
  obtain ⟨k, hk, hbegun, hnext⟩ := inForce
  have hklt := h.covers k key hk (hbegun.trans hb)
  have hlength : gk.masterKeyHistory.length ≤ chain.keys.length := by
    rw [h.known, List.length_take]
    exact Nat.min_le_right _ _
  have hget (i : ℕ) (hi : i < gk.masterKeyHistory.length) :
      ∃ key, gk.masterKeyHistory[i]? = some key ∧ chain.keys[i]? = some key := by
    rw [h.get hi]
    exact ⟨_, List.getElem?_eq_getElem (hi.trans_le hlength), List.getElem?_eq_getElem _⟩
  obtain ⟨last, hlast, hlast'⟩ := hget (gk.masterKeyHistory.length - 1) (by omega)
  rw [← List.getLast?_eq_getElem?] at hlast
  by_cases later : b < last.blockHeight
  · have hkey : k < gk.masterKeyHistory.length - 1 :=
      index_lt chain.increasing hk hlast' (hbegun.trans_lt later)
    obtain ⟨second, hsecond, hsecond'⟩ := hget (gk.masterKeyHistory.length - 2) (by omega)
    refine ⟨second, List.mem_of_getElem? hsecond',
      runs_randomKey_before hlast later (by omega) hsecond, ?_⟩
    unfold Recent
    rw [List.getLast?_dropLast, if_neg (by omega), hsecond]
    constructor
    · intro recent
      have hle := InForce.index_le chain.increasing hnext hsecond' (recent second rfl)
      have heq : gk.masterKeyHistory.length - 2 = k := by omega
      rw [heq, hk] at hsecond'
      exact (Option.some.inj hsecond').symm
    · rintro rfl _ ⟨⟩
      exact hbegun
  · have hle : last.blockHeight ≤ b := Nat.not_lt.1 later
    have hlast_le := InForce.index_le chain.increasing hnext hlast' hle
    obtain ⟨current, ⟨k', hk', hbegun', hnext'⟩, hcurrent⟩ := h.current
    have hk'lt := h.covers k' current hk' hbegun'
    have hk_le := InForce.index_le chain.increasing hnext' hk (hbegun.trans hb)
    have heq : k' = k := by omega
    rw [heq, hk] at hk'
    have hkey : key = current := Option.some.inj hk'
    refine ⟨key, List.mem_of_getElem? hk, ?_, iff_of_true ?_ rfl⟩
    · rw [hkey, ← hcurrent]
      exact runs_randomKey hlast hle
    · intro second hsecond
      rw [List.getLast?_dropLast] at hsecond
      split at hsecond
      · cases hsecond
      · rw [h.get (by omega)] at hsecond
        have := height_lt chain.increasing hsecond hlast' (by omega)
        omega

variable [DecidableEq Random]

theorem random_number_checked (nextRandomNumber : Secret → ℕ → Random → Random)
    (chain : KeyChain Secret) (n : ℕ) (gk : Gatekeeper Secret Random)
    (replay : Replay nextRandomNumber chain n gk) (b : ℕ) (hb : b ≤ n)
    (key : RotatedMasterKey Secret) (inForce : InForce chain.keys b key) :
    (Recent gk b → (randomKey b).result gk = .ok key.secret ∧
      ∀ isGatekeeper (event : RandomNumberEvent Random), event.blockNumber = b →
        event.randomNumber = nextRandomNumber key.secret b event.lastRandomNumber →
        (processRandomNumberEvent nextRandomNumber isGatekeeper event).result gk = .ok ()) ∧
    ((chain.keys.map RotatedMasterKey.secret).Nodup →
      ((randomKey b).result gk = .ok key.secret ↔ Recent gk b)) := by
  obtain ⟨taken, htaken, hruns, hrecent⟩ := replay.synced.randomKey hb inForce
  have hresult : (randomKey b).result gk = .ok taken.secret := by
    obtain ⟨_, hok, rfl, -⟩ | ⟨_, _, hf⟩ := hruns.outcome
    · exact hok
    · exact hf.elim
  refine ⟨fun recent => ?_, fun distinct => ?_⟩
  · obtain rfl := hrecent.1 recent
    refine ⟨hresult, ?_⟩
    rintro isGatekeeper event rfl honest
    have hevent : Runs (processRandomNumberEvent nextRandomNumber isGatekeeper event) gk
        (fun _ _ => True) fun _ _ => False := by
      unfold processRandomNumberEvent
      apply Runs.when
      · intro _
        apply Runs.bind
        refine hruns.mono ?_ fun _ _ hf => hf
        rintro _ _ ⟨rfl, rfl⟩
        apply Runs.ensure
        · exact fun _ => trivial
        · exact fun hn => hn honest.symm
      · exact fun _ => trivial
    obtain ⟨_, hok, -⟩ | ⟨_, _, hf⟩ := hevent.outcome
    · exact hok
    · exact hf.elim
  · rw [hrecent, hresult]
    constructor
    · intro heq
      obtain ⟨k, hk, -⟩ := inForce
      exact List.inj_on_of_nodup_map distinct htaken (List.mem_of_getElem? hk) (Except.ok.inj heq)
    · rintro rfl
      rfl

end Replay

/-! ## Three keys -/

def threeKeys : KeyChain ℕ where
  keys := [⟨0, 0, 100⟩, ⟨1, 10, 200⟩, ⟨2, 20, 300⟩]
  increasing := by decide
  numbered := by
    intro k key hk
    match k, hk with
    | 0, rfl => rfl
    | 1, rfl => rfl
    | 2, rfl => rfl

theorem random_number_checked_two :
    let next : ℕ → ℕ → ℕ → ℕ := fun secret block last => secret + block + last
    let gk : Gatekeeper ℕ ℕ := ⟨100, threeKeys.keys.take 2, 0⟩
    Replay next threeKeys 6 gk ∧ InForce threeKeys.keys 5 ⟨0, 0, 100⟩ ∧ Recent gk 5 ∧
      (Recent gk 5 → (randomKey 5).result gk = .ok 100 ∧
        ∀ isGatekeeper (event : RandomNumberEvent ℕ), event.blockNumber = 5 →
          event.randomNumber = next 100 5 event.lastRandomNumber →
          (processRandomNumberEvent next isGatekeeper event).result gk = .ok ()) ∧
      ((threeKeys.keys.map RotatedMasterKey.secret).Nodup →
        ((randomKey 5).result gk = .ok 100 ↔ Recent gk 5)) := by
  intro next gk
  have replay : Replay next threeKeys 6 gk :=
    .start 2 6 0 rfl (by rintro _ ⟨⟩; decide) (by rintro _ ⟨⟩; decide)
  have inForce : InForce threeKeys.keys 5 ⟨0, 0, 100⟩ :=
    ⟨0, rfl, by decide, by rintro _ ⟨⟩; decide⟩
  refine ⟨replay, inForce, by rintro _ ⟨⟩; decide, ?_⟩
  exact random_number_checked next threeKeys 6 gk replay 5 (by decide) ⟨0, 0, 100⟩ inForce

theorem honest_random_number_panics :
    let next : ℕ → ℕ → ℕ → ℕ := fun secret block last => secret + block + last
    let gk : Gatekeeper ℕ ℕ := ⟨100, threeKeys.keys, 0⟩
    Replay next threeKeys 6 gk ∧ InForce threeKeys.keys 5 ⟨0, 0, 100⟩ ∧
      (processRandomNumberEvent next true ⟨5, next 100 5 0, 0⟩).result gk =
        .error (.panic "GK state poisoned") := by
  intro next gk
  refine ⟨.start 3 6 0 rfl ?_ ?_, ⟨0, rfl, by decide, ?_⟩, by decide⟩
  · rintro _ ⟨⟩
    decide
  · rintro _ ⟨⟩
    decide
  · rintro _ ⟨⟩
    decide

end Cyrux.MasterKey
