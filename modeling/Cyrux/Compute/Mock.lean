import Cyrux.Compute.Chain

/-!
# A concrete runtime
-/

namespace Cyrux.Mock

inductive Account
  | user (n : ℕ)
  | basePool
  | wrappedBalances
  | computation
  | staker (pid : ℕ)
  | ownerReward (pid : ℕ)
  | lock (pid : ℕ)
  | worker (pid w : ℕ)
deriving DecidableEq

def Account.role : Account → Role ℕ
  | user _ => .signer
  | basePool => .basePool
  | wrappedBalances => .wrappedBalances
  | computation => .computation
  | staker pid => .staker pid
  | ownerReward pid => .ownerReward pid
  | lock pid => .lock pid
  | worker pid w => .worker pid w

def config (wphaMin : ℕ) (h : 0 < wphaMin) : Config Account ℕ where
  role := Account.role
  palletId := .basePool
  wrappedBalancesAccountId := .wrappedBalances
  computationAccountId := .computation
  generateStakerAccount pid _ := .staker pid
  generateOwnerAndLockAccount pid _ := (.ownerReward pid, .lock pid)
  poolSubAccount pid w := .worker pid w
  role_palletId := rfl
  role_wrappedBalances := rfl
  role_computation := rfl
  role_staker _ _ := rfl
  role_ownerReward _ _ := rfl
  role_lock _ _ := rfl
  role_worker _ _ := rfl
  minContribution := 10000000000
  gracePeriod := 604800
  maxPoolWorkers := 10
  vaultQueuePeriod := 1814400
  initialPriceCheckPoint := 1000000000000
  minInitP := 1
  checkWorkerRegisterTime := true
  existentialDeposit := 2
  wphaMin := wphaMin
  wphaMin_pos := h
  reapsDust := true
  keepsAttr := true
  sqrt x := x
  iterOrder l := l
  iterOrder_perm _ := List.Perm.refl _
  fuel := 8

abbrev runtime : Config Account ℕ := config 100 (by decide)

abbrev lossless (wphaMin : ℕ) (h : 0 < wphaMin) : Config Account ℕ :=
  { config wphaMin h with reapsDust := false }

def genesis : State Account ℕ where
  now := 0
  pools _ := none
  poolCount := 0
  collectionIndex := 0
  whitelists _ := none
  nftLocks := ∅
  nextNftId _ := 0
  collections := ∅
  nftOwner _ _ := none
  nftAttr _ _ := none
  workerAssignments _ := none
  vaultLocks := ∅
  sessions _ := none
  sessionBindings _ := none
  workerBindings _ := none
  stakes _ := none
  onlineWorkers := 0
  nextSessionId := 0
  coolDownPeriod := 0
  tokenomicParameters := none
  workers _ := none
  stakerAccounts _ := none
  voteAccountMap _ := []
  accountVoteMap _ := []
  unmintableDust := 0
  ongoing _ := false
  native _ := 0
  frozen _ := 0
  wpha _ := none
  wphaSupply := 0

theorem genesis_genesis : genesis.Genesis := by
  constructor <;> intros <;> rfl

instance (cfg : Config Account ℕ) (e : Event Account ℕ) : Decidable (e.Authentic cfg) :=
  match e with
  | .signed who _ => inferInstanceAs (Decidable (cfg.role who = .signer))
  | .move _ => inferInstanceAs (Decidable True)

def follow (cfg : Config Account ℕ) (Ok : State Account ℕ → Event Account ℕ → Prop)
    [∀ s e, Decidable (Ok s e)] :
    List (Event Account ℕ) → State Account ℕ → Option (State Account ℕ)
  | [], s => some s
  | e :: l, s =>
    if e.Authentic cfg ∧ Ok s e then
      match e.exec cfg s with
      | .ok (_, s') => follow cfg Ok l s'
      | .error _ => none
    else none

theorem reachable_of_follow {cfg : Config Account ℕ}
    {Ok : State Account ℕ → Event Account ℕ → Prop} [∀ s e, Decidable (Ok s e)]
    {l : List (Event Account ℕ)} {s s' : State Account ℕ} (reached : Reachable cfg Ok s)
    (h : follow cfg Ok l s = some s') : Reachable cfg Ok s' := by
  induction l generalizing s with
  | nil =>
    cases h
    exact reached
  | cons e l ih =>
    unfold follow at h
    split_ifs at h with ok
    split at h
    · rename_i run
      exact ih (.step reached ⟨e, ok.1, ok.2, run⟩) h
    · cases h

theorem exists_reachable (cfg : Config Account ℕ)
    (Ok : State Account ℕ → Event Account ℕ → Prop) [∀ s e, Decidable (Ok s e)]
    (l : List (Event Account ℕ)) (Q : State Account ℕ → Bool)
    (h : (follow cfg Ok l genesis).any Q = true) : ∃ s, Reachable cfg Ok s ∧ Q s = true := by
  obtain ⟨s, run, holds⟩ := (Option.any_eq_true _ _).1 h
  exact ⟨s, reachable_of_follow (.init genesis_genesis) run, holds⟩

def endsIn (m : Pallet Account ℕ Unit) (s : State Account ℕ) (Q : State Account ℕ → Bool) : Bool :=
  match m s with
  | .ok (_, s') => Q s'
  | .error _ => false

theorem exists_of_endsIn {m : Pallet Account ℕ Unit} {s : State Account ℕ}
    {Q : State Account ℕ → Bool} (h : endsIn m s Q = true) :
    ∃ s', m s = .ok ((), s') ∧ Q s' = true := by
  unfold endsIn at h
  split at h
  · rename_i s' run
    exact ⟨s', run, h⟩
  · cases h

def returns {α : Type} [DecidableEq α] (m : Pallet Account ℕ α) (s : State Account ℕ) (a : α) :
    Bool :=
  match m s with
  | .ok (a', _) => a' = a
  | .error _ => false

theorem exists_of_returns {α : Type} [DecidableEq α] {m : Pallet Account ℕ α}
    {s : State Account ℕ} {a : α} (h : returns m s a = true) : ∃ s', m s = .ok (a, s') := by
  unfold returns at h
  split at h
  · rename_i a' s' run
    cases of_decide_eq_true h
    exact ⟨s', run⟩
  · cases h

def yields {α : Type} (m : Pallet Account ℕ α) (s : State Account ℕ) (Q : α → Bool) : Bool :=
  match m s with
  | .ok (a, _) => Q a
  | .error _ => false

theorem exists_of_yields {α : Type} {m : Pallet Account ℕ α} {s : State Account ℕ} {Q : α → Bool}
    (h : yields m s Q = true) : ∃ a s', m s = .ok (a, s') ∧ Q a = true := by
  unfold yields at h
  split at h
  · rename_i a s' run
    exact ⟨a, s', run, h⟩
  · cases h

def vaultOf (s : State Account ℕ) : Option (Vault Account) :=
  match s.pools 1 with
  | some (.vault u) => some u
  | _ => none

theorem pools_of_vaultOf {s : State Account ℕ} {u : Vault Account}
    (h : vaultOf s = some u) : s.pools 1 = some (.vault u) := by
  unfold vaultOf at h
  split at h
  case h_1 stored =>
    cases h
    exact stored
  case h_2 => cases h

def stakePoolOf (s : State Account ℕ) : Option (StakePool Account ℕ) :=
  match s.pools 0 with
  | some (.stakePool p) => some p
  | _ => none

theorem pools_of_stakePoolOf {s : State Account ℕ} {p : StakePool Account ℕ}
    (h : stakePoolOf s = some p) : s.pools 0 = some (.stakePool p) := by
  unfold stakePoolOf at h
  split at h
  case h_1 stored =>
    cases h
    exact stored
  case h_2 => cases h

def failsWith (cfg : Config Account ℕ) (s : State Account ℕ) (e : Event Account ℕ) (f : Fault) :
    Bool :=
  match e.exec cfg s with
  | .ok _ => false
  | .error f' => f' = f

theorem error_of_failsWith {cfg : Config Account ℕ} {s : State Account ℕ} {e : Event Account ℕ}
    {f : Fault} (h : failsWith cfg s e f = true) : e.exec cfg s = .error f := by
  unfold failsWith at h
  split at h
  · cases h
  · rename_i run
    rw [run, of_decide_eq_true h]

/-! ## Events -/

abbrev alice : Account := .user 1

abbrev bob : Account := .user 2

def tokenomic : TokenomicParams where
  vMax := Fixed.wrap (30000 * 2 ^ 64)
  rigK := Fixed.zero
  rigB := Fixed.zero
  re := Fixed.wrap (2 ^ 64)
  k := Fixed.wrap 1

def settle (worker payout : ℕ) : Event Account ℕ :=
  .move (.gkMessage ⟨1000000, [], [], [⟨worker, Fixed.zero, Fixed.wrap payout, Fixed.zero⟩]⟩)

def opening (wrapped wrapped' : ℕ) : List (Event Account ℕ) := [
  .move (.issue alice (10 ^ 30)), .move (.issue bob (10 ^ 30)),
  .move (.issue .computation (10 ^ 30)),
  .move (.register 7 ⟨some alice, some 100, 1, true⟩),
  .move (.register 8 ⟨some alice, some 100, 1, true⟩),
  .move (.setTokenomic tokenomic),
  .signed alice (.wrap wrapped), .signed bob (.wrap wrapped'),
  .signed alice .createStakePool,
  .signed alice (.addWorker 0 7), .signed alice (.addWorker 0 8)]

end Cyrux.Mock
