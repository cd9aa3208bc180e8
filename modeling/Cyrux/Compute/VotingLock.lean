import Mathlib
import Cyrux.Compute.Solvency
import Cyrux.Compute.Votes

/-!
# Voting locks
-/

namespace Cyrux

open Exec WrappedBalances

variable {A W : Type} [DecidableEq A] {cfg : Config A W} {s s' : State A W} {a user : A}

/-! ## Net values -/

theorem State.sharesValue_congr (pools : s'.pools = s.pools) (owner : s'.nftOwner = s.nftOwner)
    (attr : s'.nftAttr = s.nftAttr) (next : s'.nextNftId = s.nextNftId)
    (invested : ((s'.stakerAccounts a).map FinanceAccount.investPools).getD [] =
      ((s.stakerAccounts a).map FinanceAccount.investPools).getD []) :
    s'.sharesValue a = s.sharesValue a := by
  unfold State.sharesValue State.nftValue State.ownedInCollection
  rw [pools, owner, attr, next, invested]

theorem State.sharesValue_put {account : FinanceAccount}
    (same : account.investPools =
      ((s.stakerAccounts user).map FinanceAccount.investPools).getD []) :
    State.sharesValue { s with
      stakerAccounts := Function.update s.stakerAccounts user (some account) } a =
        s.sharesValue a := by
  refine State.sharesValue_congr rfl rfl rfl rfl ?_
  rcases eq_or_ne a user with rfl | ne
  · simp [same]
  · simp [Function.update_of_ne ne]

theorem State.netValue_eq {n : ℕ} : s.netValue a = some n ↔
    ∃ shares, s.sharesValue a = some shares ∧ n = s.balance a + shares := by
  unfold State.netValue
  rw [Option.map_eq_some_iff]
  simp only [eq_comm]

/-! ## Wrapping and voting -/

theorem wrap_worth {amount : ℕ} : Sat (wrap cfg user amount) s
    (fun _ s' => ∀ a, s'.sharesValue a = s.sharesValue a ∧ s.balance a ≤ s'.balance a)
    (fun _ => True) := by
  refine (Currency.transfer_spec _ _ _ _ s).bind (fun _ _ => trivial) ?_
  intro _ s₁ paid
  have native : ∃ native, s₁ = { s with native := native } := by
    rcases paid with ⟨rfl, -⟩ | ⟨-, -, rfl⟩ <;> exact ⟨_, rfl⟩
  obtain ⟨native, rfl⟩ := native
  refine (mintInto_spec user amount _).bind (fun _ h => h.elim) ?_
  rintro _ s₂ ⟨minted, -⟩
  have worth : ∀ a, s₂.sharesValue a = s.sharesValue a ∧ s.balance a ≤ s₂.balance a := by
    intro a
    refine ⟨?_, ?_⟩
    · rw [minted, State.mintOrDust_eq]
      rfl
    · rw [minted]
      exact State.balance_le_mintOrDust (v := { s with native := native }) a
  refine Sat.get_bind ?_
  split
  · exact worth
  · rename_i absent
    refine sat_alter.2 fun a => ⟨?_, (worth a).2⟩
    rw [State.sharesValue_put (by simp [absent])]
    exact (worth a).1

theorem updateUserLocked_worth : Sat (updateUserLocked user) s
    (fun _ s' => s'.netValue = s.netValue) (fun _ => True) := by
  refine Sat.get_bind (Sat.bind (R := fun _ s' => s' = s) (F := fun _ => True) ?_
    (fun _ _ => trivial) ?_)
  · refine sat_foldlM (I := fun _ s' => s' = s) ?_ rfl
    rintro total voteId - s rfl
    exact Sat.demand_bind (fun _ _ => rfl) fun _ => trivial
  · rintro locked s rfl
    refine Sat.demand_bind (fun account stored => sat_alter.2 (funext fun a => ?_)) fun _ => trivial
    unfold State.netValue
    rw [State.sharesValue_put (by simp [stored])]
    rfl

theorem vote_worth {aye nay voteId : ℕ} (ready : Ready cfg s) :
    Sat (vote cfg user aye nay voteId) s (fun _ s' => s'.netValue = s.netValue ∧
      ∃ active, s.netValue user = some active ∧ Balance.wrappingAdd aye nay ≤ active)
      (fun _ => True) := by
  refine Sat.get_bind (Sat.ensure_bind (fun _ => ?_) fun _ => trivial)
  refine (getNetValue_spec user ready.unlocked).bind (fun _ _ => trivial) ?_
  rintro active s ⟨value, rfl⟩
  refine Sat.ensure_bind (fun afforded => ?_) fun _ => trivial
  refine Sat.alter_bind (Sat.get_bind ?_)
  refine Sat.bind (R := fun _ s' => s'.netValue = s.netValue) (F := fun _ => True) ?_
    (fun _ _ => trivial) ?_
  · exact Sat.get_bind (Sat.ensure_bind (fun _ => sat_alter.2 rfl) fun _ => trivial)
  · intro _ s₁ same
    refine updateUserLocked_worth.mono (fun _ s₂ same' => ?_) fun _ h => h
    exact ⟨same'.trans same, active, value, afforded⟩

theorem unlock_worth {voteId iterations : ℕ} :
    Sat (unlock cfg voteId iterations) s (fun _ s' => s'.netValue = s.netValue)
      (fun _ => True) := by
  refine Sat.get_bind (Sat.ensure_bind (fun _ => ?_) fun _ => trivial)
  refine Sat.ensure_bind (fun _ => ?_) fun _ => trivial
  refine sat_each (I := fun s' : State A W => s'.netValue = s.netValue) ?_ rfl
  intro user _ s₁ same
  refine Sat.alter_bind ((Sat.mapFault updateUserLocked_worth fun _ h => h).mono ?_ fun _ h => h)
  exact fun _ s₂ same' => same'.trans same

/-! ## Unwrapping -/

def State.KeepsRest (cfg : Config A W) (s : State A W) (a : A) (amount : ℕ) : Prop :=
  cfg.reapsDust = false ∨ s.balance a - amount = 0 ∨ cfg.wphaMin ≤ s.balance a - amount

instance (amount : ℕ) : Decidable (s.KeepsRest cfg a amount) :=
  inferInstanceAs (Decidable (_ ∨ _))

theorem payOut_worth {amount : ℕ} (signer : cfg.role user = .signer)
    (owned : amount ≤ s.balance user) : Sat (payOut cfg user amount) s
      (fun _ s' => (∀ a, s'.sharesValue a = s.sharesValue a) ∧
        (∀ a, a ≠ user → s'.balance a = s.balance a) ∧
        (s.KeepsRest cfg user amount → s'.balance user = s.balance user - amount))
      (fun _ => True) := by
  refine (payOut_pays signer owned).mono ?_ fun _ _ => trivial
  rintro _ _ (⟨rfl, rfl⟩ | ⟨-, -, rfl⟩)
  · exact ⟨fun _ => rfl, fun _ _ => rfl, fun _ => rfl⟩
  · exact ⟨fun _ => rfl, fun a ne => Ledger.balance_congr (Ledger.debit_of_ne ne),
      fun kept => Ledger.balance_debit_of_kept kept⟩

structure Covered (a : A) (s s' : State A W) : Prop where
  before : ∃ active, s.netValue a = some active ∧ s.locked a ≤ active
  after : ∃ active, s'.netValue a = some active ∧ s.locked a ≤ active

theorem Covered.of_worth {active amount : ℕ} (value : s.netValue a = some active)
    (covered : s.locked a ≤ active) (shares : s'.sharesValue a = s.sharesValue a)
    (rest : s.locked a = 0 ∨
      amount + s.locked a ≤ active ∧ s'.balance a = s.balance a - amount) :
    Covered a s s' := by
  refine ⟨⟨active, value, covered⟩, ?_⟩
  obtain ⟨held, worth, rfl⟩ := State.netValue_eq.1 value
  refine ⟨s'.balance a + held, State.netValue_eq.2 ⟨held, shares.trans worth, rfl⟩, ?_⟩
  omega

theorem unwrap_covered {amount : ℕ} (ready : Ready cfg s) (signer : cfg.role a = .signer)
    (kept : s.locked a = 0 ∨ s.KeepsRest cfg a amount) :
    Sat (unwrap cfg a amount) s (fun _ s' => Covered a s s') (fun _ => True) := by
  refine Sat.get_bind (Sat.ensure_bind (fun owned => ?_) fun _ => trivial)
  refine (getNetValue_spec a ready.unlocked).bind (fun _ _ => trivial) ?_
  rintro active s ⟨value, rfl⟩
  refine (lockedOf_spec a s).bind (fun _ h => h.elim) ?_
  rintro _ s ⟨rfl, rfl⟩
  refine Sat.ensure_bind (fun afforded => ?_) fun _ => trivial
  refine (payOut_worth signer owned).mono ?_ fun _ h => h
  rintro _ s' ⟨shares, -, rest⟩
  change amount + s.locked a ≤ active at afforded
  exact .of_worth value (by omega) (shares a)
    (kept.imp_right fun kept => ⟨afforded, rest kept⟩)

theorem unwrap_others {amount : ℕ} (ready : Ready cfg s) (signer : cfg.role user = .signer) :
    Sat (unwrap cfg user amount) s (fun _ s' => ∀ a, a ≠ user →
      s'.sharesValue a = s.sharesValue a ∧ s'.balance a = s.balance a) (fun _ => True) := by
  refine Sat.get_bind (Sat.ensure_bind (fun owned => ?_) fun _ => trivial)
  refine (getNetValue_spec user ready.unlocked).bind (fun _ _ => trivial) ?_
  rintro active s ⟨-, rfl⟩
  refine (lockedOf_spec user s).bind (fun _ h => h.elim) ?_
  rintro _ s ⟨-, rfl⟩
  refine Sat.ensure_bind (fun _ => ?_) fun _ => trivial
  exact (payOut_worth signer owned).mono (fun _ s' h a ne => ⟨h.1 a, h.2.1 a ne⟩) fun _ h => h

theorem unwrapAll_others (ready : Ready cfg s) (signer : cfg.role user = .signer) :
    Sat (unwrapAll cfg user) s (fun _ s' => ∀ a, a ≠ user →
      s'.sharesValue a = s.sharesValue a ∧ s'.balance a = s.balance a) (fun _ => True) := by
  refine (getNetValue_spec user ready.unlocked).bind (fun _ _ => trivial) ?_
  rintro active s ⟨-, rfl⟩
  refine Sat.get_bind ((lockedOf_spec user s).bind (fun _ h => h.elim) ?_)
  rintro _ s ⟨-, rfl⟩
  exact (payOut_worth signer (Nat.min_le_right _ _)).mono
    (fun _ s' h a ne => ⟨h.1 a, h.2.1 a ne⟩) fun _ h => h

def State.unwrappable (s : State A W) (a : A) : Option ℕ :=
  (s.netValue a).map fun active => min (Balance.wrappingSub active (s.locked a)) (s.balance a)

omit [DecidableEq A] in
theorem Balance.wrappingSub_le {x y : ℕ} (h : y ≤ x) : wrappingSub x y ≤ x - y := by
  unfold Balance.wrappingSub
  have : x + 2 ^ 128 - y = x - y + 2 ^ 128 := by omega
  rw [this, Nat.add_mod_right]
  exact Nat.mod_le _ _

theorem unwrapAll_covered (ready : Ready cfg s) (signer : cfg.role a = .signer)
    (kept : s.locked a = 0 ∨ ∀ amount ∈ s.unwrappable a, s.KeepsRest cfg a amount)
    (covered : ∀ active, s.netValue a = some active → s.locked a ≤ active) :
    Sat (unwrapAll cfg a) s (fun _ s' => Covered a s s') (fun _ => True) := by
  refine (getNetValue_spec a ready.unlocked).bind (fun _ _ => trivial) ?_
  rintro active s ⟨value, rfl⟩
  refine Sat.get_bind ((lockedOf_spec a s).bind (fun _ h => h.elim) ?_)
  rintro _ s ⟨rfl, rfl⟩
  change Sat (payOut cfg a (min (Balance.wrappingSub active (s.locked a)) (s.balance a))) s _ _
  refine (payOut_worth signer (Nat.min_le_right _ _)).mono ?_ fun _ h => h
  rintro _ s' ⟨shares, -, rest⟩
  have before := covered active value
  refine .of_worth value before (shares a) (kept.imp_right fun kept => ⟨?_, rest (kept _ ?_)⟩)
  · have := Balance.wrappingSub_le before
    omega
  · exact Option.map_eq_some_iff.2 ⟨active, value, rfl⟩

/-! ## Events -/

def Event.offPools : Event A W → Bool
  | .signed _ (.wrap _) => true
  | .signed _ .unwrapAll => true
  | .signed _ (.unwrap _) => true
  | .signed _ (.vote _ _ _) => true
  | .signed _ (.unlock _ _) => true
  | .signed _ _ => false
  | .move (.gkMessage _) => false
  | .move _ => true

def Event.LeavesNoDust (cfg : Config A W) (a : A) (s : State A W) : Event A W → Prop
  | .signed who (.unwrap amount) => who = a → s.KeepsRest cfg a amount
  | .signed who .unwrapAll => who = a → ∀ amount ∈ s.unwrappable a, s.KeepsRest cfg a amount
  | _ => True

def Event.RespectsLock (cfg : Config A W) (a : A) (s : State A W) (e : Event A W) : Prop :=
  s.locked a = 0 ∨ e.offPools = true ∧ e.LeavesNoDust cfg a s

instance (e : Event A W) : Decidable (e.LeavesNoDust cfg a s) := by
  rcases e with ⟨who, call⟩ | m
  · cases call <;> dsimp only [Event.LeavesNoDust] <;> infer_instance
  · exact isTrue trivial

instance (e : Event A W) : Decidable (e.RespectsLock cfg a s) :=
  inferInstanceAs (Decidable (_ ∨ _))

def AtMost (a : A) (n : ℕ) (voter : A) (aye nay : ℕ) : Prop :=
  voter = a → Balance.wrappingAdd aye nay ≤ n

theorem Books.locked_le {n : ℕ} (h : Books (AtMost a n) s) : s.locked a ≤ n := by
  rw [h.locked]
  obtain ⟨-, -, zero | ⟨voteId, -, same⟩⟩ := foldl_max_spec (s.voteWeight a) (s.accountVoteMap a) 0
  · exact zero.le.trans (Nat.zero_le n)
  · refine same.le.trans ?_
    unfold State.voteWeight
    split
    · rename_i aye nay vote
      exact h.meets a voteId aye nay vote rfl
    · exact Nat.zero_le n

theorem Books.atMost {R : A → ℕ → ℕ → Prop} {n : ℕ} (h : Books R s) (le : s.locked a ≤ n) :
    Books (AtMost a n) s := by
  refine ⟨h.mirror, ?_, h.locked, h.account⟩
  rintro voter voteId aye nay vote rfl
  rw [h.locked] at le
  obtain ⟨-, most, -⟩ := foldl_max_spec (s.voteWeight voter) (s.accountVoteMap voter) 0
  have weight : s.voteWeight voter voteId = Balance.wrappingAdd aye nay := by
    simp only [State.voteWeight, vote]
  rw [← weight]
  exact (most voteId ((h.mirror voter voteId).2 (by simp [vote]))).trans le

def LockCovered (a : A) (s : State A W) : Prop :=
  s.locked a = 0 ∨ ∃ active, s.netValue a = some active ∧ s.locked a ≤ active

variable [DecidableEq W] {e : Event A W}

theorem Event.covered_of_offPools (off : e.offPools = true) (silent : e.votes = false)
    (ready : Ready cfg s) (authentic : e.Authentic cfg) (dust : e.LeavesNoDust cfg a s)
    (covered : ∃ active, s.netValue a = some active ∧ s.locked a ≤ active)
    (run : e.exec cfg s = .ok ((), s')) :
    ∃ active, s'.netValue a = some active ∧ s.locked a ≤ active := by
  obtain ⟨active, value, le⟩ := covered
  obtain ⟨held, worth, rfl⟩ := State.netValue_eq.1 value
  -- The shares are worth the same, and there is no less W-PHA.
  have rich : ∀ {s' : State A W}, s'.sharesValue a = s.sharesValue a →
      s.balance a ≤ s'.balance a →
      ∃ active, s'.netValue a = some active ∧ s.locked a ≤ active := by
    intro s' shares more
    exact ⟨_, State.netValue_eq.2 ⟨held, shares.trans worth, rfl⟩, by omega⟩
  cases e with
  | move m =>
    cases m with
    | gkMessage => cases off
    | _ =>
      cases run
      exact rich rfl le_rfl
  | signed who call =>
    cases call with
    | wrap amount =>
      obtain ⟨shares, more⟩ := wrap_worth.of_ok run a
      exact rich shares more
    | unwrap amount =>
      rcases eq_or_ne a who with rfl | ne
      · exact ((unwrap_covered ready authentic (.inr (dust rfl))).of_ok run).after
      · obtain ⟨shares, same⟩ := (unwrap_others ready authentic).of_ok run a ne
        exact rich shares same.ge
    | unwrapAll =>
      rcases eq_or_ne a who with rfl | ne
      · refine ((unwrapAll_covered ready authentic (.inr (dust rfl)) ?_).of_ok run).after
        intro active value'
        rw [value] at value'
        cases value'
        exact le
      · obtain ⟨shares, same⟩ := (unwrapAll_others ready authentic).of_ok run a ne
        exact rich shares same.ge
    | vote | unlock => cases silent
    | _ => cases off

theorem LockCovered.step (h : LockCovered a s) (books : Books (fun _ _ _ => True) s)
    (ready : Ready cfg s) (authentic : e.Authentic cfg) (respects : e.RespectsLock cfg a s)
    (run : e.exec cfg s = .ok ((), s')) : LockCovered a s' := by
  cases silent : e.votes with
  | false =>
    have locked : s'.locked a = s.locked a :=
      congrFun (Event.keepsVotes silent authentic ready run).locked a
    unfold LockCovered
    rw [locked]
    rcases respects with free | ⟨off, dust⟩
    · exact .inl free
    · exact h.imp_right fun covered =>
        Event.covered_of_offPools off silent ready authentic dust covered run
  | true =>
    unfold Event.votes at silent
    split at silent
    · rename_i who aye nay voteId
      obtain ⟨worth, active, value, afforded⟩ := (vote_worth ready).of_ok run
      have bound : ∀ n, s.locked a ≤ n → (who = a → active ≤ n) → s'.locked a ≤ n := by
        intro n le own
        refine ((vote_books ready (books.atMost le) ?_).of_ok run).locked_le
        rintro _ - - same
        exact afforded.trans (own same)
      rcases eq_or_ne who a with rfl | ne
      · refine .inr ⟨active, (congrFun worth who).trans value, bound active ?_ fun _ => le_rfl⟩
        rcases h with free | ⟨active', value', le⟩
        · omega
        · rw [value] at value'
          cases value'
          exact le
      · rcases h with free | ⟨active', value', le⟩
        · exact .inl (Nat.le_zero.1 (bound 0 free.le fun same => absurd same ne))
        · exact .inr ⟨active', (congrFun worth a).trans value',
            bound active' le fun same => absurd same ne⟩
    · have worth : s'.netValue = s.netValue := unlock_worth.of_ok run
      have bound : ∀ n, s.locked a ≤ n → s'.locked a ≤ n := fun n le =>
        ((unlock_books (books.atMost le)).of_ok run).locked_le
      rcases h with free | ⟨active, value, le⟩
      · exact .inl (Nat.le_zero.1 (bound 0 free.le))
      · exact .inr ⟨active, (congrFun worth a).trans value, bound active le⟩
    · cases silent

theorem lockCovered_reachable (reached : Reachable cfg (fun s e => e.RespectsLock cfg a s) s) :
    LockCovered a s := by
  have all : Ready cfg s ∧ Books (fun _ _ _ => True) s ∧ LockCovered a s := by
    refine reached.invariant (I := fun s => Ready cfg s ∧ Books (fun _ _ _ => True) s ∧
      LockCovered a s) (fun s h => ⟨Genesis.ready h, Genesis.books h, .inl ?_⟩) ?_
    · simp [State.locked, h.stakerAccounts]
    · rintro s s' ⟨ready, books, covered⟩ ⟨e, authentic, respects, run⟩
      have spec := e.exec_spec authentic lenient_true ready (permits_true s e)
      have meets : e.VotesMeet (fun _ _ _ => True) := by
        unfold Event.VotesMeet
        split <;> trivial
      exact ⟨(spec.of_ok run).ready ready, books.step ready authentic meets run,
        covered.step books ready authentic respects run⟩
  exact all.2.2

end Cyrux
