import Cyrux.Compute.Solvency
import Cyrux.Compute.Stakes

/-!
# Custody of W-PHA, and pools through runs
-/

namespace Cyrux

variable {A W : Type} [DecidableEq A] {cfg : Config A W} {v v' : State A W} {a : A} {l : Label A}

def Spares (a : A) : State A W → Label A → Prop
  | _, .contribute _ payer _ => payer ≠ a
  | _, .unwrap user => user ≠ a
  | _, _ => True

omit [DecidableEq A] in
theorem spares_lenient : Lenient cfg (Spares (W := W) a) := ⟨fun _ => trivial, fun _ _ _ => trivial⟩

theorem ShareEffect.balance_le (effect : ShareEffect cfg l v v') (tidy : Tidy cfg v)
    (signer : cfg.role a = .signer) (spares : Spares a v l) : v.balance a ≤ v'.balance a := by
  have pool : ∀ {pid} {q : PoolProxy A W} {b : BasePool A}, v.pools pid = some (q.withBase b) →
      a ≠ b.poolAccountId := by
    intro pid q b stored e
    have account := (tidy.pool pid _ stored).account
    rw [PoolProxy.basepool_withBase, ← e, signer] at account
    cases account
  cases effect with
  | merge =>
    unfold State.mergeNfts
    rw [State.burnNfts_eq]
    exact le_rfl
  | contribute => exact State.balance_le_move spares.symm
  | request =>
    rw [State.burnNfts_eq]
    exact le_rfl
  | part stored => exact State.balance_le_move (pool stored)
  | full stored => exact State.balance_le_move (pool stored)
  | _ => exact le_rfl

variable [DecidableEq W]

theorem SideEffect.balance_le (effect : SideEffect cfg l v v') (tidy : Tidy cfg v)
    (signer : cfg.role a = .signer) (spares : Spares a v l) : v.balance a ≤ v'.balance a := by
  have ne : ∀ {x r}, cfg.role x = r → r ≠ .signer → a ≠ x := by
    rintro x r role other rfl
    exact other (role.symm.trans signer)
  cases effect with
  | other h => exact (congrArg (fun wpha : Ledger A => wpha.balance a) h.wpha).ge
  | voted h => exact (congrArg (fun wpha : Ledger A => wpha.balance a) h.wpha).ge
  | @poolReward _ minted _ _ commission distributed bonus stored funded owner =>
    refine le_trans ?_ (State.balance_le_mintOrDust (v := minted) a)
    rw [owner]
    exact State.balance_le_mintOrDust (v := v.moveNative _ _ _) a
  | payOwner stored =>
    exact State.balance_le_move (ne (tidy.pool _ _ stored).kind.2 (by rintro ⟨⟩))
  | start stored => exact State.balance_le_move (ne (tidy.pool _ _ stored).account (by rintro ⟨⟩))
  | reclaim stored =>
    exact State.balance_le_move (ne (tidy.pool _ _ stored).kind.1 (by rintro ⟨⟩))
  | unbind assigned binding same found stopped =>
    obtain ⟨-, rfl⟩ | ⟨-, -, -, -, -, rfl⟩ := stopped <;> exact le_rfl
  | wrap => exact State.balance_le_mintOrDust (v := v.moveNative _ _ _) a
  | unwrap => exact (Ledger.balance_congr (Ledger.debit_of_ne spares.symm)).ge
  | _ => exact le_rfl

omit [DecidableEq W] in
theorem Event.permits_spares {s : State A W} {e : Event A W} (tidy : Tidy cfg s)
    (signer : cfg.role a = .signer) (other : ∀ call, e ≠ .signed a call) :
    Permits cfg (Spares a) s e := by
  have ne : ∀ {who call}, e = .signed who call → who ≠ a := fun h e' => other _ (e' ▸ h)
  unfold Permits
  split
  case h_1 who pid amount asVault =>
    refine ⟨fun x acts v _ _ => ?_, fun _ => trivial⟩
    cases asVault with
    | none => exact acts ▸ ne rfl
    | some vaultPid =>
      obtain ⟨u, stored, -, rfl⟩ := acts
      rintro rfl
      cases signer.symm.trans (tidy.pool _ _ stored).account
  case h_9 =>
    exact ⟨fun _ _ _ _ _ => trivial, fun _ _ _ _ _ => ne rfl, fun _ => trivial⟩
  case h_11 => exact ⟨fun _ _ _ _ _ => trivial, fun _ _ _ _ =>
    ⟨fun _ _ _ _ => trivial, fun _ _ _ _ _ => trivial, fun _ _ _ => trivial,
      fun _ _ _ _ _ _ => trivial⟩⟩
  case h_12 => exact fun _ => ne rfl
  case h_13 => exact fun _ => ne rfl
  case h_14 => exact allowsRewards fun _ _ => trivial
  all_goals simp [AllowsGain, Spares]

theorem Reachable.along {s s' : State A W} {P : State A W → Label A → Prop}
    {ok : State A W → Event A W → Prop} {I : State A W → Prop}
    (reached : Reachable cfg (fun _ _ => True) s) (later : Reach (fun x => x = s) (Step cfg ok) s')
    (lenient : Lenient cfg P) (permits : ∀ x e, Tidy cfg x → ok x e → Permits cfg P x e)
    (base : I s) (kept : ∀ v v' l, Tidy cfg v → I v → P v l → Effect cfg l v v' → I v') : I s' := by
  have both : Ready cfg s' ∧ I s' := by
    refine later.invariant (I := fun x => Ready cfg x ∧ I x) ?_ ?_
    · rintro _ rfl
      exact ⟨Reachable.ready reached, base⟩
    · rintro x x' ⟨ready, holds⟩ ⟨e, authentic, allowed, run⟩
      have spec := e.exec_spec authentic lenient ready (permits x e ready.tidy allowed)
      have effects := spec.of_ok run
      refine ⟨effects.ready ready, (effects.invariant (I := fun v => Tidy cfg v ∧ I v) ?_
        ⟨ready.tidy, holds⟩).2⟩
      rintro v v' l ⟨tidy, holds⟩ possible effect
      exact ⟨effect.tidy tidy, kept v v' l tidy holds possible effect⟩
  exact both.2

def Mock.contribution : Event Mock.Account ℕ :=
  .signed Mock.bob (.contributeStakePool 0 (10 ^ 12) none)

theorem Mock.exists_contributed : ∃ s s', Reachable Mock.runtime (fun _ _ => True) s ∧
    Mock.contribution.exec Mock.runtime s = .ok ((), s') ∧
    s.balance Mock.alice = 10 ^ 15 ∧ (s.pools 0).isSome := by
  obtain ⟨s, reached, holds⟩ := Mock.exists_reachable Mock.runtime (fun _ _ => True)
    (Mock.opening (10 ^ 15) (10 ^ 15))
    (fun s => s.balance Mock.alice = 10 ^ 15 ∧ (s.pools 0).isSome ∧
      Mock.endsIn (Mock.contribution.exec Mock.runtime) s fun _ => true) (by decide +kernel)
  obtain ⟨funded, created, ends⟩ := of_decide_eq_true holds
  obtain ⟨s', run, -⟩ := Mock.exists_of_endsIn ends
  exact ⟨s, s', reached, run, funded, created⟩

/-- An account keeps its W-PHA as long as it signs nothing itself. -/
theorem wpha_kept_by_holder {s s' : State A W} (reached : Reachable cfg (fun _ _ => True) s)
    (signer : cfg.role a = .signer)
    (later : Reach (fun x => x = s) (Step cfg fun _ e => ∀ call, e ≠ .signed a call) s') :
    s.balance a ≤ s'.balance a := by
  refine reached.along (I := fun v => s.balance a ≤ v.balance a) later spares_lenient
    (fun _ _ tidy other => Event.permits_spares tidy signer other) le_rfl ?_
  rintro v v' l tidy kept spares (effect | effect)
  · exact kept.trans (effect.balance_le tidy signer spares)
  · exact kept.trans (effect.balance_le tidy signer spares)

theorem wpha_kept_by_holder_contributed : ∃ s s', Reachable Mock.runtime (fun _ _ => True) s ∧
    Mock.contribution.exec Mock.runtime s = .ok ((), s') ∧
    s.balance Mock.alice = 10 ^ 15 ∧ s.balance Mock.alice ≤ s'.balance Mock.alice := by
  obtain ⟨s, s', reached, run, funded, -⟩ := Mock.exists_contributed
  have later : Reach (fun x => x = s) (Step Mock.runtime fun _ e => ∀ call,
      e ≠ .signed Mock.alice call) s' :=
    .step (.init rfl)
      ⟨Mock.contribution, rfl, by simp [Mock.contribution, Mock.alice, Mock.bob], run⟩
  exact ⟨s, s', reached, run, funded, wpha_kept_by_holder reached rfl later⟩

/-! ## Pools -/

def PoolProxy.isVault : PoolProxy A W → Bool
  | .stakePool _ => false
  | .vault _ => true

omit [DecidableEq A] [DecidableEq W] in
theorem PoolProxy.Continues.isVault {q q' : PoolProxy A W} (h : q.Continues l q') :
    q'.isVault = q.isVault := by
  have kind := h.kind
  cases q <;> cases q' <;> first | rfl | exact kind.elim

/-- A pool stays, of its kind, with its collection, account and subscribers. -/
theorem pool_kept_by_runs {s s' : State A W} (reached : Reachable cfg (fun _ _ => True) s)
    (later : Reach (fun x => x = s) (Step cfg fun _ _ => True) s') {pid : ℕ} {q : PoolProxy A W}
    (stored : s.pools pid = some q) :
    ∃ q', s'.pools pid = some q' ∧ q'.isVault = q.isVault ∧
      q'.basepool.cid = q.basepool.cid ∧ q'.basepool.poolAccountId = q.basepool.poolAccountId ∧
      q.basepool.valueSubscribers ⊆ q'.basepool.valueSubscribers := by
  refine reached.along (I := fun v => ∃ q', v.pools pid = some q' ∧ q'.isVault = q.isVault ∧
    q'.basepool.cid = q.basepool.cid ∧ q'.basepool.poolAccountId = q.basepool.poolAccountId ∧
    q.basepool.valueSubscribers ⊆ q'.basepool.valueSubscribers) later lenient_true
    (fun x e _ _ => permits_true x e) ⟨q, stored, rfl, rfl, rfl, List.Subset.refl _⟩ ?_
  rintro v v' l tidy ⟨r, hr, kind, cid, account, subscribers⟩ - effect
  obtain ⟨r', hr', h⟩ := effect.continues tidy pid r hr
  exact ⟨r', hr', h.isVault.trans kind, h.cid.trans cid, h.account.trans account,
    List.Subset.trans subscribers h.subscribers⟩

theorem pool_kept_by_runs_contributed : ∃ s s', Reachable Mock.runtime (fun _ _ => True) s ∧
    Mock.contribution.exec Mock.runtime s = .ok ((), s') ∧
    ∃ q q', s.pools 0 = some q ∧ s'.pools 0 = some q' ∧ q'.basepool.cid = q.basepool.cid := by
  obtain ⟨s, s', reached, run, -, created⟩ := Mock.exists_contributed
  obtain ⟨q, stored⟩ := Option.isSome_iff_exists.1 created
  obtain ⟨q', stored', -, cid, -⟩ := pool_kept_by_runs reached
    (.step (.init rfl) ⟨Mock.contribution, rfl, trivial, run⟩) stored
  exact ⟨s, s', reached, run, q, q', stored, stored', cid⟩

end Cyrux
