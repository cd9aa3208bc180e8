import Cyrux.Compute.Invariant
import Cyrux.Compute.Mock

/-!
# The backing of W-PHA
-/

namespace Cyrux

variable {A W : Type} [DecidableEq A] {cfg : Config A W} {v v' : State A W} {l : Label A}

def Backed (cfg : Config A W) (v : State A W) : Prop :=
  v.wphaSupply + v.unmintableDust ≤ v.native cfg.wrappedBalancesAccountId

/-! ## The ledger operations -/

theorem State.mintOrDust_total (v : State A W) (a : A) (amount : ℕ) :
    (v.mintOrDust cfg a amount).wphaSupply + (v.mintOrDust cfg a amount).unmintableDust =
      v.wphaSupply + v.unmintableDust + amount := by
  unfold State.mintOrDust
  split_ifs with zero
  · omega
  · exact (Nat.add_assoc _ _ _).symm
  · exact Nat.add_right_comm _ _ _

theorem State.mintOrDust_native (v : State A W) (a : A) (amount : ℕ) :
    (v.mintOrDust cfg a amount).native = v.native := by
  rw [State.mintOrDust_eq]

section

variable {source dest : A} {amount : ℕ}

theorem State.moveNative_source (ne : source ≠ dest) :
    (v.moveNative source dest amount).native source = v.native source - amount := by
  simp [State.moveNative, State.takeNative, ne]

theorem State.moveNative_dest (ne : source ≠ dest) :
    (v.moveNative source dest amount).native dest = v.native dest + amount := by
  simp [State.moveNative, State.takeNative, ne.symm]

theorem State.burnWpha_supply_le {a : A} (owned : amount ≤ v.balance a)
    (issued : amount ≤ v.wphaSupply) :
    (v.burnWpha cfg a amount).wphaSupply + amount ≤ v.wphaSupply := by
  have rest : (v.wpha.debit cfg.dust a amount).balance a ≤ v.wpha.balance a - amount :=
    Ledger.balance_debit_le
  unfold State.balance at owned
  unfold State.burnWpha
  simp only
  omega

end

/-! ## Effects -/

omit [DecidableEq A] in
theorem Backed.of_same (h : Backed cfg v) (supply : v'.wphaSupply = v.wphaSupply)
    (dust : v'.unmintableDust = v.unmintableDust)
    (native : v.native cfg.wrappedBalancesAccountId ≤ v'.native cfg.wrappedBalancesAccountId) :
    Backed cfg v' := by
  unfold Backed at *
  omega

theorem ShareEffect.backed (effect : ShareEffect cfg l v v') (h : Backed cfg v) :
    Backed cfg v' := by
  cases effect with
  | merge =>
    unfold State.mergeNfts
    rw [State.burnNfts_eq]
    exact h
  | request =>
    rw [State.burnNfts_eq]
    exact h
  | _ => exact h

variable [DecidableEq W]

theorem SideEffect.backed (effect : SideEffect cfg l v v') (h : Backed cfg v) :
    Backed cfg v' := by
  have signer : ∀ {a}, cfg.role a = .signer → a ≠ cfg.wrappedBalancesAccountId := by
    rintro a signer rfl
    rw [cfg.role_wrappedBalances] at signer
    cases signer
  have other : cfg.computationAccountId ≠ cfg.wrappedBalancesAccountId := by
    intro e
    have := cfg.role_computation
    rw [e, cfg.role_wrappedBalances] at this
    cases this
  cases effect with
  | other same | voted same =>
    exact h.of_same same.wphaSupply same.unmintableDust (same.native _ other.symm)
  | @poolReward _ minted pid p commission distributed bonus stored funded owner covered =>
    subst owner
    -- Both parts of the reward are minted, or recorded as dust.
    change _ ≤ (State.mintOrDust cfg _ _ _).native _
    refine (State.mintOrDust_total _ _ _).trans_le ?_
    rw [State.mintOrDust_total, State.mintOrDust_native, State.mintOrDust_native,
      State.moveNative_dest other]
    unfold Backed at h
    change v.wphaSupply + v.unmintableDust + _ + _ ≤ _
    omega
  | @wrap _ user amount sender funded =>
    unfold Backed at *
    rw [State.mintOrDust_total, State.mintOrDust_native, State.moveNative_dest (signer sender)]
    change v.wphaSupply + v.unmintableDust + _ ≤ _
    omega
  | @unwrap _ user amount sender backed owned issued =>
    have burnt : ((v.moveNative cfg.wrappedBalancesAccountId user amount).burnWpha cfg user
        amount).wphaSupply + amount ≤ v.wphaSupply := State.burnWpha_supply_le owned issued
    have paid : (v.moveNative cfg.wrappedBalancesAccountId user amount).native
        cfg.wrappedBalancesAccountId = v.native cfg.wrappedBalancesAccountId - amount :=
      State.moveNative_source (signer sender).symm
    unfold Backed at *
    change _ + v.unmintableDust ≤
      (v.moveNative cfg.wrappedBalancesAccountId user amount).native _
    omega
  | unbind assigned binding same found stopped =>
    obtain ⟨-, rfl⟩ | ⟨-, -, -, -, -, rfl⟩ := stopped <;> exact h
  | _ => exact h

theorem Effect.backed (effect : Effect cfg l v v') (h : Backed cfg v) : Backed cfg v' := by
  cases effect with
  | share effect => exact effect.backed h
  | side effect => exact effect.backed h

/-! ## Runs -/

theorem backed_invariant {Ok : State A W → Event A W → Prop} :
    Invariant cfg Ok (Backed cfg) fun _ _ => True := by
  refine .unrestricted (fun s h => ?_) fun v v' l _ h effect => effect.backed h
  unfold Backed
  rw [h.wphaSupply, h.unmintableDust]
  exact Nat.zero_le _

end Cyrux
