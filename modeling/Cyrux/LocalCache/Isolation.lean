import Cyrux.LocalCache.Collection

/-!
# Contracts do not see each other
-/

namespace Cyrux.Cache

open Proc LocalCache

namespace LocalCache

variable {c c' : LocalCache} {id : Bytes} {t : ℕ}

def only (id : Bytes) (c : LocalCache) : LocalCache :=
  { c with storages := match c.storages.lookup id with
      | some s => AList.insert id s ∅
      | none => ∅ }

theorem lookup_only (c : LocalCache) (id' : Bytes) :
    (c.only id).storages.lookup id' = if id' = id then c.storages.lookup id' else none := by
  unfold only
  split_ifs with h
  · subst h
    cases c.storages.lookup id' with
    | none => rfl
    | some s => exact AList.lookup_insert _
  · cases c.storages.lookup id with
    | none => rfl
    | some s => exact AList.lookup_insert_ne h

theorem visible_only (c : LocalCache) (id' key : Bytes) :
    (c.only id).visible t id' key = if id' = id then c.visible t id' key else none := by
  unfold visible entry
  rw [lookup_only]
  split_ifs <;> rfl

theorem quota_only (c : LocalCache) (id' : Bytes) :
    (c.only id).quota id' = if id' = id then c.quota id' else none := by
  unfold quota
  rw [lookup_only]
  split_ifs <;> rfl

theorem Same.only (h : Same t c c') : Same t (c.only id) (c'.only id) := by
  refine ⟨h.lifetime, fun id' => ?_, fun id' key => ?_⟩
  · rw [quota_only, quota_only, h.quota]
  · rw [visible_only, visible_only, h.visible]

theorem Put.only {key : Bytes} {o : Option StorageValue} (h : Put t id key o c c') :
    Put t id key o (c.only id) (c'.only id) := by
  refine ⟨h.lifetime, fun id' => ?_, fun id' key' => ?_⟩
  · rw [quota_only, quota_only, h.quota]
  · rw [visible_only, visible_only, h.visible]
    by_cases hid : id' = id <;> simp [hid]

end LocalCache

def Call.contract (call : Call) : Option Bytes :=
  match call.op with
  | .set id _ _ | .setExpire id _ _ | .remove id _ | .get id _ => some id
  | _ => none

variable {c c' d : LocalCache} {call : Call} {id : Bytes} {t : ℕ}

theorem Call.effect_only (own : call.contract = some id) :
    call.effect (c.only id) = call.effect c ∧ call.told (c.only id) = call.told c := by
  have hfits : ∀ key value now, (c.only id).fits id key value now = c.fits id key value now := by
    intro key value now
    unfold fits
    rw [lookup_only, if_pos rfl]
  have hlifetime : (c.only id).defaultValueLifetime = c.defaultValueLifetime := rfl
  obtain ⟨op, r⟩ := call
  cases op <;> cases own <;>
    simp [Call.effect, Call.told, setEntry, setReply, expireEntry, visible_only, get_eq, hfits,
      hlifetime]

theorem Call.contract_of_effect {id₁ key : Bytes} {o : Option StorageValue}
    (h : call.effect c = some (id₁, key, o)) : call.contract = some id₁ := by
  obtain ⟨op, r⟩ := call
  cases op <;> cases h <;> rfl

theorem Becomes.own (own : call.contract = some id) (h : Becomes t (call.effect c) c c') :
    Becomes t (call.effect c) (c.only id) (c'.only id) := by
  cases heffect : call.effect c with
  | none =>
    rw [heffect] at h
    exact Same.only h
  | some effect =>
    obtain ⟨id₁, key, o⟩ := effect
    obtain rfl : id = id₁ := Option.some.inj (own.symm.trans (Call.contract_of_effect heffect))
    rw [heffect] at h
    exact Put.only h

theorem Becomes.other (other : call.contract ≠ some id) (h : Becomes t (call.effect c) c c') :
    Same t (c.only id) (c'.only id) := by
  cases heffect : call.effect c with
  | none =>
    rw [heffect] at h
    exact Same.only h
  | some effect =>
    obtain ⟨id₁, key, o⟩ := effect
    have hne : id ≠ id₁ := by
      rintro rfl
      exact other (Call.contract_of_effect heffect)
    rw [heffect] at h
    refine ⟨h.lifetime, fun id' => ?_, fun id' key' => ?_⟩
    · rw [quota_only, quota_only, h.quota]
    · rw [visible_only, visible_only, h.visible]
      by_cases hid : id' = id <;> simp [hid, hne]

def observedBy (id : Bytes) (c : LocalCache) : List Call → List (Except Fault Reply)
  | [] => []
  | call :: calls =>
    (if call.contract = some id ∧ (call.told c).isSome then [call.run.result c] else []) ++
      observedBy id (call.run.after c) calls

def callsOf (id : Bytes) (calls : List Call) : List Call :=
  calls.filter fun call => call.contract = some id

theorem observedBy_same {calls : List Call} (hkeeps : ∀ call ∈ calls, call.KeepsQuotas)
    (hordered : Ordered calls) (ht : ∀ call ∈ calls, t ≤ call.readings.first)
    (hc : c.Accounted) (hd : d.Accounted) (hsame : Same t (c.only id) (d.only id))
    (hpunctual : Throughout Call.run Call.Punctual c (callsOf id calls))
    (hpunctual' : Throughout Call.run Call.Punctual d calls) :
    observed c (callsOf id calls) = observedBy id d calls := by
  induction calls generalizing t c d with
  | nil => rfl
  | cons call calls ih =>
    obtain ⟨hfirst, hlater⟩ := List.pairwise_cons.1 hordered
    obtain ⟨hkeep, hrest⟩ := List.forall_mem_cons.1 hkeeps
    have hcall := ht call List.mem_cons_self
    have hthird : t ≤ call.readings.third :=
      hcall.trans (call.readings.first_le.trans call.readings.second_le)
    obtain ⟨hd', hbecomes, htold⟩ :=
      Call.after_effect hd hkeep hpunctual'.1
    rw [observedBy]
    by_cases own : call.contract = some id
    · have hboth : callsOf id (call :: calls) = call :: callsOf id calls :=
        List.filter_cons_of_pos (by simpa using own)
      rw [hboth] at hpunctual ⊢
      obtain ⟨hc', hbecomes', htold'⟩ :=
        Call.after_effect hc hkeep hpunctual.1
      -- both caches look the same to the contract, so the call does the same
      obtain ⟨heffect, hreply⟩ := Same.effect hsame hcall
      rw [(Call.effect_only own).1, (Call.effect_only own).1] at heffect
      rw [(Call.effect_only own).2, (Call.effect_only own).2] at hreply
      have hsame' : Same call.readings.third ((call.run.after c).only id)
          ((call.run.after d).only id) := by
        have hown := Becomes.own own hbecomes
        rw [heffect] at hown
        exact Becomes.same (hsame.later hthird) (Becomes.own own hbecomes') hown
      rw [observed_cons, hreply, ih hrest hlater hfirst hc' hd' hsame' hpunctual.2 hpunctual'.2]
      cases hr : call.told c with
      | none => simp
      | some reply => simp [own, htold' reply hr, htold reply (hreply.trans hr)]
    · have hskip : callsOf id (call :: calls) = callsOf id calls :=
        List.filter_cons_of_neg (by simpa using own)
      rw [hskip] at hpunctual ⊢
      have hsame' := (hsame.later hthird).trans (Becomes.other own hbecomes)
      rw [ih hrest hlater hfirst hc hd' hsame' hpunctual hpunctual'.2]
      simp [own]

/-- The calls of other contracts can be deleted from a run. -/
theorem contracts_isolated (gcInterval defaultValueLifetime : ℕ) (before calls : List Call)
    (id : Bytes) (hkeeps : ∀ call ∈ calls, call.KeepsQuotas) (hordered : Ordered calls)
    (hpunctual : Throughout Call.run Call.Punctual
      (reached gcInterval defaultValueLifetime before) (callsOf id calls))
    (hpunctual' : Throughout Call.run Call.Punctual
      (reached gcInterval defaultValueLifetime before) calls) :
    let c := reached gcInterval defaultValueLifetime before
    observed c (callsOf id calls) = observedBy id c calls := by
  intro c
  have hc : c.Accounted := reached_accounted gcInterval defaultValueLifetime before
  exact observedBy_same hkeeps hordered (t := 0) (fun _ _ => Nat.zero_le _) hc hc (Same.refl _)
    hpunctual hpunctual'

theorem contracts_isolated_collected :
    let c := reached 2 10 [⟨.applyQuotas [([1], 100), ([2], 100)], .at 0⟩]
    let calls : List Call := [⟨.set [1] [5] [6], .at 0⟩, ⟨.set [2] [5] [7], .at 1⟩,
      ⟨.set [2] [5] [8], .at 20⟩, ⟨.get [1] [5], .at 20⟩]
    observed c (callsOf [1] calls) = observedBy [1] c calls ∧
      observedBy [1] c calls = [.ok (.stored (.ok ())), .ok (.found none)] := by
  intro c calls
  refine ⟨contracts_isolated 2 10 [⟨.applyQuotas [([1], 100), ([2], 100)], .at 0⟩] calls [1]
    ?_ ?_ ?_ ?_, by decide +kernel⟩
  · simp [calls, Call.KeepsQuotas]
  · decide
  · decide +kernel
  · decide +kernel

end Cyrux.Cache
