import Cyrux.Compute.CallSpec

/-!
# Invariants of the chain
-/

namespace Cyrux

variable {A W : Type} [DecidableEq A] [DecidableEq W] {cfg : Config A W}
  {Ok : State A W → Event A W → Prop} {s : State A W}

/-! ## Runs of events -/

omit [DecidableEq W] in
theorem permits_true (s : State A W) (e : Event A W) : Permits cfg (fun _ _ => True) s e := by
  unfold Permits
  split
  case h_11 => exact ⟨fun _ _ _ _ _ => trivial, fun _ _ _ _ =>
    ⟨fun _ _ _ _ => trivial, fun _ _ _ _ _ => trivial, fun _ _ _ => trivial,
      fun _ _ _ _ _ _ => trivial⟩⟩
  case h_14 => exact allowsRewards fun _ _ => trivial
  all_goals simp [AllowsGain]

omit [DecidableEq A] [DecidableEq W] in
theorem lenient_true : Lenient cfg fun _ _ => True := ⟨fun _ => trivial, fun _ _ _ => trivial⟩

omit [DecidableEq A] [DecidableEq W] in
theorem Genesis.ready (h : s.Genesis) : Ready cfg s := ⟨Genesis.tidy h, h.nftLocks⟩

theorem Reachable.ready (reached : Reachable cfg Ok s) : Ready cfg s := by
  refine reached.invariant (fun s h => Genesis.ready h) ?_
  rintro s s' ready ⟨e, authentic, -, run⟩
  have spec := e.exec_spec authentic lenient_true ready (permits_true s e)
  exact (spec.of_ok run).ready ready

structure Invariant (cfg : Config A W) (Ok : State A W → Event A W → Prop) (I : State A W → Prop)
    (P : State A W → Label A → Prop) : Prop where
  genesis : ∀ s, s.Genesis → I s
  lenient : Lenient cfg P
  permits : ∀ s e, Ready cfg s → I s → e.Authentic cfg → Ok s e → Permits cfg P s e
  preserved : ∀ v v' l, Tidy cfg v → I v → P v l → Effect cfg l v v' → I v'

namespace Invariant

variable {I : State A W → Prop} {P : State A W → Label A → Prop}

theorem unrestricted (genesis : ∀ s, s.Genesis → I s)
    (preserved : ∀ v v' l, Tidy cfg v → I v → Effect cfg l v v' → I v') :
    Invariant cfg Ok I fun _ _ => True :=
  ⟨genesis, lenient_true, fun s e _ _ _ _ => permits_true s e,
    fun v v' l tidy h _ effect => preserved v v' l tidy h effect⟩

theorem run (inv : Invariant cfg Ok I P) {v v' : State A W} (tidy : Tidy cfg v) (h : I v)
    (run : Run cfg P v v') : Tidy cfg v' ∧ I v' :=
  run.invariant (I := fun v => Tidy cfg v ∧ I v)
    (fun v v' l h allowed effect =>
      ⟨effect.tidy h.1, inv.preserved v v' l h.1 h.2 allowed effect⟩) ⟨tidy, h⟩

theorem reachable (inv : Invariant cfg Ok I P) (reached : Reachable cfg Ok s) : I s := by
  have both : Ready cfg s ∧ I s := by
    refine reached.invariant (I := fun s => Ready cfg s ∧ I s)
      (fun s h => ⟨Genesis.ready h, inv.genesis s h⟩) ?_
    rintro s s' ⟨ready, h⟩ ⟨e, authentic, ok, run⟩
    have spec := e.exec_spec authentic inv.lenient ready (inv.permits s e ready h authentic ok)
    exact ⟨(spec.of_ok run).ready ready, (inv.run ready.tidy h (spec.of_ok run)).2⟩
  exact both.2

theorem blame (inv : Invariant cfg Ok I P) (reached : Reachable cfg Ok s) {e : Event A W}
    (authentic : e.Authentic cfg) (ok : Ok s e) {f : Fault} (failed : e.exec cfg s = .error f) :
    f.plain = true ∨ ∃ v, Tidy cfg v ∧ I v ∧ Blame cfg P v f := by
  have ready := Reachable.ready reached
  have h := inv.reachable reached
  have spec := e.exec_spec authentic inv.lenient ready (inv.permits s e ready h authentic ok)
  rcases spec.of_error failed with plain | ⟨v, run, blame⟩
  · exact .inl plain
  · obtain ⟨tidy, h⟩ := inv.run ready.tidy h run
    exact .inr ⟨v, tidy, h, blame⟩

end Invariant

/-! ## Properties of single pools -/

section Everywhere

omit [DecidableEq A] [DecidableEq W]

def Everywhere (R : State A W → PoolProxy A W → Prop) (v : State A W) : Prop :=
  ∀ pid q, v.pools pid = some q → R v q

structure Local (R : State A W → PoolProxy A W → Prop) : Prop where
  frame : ∀ {v x : State A W} {q q' : PoolProxy A W}, v.now ≤ x.now →
    SameNfts q.basepool.cid v x → q.SameShares q' → R v q → R x q'

variable {R : State A W → PoolProxy A W → Prop} {v x : State A W}

theorem Local.everywhere_of_sameShares (loc : Local R) (same : SameShares v x)
    (old : Everywhere R v) : Everywhere R x := by
  intro pid q' stored'
  obtain ⟨q, stored, pool⟩ := same.stored stored'
  refine loc.frame same.now ⟨?_, ?_, ?_⟩ pool (old pid q stored)
  · rw [same.nftOwner]
  · rw [same.nftAttr]
  · rw [same.nextNftId]

theorem Local.everywhere_putPool (loc : Local R) (tidy : Tidy cfg v) {pid : ℕ}
    {q q' : PoolProxy A W} (stored : v.pools pid = some q) (now : v.now ≤ x.now)
    (pools : x.pools = v.pools) (nfts : ∀ c, c ≠ q.basepool.cid → SameNfts c v x)
    (old : Everywhere R v) (new : R x q') : Everywhere R (x.putPool pid q') := by
  intro pid' r hr
  obtain ⟨rfl, rfl⟩ | ⟨ne, hr⟩ := State.stored_putPool hr
  · exact loc.frame (v := x) le_rfl ⟨rfl, rfl, rfl⟩ (.refl r) new
  · rw [pools] at hr
    have other : r.basepool.cid ≠ q.basepool.cid := fun e => ne (tidy.cid_inj _ _ _ _ hr stored e)
    obtain ⟨owner, attr, next⟩ := nfts _ other
    exact loc.frame (x := x.putPool pid q') now ⟨owner, attr, next⟩ (.refl r) (old pid' r hr)

theorem Local.everywhere_withBase (loc : Local R) (tidy : Tidy cfg v) {pid : ℕ}
    {q : PoolProxy A W} {b b' : BasePool A} (stored : v.pools pid = some (q.withBase b))
    (now : v.now ≤ x.now) (pools : x.pools = v.pools) (nfts : ∀ c, c ≠ b.cid → SameNfts c v x)
    (old : Everywhere R v) (new : R x (q.withBase b')) :
    Everywhere R (x.putPool pid (q.withBase b')) :=
  loc.everywhere_putPool tidy stored now pools
    (fun c ne => nfts c (by rwa [PoolProxy.basepool_withBase] at ne)) old new

theorem Local.everywhere_nfts (loc : Local R) (tidy : Tidy cfg v) {pid : ℕ}
    {q : PoolProxy A W} {b : BasePool A} (stored : v.pools pid = some (q.withBase b))
    (now : v.now ≤ x.now) (pools : x.pools = v.pools) (nfts : ∀ c, c ≠ b.cid → SameNfts c v x)
    (old : Everywhere R v) (new : R x (q.withBase b)) : Everywhere R x := by
  have same : x.putPool pid (q.withBase b) = x := State.putPool_stored (by rw [pools, stored])
  rw [← same]
  exact loc.everywhere_withBase tidy stored now pools nfts old new

theorem Local.everywhere_addPool (loc : Local R) {q : PoolProxy A W} (old : Everywhere R v)
    (new : R v q) : Everywhere R (v.addPool q) := by
  intro pid r hr
  obtain ⟨rfl, rfl⟩ | ⟨-, hr⟩ := State.stored_putPool hr
  · exact loc.frame (v := v) (x := v.addPool r) le_rfl ⟨rfl, rfl, rfl⟩ (.refl r) new
  · exact loc.frame (v := v) (x := v.addPool q) le_rfl ⟨rfl, rfl, rfl⟩ (.refl r) (old pid r hr)

end Everywhere

end Cyrux
