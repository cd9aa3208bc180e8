import Cyrux.Compute.Invariant
import Cyrux.Compute.Mock

/-!
# Votes
-/

namespace Cyrux

open Exec WrappedBalances

variable {A W : Type}

/-! ## Calls that do not vote -/

namespace KeepsVotes

variable {v v' v'' : State A W}

theorem refl (v : State A W) : KeepsVotes v v := .of_same rfl rfl rfl

theorem trans (h : KeepsVotes v v') (h' : KeepsVotes v' v'') : KeepsVotes v v'' where
  voteAccountMap := h'.voteAccountMap.trans h.voteAccountMap
  accountVoteMap := h'.accountVoteMap.trans h.accountVoteMap
  locked := h'.locked.trans h.locked
  account a some := h'.account a (h.account a some)

end KeepsVotes

section Effects

variable [DecidableEq A] {cfg : Config A W} {l : Label A} {v v' : State A W}

theorem ShareEffect.keepsVotes (effect : ShareEffect cfg l v v') : KeepsVotes v v' := by
  cases effect with
  | merge =>
    unfold State.mergeNfts
    rw [State.burnNfts_eq]
    exact .of_same rfl rfl rfl
  | request =>
    rw [State.burnNfts_eq]
    exact .of_same rfl rfl rfl
  | _ => exact .of_same rfl rfl rfl

variable [DecidableEq W]

theorem SideEffect.keepsVotes (effect : SideEffect cfg l v v') (silent : l ≠ .vote) :
    KeepsVotes v v' := by
  cases effect with
  | other h votes => exact votes
  | voted => exact absurd rfl silent
  | poolReward stored funded owner covered =>
    rw [owner, State.mintOrDust_eq cfg (State.mintOrDust _ _ _ _), State.mintOrDust_eq]
    exact .of_same rfl rfl rfl
  | unbind assigned binding same found stopped =>
    obtain ⟨-, rfl⟩ | ⟨-, -, -, -, -, rfl⟩ := stopped <;> exact .of_same rfl rfl rfl
  | wrap =>
    rw [State.mintOrDust_eq]
    exact .of_same rfl rfl rfl
  | _ => exact .of_same rfl rfl rfl

theorem Run.keepsVotes (run : Run cfg (fun _ l => l ≠ .vote) v v') : KeepsVotes v v' := by
  refine run.invariant (I := fun x => KeepsVotes v x) ?_ (.refl v)
  intro x x' l h silent effect
  cases effect with
  | share effect => exact h.trans effect.keepsVotes
  | side effect => exact h.trans (effect.keepsVotes silent)

def Event.votes : Event A W → Bool
  | .signed _ (.vote _ _ _) => true
  | .signed _ (.unlock _ _) => true
  | _ => false

omit [DecidableEq W] in
theorem Event.permits_of_not_votes {s : State A W} {e : Event A W} (h : e.votes = false) :
    Permits cfg (fun _ l => l ≠ .vote) s e := by
  unfold Permits
  split
  case h_11 => exact ⟨fun _ _ _ _ _ => nofun, fun _ _ _ _ =>
    ⟨fun _ _ _ _ => nofun, fun _ _ _ _ _ => nofun, fun _ _ _ => nofun,
      fun _ _ _ _ _ _ => nofun⟩⟩
  case h_14 => exact allowsRewards fun _ _ => nofun
  case h_15 => cases h
  case h_16 => cases h
  all_goals simp [AllowsGain]

theorem Event.keepsVotes {s s' : State A W} {e : Event A W} (h : e.votes = false)
    (authentic : e.Authentic cfg) (ready : Ready cfg s) (run : e.exec cfg s = .ok ((), s')) :
    KeepsVotes s s' :=
  ((e.exec_spec authentic ⟨fun _ => nofun, fun _ _ _ => nofun⟩ ready
    (permits_of_not_votes h)).of_ok run).keepsVotes

end Effects

/-! ## The books -/

section Books

variable [DecidableEq A]

def State.voteWeight (s : State A W) (a : A) (voteId : ℕ) : ℕ :=
  match voteOf s voteId a with
  | some (aye, nay) => Balance.wrappingAdd aye nay
  | none => 0

def State.maxVote (s : State A W) (a : A) : ℕ :=
  (s.accountVoteMap a).foldl (fun maxLock voteId => max maxLock (s.voteWeight a voteId)) 0

structure Books (R : A → ℕ → ℕ → Prop) (s : State A W) : Prop where
  mirror : ∀ a voteId, voteId ∈ s.accountVoteMap a ↔ voteOf s voteId a ≠ none
  meets : ∀ a voteId aye nay, voteOf s voteId a = some (aye, nay) → R a aye nay
  locked : ∀ a, s.locked a = s.maxVote a
  account : ∀ a, s.accountVoteMap a ≠ [] → s.stakerAccounts a ≠ none

variable {R : A → ℕ → ℕ → Prop}

theorem Books.of_keeps {s s' : State A W} (h : Books R s) (keeps : KeepsVotes s s') :
    Books R s' := by
  have votes : ∀ voteId a, voteOf s' voteId a = voteOf s voteId a := by
    intro voteId a
    unfold voteOf
    rw [keeps.voteAccountMap]
  have most : ∀ a, s'.maxVote a = s.maxVote a := by
    intro a
    unfold State.maxVote State.voteWeight
    simp only [votes, keeps.accountVoteMap]
  refine ⟨fun a voteId => ?_, fun a voteId aye nay vote => ?_, fun a => ?_, fun a voted => ?_⟩
  · rw [keeps.accountVoteMap, votes]
    exact h.mirror a voteId
  · rw [votes] at vote
    exact h.meets a voteId aye nay vote
  · rw [keeps.locked, most, h.locked]
  · rw [keeps.accountVoteMap] at voted
    exact keeps.account a (h.account a voted)

/-! ### Recording and dropping a vote -/

variable {s : State A W} {user : A} {aye nay voteId : ℕ}

def State.recordVote (s : State A W) (user : A) (aye nay voteId : ℕ) : State A W :=
  { s with
    voteAccountMap := Function.update s.voteAccountMap voteId
      ((user, (aye, nay)) :: (s.voteAccountMap voteId).filter fun v => v.1 ≠ user)
    accountVoteMap := Function.update s.accountVoteMap user
      (voteId :: (s.accountVoteMap user).filter fun v => v ≠ voteId) }

def State.dropVote (s : State A W) (user : A) (voteId : ℕ) : State A W :=
  { s with
    voteAccountMap := Function.update s.voteAccountMap voteId
      ((s.voteAccountMap voteId).filter fun v => v.1 ≠ user)
    accountVoteMap := Function.update s.accountVoteMap user
      ((s.accountVoteMap user).filter fun v => v ≠ voteId) }

theorem find?_filter_ne {β : Type} {l : List (A × β)} {a : A} (ne : a ≠ user) :
    (l.filter fun v => v.1 ≠ user).find? (fun v => v.1 = a) = l.find? fun v => v.1 = a := by
  rw [List.find?_filter]
  congr 1
  funext v
  by_cases h : v.1 = a <;> simp [h, ne]

theorem find?_filter_self {β : Type} {l : List (A × β)} :
    (l.filter fun v => v.1 ≠ user).find? (fun v => v.1 = user) = none := by
  rw [List.find?_eq_none]
  intro v mem
  simpa using (List.mem_filter.1 mem).2

theorem voteOf_recordVote (v : ℕ) (a : A) : voteOf (s.recordVote user aye nay voteId) v a =
    if a = user ∧ v = voteId then some (aye, nay) else voteOf s v a := by
  unfold voteOf State.recordVote
  by_cases hv : v = voteId
  · subst hv
    by_cases ha : a = user
    · subst ha
      simp
    · have ne : ¬ user = a := fun h => ha h.symm
      simp only [Function.update_self, List.find?_cons, ne, decide_false, ha, false_and, if_false,
        find?_filter_ne ha]
  · simp [hv]

theorem voteOf_dropVote (v : ℕ) (a : A) : voteOf (s.dropVote user voteId) v a =
    if a = user ∧ v = voteId then none else voteOf s v a := by
  unfold voteOf State.dropVote
  by_cases hv : v = voteId
  · subst hv
    by_cases ha : a = user
    · subst ha
      simp only [Function.update_self, find?_filter_self, and_self, if_true, Option.map_none]
    · simp only [Function.update_self, ha, false_and, if_false, find?_filter_ne ha]
  · simp [hv]

theorem mem_recordVote (v : ℕ) (a : A) :
    v ∈ (s.recordVote user aye nay voteId).accountVoteMap a ↔
      a = user ∧ v = voteId ∨ v ∈ s.accountVoteMap a := by
  unfold State.recordVote
  by_cases ha : a = user
  · subst ha
    by_cases hv : v = voteId <;> simp [hv]
  · simp [ha]

theorem mem_dropVote (v : ℕ) (a : A) :
    v ∈ (s.dropVote user voteId).accountVoteMap a ↔
      ¬ (a = user ∧ v = voteId) ∧ v ∈ s.accountVoteMap a := by
  unfold State.dropVote
  by_cases ha : a = user
  · subst ha
    by_cases hv : v = voteId <;> simp [hv]
  · simp [ha]

structure BooksBut (R : A → ℕ → ℕ → Prop) (s : State A W) (user : A) : Prop where
  mirror : ∀ a voteId, voteId ∈ s.accountVoteMap a ↔ voteOf s voteId a ≠ none
  meets : ∀ a voteId aye nay, voteOf s voteId a = some (aye, nay) → R a aye nay
  locked : ∀ a, a ≠ user → s.locked a = s.maxVote a
  account : ∀ a, a ≠ user → s.accountVoteMap a ≠ [] → s.stakerAccounts a ≠ none

theorem State.maxVote_congr {s s' : State A W} {a : A}
    (voted : s'.accountVoteMap a = s.accountVoteMap a)
    (votes : ∀ v, voteOf s' v a = voteOf s v a) : s'.maxVote a = s.maxVote a := by
  unfold State.maxVote State.voteWeight
  simp only [voted, votes]

theorem Books.recordVote (h : Books R s) (meets : R user aye nay) :
    BooksBut R (s.recordVote user aye nay voteId) user := by
  have voted : ∀ a, a ≠ user →
      (s.recordVote user aye nay voteId).accountVoteMap a = s.accountVoteMap a :=
    fun a ne => Function.update_of_ne ne _ _
  refine ⟨fun a v => ?_, fun a v aye' nay' vote => ?_, fun a ne => ?_, fun a ne nonempty => ?_⟩
  · rw [mem_recordVote, voteOf_recordVote]
    split_ifs with new
    · simp [new]
    · simpa [new] using h.mirror a v
  · rw [voteOf_recordVote] at vote
    split_ifs at vote with new
    · cases vote
      exact new.1 ▸ meets
    · exact h.meets a v aye' nay' vote
  · rw [State.maxVote_congr (voted a ne) fun v => by simp [voteOf_recordVote, ne]]
    exact h.locked a
  · exact h.account a (voted a ne ▸ nonempty)

theorem Books.dropVote (h : Books R s) : BooksBut R (s.dropVote user voteId) user := by
  have voted : ∀ a, a ≠ user → (s.dropVote user voteId).accountVoteMap a = s.accountVoteMap a :=
    fun a ne => Function.update_of_ne ne _ _
  refine ⟨fun a v => ?_, fun a v aye nay vote => ?_, fun a ne => ?_, fun a ne nonempty => ?_⟩
  · rw [mem_dropVote, voteOf_dropVote]
    split_ifs with old
    · simp [old]
    · simpa [old] using h.mirror a v
  · rw [voteOf_dropVote] at vote
    split_ifs at vote with old
    exact h.meets a v aye nay vote
  · rw [State.maxVote_congr (voted a ne) fun v => by simp [voteOf_dropVote, ne]]
    exact h.locked a
  · exact h.account a (voted a ne ▸ nonempty)

/-! ### The calls -/

def State.lockUser (s : State A W) (user : A) (account : FinanceAccount) : State A W :=
  { s with
    stakerAccounts := Function.update s.stakerAccounts user
      (some { account with locked := s.maxVote user }) }

theorem maxLock_spec {l : List ℕ} (maxLock : ℕ)
    (recorded : ∀ v ∈ l, voteOf s v user ≠ none) :
    Sat (l.foldlM (fun maxLock voteId => do
        let (aye, nay) ← demand (voteOf s voteId user) (.panic .voteIndex none)
        pure (max maxLock (Balance.wrappingAdd aye nay))) maxLock : Pallet A W ℕ) s
      (fun m s' => m = l.foldl (fun maxLock v => max maxLock (s.voteWeight user v)) maxLock ∧
        s' = s)
      (fun _ => False) := by
  induction l generalizing maxLock with
  | nil => exact ⟨rfl, rfl⟩
  | cons v l ih =>
    rw [List.foldlM_cons, List.foldl_cons]
    obtain ⟨⟨aye, nay⟩, vote⟩ := Option.ne_none_iff_exists'.1 (recorded v List.mem_cons_self)
    have weight : s.voteWeight user v = Balance.wrappingAdd aye nay := by
      simp only [State.voteWeight, vote]
    rw [vote, weight]
    exact Sat.pure_bind (ih _ fun v mem => recorded v (List.mem_cons_of_mem _ mem))

theorem updateUserLocked_locks (recorded : ∀ v ∈ s.accountVoteMap user, voteOf s v user ≠ none) :
    Sat (updateUserLocked user) s
      (fun _ s' => ∃ account, s.stakerAccounts user = some account ∧ s' = s.lockUser user account)
      (fun f => s.stakerAccounts user = none ∧
        f = .error (.wrappedBalances .stakerAccountNotFound)) := by
  refine Sat.get_bind ((maxLock_spec 0 recorded).bind (fun _ h => h.elim) ?_)
  rintro _ _ ⟨rfl, rfl⟩
  exact Sat.demand_bind (fun account stored => sat_alter.2 ⟨account, stored, rfl⟩)
    fun absent => ⟨absent, rfl⟩

theorem State.locked_lockUser (account : FinanceAccount) (a : A) :
    (s.lockUser user account).locked a = if a = user then s.maxVote user else s.locked a := by
  unfold State.locked State.lockUser
  by_cases h : a = user <;> simp [h]

theorem BooksBut.lockUser (h : BooksBut R s user) (account : FinanceAccount) :
    Books R (s.lockUser user account) := by
  refine ⟨h.mirror, h.meets, fun a => ?_, fun a nonempty => ?_⟩
  · have most : (s.lockUser user account).maxVote a = s.maxVote a :=
      State.maxVote_congr rfl fun _ => rfl
    rw [State.locked_lockUser, most]
    split_ifs with same
    · rw [same]
    · exact h.locked a same
  · unfold State.lockUser
    by_cases same : a = user
    · simp [same]
    · simpa [same] using h.account a same nonempty

theorem vote_books {cfg : Config A W} (ready : Ready cfg s) (h : Books R s)
    (meets : ∀ active, s.netValue user = some active → Balance.wrappingAdd aye nay ≤ active →
      R user aye nay) :
    Sat (vote cfg user aye nay voteId) s (fun _ s' => Books R s')
      (fun f => f.isVotePanic = false) := by
  refine Sat.get_bind (Sat.ensure_bind (fun _ => ?_) fun _ => rfl)
  refine (getNetValue_spec user ready.unlocked).bind (fun _ h => h.2) ?_
  rintro active s ⟨value, rfl⟩
  refine Sat.ensure_bind (fun afforded => ?_) fun _ => rfl
  refine Sat.alter_bind (Sat.get_bind ?_)
  change Sat (democracyVote cfg _ _ >>= _) (s.recordVote user aye nay voteId) _ _
  have recorded : BooksBut R (s.recordVote user aye nay voteId) user :=
    h.recordVote (meets active value afforded)
  refine Sat.bind (R := fun _ s' => BooksBut R s' user) (F := fun f => f.isVotePanic = false)
    ?_ (fun _ h => h) ?_
  · refine Sat.get_bind (Sat.ensure_bind (fun _ => ?_) fun _ => rfl)
    exact sat_alter.2 ⟨recorded.mirror, recorded.meets, recorded.locked, recorded.account⟩
  · intro _ s₁ recorded
    refine (updateUserLocked_locks fun v => (recorded.mirror user v).1).mono ?_ ?_
    · rintro _ _ ⟨account, -, rfl⟩
      exact recorded.lockUser account
    · rintro _ ⟨-, rfl⟩
      rfl

theorem unlock_books {cfg : Config A W} {iterations : ℕ} (h : Books R s) :
    Sat (unlock cfg voteId iterations) s (fun _ s' => Books R s')
      (fun f => f.isVotePanic = false) := by
  refine Sat.get_bind (Sat.ensure_bind (fun _ => ?_) fun _ => rfl)
  refine Sat.ensure_bind (fun _ => ?_) fun _ => rfl
  set users := (cfg.iterOrder ((s.voteAccountMap voteId).map Prod.fst)).take iterations
  -- Whoever is drained has voted, and so has an account.
  have accounts : ∀ a ∈ users, s.stakerAccounts a ≠ none := by
    intro a mem
    have voter := (cfg.iterOrder_perm _).mem_iff.1 (List.mem_of_mem_take mem)
    obtain ⟨⟨_, vote⟩, recorded, rfl⟩ := List.mem_map.1 voter
    refine h.account _ (List.ne_nil_of_mem (a := voteId) ((h.mirror _ voteId).2 ?_))
    unfold voteOf
    rw [ne_eq, Option.map_eq_none_iff, List.find?_eq_none]
    intro none
    exact none _ recorded (by simp)
  refine (sat_each (I := fun s' => Books R s' ∧ ∀ a ∈ users, s'.stakerAccounts a ≠ none) ?_
    ⟨h, accounts⟩).mono (fun _ _ h => h.1) fun _ h => h
  rintro user mem s₁ ⟨h, accounts⟩
  refine Sat.alter_bind ?_
  change Sat (expect .unlockAccount (updateUserLocked user)) (s₁.dropVote user voteId) _ _
  have dropped : BooksBut R (s₁.dropVote user voteId) user := h.dropVote
  refine (Sat.mapFault (updateUserLocked_locks fun v => (dropped.mirror user v).1)
    (E := fun _ => False) ?_).mono ?_ fun _ h => h.elim
  · rintro _ ⟨absent, -⟩
    exact accounts user mem absent
  · rintro _ _ ⟨account, -, rfl⟩
    refine ⟨dropped.lockUser account, fun a mem => ?_⟩
    change Function.update s₁.stakerAccounts user _ a ≠ none
    by_cases same : a = user
    · simp [same]
    · simpa [same] using accounts a mem

end Books

/-! ## Runs -/

def Event.VotesMeet (R : A → ℕ → ℕ → Prop) : Event A W → Prop
  | .signed who (.vote aye nay _) => R who aye nay
  | _ => True

def Fits (_ : A) (aye nay : ℕ) : Prop := aye + nay < 2 ^ 128

instance (e : Event A W) : Decidable (e.VotesMeet Fits) := by
  unfold Event.VotesMeet Fits
  split <;> infer_instance

variable [DecidableEq A] [DecidableEq W] {cfg : Config A W} {R : A → ℕ → ℕ → Prop}
  {Ok : State A W → Event A W → Prop} {s : State A W}

omit [DecidableEq W] in
theorem Genesis.books (h : s.Genesis) : Books R s := by
  have none : ∀ voteId a, voteOf s voteId a = none := by
    simp [voteOf, h.voteAccountMap]
  refine ⟨fun a voteId => ?_, fun a voteId aye nay vote => ?_, fun a => ?_, fun a nonempty => ?_⟩
  · simp [h.accountVoteMap, none]
  · rw [none] at vote
    cases vote
  · simp [State.locked, State.maxVote, h.stakerAccounts, h.accountVoteMap]
  · exact absurd (h.accountVoteMap a) nonempty

theorem Books.step {s' : State A W} {e : Event A W} (h : Books R s) (ready : Ready cfg s)
    (authentic : e.Authentic cfg) (meets : e.VotesMeet R) (run : e.exec cfg s = .ok ((), s')) :
    Books R s' := by
  cases votes : e.votes with
  | false => exact h.of_keeps (Event.keepsVotes votes authentic ready run)
  | true =>
    unfold Event.votes at votes
    split at votes
    · exact (vote_books ready h fun _ _ _ => meets).of_ok run
    · exact (unlock_books h).of_ok run
    · cases votes

theorem books_reachable (meets : ∀ s e, Ok s e → e.VotesMeet R) (reached : Reachable cfg Ok s) :
    Books R s := by
  have both : Ready cfg s ∧ Books R s := by
    refine reached.invariant (I := fun s => Ready cfg s ∧ Books R s)
      (fun s h => ⟨Genesis.ready h, Genesis.books h⟩) ?_
    rintro s s' ⟨ready, h⟩ ⟨e, authentic, ok, run⟩
    have spec := e.exec_spec authentic lenient_true ready (permits_true s e)
    exact ⟨(spec.of_ok run).ready ready, h.step ready authentic (meets s e ok) run⟩
  exact both.2

theorem foldl_max_spec {α : Type} (g : α → ℕ) (l : List α) (n : ℕ) :
    n ≤ l.foldl (fun m a => max m (g a)) n ∧
    (∀ a ∈ l, g a ≤ l.foldl (fun m a => max m (g a)) n) ∧
      (l.foldl (fun m a => max m (g a)) n = n ∨
        ∃ a ∈ l, l.foldl (fun m a => max m (g a)) n = g a) := by
  induction l generalizing n with
  | nil => simp
  | cons a l ih =>
    rw [List.foldl_cons]
    obtain ⟨least, most, attained⟩ := ih (max n (g a))
    refine ⟨by omega, ?_, ?_⟩
    · rintro b (_ | ⟨_, mem⟩)
      · omega
      · exact most b mem
    · rcases attained with initial | ⟨b, mem, same⟩
      · rw [initial]
        rcases le_total n (g a) with le | le
        · exact .inr ⟨a, List.mem_cons_self, Nat.max_eq_right le⟩
        · exact .inl (Nat.max_eq_left le)
      · exact .inr ⟨b, List.mem_cons_of_mem _ mem, same⟩

omit [DecidableEq W] in
theorem Books.voteWeight_eq (h : Books Fits s) {a : A} {voteId aye nay : ℕ}
    (vote : voteOf s voteId a = some (aye, nay)) : s.voteWeight a voteId = aye + nay := by
  have fits : aye + nay < 2 ^ 128 := h.meets a voteId aye nay vote
  simp only [State.voteWeight, vote, Balance.wrappingAdd]
  exact Nat.mod_eq_of_lt fits

def State.LocksLargest (s : State A W) (a : A) : Prop :=
  (∀ voteId aye nay, voteOf s voteId a = some (aye, nay) → aye + nay ≤ s.locked a) ∧
    ∃ voteId aye nay, voteOf s voteId a = some (aye, nay) ∧ s.locked a = aye + nay

omit [DecidableEq W] in
theorem Books.locksLargest (h : Books Fits s) {a : A} (voted : s.accountVoteMap a ≠ []) :
    s.LocksLargest a := by
  obtain ⟨-, most, attained⟩ := foldl_max_spec (s.voteWeight a) (s.accountVoteMap a) 0
  unfold State.LocksLargest
  rw [h.locked]
  constructor
  · intro voteId aye nay vote
    rw [← h.voteWeight_eq vote]
    exact most voteId ((h.mirror a voteId).2 (by simp [vote]))
  · obtain ⟨voteId, mem, same⟩ : ∃ voteId ∈ s.accountVoteMap a,
        s.maxVote a = s.voteWeight a voteId := by
      rcases attained with zero | attained
      · -- All votes have weight zero; any of them will do.
        obtain ⟨voteId, mem⟩ := List.exists_mem_of_ne_nil _ voted
        have := most voteId mem
        refine ⟨voteId, mem, ?_⟩
        unfold State.maxVote
        omega
      · exact attained
    obtain ⟨⟨aye, nay⟩, vote⟩ := Option.ne_none_iff_exists'.1 ((h.mirror a voteId).1 mem)
    exact ⟨voteId, aye, nay, vote, same.trans (h.voteWeight_eq vote)⟩

/-- The maps of votes mirror each other, and a lock is the largest vote. -/
theorem votes_and_locks_agree (reached : Reachable cfg (fun _ e => e.VotesMeet Fits) s) :
    (∀ a voteId, voteId ∈ s.accountVoteMap a ↔ voteOf s voteId a ≠ none) ∧
    (∀ a, s.accountVoteMap a ≠ [] → s.LocksLargest a) ∧
    (∀ a, s.accountVoteMap a = [] → s.locked a = 0) ∧
    (∀ user aye nay voteId f, Fits user aye nay → vote cfg user aye nay voteId s = .error f →
      f.isVotePanic = false) ∧
    ∀ voteId iterations f, unlock cfg voteId iterations s = .error f → f.isVotePanic = false := by
  have books : Books Fits s := books_reachable (fun _ _ ok => ok) reached
  refine ⟨books.mirror, fun a => books.locksLargest, fun a drained => ?_, ?_, ?_⟩
  · rw [books.locked, State.maxVote, drained]
    rfl
  · intro user aye nay voteId f fits failed
    exact (vote_books (Reachable.ready reached) books fun _ _ _ => fits).of_error failed
  · intro voteId iterations f failed
    exact (unlock_books books).of_error failed

theorem votes_and_locks_agree_drained : ∃ s,
    Reachable Mock.runtime (fun _ e => e.VotesMeet Fits) s ∧
      voteOf s 0 Mock.alice = some (30, 20) ∧ s.locked Mock.alice = 50 ∧
      s.LocksLargest Mock.alice := by
  obtain ⟨s, reached, check⟩ := Mock.exists_reachable Mock.runtime
    (fun _ e => e.VotesMeet Fits)
    (Mock.opening (10 ^ 15) (10 ^ 15) ++ [
      .move (.setReferendum 0 true), .move (.setReferendum 1 true),
      .signed Mock.alice (.vote 30 20 0), .signed Mock.alice (.vote 500 0 1),
      .signed Mock.bob (.vote 0 7 1), .move (.setReferendum 1 false),
      .signed Mock.bob (.unlock 1 2)])
    (fun s => decide (voteOf s 0 Mock.alice = some (30, 20)) &&
      decide (s.locked Mock.alice = 50)) (by decide +kernel)
  obtain ⟨recorded, locked⟩ := Bool.and_eq_true_iff.1 check
  have recorded : voteOf s 0 Mock.alice = some (30, 20) := of_decide_eq_true recorded
  have agree := votes_and_locks_agree reached
  refine ⟨s, reached, recorded, of_decide_eq_true locked, agree.2.1 _ ?_⟩
  exact List.ne_nil_of_mem ((agree.1 Mock.alice 0).2 (by simp [recorded]))

theorem overflowing_vote_not_locked : ∃ s, Reachable Mock.runtime (fun _ _ => True) s ∧
    voteOf s 0 Mock.alice = some (2 ^ 128 - 1, 1) ∧ s.locked Mock.alice = 0 := by
  obtain ⟨s, reached, check⟩ := Mock.exists_reachable Mock.runtime (fun _ _ => True)
    (Mock.opening (10 ^ 15) (10 ^ 15) ++ [
      .move (.setReferendum 0 true),
      .signed Mock.bob (.vote 1 0 0),
      .signed Mock.alice (.vote (2 ^ 128 - 1) 1 0)])
    (fun s => decide (voteOf s 0 Mock.alice = some (2 ^ 128 - 1, 1)) &&
      decide (s.locked Mock.alice = 0)) (by decide +kernel)
  obtain ⟨recorded, locked⟩ := Bool.and_eq_true_iff.1 check
  exact ⟨s, reached, of_decide_eq_true recorded, of_decide_eq_true locked⟩

end Cyrux
