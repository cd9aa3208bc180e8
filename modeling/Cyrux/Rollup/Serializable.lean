import Cyrux.Lib.Versioned
import Cyrux.Rollup.World

/-!
# Rollups are isolated by versions
-/

namespace Cyrux.Rollup

open Store

/-! ## One commit -/

def NextVersion (bumpVersion : Option Value → Option Value) (v w : Option Value) : Prop :=
  ∃ x, bumpVersion v = some x ∧ w = some x

theorem Store.applyUpdates_of_const (s : Store) {updates : List (Key × Option Value)} {key : Key}
    {v : Option Value} (h : s key = v ∨ ∃ u ∈ updates, u.1 = key)
    (const : ∀ u ∈ updates, u.1 = key → u.2 = v) : s.applyUpdates updates key = v := by
  induction updates generalizing s with
  | nil =>
    rcases h with h | ⟨u, hu, -⟩
    · exact h
    · cases hu
  | cons u updates ih =>
    apply ih
    · change Function.update s u.1 u.2 key = v ∨ _
      by_cases hu : u.1 = key
      · left
        rw [← hu, Function.update_self]
        exact const u List.mem_cons_self hu
      · rw [Function.update_of_ne (Ne.symm hu)]
        rcases h with h | ⟨u', hu', hkey⟩
        · exact .inl h
        · rcases List.mem_cons.1 hu' with rfl | hu'
          · exact absurd hkey hu
          · exact .inr ⟨u', hu', hkey⟩
    · exact fun u' hu' => const u' (List.mem_cons_of_mem _ hu')

def Newer (cfg : Config) (bumpVersion : Option Value → Option Value) (s s' : Store) : Prop :=
  ∀ k, UserKey cfg k →
    Evolves (NextVersion bumpVersion) (s (versionKey cfg k)) (s k) (s' (versionKey cfg k)) (s' k)

namespace World

variable {S : Setting AccessTracker} {w : World AccessTracker} {s : Submission AccessTracker}
  {snapshot : Store} {outcome : Outcome AccessTracker} {rolled : RollUpTransaction} {a a' : Anchor}
  {trackWrite : Bool} {first head tail : ℕ} {content : ℕ → Value}

def FreshWrites (S : Setting AccessTracker) (outcome : Outcome AccessTracker)
    (snapshot before : Store) : Prop :=
  ∀ k ∈ outcome.session.tracker.writes,
    before (versionKey S.cfg k) = snapshot (versionKey S.cfg k)

theorem Effect.newer (hS : S.tracking = AccessTracker.tracking trackWrite)
    (tracked : Tracked S.cfg trackWrite outcome) {before after : Store}
    (effect : Effect S snapshot outcome rolled before after)
    (rolledUp : rollupTransaction S.cfg S.bumpVersion snapshot
      (outcome.session.commit S.cfg S.tracking) = some rolled)
    (fresh : FreshWrites S outcome snapshot before) :
    Newer S.cfg S.bumpVersion before after := by
  obtain ⟨versions, hupdates, hall, honly⟩ := (rolledUp_of_eq_some rolledUp).updates
  have hwrites : (outcome.session.commit S.cfg S.tracking).versionUpdates =
      outcome.session.tracker.writes := by
    rw [hS]
    rfl
  rw [hwrites] at hall honly
  have hvalues : ∀ u ∈ (outcome.session.commit S.cfg S.tracking).valueUpdates,
      u.1 ∈ outcome.session.tracker.writes := tracked.updates
  intro k hk
  rw [effect.outside k hk.2, effect.outside _ (outside_versionKey hk.2), hupdates]
  by_cases hmem : k ∈ outcome.session.tracker.writes
  · -- the version is bumped from the one that is replaced
    obtain ⟨v, hv, hmemv⟩ := hall k hmem
    apply Evolves.write
    refine ⟨v, by rw [fresh k hmem, hv], ?_⟩
    apply applyUpdates_of_const
    · exact .inr ⟨_, List.mem_append_right _ hmemv, rfl⟩
    · intro u hu hkey
      rcases List.mem_append.1 hu with hu | hu
      · exact absurd hkey ((tracked.writes _ (hvalues u hu)).ne_versionKey k)
      · obtain ⟨k', -, hkey', hvalue⟩ := honly u hu
        rw [hkey', versionKey_inj] at hkey
        rw [hvalue, hkey, hv]
  · -- neither the key nor its version is written
    have hkey : ∀ u ∈ (outcome.session.commit S.cfg S.tracking).valueUpdates ++ versions,
        u.1 ≠ k ∧ u.1 ≠ versionKey S.cfg k := by
      intro u hu
      rcases List.mem_append.1 hu with hu | hu
      · have hu' := hvalues u hu
        exact ⟨fun h => hmem (h ▸ hu'), (tracked.writes _ hu').ne_versionKey k⟩
      · obtain ⟨k', hk', hkey', -⟩ := honly u hu
        rw [hkey']
        refine ⟨(hk.ne_versionKey k').symm, fun h => ?_⟩
        rw [versionKey_inj] at h
        exact hmem (h ▸ hk')
    rw [applyUpdates_of_notMem _ _ fun u hu => (hkey u hu).1,
      applyUpdates_of_notMem _ _ fun u hu => (hkey u hu).2]
    exact .refl _ _

/-! ## Runs -/

structure Isolated (S : Setting AccessTracker) (w : World AccessTracker) : Prop where
  queues : ∃ first head content, Queues S first w head content
  newer : ∀ a ∈ w.past, Newer S.cfg S.bumpVersion (a.states S.name) (w.store S)
  reads : ∀ r ∈ w.accepted, ∀ read ∈ r.outcome.reads, r.before read.1 = read.2

theorem Isolated.storeAt (h : Isolated S w) (age : ℕ) :
    Newer S.cfg S.bumpVersion (w.storeAt S age) (w.store S) := by
  obtain ⟨a, ha, hstore⟩ := storeAt_mem (S := S) w age
  rw [hstore]
  rcases List.mem_cons.1 ha with rfl | ha
  · exact fun k _ => .refl _ _
  · exact h.newer a ha

theorem Newer.value_eq {cfg : Config} {bumpVersion : Option Value → Option Value} {s s' : Store}
    (acyclic : ∀ v, ¬ Relation.TransGen (NextVersion bumpVersion) v v)
    (h : Newer cfg bumpVersion s s') {k : Key} (user : UserKey cfg k)
    (same : s' (versionKey cfg k) = s (versionKey cfg k)) : s' k = s k :=
  ((h k user).value_eq acyclic same.symm).symm

theorem accessedKeys_eq (hS : S.tracking = AccessTracker.tracking trackWrite) :
    (outcome.session.commit S.cfg S.tracking).accessedKeys = outcome.session.tracker.track := by
  rw [hS]
  rfl

theorem Isolated.afterRollup (hS : S.tracking = AccessTracker.tracking trackWrite)
    (acyclic : ∀ v, ¬ Relation.TransGen (NextVersion S.bumpVersion) v v) (h : Isolated S w)
    (onUser : OnUserKeys S s) {age : ℕ}
    (commits : Commits S s (w.storeAt S age) outcome rolled w.anchor a)
    (fresh : FreshWrites S outcome (w.storeAt S age) (w.store S)) :
    Isolated S (w.afterRollup S s (w.storeAt S age) outcome a) := by
  obtain ⟨first, head, content, queues⟩ := h.queues
  have avoids := onUser.avoidsQueue hS
  have tracked := onUser.tracked hS commits.executed
  obtain ⟨effect, -, -⟩ := commits.effect avoids queues.queue
  have hnewer := effect.newer hS tracked commits.rolledUp fresh
  constructor
  case queues => exact ⟨first, _, content, queues.afterRollup commits avoids⟩
  case newer =>
    intro b hb
    rcases List.mem_cons.1 hb with rfl | hb
    · exact hnewer
    · exact fun k hk => (h.newer b hb k hk).trans (hnewer k hk)
  case reads =>
    intro r hr
    rcases List.mem_append.1 hr with hr | hr
    · exact h.reads r hr
    · rw [List.mem_singleton.1 hr]
      intro read hread
      obtain ⟨htrack, hvalue⟩ := tracked.reads read hread
      rw [hvalue, execute_kvdb commits.executed]
      apply Newer.value_eq acyclic (h.storeAt age) (tracked.trackUser _ htrack)
      apply effect.accessed
      rw [accessedKeys_eq hS]
      exact htrack

theorem Isolated.push (h : Isolated S w) (data : Value) : Isolated S (w.push S data) := by
  obtain ⟨first, head, content, queues⟩ := h.queues
  obtain hsame | ⟨hpushed, haccepted, hpast, hstore, queues'⟩ := queues.push data
  · rw [hsame]
    exact h
  · have hunchanged : Newer S.cfg S.bumpVersion (w.store S) ((w.push S data).store S) := by
      intro k hk
      rw [hstore k hk.2, hstore _ (outside_versionKey hk.2)]
      exact .refl _ _
    constructor
    case queues => exact ⟨first, head, _, queues'⟩
    case newer =>
      rw [hpast]
      intro b hb
      rcases List.mem_cons.1 hb with rfl | hb
      · exact hunchanged
      · exact fun k hk => (h.newer b hb k hk).trans (hunchanged k hk)
    case reads =>
      rw [haccepted]
      exact h.reads

theorem accepted_step_subset (S : Setting AccessTracker) (w : World AccessTracker)
    (step : Step AccessTracker) : w.accepted ⊆ (w.step S step).accepted := by
  cases step with
  | rollup s age =>
    obtain hsame | ⟨outcome, rolled, a, -, hafter⟩ :=
      submit_cases (S := S) w s (w.storeAt S age)
    · exact fun r hr => by rwa [World.step, hsame]
    · intro r hr
      rw [World.step, hafter]
      exact List.mem_append_left _ hr
  | push data =>
    intro r hr
    rw [World.step, push_accepted]
    exact hr

theorem accepted_run_subset (S : Setting AccessTracker) (w : World AccessTracker)
    (steps : List (Step AccessTracker)) : w.accepted ⊆ (w.run S steps).accepted := by
  induction steps generalizing w with
  | nil => exact fun r hr => hr
  | cons step steps ih => exact fun r hr => ih _ (accepted_step_subset S w step hr)

theorem Isolated.run (hS : S.tracking = AccessTracker.tracking trackWrite)
    (acyclic : ∀ v, ¬ Relation.TransGen (NextVersion S.bumpVersion) v v) (h : Isolated S w)
    {steps : List (Step AccessTracker)}
    (onUser : ∀ s age, Step.rollup s age ∈ steps → OnUserKeys S s)
    (fresh : ∀ r ∈ (w.run S steps).accepted, FreshWrites S r.outcome r.snapshot r.before) :
    Isolated S (w.run S steps) := by
  induction steps generalizing w with
  | nil => exact h
  | cons step steps ih =>
    have htail : ∀ s age, Step.rollup s age ∈ steps → OnUserKeys S s :=
      fun s age hs => onUser s age (List.mem_cons_of_mem _ hs)
    refine ih ?_ htail fresh
    cases step with
    | push data => exact h.push data
    | rollup s age =>
      obtain hsame | ⟨outcome, rolled, a, commits, hafter⟩ :=
        submit_cases (S := S) w s (w.storeAt S age)
      · rw [World.step, hsame]
        exact h
      · rw [World.step, hafter]
        refine h.afterRollup hS acyclic (onUser s age List.mem_cons_self) commits ?_
        have hlast : ⟨s, w.storeAt S age, w.store S, outcome⟩ ∈
            (w.step S (.rollup s age)).accepted := by
          rw [World.step, hafter]
          exact List.mem_append_right _ List.mem_cons_self
        exact fresh _ (accepted_run_subset S _ steps hlast)

theorem Isolated.init (intact : Queue S.cfg (a.states S.name) head tail content) :
    Isolated S { anchor := a } :=
  ⟨⟨tail, head, content, intact, by simp⟩, by simp, by simp⟩

theorem mock_acyclic (tracking : AccessTracking AccessTracker) (v : Option Value) :
    ¬ Relation.TransGen (NextVersion (mockSetting tracking).bumpVersion) v v := by
  intro h
  have hlift : Relation.TransGen (· < ·) (v.elim 0 fun b => b.length + 1)
      (v.elim 0 fun b => b.length + 1) := by
    refine h.lift (fun v : Option Value => v.elim 0 fun b => b.length + 1) ?_
    rintro v _ ⟨x, hx, rfl⟩
    have hx : 0 :: v.getD [] = x := Option.some.inj hx
    subst hx
    cases v <;> simp [Function.onFun]
  rw [Relation.transGen_eq_self] at hlift
  exact lt_irrefl _ hlift

def mockWrite (value : UInt8) : Submission AccessTracker := ⟨.put [0x6b] [value] .done, {}, []⟩

def mockRead : Submission AccessTracker := ⟨.get [0x6b] fun _ => .put [0x6c] [9] .done, {}, []⟩

theorem mock_onUserKeys (tracking : AccessTracking AccessTracker)
    {steps : List (Step AccessTracker)}
    (h : ∀ s age, Step.rollup s age ∈ steps → (∃ v, s = mockWrite v) ∨ s = mockRead)
    (s : Submission AccessTracker) (age : ℕ) (hs : Step.rollup s age ∈ steps) :
    OnUserKeys (mockSetting tracking) s := by
  have hk : UserKey mockConfig [0x6b] := by
    unfold UserKey Outside
    decide
  have hl : UserKey mockConfig [0x6c] := by
    unfold UserKey Outside
    decide
  obtain ⟨v, rfl⟩ | rfl := h s age hs
  · exact ⟨⟨hk, trivial⟩, rfl⟩
  · exact ⟨⟨hk, fun _ => ⟨hl, trivial⟩⟩, rfl⟩

end World

/-! ## The same session on another store -/

namespace Program

variable {cfg : Config} {trackWrite : Bool}

theorem track_subset_run (p : Program) (o : Outcome AccessTracker) :
    o.session.tracker.track ⊆
      (p.run cfg (AccessTracker.tracking trackWrite) o).session.tracker.track := by
  have hwrite : ∀ (o : Outcome AccessTracker) key value, o.session.tracker.track ⊆
      (o.session.update (AccessTracker.tracking trackWrite) key value).tracker.track := by
    intro o key value k hk
    simp only [Session.update, AccessTracker.tracking]
    split
    · exact List.mem_insert_of_mem hk
    · exact hk
  induction p generalizing o with
  | done => exact fun k hk => hk
  | get key next ih =>
    refine List.Subset.trans ?_ (ih _ _)
    simp only [Session.get]
    split
    · exact fun k hk => hk
    · exact fun k hk => List.mem_insert_of_mem hk
  | put key value next ih =>
    refine List.Subset.trans (hwrite o key (some value)) ?_
    exact ih { o with session := o.session.put _ key value }
  | delete key next ih =>
    refine List.Subset.trans (hwrite o key none) ?_
    exact ih { o with session := o.session.delete _ key }
  | pop next ih =>
    exact ih _ { o with session := (o.session.pop cfg).2, popped := _ }

theorem popped_run {T : Type} (A : AccessTracking T) (p : Program) (o : Outcome T)
    (h : o.session.queue.popped = true) : (p.run cfg A o).session.queue.popped = true := by
  induction p generalizing o with
  | done => exact h
  | get key next ih =>
    apply ih
    simp only [Session.get]
    split <;> exact h
  | put key value next ih => exact ih _ h
  | delete key next ih => exact ih _ h
  | pop next ih =>
    apply ih
    simp only [Session.pop, QueueInfo.pop]
    split
    · exact h
    · rfl

structure Parallel (cfg : Config) (final : Outcome AccessTracker) (o o' : Outcome AccessTracker) :
    Prop where
  tracker : o'.session.tracker = o.session.tracker
  updates : o'.session.updates = o.session.updates
  queue : (o'.session.queue = o.session.queue ∧
      ∀ i, o.session.queue.head ≤ i → i < o.session.queue.tail →
        o'.session.kvdb (entryKey cfg i) = o.session.kvdb (entryKey cfg i)) ∨
    (o.session.queue.popped = false ∧ o'.session.queue.popped = false ∧
      o.session.queue.head < o.session.queue.tail ∧ final.session.queue.popped = false)
  head_le_tail : o.session.queue.head ≤ o.session.queue.tail

theorem run_parallel (p : Program) {final o o' : Outcome AccessTracker}
    (hfinal : p.run cfg (AccessTracker.tracking trackWrite) o = final)
    (h : Parallel cfg final o o')
    (agree : ∀ k ∈ final.session.tracker.track, o'.session.kvdb k = o.session.kvdb k) :
    Parallel cfg final final (p.run cfg (AccessTracker.tracking trackWrite) o') := by
  induction p generalizing o o' with
  | done =>
    subst hfinal
    exact h
  | get key next ih =>
    unfold run at hfinal ⊢
    cases hlookup : o.session.updates.lookup key with
    | some value =>
      have hget : o.session.get (AccessTracker.tracking trackWrite) key = (value, o.session) := by
        simp only [Session.get, hlookup]
      have hget' : o'.session.get (AccessTracker.tracking trackWrite) key =
          (value, o'.session) := by
        simp only [Session.get, h.updates, hlookup]
      simp only [hget] at hfinal
      simp only [hget']
      exact ih value hfinal ⟨h.tracker, h.updates, h.queue, h.head_le_tail⟩ agree
    | none =>
      have hget : o.session.get (AccessTracker.tracking trackWrite) key =
          (o.session.kvdb key, { o.session with
            tracker := (AccessTracker.tracking trackWrite).read o.session.tracker key }) := by
        simp only [Session.get, hlookup]
      have hget' : o'.session.get (AccessTracker.tracking trackWrite) key =
          (o'.session.kvdb key, { o'.session with
            tracker := (AccessTracker.tracking trackWrite).read o.session.tracker key }) := by
        simp only [Session.get, h.updates, hlookup, h.tracker]
      simp only [hget] at hfinal
      simp only [hget']
      have hmem : key ∈ final.session.tracker.track := by
        rw [← hfinal]
        exact track_subset_run _ _ List.mem_insert_self
      rw [agree key hmem]
      exact ih (o.session.kvdb key) hfinal ⟨rfl, h.updates, h.queue, h.head_le_tail⟩ agree
  | put key value next ih =>
    refine ih hfinal ⟨?_, ?_, h.queue, h.head_le_tail⟩ agree
    · simp only [Session.put, Session.update, h.tracker]
    · simp only [Session.put, Session.update, h.updates]
  | delete key next ih =>
    refine ih hfinal ⟨?_, ?_, h.queue, h.head_le_tail⟩ agree
    · simp only [Session.delete, Session.update, h.tracker]
    · simp only [Session.delete, Session.update, h.updates]
  | pop next ih =>
    unfold run at hfinal ⊢
    by_cases hempty : o.session.queue.head = o.session.queue.tail
    · -- both queues are at their end
      obtain ⟨hqueue, hentries⟩ | ⟨-, -, hlt, -⟩ := h.queue
      · have hpop : o.session.pop cfg = (none, o.session) := by
          simp only [Session.pop, QueueInfo.pop, hempty, if_true]
        have hpop' : o'.session.pop cfg = (none, o'.session) := by
          simp only [Session.pop, QueueInfo.pop, hqueue, hempty, if_true]
          rw [← hqueue]
        simp only [hpop] at hfinal
        simp only [hpop']
        exact ih none hfinal ⟨h.tracker, h.updates, h.queue, h.head_le_tail⟩ agree
      · exact absurd hempty hlt.ne
    · have hlt := lt_of_le_of_ne h.head_le_tail hempty
      have hpop : o.session.pop cfg = (o.session.kvdb (entryKey cfg o.session.queue.head),
          { o.session with queue :=
            { o.session.queue with popped := true, head := o.session.queue.head + 1 } }) := by
        simp only [Session.pop, QueueInfo.pop, hempty, if_false]
      simp only [hpop] at hfinal
      obtain ⟨hqueue, hentries⟩ | ⟨-, -, -, hfinal'⟩ := h.queue
      · have hpop' : o'.session.pop cfg = (o.session.kvdb (entryKey cfg o.session.queue.head),
            { o'.session with queue :=
              { o.session.queue with popped := true, head := o.session.queue.head + 1 } }) := by
          simp only [Session.pop, QueueInfo.pop, hqueue, hempty, if_false,
            hentries _ le_rfl hlt]
        simp only [hpop']
        refine ih _ hfinal ⟨h.tracker, h.updates, .inl ⟨rfl, fun i hi => ?_⟩, hlt⟩ agree
        exact hentries i (Nat.le_of_succ_le hi)
      · -- the first session pops an entry after all
        have hpopped : final.session.queue.popped = true := by
          rw [← hfinal]
          exact popped_run _ _ _ rfl
        rw [hfinal'] at hpopped
        cases hpopped

end Program

/-! ## Serial runs -/

namespace World

variable {S : Setting AccessTracker} {w : World AccessTracker} {s : Submission AccessTracker}
  {outcome : Outcome AccessTracker} {rolled : RollUpTransaction} {a : Anchor}

def serial (S : Setting AccessTracker) (a : Anchor) (s : Submission AccessTracker) : Anchor :=
  match s.program.transaction S.cfg S.tracking S.bumpVersion s.tracker s.replies
      (a.states S.name) with
  | none => a
  | some tx => Anchor.perform (Anchor.rollup S.cfg S.owner S.name tx) a

theorem commit_eq_of_parallel {final o o' : Outcome AccessTracker} {cfg : Config}
    {A : AccessTracking AccessTracker} (h : Program.Parallel cfg final o o') :
    o'.session.commit cfg A = o.session.commit cfg A := by
  unfold Session.commit
  rw [h.tracker, h.updates]
  obtain ⟨hqueue, -⟩ | ⟨hpopped, hpopped', -⟩ := h.queue
  · rw [hqueue]
  · simp [hpopped, hpopped']

theorem rollupTransaction_congr {cfg : Config} {bumpVersion : Option Value → Option Value}
    {kvdb kvdb' : Store} {tx : KvTransaction}
    (accessed : ∀ k ∈ tx.accessedKeys, kvdb' (versionKey cfg k) = kvdb (versionKey cfg k))
    (written : ∀ k ∈ tx.versionUpdates, kvdb' (versionKey cfg k) = kvdb (versionKey cfg k))
    (lock : ∀ k ∈ tx.queueLock, kvdb' k = kvdb k) :
    rollupTransaction cfg bumpVersion kvdb' tx = rollupTransaction cfg bumpVersion kvdb tx := by
  have hconditions : (tx.accessedKeys.map fun k => (versionKey cfg k, kvdb' (versionKey cfg k))) =
      tx.accessedKeys.map fun k => (versionKey cfg k, kvdb (versionKey cfg k)) :=
    List.map_congr_left fun k hk => by rw [accessed k hk]
  have hlock : (tx.queueLock.toList.map fun lock => (lock, kvdb' lock)) =
      tx.queueLock.toList.map fun lock => (lock, kvdb lock) :=
    List.map_congr_left fun k hk => by rw [lock k (Option.mem_toList.1 hk)]
  unfold rollupTransaction
  rw [hconditions, hlock]
  congr 1
  exact mapM_congr fun k hk => by rw [written k hk]

theorem Isolated.serial_eq (hS : S.tracking = rwTracker)
    (acyclic : ∀ v, ¬ Relation.TransGen (NextVersion S.bumpVersion) v v) (h : Isolated S w)
    {first head : ℕ} {content : ℕ → Value} (queues : Queues S first w head content)
    (unpushed : w.pushed = []) (onUser : OnUserKeys S s) {age : ℕ}
    (commits : Commits S s (w.storeAt S age) outcome rolled w.anchor a) :
    serial S w.anchor s = a := by
  have tracked := onUser.tracked hS commits.executed
  obtain ⟨effect, -, -⟩ := commits.effect (onUser.avoidsQueue hS) queues.queue
  have haccessed : ∀ k ∈ outcome.session.tracker.track,
      w.store S (versionKey S.cfg k) = w.storeAt S age (versionKey S.cfg k) := by
    intro k hk
    apply effect.accessed
    rw [accessedKeys_eq hS]
    exact hk
  -- both runs of the program
  obtain ⟨h', t, hle, hfirst, ht, hqueue⟩ := queues.storeAt age
  have hqueue' := queues.queue
  rw [unpushed, List.length_nil, Nat.add_zero] at ht hqueue'
  obtain rfl : t = first := le_antisymm ht hfirst
  have hexecuted := commits.executed
  rw [execute_eq_run S.tracking hqueue, Option.some.injEq, hS] at hexecuted
  have parallel : Program.Parallel S.cfg outcome (startOutcome (w.storeAt S age) s.tracker h' t)
      (startOutcome (w.store S) s.tracker head t) := by
    refine ⟨rfl, rfl, ?_, hqueue.le⟩
    rcases hle.eq_or_lt with rfl | hlt
    · refine .inl ⟨rfl, fun i hi hi' => ?_⟩
      exact (hqueue'.entries i).trans (hqueue.entries i).symm
    · refine .inr ⟨rfl, rfl, lt_of_lt_of_le hlt hqueue'.le, ?_⟩
      by_contra hpopped
      rw [Bool.not_eq_false] at hpopped
      have hnow : (w.store S).queueGetU32 S.cfg headIndex = _ :=
        Queue.queueGetU32_congr (s := w.storeAt S age) (effect.lock hpopped)
      rw [hqueue'.headCell, hqueue.headCell, Option.some.injEq] at hnow
      omega
  have agree : ∀ k ∈ outcome.session.tracker.track, w.store S k = w.storeAt S age k :=
    fun k hk => Newer.value_eq acyclic (h.storeAt age) (tracked.trackUser k hk) (haccessed k hk)
  have hrun : s.program.run S.cfg S.tracking (startOutcome (w.store S) s.tracker head t) =
      s.program.run S.cfg (AccessTracker.tracking true)
        (startOutcome (w.store S) s.tracker head t) := by
    rw [hS]
    rfl
  have hcommit := commit_eq_of_parallel (A := S.tracking)
    (s.program.run_parallel hexecuted parallel agree)
  rw [← hrun] at hcommit
  -- so the transactions are the same
  have htransaction : s.program.transaction S.cfg S.tracking S.bumpVersion s.tracker s.replies
      (w.store S) = some (rolled.toTx S.cfg s.replies) := by
    have hrolled : rollupTransaction S.cfg S.bumpVersion (w.store S)
        (outcome.session.commit S.cfg S.tracking) = some rolled := by
      rw [← commits.rolledUp]
      apply rollupTransaction_congr
      · exact effect.accessed
      · intro k hk
        apply haccessed
        apply tracked.accessed rfl
        rwa [hS] at hk
      · intro k hk
        simp only [Session.commit] at hk
        split at hk
        · rename_i hpopped
          rw [← Option.some.inj hk]
          exact effect.lock hpopped
        · cases hk
    simp only [Program.transaction, execute_eq_run S.tracking hqueue', Option.bind_eq_bind,
      Option.bind_some, hcommit, hrolled, pure]
  change (match s.program.transaction S.cfg S.tracking S.bumpVersion s.tracker s.replies
    (w.store S) with | none => _ | some tx => _) = _
  rw [htransaction]
  simp only [Anchor.perform, commits.accepted]

theorem Commits.freshWrites (hS : S.tracking = rwTracker) (onUser : OnUserKeys S s) {age : ℕ}
    {first head : ℕ} {content : ℕ → Value} (queues : Queues S first w head content)
    (commits : Commits S s (w.storeAt S age) outcome rolled w.anchor a) :
    FreshWrites S outcome (w.storeAt S age) (w.store S) := by
  have tracked := onUser.tracked hS commits.executed
  obtain ⟨effect, -, -⟩ := commits.effect (onUser.avoidsQueue hS) queues.queue
  intro k hk
  apply effect.accessed
  rw [accessedKeys_eq hS]
  exact tracked.accessed rfl k hk

structure Serialized (S : Setting AccessTracker) (a : Anchor) (w : World AccessTracker) : Prop where
  isolated : Isolated S w
  unpushed : w.pushed = []
  anchor : w.anchor = (w.accepted.map Accepted.submission).foldl (serial S) a

theorem Serialized.submit (hS : S.tracking = rwTracker)
    (acyclic : ∀ v, ¬ Relation.TransGen (NextVersion S.bumpVersion) v v) {a₀ : Anchor}
    (h : Serialized S a₀ w) (onUser : OnUserKeys S s) (age : ℕ) :
    Serialized S a₀ (w.submit S s (w.storeAt S age)) := by
  obtain hsame | ⟨outcome, rolled, a, commits, hafter⟩ :=
    submit_cases (S := S) w s (w.storeAt S age)
  · rw [hsame]
    exact h
  · rw [hafter]
    obtain ⟨first, head, content, queues⟩ := h.isolated.queues
    have fresh := commits.freshWrites hS onUser queues
    refine ⟨h.isolated.afterRollup hS acyclic onUser commits fresh, h.unpushed, ?_⟩
    have hserial := h.isolated.serial_eq hS acyclic queues h.unpushed onUser commits
    simp only [World.afterRollup, List.map_append, List.foldl_append, ← h.anchor]
    exact hserial.symm

theorem Serialized.run (hS : S.tracking = rwTracker)
    (acyclic : ∀ v, ¬ Relation.TransGen (NextVersion S.bumpVersion) v v) {a₀ : Anchor}
    (h : Serialized S a₀ w) {submissions : List (Submission AccessTracker × ℕ)}
    (onUser : ∀ s ∈ submissions, OnUserKeys S s.1) :
    Serialized S a₀ (w.run S (submissions.map fun s => .rollup s.1 s.2)) := by
  induction submissions generalizing w with
  | nil => exact h
  | cons s submissions ih =>
    have hs := h.submit hS acyclic (onUser s List.mem_cons_self) s.2
    exact ih hs fun s' hs' => onUser s' (List.mem_cons_of_mem _ hs')

end World

end Cyrux.Rollup
