import Cyrux.Rollup.Session

/-!
# Rollups from stale snapshots
-/

namespace Cyrux.Rollup

open Exec Store

structure Submission (T : Type) where
  program : Program
  tracker : T
  replies : List Bytes

structure Accepted (T : Type) where
  submission : Submission T
  snapshot : Store
  before : Store
  outcome : Outcome T

structure World (T : Type) where
  anchor : Anchor
  /-- The earlier states of the pallet, the latest first. -/
  past : List Anchor := []
  accepted : List (Accepted T) := []
  /-- The messages that were pushed. -/
  pushed : List Value := []

inductive Step (T : Type)
  /-- A session on the store of some time ago is submitted. -/
  | rollup (submission : Submission T) (age : ℕ)
  | push (data : Value)

structure Setting (T : Type) where
  cfg : Config
  bumpVersion : Option Value → Option Value
  tracking : AccessTracking T
  owner : AccountId
  name : Name

/-! ## Transactions -/

section Transaction

variable {cfg : Config} {bumpVersion : Option Value → Option Value} {kvdb : Store}
  {tx : KvTransaction} {rolled : RollUpTransaction}

theorem versionKey_inj {k k' : Key} : versionKey cfg k = versionKey cfg k' ↔ k = k' :=
  List.append_left_inj _

theorem outside_versionKey {k : Key} (h : Outside cfg k) : Outside cfg (versionKey cfg k) :=
  fun hk => h (cfg.layout.separate k hk)

theorem mem_of_mapM_eq_some {α β : Type} {f : α → Option β} {l : List α} {r : List β}
    (h : l.mapM f = some r) :
    (∀ a ∈ l, ∃ b ∈ r, f a = some b) ∧ ∀ b ∈ r, ∃ a ∈ l, f a = some b := by
  induction l generalizing r with
  | nil =>
    simp only [List.mapM_nil, pure, Option.some.injEq] at h
    subst h
    simp
  | cons a l ih =>
    rw [List.mapM_cons] at h
    obtain ⟨b, hb, h⟩ := Option.bind_eq_some_iff.1 h
    obtain ⟨r', hr', h⟩ := Option.bind_eq_some_iff.1 h
    simp only [pure, Option.some.injEq] at h
    subst h
    obtain ⟨ih, ih'⟩ := ih hr'
    constructor
    · intro a' ha'
      rcases List.mem_cons.1 ha' with rfl | ha'
      · exact ⟨b, List.mem_cons_self, hb⟩
      · obtain ⟨b', hb', hf⟩ := ih a' ha'
        exact ⟨b', List.mem_cons_of_mem _ hb', hf⟩
    · intro b' hb'
      rcases List.mem_cons.1 hb' with rfl | hb'
      · exact ⟨a, List.mem_cons_self, hb⟩
      · obtain ⟨a', ha', hf⟩ := ih' b' hb'
        exact ⟨a', List.mem_cons_of_mem _ ha', hf⟩

theorem mapM_congr {α β : Type} {f g : α → Option β} {l : List α} (h : ∀ a ∈ l, f a = g a) :
    l.mapM f = l.mapM g := by
  induction l with
  | nil => rfl
  | cons a l ih =>
    rw [List.mapM_cons, List.mapM_cons, h a List.mem_cons_self,
      ih fun b hb => h b (List.mem_cons_of_mem _ hb)]

structure RolledUp (cfg : Config) (bumpVersion : Option Value → Option Value) (kvdb : Store)
    (tx : KvTransaction) (rolled : RollUpTransaction) : Prop where
  accessed : ∀ k ∈ tx.accessedKeys,
    (versionKey cfg k, kvdb (versionKey cfg k)) ∈ rolled.conditions
  lock : ∀ lock ∈ tx.queueLock, (lock, kvdb lock) ∈ rolled.conditions
  queueHead : rolled.queueHead = tx.queueHead
  updates : ∃ versions, rolled.updates = tx.valueUpdates ++ versions ∧
    (∀ k ∈ tx.versionUpdates, ∃ v, bumpVersion (kvdb (versionKey cfg k)) = some v ∧
      (versionKey cfg k, some v) ∈ versions) ∧
    ∀ u ∈ versions, ∃ k ∈ tx.versionUpdates, u.1 = versionKey cfg k ∧
      u.2 = bumpVersion (kvdb (versionKey cfg k))

theorem rolledUp_of_eq_some (h : rollupTransaction cfg bumpVersion kvdb tx = some rolled) :
    RolledUp cfg bumpVersion kvdb tx rolled := by
  obtain ⟨versions, hversions, h⟩ := Option.bind_eq_some_iff.1 h
  simp only [pure, Option.some.injEq] at h
  subst h
  obtain ⟨hall, honly⟩ := mem_of_mapM_eq_some hversions
  constructor
  case accessed =>
    intro k hk
    exact List.mem_append_left _ (List.mem_map.2 ⟨k, hk, rfl⟩)
  case lock =>
    intro lock hlock
    exact List.mem_append_right _ (List.mem_map.2 ⟨lock, Option.mem_toList.2 hlock, rfl⟩)
  case queueHead => rfl
  case updates =>
    refine ⟨versions, rfl, fun k hk => ?_, fun u hu => ?_⟩
    · obtain ⟨u, hu, hf⟩ := hall k hk
      obtain ⟨v, hv, hf⟩ := Option.bind_eq_some_iff.1 hf
      simp only [pure, Option.some.injEq] at hf
      exact ⟨v, hv, hf ▸ hu⟩
    · obtain ⟨k, hk, hf⟩ := honly u hu
      obtain ⟨v, hv, hf⟩ := Option.bind_eq_some_iff.1 hf
      simp only [pure, Option.some.injEq] at hf
      exact ⟨k, hk, hf ▸ rfl, hf ▸ hv.symm⟩

def KvTransaction.AvoidsQueue (cfg : Config) (tx : KvTransaction) : Prop :=
  (∀ u ∈ tx.valueUpdates, Outside cfg u.1) ∧ ∀ k ∈ tx.versionUpdates, Outside cfg k

theorem RolledUp.outside (h : RolledUp cfg bumpVersion kvdb tx rolled)
    (avoids : tx.AvoidsQueue cfg) : ∀ u ∈ rolled.updates, Outside cfg u.1 := by
  obtain ⟨versions, hupdates, -, honly⟩ := h.updates
  rw [hupdates]
  intro u hu
  rcases List.mem_append.1 hu with hu | hu
  · exact avoids.1 u hu
  · obtain ⟨k, hk, hkey, -⟩ := honly u hu
    rw [hkey]
    exact outside_versionKey (avoids.2 k hk)

theorem foldl_headStep_toTx (rolled : RollUpTransaction) (replies : List Bytes) (head : ℕ) :
    (rolled.toTx cfg replies).actions.foldl (Anchor.headStep cfg) head =
      rolled.queueHead.getD head := by
  have hreplies : ∀ head, (replies.map fun data => cfg.encodeAction (.reply data)).foldl
      (Anchor.headStep cfg) head = head := by
    intro head
    induction replies with
    | nil => rfl
    | cons data replies ih =>
      simpa [Anchor.headStep, cfg.decode_encodeAction] using ih
  rw [RollUpTransaction.toTx, List.foldl_append, hreplies]
  cases rolled.queueHead with
  | none => rfl
  | some index => simp [Anchor.headStep, cfg.decode_encodeAction]

end Transaction

/-! ## Programs on user keys -/

def UserKey (cfg : Config) (key : Key) : Prop :=
  ¬ cfg.layout.keyPostfix <:+ key ∧ Outside cfg key

def Program.UserKeys (cfg : Config) : Program → Prop
  | done => True
  | get key next => UserKey cfg key ∧ ∀ value, (next value).UserKeys cfg
  | put key _ next => UserKey cfg key ∧ next.UserKeys cfg
  | delete key next => UserKey cfg key ∧ next.UserKeys cfg
  | pop next => ∀ value, (next value).UserKeys cfg

theorem UserKey.ne_versionKey {cfg : Config} {key : Key} (h : UserKey cfg key) (k : Key) :
    key ≠ versionKey cfg k := by
  rintro rfl
  exact h.1 (List.suffix_append _ _)

theorem Program.run_kvdb {T : Type} {cfg : Config} (A : AccessTracking T) (p : Program)
    (o : Outcome T) : (p.run cfg A o).session.kvdb = o.session.kvdb := by
  induction p generalizing o with
  | done => rfl
  | get key next ih =>
    refine (ih _ _).trans ?_
    simp only [Session.get]
    split <;> rfl
  | put key value next ih => exact ih _
  | delete key next ih => exact ih _
  | pop next ih => exact ih _ _

theorem execute_kvdb {T : Type} {cfg : Config} {A : AccessTracking T} {p : Program} {tracker : T}
    {snapshot : Store} {o : Outcome T} (h : p.execute cfg A tracker snapshot = some o) :
    o.session.kvdb = snapshot := by
  obtain ⟨session, hsession, h⟩ := Option.bind_eq_some_iff.1 h
  obtain ⟨queue, -, hqueue⟩ := Option.bind_eq_some_iff.1 hsession
  simp only [pure, Option.some.injEq] at h hqueue
  subst h hqueue
  exact p.run_kvdb A _

def startOutcome {T : Type} (snapshot : Store) (tracker : T) (head tail : ℕ) : Outcome T where
  session :=
    { kvdb := snapshot, tracker := tracker, updates := []
      queue := { head := head, tail := tail, popped := false } }
  reads := []
  popped := []

theorem execute_eq_run {T : Type} {cfg : Config} (A : AccessTracking T) {snapshot : Store}
    {head tail : ℕ} {content : ℕ → Value} (hqueue : Queue cfg snapshot head tail content)
    (p : Program) (tracker : T) :
    p.execute cfg A tracker snapshot =
      some (p.run cfg A (startOutcome snapshot tracker head tail)) := by
  have hle : ¬ tail < head := not_lt.2 hqueue.le
  simp only [Program.execute, Session.new, QueueInfo.new, hqueue.headCell, hqueue.tailCell, hle,
    Option.bind_eq_bind, Option.bind_some, if_false, pure]
  rfl

structure Tracked (cfg : Config) (trackWrite : Bool) (o : Outcome AccessTracker) : Prop where
  reads : ∀ r ∈ o.reads, r.1 ∈ o.session.tracker.track ∧ r.2 = o.session.kvdb r.1
  trackUser : ∀ k ∈ o.session.tracker.track, UserKey cfg k
  updates : ∀ u ∈ o.session.updates, u.1 ∈ o.session.tracker.writes
  writes : ∀ k ∈ o.session.tracker.writes, UserKey cfg k
  accessed : trackWrite = true → ∀ k ∈ o.session.tracker.writes, k ∈ o.session.tracker.track

theorem Tracked.get {cfg : Config} {trackWrite : Bool} {o : Outcome AccessTracker} {key : Key}
    (h : Tracked cfg trackWrite o) (user : UserKey cfg key) :
    Tracked cfg trackWrite { o with
      session := (o.session.get (AccessTracker.tracking trackWrite) key).2
      reads := if (o.session.updates.lookup key).isSome then o.reads
        else o.reads ++ [(key, (o.session.get (AccessTracker.tracking trackWrite) key).1)] } := by
  unfold Session.get
  cases o.session.updates.lookup key with
  | some value => exact h
  | none =>
    have hkeep : ∀ k ∈ o.session.tracker.track, k ∈ o.session.tracker.track.insert key :=
      fun k hk => List.mem_insert_of_mem hk
    constructor
    case reads =>
      intro r hr
      rcases List.mem_append.1 hr with hr | hr
      · exact ⟨hkeep _ (h.reads r hr).1, (h.reads r hr).2⟩
      · rw [List.mem_singleton.1 hr]
        exact ⟨List.mem_insert_self, rfl⟩
    case trackUser =>
      intro k hk
      rcases List.mem_insert_iff.1 hk with rfl | hk
      · exact user
      · exact h.trackUser k hk
    case updates => exact h.updates
    case writes => exact h.writes
    case accessed => exact fun htrack k hk => hkeep k (h.accessed htrack k hk)

theorem Tracked.update {cfg : Config} {trackWrite : Bool} {o : Outcome AccessTracker} {key : Key}
    (h : Tracked cfg trackWrite o) (user : UserKey cfg key) (value : Option Value) :
    Tracked cfg trackWrite
      { o with session := o.session.update (AccessTracker.tracking trackWrite) key value } := by
  have hkeep : ∀ k ∈ o.session.tracker.track,
      k ∈ if trackWrite then o.session.tracker.track.insert key else o.session.tracker.track := by
    intro k hk
    split
    · exact List.mem_insert_of_mem hk
    · exact hk
  constructor
  case reads => exact fun r hr => ⟨hkeep _ (h.reads r hr).1, (h.reads r hr).2⟩
  case trackUser =>
    intro k hk
    simp only [Session.update, AccessTracker.tracking] at hk
    split at hk
    · rcases List.mem_insert_iff.1 hk with rfl | hk
      · exact user
      · exact h.trackUser k hk
    · exact h.trackUser k hk
  case updates =>
    intro u hu
    rcases List.mem_cons.1 hu with rfl | hu
    · exact List.mem_insert_self
    · exact List.mem_insert_of_mem (h.updates u (List.mem_of_mem_filter hu))
  case writes =>
    intro k hk
    rcases List.mem_insert_iff.1 hk with rfl | hk
    · exact user
    · exact h.writes k hk
  case accessed =>
    rintro rfl k hk
    rcases List.mem_insert_iff.1 hk with rfl | hk
    · exact List.mem_insert_self
    · exact hkeep k (h.accessed rfl k hk)

theorem Program.run_tracked {cfg : Config} {trackWrite : Bool} (p : Program)
    (user : p.UserKeys cfg) {o : Outcome AccessTracker} (h : Tracked cfg trackWrite o) :
    Tracked cfg trackWrite (p.run cfg (AccessTracker.tracking trackWrite) o) := by
  induction p generalizing o with
  | done => exact h
  | get key next ih => exact ih _ (user.2 _) (h.get user.1)
  | put key value next ih => exact ih user.2 (h.update user.1 (some value))
  | delete key next ih => exact ih user.2 (h.update user.1 none)
  | pop next ih => exact ih _ (user _) ⟨h.reads, h.trackUser, h.updates, h.writes, h.accessed⟩

theorem execute_tracked {cfg : Config} {trackWrite : Bool} {p : Program} (user : p.UserKeys cfg)
    {snapshot : Store} {o : Outcome AccessTracker}
    (h : p.execute cfg (AccessTracker.tracking trackWrite) {} snapshot = some o) :
    Tracked cfg trackWrite o := by
  obtain ⟨session, hsession, h⟩ := Option.bind_eq_some_iff.1 h
  obtain ⟨queue, -, hqueue⟩ := Option.bind_eq_some_iff.1 hsession
  simp only [pure, Option.some.injEq] at h hqueue
  subst h hqueue
  apply p.run_tracked user
  constructor <;> simp

namespace World

variable {T : Type} (S : Setting T)

def store (w : World T) : Store := w.anchor.states S.name

def storeAt (w : World T) (age : ℕ) : Store :=
  (((w.anchor :: w.past)[age]?).getD w.anchor).states S.name

def submit (w : World T) (s : Submission T) (snapshot : Store) : World T :=
  match s.program.execute S.cfg S.tracking s.tracker snapshot with
  | none => w
  | some outcome =>
    match rollupTransaction S.cfg S.bumpVersion snapshot
        (outcome.session.commit S.cfg S.tracking) with
    | none => w
    | some tx =>
      match Anchor.rollup S.cfg S.owner S.name (tx.toTx S.cfg s.replies) w.anchor with
      | .error _ => w
      | .ok (_, a) =>
        { w with
          anchor := a
          past := w.anchor :: w.past
          accepted := w.accepted ++ [⟨s, snapshot, w.store S, outcome⟩] }

def push (w : World T) (data : Value) : World T :=
  match Anchor.pushMessage S.cfg S.name data w.anchor with
  | .error _ => w
  | .ok (_, a) => { w with anchor := a, past := w.anchor :: w.past, pushed := w.pushed ++ [data] }

def step (w : World T) : Step T → World T
  | .rollup s age => w.submit S s (w.storeAt S age)
  | .push data => w.push S data

def run (w : World T) (steps : List (Step T)) : World T := steps.foldl (step S) w

variable {S} {w : World T}

theorem storeAt_mem (w : World T) (age : ℕ) :
    ∃ a ∈ w.anchor :: w.past, w.storeAt S age = a.states S.name := by
  unfold storeAt
  cases h : (w.anchor :: w.past)[age]? with
  | none => exact ⟨w.anchor, List.mem_cons_self, rfl⟩
  | some a => exact ⟨a, List.mem_of_getElem? h, rfl⟩


/-! ### What a step does -/

structure Commits (S : Setting T) (s : Submission T) (snapshot : Store) (outcome : Outcome T)
    (rolled : RollUpTransaction) (a a' : Anchor) : Prop where
  executed : s.program.execute S.cfg S.tracking s.tracker snapshot = some outcome
  rolledUp : rollupTransaction S.cfg S.bumpVersion snapshot
    (outcome.session.commit S.cfg S.tracking) = some rolled
  accepted : Anchor.rollup S.cfg S.owner S.name (rolled.toTx S.cfg s.replies) a = .ok ((), a')

def afterRollup (S : Setting T) (w : World T) (s : Submission T) (snapshot : Store)
    (outcome : Outcome T) (a : Anchor) : World T :=
  { w with
    anchor := a
    past := w.anchor :: w.past
    accepted := w.accepted ++ [⟨s, snapshot, w.store S, outcome⟩] }

theorem submit_cases (w : World T) (s : Submission T) (snapshot : Store) :
    w.submit S s snapshot = w ∨ ∃ outcome rolled a,
      Commits S s snapshot outcome rolled w.anchor a ∧
      w.submit S s snapshot = w.afterRollup S s snapshot outcome a := by
  unfold submit
  split
  · exact .inl rfl
  · rename_i outcome hexecuted
    split
    · exact .inl rfl
    · rename_i rolled hrolled
      split
      · exact .inl rfl
      · rename_i a haccepted
        exact .inr ⟨outcome, rolled, a, ⟨hexecuted, hrolled, haccepted⟩, rfl⟩

def AvoidsQueue (S : Setting T) (s : Submission T) : Prop :=
  ∀ snapshot outcome, s.program.execute S.cfg S.tracking s.tracker snapshot = some outcome →
    (outcome.session.commit S.cfg S.tracking).AvoidsQueue S.cfg

structure OnUserKeys (S : Setting AccessTracker) (s : Submission AccessTracker) : Prop where
  user : s.program.UserKeys S.cfg
  fresh : s.tracker = {}

theorem OnUserKeys.tracked {S : Setting AccessTracker} {trackWrite : Bool}
    (hS : S.tracking = AccessTracker.tracking trackWrite) {s : Submission AccessTracker}
    (h : OnUserKeys S s) {snapshot : Store} {outcome : Outcome AccessTracker}
    (executed : s.program.execute S.cfg S.tracking s.tracker snapshot = some outcome) :
    Tracked S.cfg trackWrite outcome := by
  rw [hS, h.fresh] at executed
  exact execute_tracked h.user executed

theorem OnUserKeys.avoidsQueue {S : Setting AccessTracker} {trackWrite : Bool}
    (hS : S.tracking = AccessTracker.tracking trackWrite) {s : Submission AccessTracker}
    (h : OnUserKeys S s) : AvoidsQueue S s := by
  intro snapshot outcome executed
  have tracked := h.tracked hS executed
  have hwrites : (outcome.session.commit S.cfg S.tracking).versionUpdates =
      outcome.session.tracker.writes := by
    rw [hS]
    rfl
  refine ⟨fun u hu => (tracked.writes _ (tracked.updates u hu)).2, fun k hk => ?_⟩
  rw [hwrites] at hk
  exact (tracked.writes k hk).2

structure Effect (S : Setting T) (snapshot : Store) (outcome : Outcome T)
    (rolled : RollUpTransaction) (before after : Store) : Prop where
  accessed : ∀ k ∈ (outcome.session.commit S.cfg S.tracking).accessedKeys,
    before (versionKey S.cfg k) = snapshot (versionKey S.cfg k)
  lock : outcome.session.queue.popped = true →
    before (queueKey S.cfg headIndex) = snapshot (queueKey S.cfg headIndex)
  outside : ∀ key, Outside S.cfg key → after key = before.applyUpdates rolled.updates key

variable {s : Submission T} {snapshot : Store} {outcome : Outcome T} {rolled : RollUpTransaction}
  {a a' : Anchor} {head tail : ℕ} {content : ℕ → Value}

theorem Commits.effect (h : Commits S s snapshot outcome rolled a a') (avoids : AvoidsQueue S s)
    (queue : Queue S.cfg (a.states S.name) head tail content) :
    Effect S snapshot outcome rolled (a.states S.name) (a'.states S.name) ∧
      head ≤ rolled.queueHead.getD head ∧
      Queue S.cfg (a'.states S.name) (rolled.queueHead.getD head) tail content := by
  have hrolled := rolledUp_of_eq_some h.rolledUp
  have houtside := hrolled.outside (avoids snapshot outcome h.executed)
  have hsat := Anchor.sat_rollup queue S.owner (rolled.toTx S.cfg s.replies) houtside
  obtain ⟨hconds, moves, hle, hqueue⟩ := hsat.of_ok h.accepted
  rw [foldl_headStep_toTx] at hle hqueue
  have hcond : ∀ key value, (key, value) ∈ rolled.conditions → a.states S.name key = value :=
    fun key value hmem => hconds _ (List.mem_map.2 ⟨(key, value), hmem, rfl⟩)
  refine ⟨⟨?_, ?_, ?_⟩, hle, hqueue⟩
  · exact fun k hk => hcond _ _ (hrolled.accessed k hk)
  · intro popped
    apply hcond
    apply hrolled.lock
    simp [Session.commit, popped]
  · intro key hkey
    rw [moves.outside key hkey, Anchor.modifyStore_states_self]
    rfl

/-! ### The queue over time -/

structure Queues (S : Setting T) (first : ℕ) (w : World T) (head : ℕ) (content : ℕ → Value) :
    Prop where
  queue : Queue S.cfg (w.store S) head (first + w.pushed.length) content
  past : ∀ a ∈ w.past, ∃ h t, h ≤ head ∧ first ≤ t ∧ t ≤ first + w.pushed.length ∧
    Queue S.cfg (a.states S.name) h t content

variable {first : ℕ}

theorem Queues.storeAt (h : Queues S first w head content) (age : ℕ) :
    ∃ h t, h ≤ head ∧ first ≤ t ∧ t ≤ first + w.pushed.length ∧
      Queue S.cfg (w.storeAt S age) h t content := by
  obtain ⟨a, ha, hstore⟩ := storeAt_mem (S := S) w age
  rw [hstore]
  rcases List.mem_cons.1 ha with rfl | ha
  · exact ⟨head, first + w.pushed.length, le_rfl, Nat.le_add_right _ _, le_rfl, h.queue⟩
  · exact h.past a ha

theorem Queues.afterRollup (h : Queues S first w head content)
    (commits : Commits S s snapshot outcome rolled w.anchor a) (avoids : AvoidsQueue S s) :
    Queues S first (w.afterRollup S s snapshot outcome a) (rolled.queueHead.getD head) content := by
  obtain ⟨-, hle, hqueue⟩ := commits.effect avoids h.queue
  refine ⟨hqueue, fun b hb => ?_⟩
  rcases List.mem_cons.1 hb with rfl | hb
  · exact ⟨head, first + w.pushed.length, hle, Nat.le_add_right _ _, le_rfl, h.queue⟩
  · obtain ⟨h', t', hh, ht, ht', hqueue'⟩ := h.past b hb
    exact ⟨h', t', hh.trans hle, ht, ht', hqueue'⟩

theorem push_accepted (w : World T) (data : Value) : (w.push S data).accepted = w.accepted := by
  unfold World.push
  split <;> rfl

theorem Queues.push (h : Queues S first w head content) (data : Value) :
    w.push S data = w ∨
      (w.push S data).pushed = w.pushed ++ [data] ∧
      (w.push S data).accepted = w.accepted ∧
      (w.push S data).past = w.anchor :: w.past ∧
      (∀ key, Outside S.cfg key → (w.push S data).store S key = w.store S key) ∧
      Queues S first (w.push S data) head
        (Function.update content (first + w.pushed.length) data) := by
  unfold World.push
  split
  · exact .inl rfl
  · rename_i a run
    obtain ⟨-, rfl⟩ := (Anchor.sat_pushMessage h.queue data).of_ok run
    refine .inr ⟨rfl, rfl, rfl, fun key hkey => ?_, ?_, fun b hb => ?_⟩
    · unfold store
      rw [Anchor.modifyStore_states_self, queueSetU32, queueSet,
        Function.update_of_ne (hkey.ne_queueKey _), queueSet]
      exact Function.update_of_ne (hkey.ne_queueKey _) _ _
    · unfold store
      rw [Anchor.modifyStore_states_self, List.length_append, List.length_singleton,
        ← Nat.add_assoc]
      exact h.queue.push data
    · have hsame : ∀ i, i < first + w.pushed.length →
          Function.update content (first + w.pushed.length) data i = content i :=
        fun i hi => Function.update_of_ne (by omega) _ _
      simp only [List.length_append, List.length_singleton]
      rcases List.mem_cons.1 hb with rfl | hb
      · exact ⟨head, _, le_rfl, Nat.le_add_right _ _, by omega, h.queue.congr_content hsame⟩
      · obtain ⟨h', t', hh, ht, ht', hqueue⟩ := h.past b hb
        exact ⟨h', t', hh, ht, by omega, hqueue.congr_content fun i hi => hsame i (by omega)⟩

def mockSetting (tracking : AccessTracking AccessTracker) : Setting AccessTracker where
  cfg := mockConfig
  bumpVersion v := some (0 :: v.getD [])
  tracking := tracking
  owner := 1
  name := 1

def mockWorld : World AccessTracker where
  anchor := { submitterByNames := fun _ => some 1 }

end World

end Cyrux.Rollup
