import Cyrux.Rollup.Queue

/-!
# Sessions

`crates/pink-libs/kv-session/src/session.rs`
-/

namespace Cyrux.Rollup

variable (cfg : Config)

/-! ## Trackers -/

structure AccessTracking (T : Type) where
  read : T → Key → T
  write : T → Key → T
  /-- The access list and the version updates. -/
  collectInto : T → List Key × List Key

structure OneLock where
  lockKey : Key
  writeLock : Bool

def OneLock.tracking : AccessTracking OneLock where
  read t _ := t
  write t _ := t
  collectInto t := ([t.lockKey], if t.writeLock then [t.lockKey] else [])

structure AccessTracker where
  track : List Key := []
  writes : List Key := []

def AccessTracker.tracking (trackWrite : Bool) : AccessTracking AccessTracker where
  read t key := { t with track := t.track.insert key }
  write t key :=
    { writes := t.writes.insert key
      track := if trackWrite then t.track.insert key else t.track }
  collectInto t := (t.track, t.writes)

def readTracker : AccessTracking AccessTracker := AccessTracker.tracking false

def rwTracker : AccessTracking AccessTracker := AccessTracker.tracking true

/-! ## Sessions -/

structure QueueInfo where
  /-- The position of the first pushed message. -/
  head : ℕ
  /-- The position to push the next message. -/
  tail : ℕ
  popped : Bool
deriving DecidableEq

def QueueInfo.new (snapshot : Store) : Option QueueInfo := do
  let head ← snapshot.queueGetU32 cfg headIndex
  let tail ← snapshot.queueGetU32 cfg tailIndex
  if tail < head then none else some { head := head, tail := tail, popped := false }

def QueueInfo.pop (q : QueueInfo) (kvdb : Store) : Option Value × QueueInfo :=
  if q.head = q.tail then (none, q)
  else (kvdb (Store.entryKey cfg q.head), { q with popped := true, head := q.head + 1 })

structure Session (T : Type) where
  kvdb : Store
  tracker : T
  updates : List (Key × Option Value)
  queue : QueueInfo

structure KvTransaction where
  accessedKeys : List Key
  versionUpdates : List Key
  valueUpdates : List (Key × Option Value)
  queueHead : Option ℕ
  queueLock : Option Key

namespace Session

variable {T : Type} (A : AccessTracking T)

def new (kvdb : Store) (tracker : T) : Option (Session T) := do
  let queue ← QueueInfo.new cfg kvdb
  pure { kvdb := kvdb, tracker := tracker, updates := [], queue := queue }

def commit (s : Session T) : KvTransaction where
  accessedKeys := (A.collectInto s.tracker).1
  versionUpdates := (A.collectInto s.tracker).2
  valueUpdates := s.updates
  queueHead := if s.queue.popped then some s.queue.head else none
  queueLock := if s.queue.popped then some (Store.queueKey cfg headIndex) else none

def get (s : Session T) (key : Key) : Option Value × Session T :=
  match s.updates.lookup key with
  | some val => (val, s)
  | none => (s.kvdb key, { s with tracker := A.read s.tracker key })

def update (s : Session T) (key : Key) (value : Option Value) : Session T :=
  { s with
    tracker := A.write s.tracker key
    updates := (key, value) :: s.updates.filter fun u => u.1 ≠ key }

def put (s : Session T) (key : Key) (value : Value) : Session T := s.update A key (some value)

def delete (s : Session T) (key : Key) : Session T := s.update A key none

def pop (s : Session T) : Option Value × Session T :=
  let r := s.queue.pop cfg s.kvdb
  (r.1, { s with queue := r.2 })

end Session

/-! ## Rolling up -/

structure RollUpTransaction where
  conditions : List (Key × Option Value)
  updates : List (Key × Option Value)
  queueHead : Option ℕ

def versionKey (key : Key) : Key := key ++ cfg.layout.keyPostfix

def rollupTransaction (bumpVersion : Option Value → Option Value) (kvdb : Store)
    (tx : KvTransaction) : Option RollUpTransaction := do
  let versionUpdates ← tx.versionUpdates.mapM fun k => do
    let version ← bumpVersion (kvdb (versionKey cfg k))
    pure (versionKey cfg k, some version)
  pure
    { conditions := (tx.accessedKeys.map fun k => (versionKey cfg k, kvdb (versionKey cfg k))) ++
        tx.queueLock.toList.map fun lock => (lock, kvdb lock)
      updates := tx.valueUpdates ++ versionUpdates
      queueHead := tx.queueHead }

def RollUpTransaction.toTx (tx : RollUpTransaction) (replies : List Bytes) : RollupTx where
  conds := tx.conditions.map fun c => .eq c.1 c.2
  actions := tx.queueHead.toList.map (fun head => cfg.encodeAction (.setQueueHead head)) ++
    replies.map fun data => cfg.encodeAction (.reply data)
  updates := tx.updates

/-! ## Programs -/

inductive Program
  | done
  | get (key : Key) (next : Option Value → Program)
  | put (key : Key) (value : Value) (next : Program)
  | delete (key : Key) (next : Program)
  | pop (next : Option Value → Program)

structure Outcome (T : Type) where
  session : Session T
  reads : List (Key × Option Value)
  popped : List (Option Value)

namespace Program

variable {T : Type} (A : AccessTracking T)

def run : Program → Outcome T → Outcome T
  | done, o => o
  | get key next, o =>
    let r := o.session.get A key
    let reads := if (o.session.updates.lookup key).isSome then o.reads else o.reads ++ [(key, r.1)]
    (next r.1).run { o with session := r.2, reads := reads }
  | put key value next, o => next.run { o with session := o.session.put A key value }
  | delete key next, o => next.run { o with session := o.session.delete A key }
  | pop next, o =>
    let r := o.session.pop cfg
    let popped := if o.session.queue.head = o.session.queue.tail then o.popped
      else o.popped ++ [r.1]
    (next r.1).run { o with session := r.2, popped := popped }

def execute (program : Program) (tracker : T) (snapshot : Store) : Option (Outcome T) := do
  let session ← Session.new cfg snapshot tracker
  pure (program.run cfg A { session := session, reads := [], popped := [] })

def transaction (bumpVersion : Option Value → Option Value) (program : Program) (tracker : T)
    (replies : List Bytes) (snapshot : Store) : Option RollupTx := do
  let outcome ← program.execute cfg A tracker snapshot
  let tx ← rollupTransaction cfg bumpVersion snapshot (outcome.session.commit cfg A)
  pure (tx.toTx cfg replies)

end Program

end Cyrux.Rollup
