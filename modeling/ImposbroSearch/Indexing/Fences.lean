import ImposbroSearch.Foundation.Runs
import ImposbroSearch.Foundation.Utf8
import Mathlib.Data.List.Dedup
import Mathlib.Data.List.Lex
import Mathlib.Data.List.Sort
import Mathlib.Logic.Relation
import Mathlib.Order.WithBot

/-!
# Fences

An event is processed while its checkpoints are fenced. In one process the fences are locks
of a registry, which counts the users of each lock and drops the lock with the last one; the
registry is guarded by a lock of its own. Workers of different processes take advisory locks
of the database, whose keys are the first 64 bits of the checkpoint ids, and these are
released when the transaction ends.

Threads and workers are interleaved line by line. A lock that is not free is waited for, and
waiting ends in an exception at any time.
-/

namespace ImposbroSearch.Indexing

open ImposbroSearch.Foundation

/-! ## Checkpoint ids -/

/-- What of an event determines its fences. -/
structure FencedEvent where
  logicalKey : Text
  targetClusters : List Text
  deriving DecidableEq, Repr

section Keys

variable (hash : List ℕ → Text)

/-- `checkpoint_id`; an identity that is not Unicode is an exception. -/
def checkpointId (event : FencedEvent) (targetCluster : Text) : Option Text :=
  (utf8Encode (event.logicalKey ++ [31] ++ targetCluster)).map hash

/-- `sorted` -/
def sortedKeys (keys : List Text) : List Text := keys.insertionSort (· ≤ ·)

/-- `event_checkpoint_keys` -/
def eventCheckpointKeys (event : FencedEvent) : Option (List Text) :=
  (event.targetClusters.mapM (checkpointId hash event)).map sortedKeys

end Keys

/-- The number of a digit, of lower case. -/
def digestDigit (c : ℕ) : ℕ := if c < 58 then c - 48 else c - 87

/-- `int(digits, 16)` -/
def digestNumber (digits : Text) : ℕ := digits.foldl (fun n c => 16 * n + digestDigit c) 0

/-- `advisory_lock_key` -/
def advisoryLockKey (checkpointKey : Text) : ℤ :=
  let unsigned := digestNumber (checkpointKey.take 16)
  if 2 ^ 63 ≤ unsigned then (unsigned : ℤ) - 2 ^ 64 else unsigned

/-! ## The registry of a process -/

/-- A key and its entry, which is numbered. -/
abbrev FenceEntry := Text × ℕ

/-- Where a thread is in `hold`. -/
inductive ThreadState where
  | idle
  /-- It waits for the guard. -/
  | entering (event : FencedEvent) (keys : List Text)
  /-- It has the guard, and entries for some of its keys. -/
  | registering (event : FencedEvent) (entries : List FenceEntry) (keys : List Text)
  | acquiring (event : FencedEvent) (acquired remaining : List FenceEntry)
  /-- It processes its event. -/
  | inside (event : FencedEvent) (entries : List FenceEntry)
  | releasing (entries acquired : List FenceEntry)
  /-- It waits for the guard again. -/
  | leaving (entries : List FenceEntry)
  /-- It has the guard again. -/
  | unregistering (entries : List FenceEntry)

namespace ThreadState

/-- The entries that count the thread as a user. -/
def entries : ThreadState → List FenceEntry
  | .idle => []
  | .entering _ _ => []
  | .registering _ entries _ => entries
  | .acquiring _ acquired remaining => acquired ++ remaining
  | .inside _ entries => entries
  | .releasing entries _ => entries
  | .leaving entries => entries
  | .unregistering entries => entries

/-- The entries whose locks the thread has. -/
def held : ThreadState → List FenceEntry
  | .acquiring _ acquired _ => acquired
  | .inside _ entries => entries
  | .releasing _ acquired => acquired
  | _ => []

/-- The keys that are not registered yet. -/
def unregistered : ThreadState → List Text
  | .entering _ keys => keys
  | .registering _ _ keys => keys
  | _ => []

def InGuard : ThreadState → Prop
  | .registering _ _ _ => True
  | .unregistering _ => True
  | _ => False

def AwaitsGuard : ThreadState → Prop
  | .entering _ _ => True
  | .leaving _ => True
  | _ => False

/-- The event that the thread fences. -/
def event : ThreadState → Option FencedEvent
  | .entering event _ => some event
  | .registering event _ _ => some event
  | .acquiring event _ _ => some event
  | .inside event _ => some event
  | _ => none

/-- The entry whose lock is next. -/
def next : ThreadState → Option FenceEntry
  | .acquiring _ _ (entry :: _) => some entry
  | _ => none

end ThreadState

/-- `_DeterministicLockRegistry`, and its threads. The entries are objects: the dict maps a
key to one, whose users are counted and whose lock a thread owns a number of times. -/
structure LockRegistry (Thread : Type) where
  entries : Text → Option ℕ
  users : ℕ → ℕ
  owner : ℕ → Option (Thread × ℕ)
  created : ℕ
  guard : Option Thread
  threads : Thread → ThreadState

inductive HoldAction where
  /-- `hold` is called for an event. -/
  | hold (event : FencedEvent)
  /-- The next line. -/
  | proceed
  /-- An exception while a lock is waited for: the time is up, or another one. -/
  | interrupt
  /-- The event is processed, or its processing failed. -/
  | finish
  deriving DecidableEq, Repr

namespace LockRegistry

variable {Thread : Type} [DecidableEq Thread] (hash : List ℕ → Text)

def empty : LockRegistry Thread where
  entries := fun _ => none
  users := fun _ => 0
  owner := fun _ => none
  created := 0
  guard := none
  threads := fun _ => .idle

def goOn (registry : LockRegistry Thread) (thread : Thread) (state : ThreadState) :
    LockRegistry Thread :=
  { registry with threads := Function.update registry.threads thread state }

/-- One round of the first loop of `hold`. -/
def register (registry : LockRegistry Thread) (key : Text) : LockRegistry Thread × ℕ :=
  match registry.entries key with
  | none =>
    ({ registry with
        entries := Function.update registry.entries key (some registry.created)
        users := Function.update registry.users registry.created 1
        created := registry.created + 1 },
      registry.created)
  | some entry =>
    ({ registry with users := Function.update registry.users entry (registry.users entry + 1) },
      entry)

/-- One round of the last loop of `hold`. -/
def unregister (registry : LockRegistry Thread) (entry : FenceEntry) : LockRegistry Thread :=
  let left := registry.users entry.2 - 1
  { registry with
    users := Function.update registry.users entry.2 left
    entries := if left = 0 then Function.update registry.entries entry.1 none else registry.entries }

/-- `RLock.acquire`, if the lock is free or the thread's own. -/
def acquire (registry : LockRegistry Thread) (thread : Thread) (entry : ℕ) :
    Option (LockRegistry Thread) :=
  match registry.owner entry with
  | none => some { registry with owner := Function.update registry.owner entry (some (thread, 1)) }
  | some (owner, count) =>
    if owner = thread then
      some { registry with owner := Function.update registry.owner entry (some (thread, count + 1)) }
    else none

/-- `RLock.release` -/
def release (registry : LockRegistry Thread) (entry : ℕ) : LockRegistry Thread :=
  match registry.owner entry with
  | none => registry
  | some (owner, count) =>
    { registry with
      owner := Function.update registry.owner entry (if count = 1 then none else some (owner, count - 1)) }

/-- The next line of a thread. -/
def proceed (registry : LockRegistry Thread) (thread : Thread) : LockRegistry Thread :=
  match registry.threads thread with
  | .idle => registry
  | .entering event keys =>
    if registry.guard = none then
      { registry.goOn thread (.registering event [] keys) with guard := some thread }
    else registry
  | .registering event entries (key :: keys) =>
    let (registry, entry) := registry.register key
    registry.goOn thread (.registering event (entries ++ [(key, entry)]) keys)
  | .registering event entries [] =>
    { registry.goOn thread (.acquiring event [] entries) with guard := none }
  | .acquiring event acquired (entry :: remaining) =>
    match registry.acquire thread entry.2 with
    | some registry => registry.goOn thread (.acquiring event (acquired ++ [entry]) remaining)
    | none => registry
  | .acquiring event acquired [] => registry.goOn thread (.inside event acquired)
  | .inside _ _ => registry
  | .releasing entries (entry :: acquired) =>
    (registry.release entry.2).goOn thread (.releasing entries acquired)
  | .releasing entries [] => registry.goOn thread (.leaving entries)
  | .leaving entries =>
    if registry.guard = none then
      { registry.goOn thread (.unregistering entries) with guard := some thread }
    else registry
  | .unregistering (entry :: entries) =>
    (registry.unregister entry).goOn thread (.unregistering entries)
  | .unregistering [] => { registry.goOn thread .idle with guard := none }

def step (registry : LockRegistry Thread) : Thread × HoldAction → LockRegistry Thread
  | (thread, .hold event) =>
    match registry.threads thread, eventCheckpointKeys hash event with
    | .idle, some keys => registry.goOn thread (.entering event (sortedKeys keys.dedup))
    | _, _ => registry
  | (thread, .proceed) => registry.proceed thread
  | (thread, .interrupt) =>
    match registry.threads thread with
    | .acquiring _ acquired remaining =>
      registry.goOn thread (.releasing (acquired ++ remaining) acquired.reverse)
    | _ => registry
  | (thread, .finish) =>
    match registry.threads thread with
    | .inside _ entries => registry.goOn thread (.releasing entries entries.reverse)
    | _ => registry

/-- A thread waits for a lock that the other one has, or for the guard. -/
def WaitsFor (registry : LockRegistry Thread) (thread other : Thread) : Prop :=
  (∃ entry count, (registry.threads thread).next = some entry ∧
    registry.owner entry.2 = some (other, count) ∧ other ≠ thread) ∨
  (registry.threads thread).AwaitsGuard ∧ registry.guard = some other

end LockRegistry

/-! ## Advisory locks of the database -/

/-- Where a worker is in `event_scope`. -/
inductive SessionState where
  | idle
  | locking (event : FencedEvent) (locked remaining : List Text)
  /-- It processes its event. -/
  | inside (event : FencedEvent) (locked : List Text)

namespace SessionState

/-- The checkpoint keys whose advisory locks the session has. -/
def locked : SessionState → List Text
  | .idle => []
  | .locking _ locked _ => locked
  | .inside _ locked => locked

def next : SessionState → Option Text
  | .locking _ _ (key :: _) => some key
  | _ => none

end SessionState

structure AdvisoryLocks (Worker : Type) where
  owner : ℤ → Option Worker
  sessions : Worker → SessionState

inductive ScopeAction where
  | scope (event : FencedEvent)
  /-- The next lock, if it is free or the session's own. -/
  | lock
  /-- An exception before the scope is entered: the lock timeout, or another one. -/
  | fail
  /-- The scope ends; its transaction is committed or rolled back. -/
  | finish
  deriving DecidableEq, Repr

namespace AdvisoryLocks

variable {Worker : Type} [DecidableEq Worker] (hash : List ℕ → Text)

def empty : AdvisoryLocks Worker where
  owner := fun _ => none
  sessions := fun _ => .idle

def goOn (locks : AdvisoryLocks Worker) (worker : Worker) (session : SessionState) :
    AdvisoryLocks Worker :=
  { locks with sessions := Function.update locks.sessions worker session }

/-- The end of a transaction releases its locks. -/
def endTransaction (locks : AdvisoryLocks Worker) (worker : Worker) : AdvisoryLocks Worker :=
  { locks.goOn worker .idle with
    owner := fun key => if locks.owner key = some worker then none else locks.owner key }

def step (locks : AdvisoryLocks Worker) : Worker × ScopeAction → AdvisoryLocks Worker
  | (worker, .scope event) =>
    match locks.sessions worker, eventCheckpointKeys hash event with
    | .idle, some keys => locks.goOn worker (.locking event [] (sortedKeys keys))
    | _, _ => locks
  | (worker, .lock) =>
    match locks.sessions worker with
    | .locking event locked (key :: remaining) =>
      if locks.owner (advisoryLockKey key) = none ∨
          locks.owner (advisoryLockKey key) = some worker then
        { locks.goOn worker (.locking event (locked ++ [key]) remaining) with
          owner := Function.update locks.owner (advisoryLockKey key) (some worker) }
      else locks
    | .locking event locked [] => locks.goOn worker (.inside event locked)
    | _ => locks
  | (worker, .fail) =>
    match locks.sessions worker with
    | .locking _ _ _ => locks.endTransaction worker
    | _ => locks
  | (worker, .finish) =>
    match locks.sessions worker with
    | .inside _ _ => locks.endTransaction worker
    | _ => locks

/-- A session waits for a lock that the other one has. -/
def WaitsFor (locks : AdvisoryLocks Worker) (worker other : Worker) : Prop :=
  ∃ key, (locks.sessions worker).next = some key ∧
    locks.owner (advisoryLockKey key) = some other ∧ other ≠ worker

end AdvisoryLocks

end ImposbroSearch.Indexing
