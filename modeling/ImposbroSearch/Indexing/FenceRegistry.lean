import ImposbroSearch.Foundation.Checks
import ImposbroSearch.Indexing.Fences

/-!
# The registry of fences

A lock of the registry is dropped with its last user. Every thread that has a key or waits
for it is a user of the one entry of the key, so these threads share its lock.

Each line of `hold` changes one of three things: the guard, the users of an entry, or the
owner of a lock. What holds of the other two depends on the threads by what they have only.
-/

namespace ImposbroSearch.Indexing

open ImposbroSearch.Foundation

/-- **Waiting in ascending order does not close.** Whoever is waited for and waits itself
has a higher rank. -/
theorem acyclic_of_ascending {Agent Rank : Type*} [Preorder Rank] {waits : Agent → Agent → Prop}
    (rank : Agent → Rank)
    (ascends : ∀ first second third, waits first second → waits second third →
      rank first < rank second) (agent : Agent) : ¬Relation.TransGen waits agent agent := by
  have along : ∀ {first second}, Relation.TransGen waits first second →
      ∀ third, waits second third → rank first < rank second := by
    intro first second chain
    induction chain with
    | single here => exact fun third onward => ascends _ _ third here onward
    | tail _ here ih => exact fun third onward => (ih _ here).trans (ascends _ _ third here onward)
  intro chain
  obtain ⟨next, onward, _⟩ := Relation.TransGen.head'_iff.mp chain
  exact lt_irrefl _ (along chain next onward)

/-- What every agent has stays, if it is the same in the new state of one. -/
theorem update_congr {Agent State α : Type*} [DecidableEq Agent] {states : Agent → State}
    {agent : Agent} {state : State} (part : State → α) (same : part state = part (states agent))
    (other : Agent) : part (Function.update states agent state other) = part (states other) := by
  by_cases here : other = agent
  · subst here
    rw [Function.update_self, same]
  · rw [Function.update_of_ne here]

theorem update_all {Agent State : Type*} [DecidableEq Agent] {states : Agent → State}
    {agent : Agent} {state : State} {holds : State → Prop} (every : ∀ other, holds (states other))
    (here : holds state) (other : Agent) : holds (Function.update states agent state other) := by
  by_cases same : other = agent
  · subst same
    rwa [Function.update_self]
  · rw [Function.update_of_ne same]
    exact every other

/-! ## Keys -/

theorem sortedKeys_perm (keys : List Text) : (sortedKeys keys).Perm keys :=
  List.perm_insertionSort _ _

theorem sortedKeys_sorted (keys : List Text) : (sortedKeys keys).Pairwise (· ≤ ·) :=
  List.pairwise_insertionSort _ _

theorem sortedKeys_dedup (keys : List Text) : (sortedKeys keys.dedup).Pairwise (· < ·) := by
  have distinct : (sortedKeys keys.dedup).Nodup :=
    (sortedKeys_perm _).nodup_iff.mpr (List.nodup_dedup keys)
  exact ((sortedKeys_sorted _).and distinct).imp fun both => lt_of_le_of_ne both.1 both.2

/-- The keys of an event are those of its targets. -/
theorem mem_eventCheckpointKeys {hash : List ℕ → Text} {event : FencedEvent} {keys : List Text}
    (found : eventCheckpointKeys hash event = some keys) {key : Text} :
    key ∈ keys ↔ ∃ target ∈ event.targetClusters, checkpointId hash event target = some key := by
  unfold eventCheckpointKeys at found
  obtain ⟨ids, listed, rfl⟩ := Option.map_eq_some_iff.mp found
  rw [(sortedKeys_perm ids).mem_iff, mem_of_mapM listed]

/-- Each target has a key. -/
theorem exists_eventCheckpointKey {hash : List ℕ → Text} {event : FencedEvent}
    {keys : List Text} (found : eventCheckpointKeys hash event = some keys) {target : Text}
    (targeted : target ∈ event.targetClusters) :
    ∃ key ∈ keys, checkpointId hash event target = some key := by
  cases known : checkpointId hash event target with
  | some key => exact ⟨key, (mem_eventCheckpointKeys found).mpr ⟨target, targeted, known⟩, rfl⟩
  | none =>
      unfold eventCheckpointKeys at found
      rw [mapM_eq_none.mpr ⟨target, targeted, known⟩] at found
      cases found

/-- The key depends on the identity and the target. -/
theorem checkpointId_congr {hash : List ℕ → Text} {event other : FencedEvent}
    (identity : event.logicalKey = other.logicalKey) (target : Text) :
    checkpointId hash event target = checkpointId hash other target := by
  unfold checkpointId
  rw [identity]

/-! ## What a thread has -/

namespace ThreadState

variable {hash : List ℕ → Text} {state before : ThreadState}

/-- The keys of a thread, with those that are not registered yet. -/
def keys (state : ThreadState) : List Text := state.entries.map Prod.fst ++ state.unregistered

/-- The keys of a thread ascend, they are those of its event, and it has locks of its
entries only, each once. -/
structure Ordered (hash : List ℕ → Text) (state : ThreadState) : Prop where
  sorted : state.keys.Pairwise (· < ·)
  named : ∀ event, state.event = some event →
    ∃ keys, eventCheckpointKeys hash event = some keys ∧ ∀ key, key ∈ state.keys ↔ key ∈ keys
  within : ∀ entry ∈ state.held, entry ∈ state.entries
  once : state.held.Nodup

theorem ordered_idle : ThreadState.idle.Ordered hash where
  sorted := List.Pairwise.nil
  named _ found := by cases found
  within _ member := absurd member List.not_mem_nil
  once := List.nodup_nil

/-- Different entries of a thread have different keys. -/
theorem Ordered.entries_nodup (ordered : before.Ordered hash) :
    (before.entries.map Prod.fst).Nodup :=
  (List.pairwise_append.mp ordered.sorted).1.imp ne_of_lt

/-- A thread goes on and takes no key. -/
theorem Ordered.goOn (ordered : before.Ordered hash) (keys : state.keys.Sublist before.keys)
    (event : ∀ event, state.event = some event →
      before.event = some event ∧ state.keys = before.keys)
    (within : ∀ entry ∈ state.held, entry ∈ state.entries) (once : state.held.Nodup) :
    state.Ordered hash where
  sorted := ordered.sorted.sublist keys
  named := by
    intro found here
    obtain ⟨there, same⟩ := event found here
    rw [same]
    exact ordered.named found there
  within := within
  once := once

end ThreadState

/-! ## The users of the entries -/

namespace LockRegistry

variable {Thread : Type} [DecidableEq Thread] {hash : List ℕ → Text}
  {registry next : LockRegistry Thread} {thread other : Thread} {state : ThreadState}

/-- A number of threads have an entry for the key. -/
def UsedBy (threads : Thread → ThreadState) (key : Text) (count : ℕ) : Prop :=
  ∃ users : List Thread, users.Nodup ∧ users.length = count ∧
    ∀ thread, thread ∈ users ↔ key ∈ (threads thread).entries.map Prod.fst

section Users

variable {threads : Thread → ThreadState} {key : Text} {count : ℕ}

omit [DecidableEq Thread] in
theorem usedBy_zero : UsedBy threads key 0 ↔
    ∀ thread, key ∉ (threads thread).entries.map Prod.fst := by
  constructor
  · rintro ⟨users, -, empty, each⟩ thread member
    rw [← each, List.eq_nil_of_length_eq_zero empty] at member
    exact List.not_mem_nil member
  · intro none
    exact ⟨[], List.nodup_nil, rfl, fun thread =>
      ⟨fun member => absurd member List.not_mem_nil, fun member => absurd member (none thread)⟩⟩

omit [DecidableEq Thread] in
theorem UsedBy.congr {others : Thread → ThreadState} (used : UsedBy threads key count)
    (same : ∀ thread, key ∈ (others thread).entries.map Prod.fst ↔
      key ∈ (threads thread).entries.map Prod.fst) : UsedBy others key count := by
  obtain ⟨users, distinct, length, each⟩ := used
  exact ⟨users, distinct, length, fun thread => (each thread).trans (same thread).symm⟩

theorem UsedBy.add (used : UsedBy threads key count)
    (new : key ∉ (threads thread).entries.map Prod.fst)
    (now : key ∈ state.entries.map Prod.fst) :
    UsedBy (Function.update threads thread state) key (count + 1) := by
  obtain ⟨users, distinct, length, each⟩ := used
  refine ⟨thread :: users, ?_, ?_, fun other => ?_⟩
  · exact List.nodup_cons.mpr ⟨fun member => new ((each thread).mp member), distinct⟩
  · rw [List.length_cons, length]
  · by_cases same : other = thread
    · subst same
      rw [Function.update_self]
      exact ⟨fun _ => now, fun _ => List.mem_cons_self⟩
    · rw [Function.update_of_ne same, List.mem_cons, or_iff_right same]
      exact each other

theorem UsedBy.drop (used : UsedBy threads key count)
    (was : key ∈ (threads thread).entries.map Prod.fst)
    (gone : key ∉ state.entries.map Prod.fst) :
    UsedBy (Function.update threads thread state) key (count - 1) := by
  obtain ⟨users, distinct, length, each⟩ := used
  refine ⟨users.erase thread, distinct.erase thread, ?_, fun other => ?_⟩
  · rw [List.length_erase_of_mem ((each thread).mpr was), length]
  · rw [distinct.mem_erase_iff]
    by_cases same : other = thread
    · subst same
      rw [Function.update_self]
      exact ⟨fun both => absurd rfl both.1, fun member => absurd member gone⟩
    · rw [Function.update_of_ne same]
      exact ⟨fun both => (each other).mp both.2, fun member => ⟨same, (each other).mpr member⟩⟩

end Users

/-- The dict has the entries that the threads have, and it counts their users. -/
structure Counted (registry : LockRegistry Thread) : Prop where
  mapped : ∀ thread, ∀ entry ∈ (registry.threads thread).entries,
    registry.entries entry.1 = some entry.2
  known : ∀ key entry, registry.entries key = some entry → entry < registry.created
  apart : ∀ key other entry, registry.entries key = some entry →
    registry.entries other = some entry → key = other
  counted : ∀ key entry, registry.entries key = some entry →
    UsedBy registry.threads key (registry.users entry)

omit [DecidableEq Thread] in
/-- A lock has one key. -/
theorem Counted.lock_inj (counted : registry.Counted) (thread other : Thread) (entry : ℕ)
    {first second : Text}
    (here : (first, entry) ∈ (registry.threads thread).entries)
    (there : (second, entry) ∈ (registry.threads other).entries) : first = second :=
  counted.apart first second entry (counted.mapped thread _ here) (counted.mapped other _ there)

theorem Counted.frame (counted : registry.Counted) (entries : next.entries = registry.entries)
    (users : next.users = registry.users) (created : next.created = registry.created)
    (threads : next.threads = Function.update registry.threads thread state)
    (same : state.entries = (registry.threads thread).entries) : next.Counted where
  mapped := by
    intro user entry member
    rw [threads, update_congr ThreadState.entries same] at member
    rw [entries]
    exact counted.mapped user entry member
  known := by
    rw [entries, created]
    exact counted.known
  apart := by
    rw [entries]
    exact counted.apart
  counted := by
    rw [entries, users]
    intro key entry found
    refine (counted.counted key entry found).congr fun user => ?_
    rw [threads, update_congr ThreadState.entries same]

section Registered

variable {key : Text} {entry : ℕ}

omit [DecidableEq Thread] in
theorem mem_keys_registered (entries : state.entries =
    (registry.threads thread).entries ++ [(key, entry)]) : key ∈ state.entries.map Prod.fst := by
  simp [entries]

/-- The users of another key are those that it had. -/
theorem UsedBy.registered {other : Text} {count : ℕ}
    (entries : state.entries = (registry.threads thread).entries ++ [(key, entry)])
    (different : other ≠ key) (used : UsedBy registry.threads other count) :
    UsedBy (Function.update registry.threads thread state) other count := by
  refine used.congr fun user => ?_
  refine (update_congr (fun state : ThreadState => other ∈ state.entries.map Prod.fst) ?_ user).to_iff
  rw [entries]
  simp [different]

/-- The entries of the threads, with the one that is registered. -/
theorem mem_entries_registered (threads : next.threads =
      Function.update registry.threads thread state)
    (entries : state.entries = (registry.threads thread).entries ++ [(key, entry)])
    {item : FenceEntry} (member : item ∈ (next.threads other).entries) :
    item ∈ (registry.threads other).entries ∨ item = (key, entry) := by
  rw [threads] at member
  by_cases same : other = thread
  · subst same
    rw [Function.update_self, entries] at member
    exact (List.mem_append.mp member).imp_right List.mem_singleton.mp
  · rw [Function.update_of_ne same] at member
    exact Or.inl member

/-- A thread is one more user of an entry. -/
theorem Counted.join (counted : registry.Counted) (found : registry.entries key = some entry)
    (new : key ∉ (registry.threads thread).entries.map Prod.fst)
    (entries : state.entries = (registry.threads thread).entries ++ [(key, entry)])
    (table : next.entries = registry.entries)
    (users : next.users = Function.update registry.users entry (registry.users entry + 1))
    (created : next.created = registry.created)
    (threads : next.threads = Function.update registry.threads thread state) : next.Counted where
  mapped := by
    intro user item member
    rw [table]
    rcases mem_entries_registered threads entries member with old | rfl
    · exact counted.mapped user item old
    · exact found
  known := by
    rw [table, created]
    exact counted.known
  apart := by
    rw [table]
    exact counted.apart
  counted := by
    intro other item there
    rw [table] at there
    rw [users, threads]
    by_cases same : other = key
    · subst same
      obtain rfl : entry = item := Option.some.inj (found.symm.trans there)
      rw [Function.update_self]
      exact (counted.counted other entry found).add new (mem_keys_registered entries)
    · have different : item ≠ entry :=
        fun equal => same (counted.apart other key entry (equal ▸ there) found)
      rw [Function.update_of_ne different]
      exact (counted.counted other item there).registered entries same

/-- A thread is the first user of a new entry. -/
theorem Counted.create (counted : registry.Counted) (absent : registry.entries key = none)
    (entries : state.entries = (registry.threads thread).entries ++ [(key, registry.created)])
    (table : next.entries = Function.update registry.entries key (some registry.created))
    (users : next.users = Function.update registry.users registry.created 1)
    (created : next.created = registry.created + 1)
    (threads : next.threads = Function.update registry.threads thread state) : next.Counted := by
  have unused : UsedBy registry.threads key 0 := by
    refine usedBy_zero.mpr fun user member => ?_
    obtain ⟨item, there, same⟩ := List.mem_map.mp member
    have mapped := counted.mapped user item there
    rw [same, absent] at mapped
    cases mapped
  -- The new number is not that of an entry of another key.
  have fresh : ∀ other item, other ≠ key → next.entries other = some item →
      registry.entries other = some item ∧ item < registry.created := by
    intro other item different there
    rw [table, Function.update_of_ne different] at there
    exact ⟨there, counted.known other item there⟩
  have here : next.entries key = some registry.created := by rw [table, Function.update_self]
  constructor
  case mapped =>
    intro user item member
    rcases mem_entries_registered threads entries member with old | rfl
    · have mapped := counted.mapped user item old
      have different : item.1 ≠ key := by
        rintro same
        rw [same, absent] at mapped
        cases mapped
      rw [table, Function.update_of_ne different]
      exact mapped
    · exact here
  case known =>
    intro other item there
    rw [created]
    by_cases same : other = key
    · subst same
      obtain rfl := Option.some.inj (here.symm.trans there)
      exact Nat.lt_succ_self _
    · exact (fresh other item same there).2.trans (Nat.lt_succ_self _)
  case apart =>
    intro first second item one two
    by_cases same : first = key
    · subst same
      obtain rfl := Option.some.inj (here.symm.trans one)
      by_contra different
      exact lt_irrefl _ (fresh second _ (Ne.symm different) two).2
    · have old := fresh first item same one
      by_cases same' : second = key
      · subst same'
        obtain rfl := Option.some.inj (here.symm.trans two)
        exact absurd old.2 (lt_irrefl _)
      · exact counted.apart first second item old.1 (fresh second item same' two).1
  case counted =>
    intro other item there
    rw [users, threads]
    by_cases same : other = key
    · subst same
      obtain rfl := Option.some.inj (here.symm.trans there)
      rw [Function.update_self]
      exact unused.add (usedBy_zero.mp unused thread) (mem_keys_registered entries)
    · have old := fresh other item same there
      rw [Function.update_of_ne (ne_of_lt old.2)]
      exact (counted.counted other item old.1).registered entries same

/-- **A key is registered.** -/
theorem Counted.register (counted : registry.Counted)
    (new : key ∉ (registry.threads thread).entries.map Prod.fst)
    (entries : state.entries =
      (registry.threads thread).entries ++ [(key, (registry.register key).2)]) :
    ((registry.register key).1.goOn thread state).Counted := by
  cases found : registry.entries key with
  | none =>
      simp only [LockRegistry.register, found] at entries ⊢
      exact counted.create found entries rfl rfl rfl rfl
  | some entry =>
      simp only [LockRegistry.register, found] at entries ⊢
      exact counted.join found new entries rfl rfl rfl rfl

end Registered

@[simp] theorem goOn_threads : (registry.goOn thread state).threads =
    Function.update registry.threads thread state := rfl

theorem unregister_entries {entry : FenceEntry} :
    ((registry.unregister entry).goOn thread state).entries =
      if registry.users entry.2 - 1 = 0 then Function.update registry.entries entry.1 none
      else registry.entries := rfl

/-- **An entry is given back**, and dropped by its last user. -/
theorem Counted.unregister (counted : registry.Counted) {entry : FenceEntry}
    (entries : (registry.threads thread).entries = entry :: state.entries)
    (distinct : ((registry.threads thread).entries.map Prod.fst).Nodup) :
    ((registry.unregister entry).goOn thread state).Counted := by
  rw [entries, List.map_cons, List.nodup_cons] at distinct
  have was : entry.1 ∈ (registry.threads thread).entries.map Prod.fst := by simp [entries]
  have here : registry.entries entry.1 = some entry.2 :=
    counted.mapped thread entry (entries ▸ List.mem_cons_self)
  have left : UsedBy (Function.update registry.threads thread state) entry.1
      (registry.users entry.2 - 1) :=
    (counted.counted entry.1 entry.2 here).drop was distinct.1
  have apartFrom : ∀ key, key ≠ entry.1 → ∀ item,
      ((registry.unregister entry).goOn thread state).entries key = some item ↔
        registry.entries key = some item := by
    intro key different item
    rw [unregister_entries]
    split
    · rw [Function.update_of_ne different]
    · exact Iff.rfl
  have before : ∀ key item,
      ((registry.unregister entry).goOn thread state).entries key = some item →
        registry.entries key = some item := by
    intro key item there
    rw [unregister_entries] at there
    split at there
    · by_cases same : key = entry.1
      · subst same
        rw [Function.update_self] at there
        cases there
      · rwa [Function.update_of_ne same] at there
    · exact there
  constructor
  case mapped =>
    intro user item member
    have old : item ∈ (registry.threads user).entries := by
      by_cases same : user = thread
      · subst same
        rw [goOn_threads, Function.update_self] at member
        rw [entries]
        exact List.mem_cons_of_mem _ member
      · rwa [goOn_threads, Function.update_of_ne same] at member
    have mapped := counted.mapped user item old
    by_cases same : item.1 = entry.1
    · rw [unregister_entries, if_neg]
      · exact mapped
      -- The thread is a user of the entry that is left.
      intro unused
      rw [unused] at left
      exact usedBy_zero.mp left user (same ▸ List.mem_map_of_mem member)
    · exact (apartFrom item.1 same item.2).mpr mapped
  case known => exact fun key item there => counted.known key item (before key item there)
  case apart =>
    exact fun first second item one two =>
      counted.apart first second item (before first item one) (before second item two)
  case counted =>
    intro key item there
    have old := before key item there
    show UsedBy (Function.update registry.threads thread state) key
      (Function.update registry.users entry.2 (registry.users entry.2 - 1) item)
    by_cases same : key = entry.1
    · subst same
      obtain rfl := Option.some.inj (here.symm.trans old)
      rw [Function.update_self]
      exact left
    · have different : item ≠ entry.2 :=
        fun equal => same (counted.apart key entry.1 entry.2 (equal ▸ old) here)
      rw [Function.update_of_ne different]
      refine (counted.counted key item old).congr fun user => ?_
      refine (update_congr (fun state : ThreadState => key ∈ state.entries.map Prod.fst) ?_ user).to_iff
      rw [entries]
      simp [same]

/-! ## The guard and the locks -/

/-- The guard is with the thread that is in its block. -/
def Guarded (registry : LockRegistry Thread) : Prop :=
  ∀ thread, registry.guard = some thread ↔ (registry.threads thread).InGuard

theorem Guarded.frame (guarded : registry.Guarded) (guard : next.guard = registry.guard)
    (threads : next.threads = Function.update registry.threads thread state)
    (same : state.InGuard ↔ (registry.threads thread).InGuard) : next.Guarded := by
  intro other
  rw [guard, threads, update_congr ThreadState.InGuard (propext same)]
  exact guarded other

/-- A thread takes the guard. -/
theorem Guarded.take (guarded : registry.Guarded) (free : registry.guard = none)
    (inGuard : state.InGuard) (guard : next.guard = some thread)
    (threads : next.threads = Function.update registry.threads thread state) : next.Guarded := by
  intro other
  rw [guard, threads]
  by_cases here : other = thread
  · subst here
    rw [Function.update_self]
    exact ⟨fun _ => inGuard, fun _ => rfl⟩
  · rw [Function.update_of_ne here, ← guarded other, free]
    exact ⟨fun same => absurd (Option.some.inj same).symm here, fun held => (by cases held)⟩

/-- A thread gives the guard back. -/
theorem Guarded.give (guarded : registry.Guarded) (was : (registry.threads thread).InGuard)
    (after : ¬state.InGuard) (guard : next.guard = none)
    (threads : next.threads = Function.update registry.threads thread state) : next.Guarded := by
  have before := (guarded thread).mpr was
  intro other
  rw [guard, threads]
  by_cases here : other = thread
  · subst here
    rw [Function.update_self]
    exact ⟨fun free => (by cases free), fun inGuard => absurd inGuard after⟩
  · rw [Function.update_of_ne here, ← guarded other, before]
    exact ⟨fun free => (by cases free), fun same => absurd (Option.some.inj same).symm here⟩

/-- A lock is owned, once, by the thread that has it. -/
def Owned (registry : LockRegistry Thread) : Prop :=
  ∀ entry thread count, registry.owner entry = some (thread, count) ↔
    count = 1 ∧ ∃ key, (key, entry) ∈ (registry.threads thread).held

theorem Owned.frame (owned : registry.Owned) (owner : next.owner = registry.owner)
    (threads : next.threads = Function.update registry.threads thread state)
    (same : ∀ entry, entry ∈ state.held ↔ entry ∈ (registry.threads thread).held) :
    next.Owned := by
  intro entry other count
  rw [owner, owned, threads]
  refine and_congr_right fun _ => exists_congr fun key => ?_
  exact (update_congr (fun state : ThreadState => (key, entry) ∈ state.held) (propext (same _)) other).symm.to_iff

/-- A thread takes a lock that is free. -/
theorem Owned.acquire (owned : registry.Owned) {entry : FenceEntry}
    (free : registry.owner entry.2 = none)
    (held : state.held = (registry.threads thread).held ++ [entry])
    (owner : next.owner = Function.update registry.owner entry.2 (some (thread, 1)))
    (threads : next.threads = Function.update registry.threads thread state) : next.Owned := by
  have nobody : ∀ user key, (key, entry.2) ∉ (registry.threads user).held := by
    intro user key member
    have taken := (owned entry.2 user 1).mpr ⟨rfl, key, member⟩
    rw [free] at taken
    cases taken
  intro lock user count
  rw [owner, threads]
  by_cases same : lock = entry.2
  · subst same
    rw [Function.update_self]
    by_cases here : user = thread
    · subst here
      rw [Function.update_self, held]
      constructor
      · intro taken
        cases taken
        exact ⟨rfl, entry.1, List.mem_append_right _ List.mem_cons_self⟩
      · rintro ⟨rfl, -⟩
        rfl
    · rw [Function.update_of_ne here]
      constructor
      · intro taken
        cases taken
        exact absurd rfl here
      · rintro ⟨-, key, member⟩
        exact absurd member (nobody user key)
  · rw [Function.update_of_ne same, owned]
    refine and_congr_right fun _ => exists_congr fun key => ?_
    refine (update_congr (fun state : ThreadState => (key, lock) ∈ state.held) ?_ user).symm.to_iff
    have different : (key, lock) ≠ entry := fun equal => same (congrArg Prod.snd equal)
    rw [held]
    simp [different]

/-- A thread releases a lock that it has once. -/
theorem Owned.release (owned : registry.Owned) {entry : FenceEntry}
    (held : (registry.threads thread).held = entry :: state.held)
    (once : ∀ key, (key, entry.2) ∉ state.held)
    (owner : next.owner = (registry.release entry.2).owner)
    (threads : next.threads = Function.update registry.threads thread state) : next.Owned := by
  have mine : registry.owner entry.2 = some (thread, 1) :=
    (owned entry.2 thread 1).mpr ⟨rfl, entry.1, held ▸ List.mem_cons_self⟩
  have released : (registry.release entry.2).owner = Function.update registry.owner entry.2 none := by
    simp [LockRegistry.release, mine]
  intro lock user count
  rw [owner, threads, released]
  by_cases same : lock = entry.2
  · subst same
    rw [Function.update_self]
    refine ⟨fun taken => (by cases taken), ?_⟩
    rintro ⟨-, key, member⟩
    by_cases here : user = thread
    · subst here
      rw [Function.update_self] at member
      exact absurd member (once key)
    -- Another thread does not have it, since it has one owner.
    · rw [Function.update_of_ne here] at member
      have taken := (owned entry.2 user 1).mpr ⟨rfl, key, member⟩
      rw [mine] at taken
      cases taken
      exact absurd rfl here
  · rw [Function.update_of_ne same, owned]
    refine and_congr_right fun _ => exists_congr fun key => ?_
    refine (update_congr (fun state : ThreadState => (key, lock) ∈ state.held) ?_ user).symm.to_iff
    have different : (key, lock) ≠ entry := fun equal => same (congrArg Prod.snd equal)
    rw [held]
    simp [different]

/-! ## Every run -/

/-- What holds of the registry after every line. -/
structure Sound (hash : List ℕ → Text) (registry : LockRegistry Thread) : Prop where
  ordered : ∀ thread, (registry.threads thread).Ordered hash
  guarded : registry.Guarded
  counted : registry.Counted
  owned : registry.Owned

omit [DecidableEq Thread] in
theorem sound_empty : (empty : LockRegistry Thread).Sound hash where
  ordered _ := ThreadState.ordered_idle
  guarded _ := ⟨fun here => (by cases here), fun here => here.elim⟩
  counted :=
    { mapped := fun _ _ member => absurd member List.not_mem_nil
      known := fun _ _ found => by cases found
      apart := fun _ _ _ found => by cases found
      counted := fun _ _ found => by cases found }
  owned _ _ _ := ⟨fun found => (by cases found), fun ⟨_, _, member⟩ => absurd member List.not_mem_nil⟩

/-- A thread goes on with what it has. -/
theorem Sound.goOn (sound : registry.Sound hash) (ordered : state.Ordered hash)
    (entries : state.entries = (registry.threads thread).entries)
    (held : ∀ entry, entry ∈ state.held ↔ entry ∈ (registry.threads thread).held)
    (inGuard : state.InGuard ↔ (registry.threads thread).InGuard) :
    (registry.goOn thread state).Sound hash where
  ordered := update_all sound.ordered ordered
  guarded := sound.guarded.frame rfl rfl inGuard
  counted := sound.counted.frame rfl rfl rfl rfl entries
  owned := sound.owned.frame rfl rfl held

omit [DecidableEq Thread] in
theorem register_guard (key : Text) : (registry.register key).1.guard = registry.guard := by
  unfold LockRegistry.register
  split
  · rfl
  · rfl

omit [DecidableEq Thread] in
theorem register_owner (key : Text) : (registry.register key).1.owner = registry.owner := by
  unfold LockRegistry.register
  split
  · rfl
  · rfl

omit [DecidableEq Thread] in
theorem register_threads (key : Text) : (registry.register key).1.threads = registry.threads := by
  unfold LockRegistry.register
  split
  · rfl
  · rfl

/-- **A round of the first loop.** -/
theorem Sound.register (sound : registry.Sound hash) {event : FencedEvent}
    {entries : List FenceEntry} {key : Text} {keys : List Text}
    (here : registry.threads thread = .registering event entries (key :: keys)) :
    ((registry.register key).1.goOn thread
      (.registering event (entries ++ [(key, (registry.register key).2)]) keys)).Sound hash := by
  have ordered := sound.ordered thread
  rw [here] at ordered
  have new : key ∉ (registry.threads thread).entries.map Prod.fst := by
    rw [here]
    intro member
    exact lt_irrefl key ((List.pairwise_append.mp ordered.sorted).2.2 key member key
      List.mem_cons_self)
  constructor
  case ordered =>
    rw [goOn_threads, register_threads]
    have same : (ThreadState.registering event
        (entries ++ [(key, (registry.register key).2)]) keys).keys =
          (ThreadState.registering event entries (key :: keys)).keys := by
      simp [ThreadState.keys, ThreadState.entries, ThreadState.unregistered]
    refine update_all sound.ordered (ordered.goOn (same ▸ List.Sublist.refl _) ?_ ?_ List.nodup_nil)
    · exact fun found => fun named => ⟨named, same⟩
    · exact fun entry member => absurd member List.not_mem_nil
  case guarded =>
    refine sound.guarded.frame (register_guard key) (by rw [goOn_threads, register_threads]) ?_
    rw [here]
    exact Iff.rfl
  case counted => exact sound.counted.register new (by rw [here]; rfl)
  case owned =>
    refine sound.owned.frame (register_owner key) (by rw [goOn_threads, register_threads]) ?_
    rw [here]
    exact fun entry => Iff.rfl

/-- **A lock is acquired.** It was free: the keys of the thread ascend, so it has not
acquired this one before. -/
theorem Sound.acquire (sound : registry.Sound hash) {event : FencedEvent}
    {acquired remaining : List FenceEntry} {entry : FenceEntry}
    (here : registry.threads thread = .acquiring event acquired (entry :: remaining))
    (taken : registry.acquire thread entry.2 = some next) :
    (next.goOn thread (.acquiring event (acquired ++ [entry]) remaining)).Sound hash := by
  have ordered := sound.ordered thread
  have distinct := ordered.entries_nodup
  rw [here] at ordered distinct
  replace distinct : ((acquired ++ entry :: remaining).map Prod.fst).Nodup := distinct
  have free : registry.owner entry.2 = none := by
    by_contra owned
    obtain ⟨⟨owner, count⟩, owns⟩ := Option.ne_none_iff_exists'.mp owned
    have mine : owner = thread := by
      by_contra different
      simp [LockRegistry.acquire, owns, different] at taken
    subst mine
    obtain ⟨-, key, held⟩ := (sound.owned entry.2 owner count).mp owns
    rw [here] at held
    have same : key = entry.1 := by
      refine sound.counted.lock_inj owner owner entry.2 ?_ ?_
      · rw [here]
        exact List.mem_append_left _ held
      · rw [here]
        exact List.mem_append_right _ List.mem_cons_self
    rw [List.map_append, List.map_cons, List.nodup_append] at distinct
    exact distinct.2.2 key (List.mem_map_of_mem held) entry.1 List.mem_cons_self same
  have result : next =
      { registry with owner := Function.update registry.owner entry.2 (some (thread, 1)) } := by
    simp only [LockRegistry.acquire, free, Option.some.injEq] at taken
    exact taken.symm
  subst result
  have entries : (acquired ++ [entry]) ++ remaining = acquired ++ entry :: remaining := by simp
  have same : (ThreadState.acquiring event (acquired ++ [entry]) remaining).entries =
      (ThreadState.acquiring event acquired (entry :: remaining)).entries := entries
  constructor
  case ordered =>
    have keys : (ThreadState.acquiring event (acquired ++ [entry]) remaining).keys =
        (ThreadState.acquiring event acquired (entry :: remaining)).keys := by
      unfold ThreadState.keys
      rw [same]
      rfl
    refine update_all sound.ordered (ordered.goOn (keys ▸ List.Sublist.refl _) ?_ ?_ ?_)
    · exact fun found => fun named => ⟨named, keys⟩
    · exact fun item member => List.mem_append_left _ member
    · rw [← entries] at distinct
      exact (List.nodup_append.mp distinct.of_map).1
  case guarded =>
    refine sound.guarded.frame rfl rfl ?_
    rw [here]
    exact Iff.rfl
  case counted => exact sound.counted.frame rfl rfl rfl rfl (by rw [here]; exact same)
  case owned => exact sound.owned.acquire free (by rw [here]; rfl) rfl rfl

/-- **A lock is released.** -/
theorem Sound.release (sound : registry.Sound hash) {entries acquired : List FenceEntry}
    {entry : FenceEntry}
    (here : registry.threads thread = .releasing entries (entry :: acquired)) :
    ((registry.release entry.2).goOn thread (.releasing entries acquired)).Sound hash := by
  have ordered := sound.ordered thread
  rw [here] at ordered
  have same : ∀ registry' : LockRegistry Thread, registry' = registry.release entry.2 →
      registry'.guard = registry.guard ∧ registry'.entries = registry.entries ∧
        registry'.users = registry.users ∧ registry'.created = registry.created ∧
        registry'.threads = registry.threads := by
    rintro registry' rfl
    unfold LockRegistry.release
    split
    · exact ⟨rfl, rfl, rfl, rfl, rfl⟩
    · exact ⟨rfl, rfl, rfl, rfl, rfl⟩
  obtain ⟨guard, table, users, created, threads⟩ := same _ rfl
  have update : ((registry.release entry.2).goOn thread (.releasing entries acquired)).threads =
      Function.update registry.threads thread (.releasing entries acquired) := by
    rw [goOn_threads, threads]
  constructor
  case ordered =>
    rw [update]
    refine update_all sound.ordered (ordered.goOn (List.Sublist.refl _) ?_ ?_ ?_)
    · exact fun found named => by cases named
    · exact fun item member => ordered.within item (List.mem_cons_of_mem _ member)
    · exact (List.nodup_cons.mp ordered.once).2
  case guarded =>
    refine sound.guarded.frame guard update ?_
    rw [here]
    exact Iff.rfl
  case counted =>
    refine sound.counted.frame table users created update ?_
    rw [here]
    rfl
  case owned =>
    refine sound.owned.release (by rw [here]; rfl) ?_ rfl update
    intro key member
    have one : key = entry.1 := by
      refine sound.counted.lock_inj thread thread entry.2 ?_ ?_
      · rw [here]
        exact ordered.within _ (List.mem_cons_of_mem _ member)
      · rw [here]
        exact ordered.within _ List.mem_cons_self
    rw [one] at member
    exact (List.nodup_cons.mp ordered.once).1 member

/-- **A round of the last loop.** -/
theorem Sound.unregister (sound : registry.Sound hash) {entries : List FenceEntry}
    {entry : FenceEntry} (here : registry.threads thread = .unregistering (entry :: entries)) :
    ((registry.unregister entry).goOn thread (.unregistering entries)).Sound hash := by
  have ordered := sound.ordered thread
  rw [here] at ordered
  constructor
  case ordered =>
    refine update_all sound.ordered (ordered.goOn ?_ ?_ ?_ List.nodup_nil)
    · exact (List.sublist_cons_self _ _).append_right _
    · exact fun found named => by cases named
    · exact fun item member => absurd member List.not_mem_nil
  case guarded =>
    refine sound.guarded.frame rfl rfl ?_
    rw [here]
    exact Iff.rfl
  case counted =>
    exact sound.counted.unregister (by rw [here]; rfl) (sound.ordered thread).entries_nodup
  case owned =>
    refine sound.owned.frame rfl rfl ?_
    rw [here]
    exact fun entry => Iff.rfl

/-- A thread takes the guard, if it is free. -/
theorem Sound.enter (sound : registry.Sound hash) (free : registry.guard = none)
    (ordered : state.Ordered hash) (inGuard : state.InGuard)
    (entries : state.entries = (registry.threads thread).entries)
    (held : ∀ entry, entry ∈ state.held ↔ entry ∈ (registry.threads thread).held) :
    ({ registry.goOn thread state with guard := some thread } : LockRegistry Thread).Sound hash where
  ordered := update_all sound.ordered ordered
  guarded := sound.guarded.take free inGuard rfl rfl
  counted := sound.counted.frame rfl rfl rfl rfl entries
  owned := sound.owned.frame rfl rfl held

/-- A thread gives the guard back. -/
theorem Sound.leave (sound : registry.Sound hash) (was : (registry.threads thread).InGuard)
    (ordered : state.Ordered hash) (outside : ¬state.InGuard)
    (entries : state.entries = (registry.threads thread).entries)
    (held : ∀ entry, entry ∈ state.held ↔ entry ∈ (registry.threads thread).held) :
    ({ registry.goOn thread state with guard := none } : LockRegistry Thread).Sound hash where
  ordered := update_all sound.ordered ordered
  guarded := sound.guarded.give was outside rfl rfl
  counted := sound.counted.frame rfl rfl rfl rfl entries
  owned := sound.owned.frame rfl rfl held

/-- **The next line of a thread.** -/
theorem Sound.proceed (sound : registry.Sound hash) (thread : Thread) :
    (registry.proceed thread).Sound hash := by
  have ordered := sound.ordered thread
  cases here : registry.threads thread with
  | idle => simpa only [LockRegistry.proceed, here] using sound
  | entering event keys =>
      rw [here] at ordered
      simp only [LockRegistry.proceed, here]
      split
      · refine sound.enter ‹_› ?_ trivial (by rw [here]; rfl) (by rw [here]; exact fun _ => Iff.rfl)
        exact ordered.goOn (List.Sublist.refl _) (fun _ named => ⟨named, rfl⟩)
          (fun _ member => absurd member List.not_mem_nil) List.nodup_nil
      · exact sound
  | registering event entries keys =>
      cases keys with
      | cons key keys =>
          simp only [LockRegistry.proceed, here]
          exact sound.register here
      | nil =>
          rw [here] at ordered
          simp only [LockRegistry.proceed, here]
          refine sound.leave (by rw [here]; trivial) ?_ id (by rw [here]; rfl)
            (by rw [here]; exact fun _ => Iff.rfl)
          exact ordered.goOn (List.Sublist.refl _) (fun _ named => ⟨named, rfl⟩)
            (fun _ member => absurd member List.not_mem_nil) List.nodup_nil
  | acquiring event acquired remaining =>
      cases remaining with
      | cons entry remaining =>
          simp only [LockRegistry.proceed, here]
          cases taken : registry.acquire thread entry.2 with
          | some next => exact sound.acquire here taken
          | none => exact sound
      | nil =>
          rw [here] at ordered
          simp only [LockRegistry.proceed, here]
          have entries : (ThreadState.inside event acquired).entries =
              (ThreadState.acquiring event acquired []).entries := (List.append_nil _).symm
          have keys : (ThreadState.inside event acquired).keys =
              (ThreadState.acquiring event acquired []).keys := by
            unfold ThreadState.keys
            rw [entries]
            rfl
          refine sound.goOn ?_ (by rw [here]; exact entries) (by rw [here]; exact fun _ => Iff.rfl)
            (by rw [here]; exact Iff.rfl)
          exact ordered.goOn (keys ▸ List.Sublist.refl _) (fun _ named => ⟨named, keys⟩)
            (fun _ member => member) ordered.once
  | inside event entries => simpa only [LockRegistry.proceed, here] using sound
  | releasing entries acquired =>
      cases acquired with
      | cons entry acquired =>
          simp only [LockRegistry.proceed, here]
          exact sound.release here
      | nil =>
          rw [here] at ordered
          simp only [LockRegistry.proceed, here]
          refine sound.goOn ?_ (by rw [here]; rfl) (by rw [here]; exact fun _ => Iff.rfl)
            (by rw [here]; exact Iff.rfl)
          exact ordered.goOn (List.Sublist.refl _) (fun _ named => by cases named)
            (fun _ member => absurd member List.not_mem_nil) List.nodup_nil
  | leaving entries =>
      rw [here] at ordered
      simp only [LockRegistry.proceed, here]
      split
      · refine sound.enter ‹_› ?_ trivial (by rw [here]; rfl) (by rw [here]; exact fun _ => Iff.rfl)
        exact ordered.goOn (List.Sublist.refl _) (fun _ named => by cases named)
          (fun _ member => absurd member List.not_mem_nil) List.nodup_nil
      · exact sound
  | unregistering entries =>
      cases entries with
      | cons entry entries =>
          simp only [LockRegistry.proceed, here]
          exact sound.unregister here
      | nil =>
          simp only [LockRegistry.proceed, here]
          refine sound.leave (by rw [here]; trivial) ThreadState.ordered_idle id
            (by rw [here]; rfl) (by rw [here]; exact fun _ => Iff.rfl)

/-- **A step keeps what holds.** -/
theorem Sound.step (sound : registry.Sound hash) (action : Thread × HoldAction) :
    (registry.step hash action).Sound hash := by
  obtain ⟨thread, action⟩ := action
  have ordered := sound.ordered thread
  cases action with
  | hold event =>
      cases here : registry.threads thread with
      | idle =>
          cases found : eventCheckpointKeys hash event with
          | none => simpa only [LockRegistry.step, here, found] using sound
          | some keys =>
              simp only [LockRegistry.step, here, found]
              refine sound.goOn ?_ (by rw [here]; rfl) (by rw [here]; exact fun _ => Iff.rfl)
                (by rw [here]; exact Iff.rfl)
              constructor
              case sorted => exact sortedKeys_dedup keys
              case named =>
                rintro _ ⟨⟩
                refine ⟨keys, found, fun key => ?_⟩
                show key ∈ sortedKeys keys.dedup ↔ key ∈ keys
                rw [(sortedKeys_perm _).mem_iff, List.mem_dedup]
              case within => exact fun _ member => absurd member List.not_mem_nil
              case once => exact List.nodup_nil
      | _ => simpa only [LockRegistry.step, here] using sound
  | proceed => exact sound.proceed thread
  | interrupt =>
      cases here : registry.threads thread with
      | acquiring event acquired remaining =>
          rw [here] at ordered
          simp only [LockRegistry.step, here]
          refine sound.goOn ?_ (by rw [here]; rfl)
            (by rw [here]; exact fun _ => List.mem_reverse) (by rw [here]; exact Iff.rfl)
          refine ordered.goOn (List.Sublist.refl _) (fun _ named => by cases named) ?_ ?_
          · exact fun entry member => ordered.within entry (List.mem_reverse.mp member)
          · exact List.nodup_reverse.mpr ordered.once
      | _ => simpa only [LockRegistry.step, here] using sound
  | finish =>
      cases here : registry.threads thread with
      | inside event entries =>
          rw [here] at ordered
          simp only [LockRegistry.step, here]
          refine sound.goOn ?_ (by rw [here]; rfl)
            (by rw [here]; exact fun _ => List.mem_reverse) (by rw [here]; exact Iff.rfl)
          refine ordered.goOn (List.Sublist.refl _) (fun _ named => by cases named) ?_ ?_
          · exact fun entry member => ordered.within entry (List.mem_reverse.mp member)
          · exact List.nodup_reverse.mpr ordered.once
      | _ => simpa only [LockRegistry.step, here] using sound

theorem sound_run (actions : List (Thread × HoldAction)) :
    (run (LockRegistry.step hash) empty actions).Sound hash :=
  run_invariant_always (I := fun registry : LockRegistry Thread => registry.Sound hash)
    (fun _ action sound => sound.step action) sound_empty

/-! ## What the registry gives -/

omit [DecidableEq Thread] in
/-- The entry whose lock is next is behind all that the thread has acquired. -/
theorem next_eq_some {entry : FenceEntry} (next : state.next = some entry) :
    ∃ event acquired remaining, state = .acquiring event acquired (entry :: remaining) := by
  cases state with
  | acquiring event acquired remaining =>
      cases remaining with
      | nil => cases next
      | cons first remaining =>
          obtain rfl : first = entry := Option.some.inj next
          exact ⟨event, acquired, remaining, rfl⟩
  | _ => cases next

omit [DecidableEq Thread] in
/-- A thread that is waited for has the lock, under the same key. -/
theorem Sound.held_of_owner (sound : registry.Sound hash) {entry : FenceEntry} {count : ℕ}
    (next : (registry.threads thread).next = some entry)
    (owner : registry.owner entry.2 = some (other, count)) :
    entry ∈ (registry.threads other).held := by
  obtain ⟨-, key, held⟩ := (sound.owned entry.2 other count).mp owner
  obtain ⟨event, acquired, remaining, here⟩ := next_eq_some next
  have same : key = entry.1 := by
    refine sound.counted.lock_inj other thread entry.2
      ((sound.ordered other).within _ held) ?_
    rw [here]
    exact List.mem_append_right _ List.mem_cons_self
  subst same
  exact held

omit [DecidableEq Thread] in
/-- **No cyclic wait**: who waits for a lock has a key before the one that its owner waits for,
and who has the guard does not wait. -/
theorem Sound.acyclic (sound : registry.Sound hash) (thread : Thread) :
    ¬Relation.TransGen registry.WaitsFor thread thread := by
  refine acyclic_of_ascending
    (fun thread => ((registry.threads thread).next.map Prod.fst).getD []) ?_ thread
  rintro first second third waits onward
  rcases waits with ⟨entry, count, next, owner, -⟩ | ⟨-, guard⟩
  · have held := sound.held_of_owner next owner
    rcases onward with ⟨later, -, needs, -, -⟩ | ⟨awaits, -⟩
    · obtain ⟨event, acquired, remaining, here⟩ := next_eq_some needs
      have sorted := (sound.ordered second).sorted
      rw [here] at held sorted
      have ascending := List.pairwise_append.mp
        ((List.map_append ▸ (List.pairwise_append.mp sorted).1 :
          (acquired.map Prod.fst ++ (later :: remaining).map Prod.fst).Pairwise (· < ·)))
      show ((registry.threads first).next.map Prod.fst).getD [] <
        ((registry.threads second).next.map Prod.fst).getD []
      rw [next, needs]
      exact ascending.2.2 entry.1 (List.mem_map_of_mem held) later.1 List.mem_cons_self
    -- Who waits for the guard has no lock.
    · cases here : registry.threads second with
      | entering event keys =>
          rw [here] at held
          exact absurd held List.not_mem_nil
      | leaving entries =>
          rw [here] at held
          exact absurd held List.not_mem_nil
      | _ =>
          rw [here] at awaits
          exact awaits.elim
  · have inside := (sound.guarded second).mp guard
    rcases onward with ⟨later, -, needs, -, -⟩ | ⟨awaits, -⟩
    · obtain ⟨event, acquired, remaining, here⟩ := next_eq_some needs
      rw [here] at inside
      exact inside.elim
    · cases here : registry.threads second with
      | registering event entries keys =>
          rw [here] at awaits
          exact awaits.elim
      | unregistering entries =>
          rw [here] at awaits
          exact awaits.elim
      | _ =>
          rw [here] at inside
          exact inside.elim

omit [DecidableEq Thread] in
/-- **One key has one lock**, as long as a thread has it or waits for it. -/
theorem Sound.one_lock (sound : registry.Sound hash) (thread other : Thread) {key : Text}
    {first second : ℕ}
    (here : (key, first) ∈ (registry.threads thread).entries)
    (there : (key, second) ∈ (registry.threads other).entries) : first = second :=
  Option.some.inj ((sound.counted.mapped thread _ here).symm.trans
    (sound.counted.mapped other _ there))

omit [DecidableEq Thread] in
/-- **Scopes that share a checkpoint are not held at the same time.** -/
theorem Sound.exclusive (sound : registry.Sound hash) {event event' : FencedEvent}
    {entries entries' : List FenceEntry} {target : Text}
    (here : registry.threads thread = .inside event entries)
    (there : registry.threads other = .inside event' entries')
    (identity : event.logicalKey = event'.logicalKey) (targeted : target ∈ event.targetClusters)
    (targeted' : target ∈ event'.targetClusters) : thread = other := by
  have entryOf : ∀ {user : Thread} {found : FencedEvent} {items : List FenceEntry},
      registry.threads user = .inside found items → target ∈ found.targetClusters →
      ∃ key entry, checkpointId hash found target = some key ∧ (key, entry) ∈ items ∧
        registry.owner entry = some (user, 1) := by
    intro user found items inside targeted
    have ordered := sound.ordered user
    rw [inside] at ordered
    obtain ⟨keys, listed, members⟩ := ordered.named found rfl
    obtain ⟨key, member, known⟩ := exists_eventCheckpointKey listed targeted
    have mine : key ∈ items.map Prod.fst ++ [] := (members key).mpr member
    rw [List.append_nil] at mine
    obtain ⟨⟨first, entry⟩, inItems, rfl⟩ := List.mem_map.mp mine
    refine ⟨first, entry, known, inItems, (sound.owned entry user 1).mpr ⟨rfl, first, ?_⟩⟩
    rw [inside]
    exact inItems
  obtain ⟨key, entry, known, member, owner⟩ := entryOf here targeted
  obtain ⟨key', entry', known', member', owner'⟩ := entryOf there targeted'
  obtain rfl : key = key' :=
    Option.some.inj (known.symm.trans ((checkpointId_congr identity target).trans known'))
  obtain rfl := sound.one_lock thread other (by rw [here]; exact member)
    (by rw [there]; exact member')
  exact (Prod.mk.inj (Option.some.inj (owner.symm.trans owner'))).1

end LockRegistry

end ImposbroSearch.Indexing
