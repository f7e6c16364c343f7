import ImposbroSearch.Indexing.CheckpointCodec
import ImposbroSearch.Indexing.FenceRegistry

/-!
# Fences are exclusive and free of deadlock

The advisory locks of two checkpoints may be the same lock. They ascend all the same, since
the first 64 bits of digests ascend with the digests, so who waits for a lock that another
session has waits for a greater one than all that it has. The sign of a lock key does not
matter for that: the key is determined by the 64 bits, and determines them.
-/

namespace ImposbroSearch.Indexing

open ImposbroSearch.Foundation EventEnvelope

/-! ## Numbers of digests -/

theorem digestDigit_lt {c : ℕ} (hex : isHex c = true) : digestDigit c < 16 := by
  simp only [isHex, isDigit, Bool.or_eq_true, Bool.and_eq_true, decide_eq_true_eq] at hex
  unfold digestDigit
  split <;> omega

/-- The digits ascend with their characters. -/
theorem digestDigit_lt_of_lt {c d : ℕ} (hex : isHex c = true) (hex' : isHex d = true)
    (less : c < d) : digestDigit c < digestDigit d := by
  simp only [isHex, isDigit, Bool.or_eq_true, Bool.and_eq_true, decide_eq_true_eq] at hex hex'
  unfold digestDigit
  split <;> split <;> omega

/-- Digits that are read after a number. -/
theorem digestNumber_bounds (digits : Text) (hex : ∀ c ∈ digits, isHex c = true) (n : ℕ) :
    n * 16 ^ digits.length ≤ digits.foldl (fun n c => 16 * n + digestDigit c) n ∧
      digits.foldl (fun n c => 16 * n + digestDigit c) n < (n + 1) * 16 ^ digits.length := by
  induction digits generalizing n with
  | nil => simp
  | cons c digits ih =>
      have digit := digestDigit_lt (hex c List.mem_cons_self)
      obtain ⟨low, high⟩ :=
        ih (fun c member => hex c (List.mem_cons_of_mem _ member)) (16 * n + digestDigit c)
      rw [List.foldl_cons, List.length_cons, pow_succ]
      have positive : 0 < 16 ^ digits.length := Nat.pow_pos (by decide)
      constructor
      · nlinarith
      · nlinarith

theorem digestNumber_lt {key : Text} (digest : isSha256 key = true) :
    digestNumber (key.take 16) < 2 ^ 64 := by
  simp only [isSha256, Bool.and_eq_true, decide_eq_true_eq, List.all_eq_true] at digest
  have bounds := (digestNumber_bounds (key.take 16)
    (fun c member => digest.2 c (List.mem_of_mem_take member)) 0).2
  rw [List.length_take, digest.1] at bounds
  exact bounds

/-- Two digests have one advisory lock if their first 64 bits are the same. -/
theorem advisoryLockKey_inj {first second : Text} (digest : isSha256 first = true)
    (digest' : isSha256 second = true) :
    advisoryLockKey first = advisoryLockKey second ↔
      digestNumber (first.take 16) = digestNumber (second.take 16) := by
  have bound := digestNumber_lt digest
  have bound' := digestNumber_lt digest'
  unfold advisoryLockKey
  constructor
  · intro same
    dsimp only at same
    split at same <;> split at same <;> omega
  · intro same
    rw [same]

theorem cons_le_cons {c d : ℕ} {first second : Text} (below : c :: first ≤ d :: second) :
    c < d ∨ c = d ∧ first ≤ second := by
  rcases lt_or_eq_of_le below with less | same
  · have lex : List.Lex (· < ·) (c :: first) (d :: second) := less
    cases lex with
    | cons rest => exact Or.inr ⟨rfl, le_of_lt rest⟩
    | rel less => exact Or.inl less
  · cases same
    exact Or.inr ⟨rfl, le_rfl⟩

/-- The first digits ascend with the texts. -/
theorem digestNumber_mono {count n : ℕ} {first second : Text}
    (hex : ∀ c ∈ first, isHex c = true) (hex' : ∀ c ∈ second, isHex c = true)
    (long : count ≤ first.length) (long' : count ≤ second.length) (below : first ≤ second) :
    (first.take count).foldl (fun n c => 16 * n + digestDigit c) n ≤
      (second.take count).foldl (fun n c => 16 * n + digestDigit c) n := by
  induction count generalizing n first second with
  | zero => simp
  | succ count ih =>
      cases first with
      | nil => simp at long
      | cons c first =>
          cases second with
          | nil => simp at long'
          | cons d second =>
              rw [List.length_cons, Nat.add_le_add_iff_right] at long long'
              have rest := fun c member => hex c (List.mem_cons_of_mem _ member)
              have rest' := fun c member => hex' c (List.mem_cons_of_mem _ member)
              rw [List.take_succ_cons, List.take_succ_cons, List.foldl_cons, List.foldl_cons]
              rcases cons_le_cons below with less | ⟨rfl, behind⟩
              -- The digits that follow make up for less than one.
              · have digit := digestDigit_lt_of_lt (hex c List.mem_cons_self)
                  (hex' d List.mem_cons_self) less
                have high := (digestNumber_bounds (first.take count)
                  (fun c member => rest c (List.mem_of_mem_take member))
                  (16 * n + digestDigit c)).2
                have low := (digestNumber_bounds (second.take count)
                  (fun c member => rest' c (List.mem_of_mem_take member))
                  (16 * n + digestDigit d)).1
                rw [List.length_take, min_eq_left long] at high
                rw [List.length_take, min_eq_left long'] at low
                refine le_of_lt (high.trans_le (le_trans ?_ low))
                exact Nat.mul_le_mul_right _ (by omega)
              · exact ih rest rest' long long' behind

/-- **The first 64 bits of digests ascend with the digests.** -/
theorem digestNumber_le {first second : Text} (digest : isSha256 first = true)
    (digest' : isSha256 second = true) (below : first ≤ second) :
    digestNumber (first.take 16) ≤ digestNumber (second.take 16) := by
  simp only [isSha256, Bool.and_eq_true, decide_eq_true_eq, List.all_eq_true] at digest digest'
  exact digestNumber_mono digest.2 digest'.2 (by omega) (by omega) below

/-! ## What a session has -/

namespace SessionState

variable {sha256 : Sha256} {session : SessionState}

/-- The keys that are not locked yet. -/
def remaining : SessionState → List Text
  | .locking _ _ remaining => remaining
  | _ => []

/-- The event that the session fences. -/
def event : SessionState → Option FencedEvent
  | .idle => none
  | .locking event _ _ => some event
  | .inside event _ => some event

/-- A session locks the keys of its event in ascending order. -/
structure Ordered (sha256 : Sha256) (session : SessionState) : Prop where
  sorted : (session.locked ++ session.remaining).Pairwise (· ≤ ·)
  named : ∀ key ∈ session.locked ++ session.remaining, isSha256 key = true
  keys : ∀ event, session.event = some event →
    ∃ keys, eventCheckpointKeys sha256.hexdigest event = some keys ∧
      ∀ key, key ∈ session.locked ++ session.remaining ↔ key ∈ keys

theorem ordered_idle : SessionState.idle.Ordered sha256 where
  sorted := List.Pairwise.nil
  named _ member := absurd member List.not_mem_nil
  keys _ found := by cases found

end SessionState

theorem isSha256_of_checkpointId {sha256 : Sha256} {event : FencedEvent} {target key : Text}
    (known : checkpointId sha256.hexdigest event target = some key) : isSha256 key = true := by
  obtain ⟨bytes, -, rfl⟩ := Option.map_eq_some_iff.mp known
  exact sha256.shape bytes

namespace AdvisoryLocks

variable {Worker : Type} [DecidableEq Worker] {sha256 : Sha256} {locks next : AdvisoryLocks Worker}
  {worker other : Worker} {session : SessionState}

/-- A lock is owned by the session that has locked one of its keys. -/
def Owned (locks : AdvisoryLocks Worker) : Prop :=
  ∀ lock worker, locks.owner lock = some worker ↔
    ∃ key ∈ (locks.sessions worker).locked, advisoryLockKey key = lock

theorem Owned.frame (owned : locks.Owned) (owner : next.owner = locks.owner)
    (sessions : next.sessions = Function.update locks.sessions worker session)
    (same : session.locked = (locks.sessions worker).locked) : next.Owned := by
  intro lock other
  rw [owner, sessions, update_congr SessionState.locked same]
  exact owned lock other

/-- A session locks a key whose lock is free or its own. -/
theorem Owned.lock (owned : locks.Owned) {key : Text}
    (free : locks.owner (advisoryLockKey key) = none ∨
      locks.owner (advisoryLockKey key) = some worker)
    (locked : session.locked = (locks.sessions worker).locked ++ [key])
    (owner : next.owner = Function.update locks.owner (advisoryLockKey key) (some worker))
    (sessions : next.sessions = Function.update locks.sessions worker session) : next.Owned := by
  have mine : ∀ user other, other ∈ (locks.sessions user).locked →
      advisoryLockKey other = advisoryLockKey key → user = worker := by
    intro user other member same
    have taken := (owned (advisoryLockKey key) user).mpr ⟨other, member, same⟩
    rcases free with free | own
    · rw [free] at taken
      cases taken
    · exact Option.some.inj (taken.symm.trans own)
  intro lock user
  rw [owner, sessions]
  by_cases here : user = worker
  · subst here
    rw [Function.update_self, locked]
    by_cases same : lock = advisoryLockKey key
    · subst same
      rw [Function.update_self]
      exact ⟨fun _ => ⟨key, List.mem_append_right _ List.mem_cons_self, rfl⟩, fun _ => rfl⟩
    · rw [Function.update_of_ne same, owned]
      simp [Ne.symm same, or_and_right, exists_or]
  · rw [Function.update_of_ne here]
    by_cases same : lock = advisoryLockKey key
    · subst same
      rw [Function.update_self]
      constructor
      · intro taken
        exact absurd (Option.some.inj taken).symm here
      · rintro ⟨other, member, equal⟩
        exact absurd (mine user other member equal) here
    · rw [Function.update_of_ne same]
      exact owned lock user

/-- The end of a transaction takes its locks away, and no others. -/
theorem Owned.endTransaction (owned : locks.Owned) (worker : Worker) :
    (locks.endTransaction worker).Owned := by
  intro lock user
  show (if locks.owner lock = some worker then none else locks.owner lock) = some user ↔
    ∃ key ∈ (Function.update locks.sessions worker .idle user).locked, advisoryLockKey key = lock
  by_cases here : user = worker
  · subst here
    rw [Function.update_self]
    constructor
    · intro taken
      split at taken
      · cases taken
      · contradiction
    · rintro ⟨key, member, -⟩
      exact absurd member List.not_mem_nil
  · rw [Function.update_of_ne here, ← owned lock user]
    split
    · rename_i own
      rw [own]
      exact ⟨fun taken => (by cases taken), fun same => absurd (Option.some.inj same).symm here⟩
    · exact Iff.rfl

/-- What holds of the locks after every step. -/
structure Sound (sha256 : Sha256) (locks : AdvisoryLocks Worker) : Prop where
  ordered : ∀ worker, (locks.sessions worker).Ordered sha256
  owned : locks.Owned

omit [DecidableEq Worker] in
theorem sound_empty : (empty : AdvisoryLocks Worker).Sound sha256 where
  ordered _ := SessionState.ordered_idle
  owned _ _ := ⟨fun found => (by cases found), fun ⟨_, member, _⟩ => absurd member List.not_mem_nil⟩

theorem Sound.endTransaction (sound : locks.Sound sha256) (worker : Worker) :
    (locks.endTransaction worker).Sound sha256 where
  ordered := update_all sound.ordered SessionState.ordered_idle
  owned := sound.owned.endTransaction worker

/-- **A step keeps what holds.** -/
theorem Sound.step (sound : locks.Sound sha256) (action : Worker × ScopeAction) :
    (locks.step sha256.hexdigest action).Sound sha256 := by
  obtain ⟨worker, action⟩ := action
  have ordered := sound.ordered worker
  cases action with
  | scope event =>
      cases here : locks.sessions worker with
      | idle =>
          cases found : eventCheckpointKeys sha256.hexdigest event with
          | none => simpa only [AdvisoryLocks.step, here, found] using sound
          | some keys =>
              simp only [AdvisoryLocks.step, here, found]
              have members : ∀ key, key ∈ sortedKeys keys ↔ key ∈ keys :=
                fun key => (sortedKeys_perm keys).mem_iff
              constructor
              case ordered =>
                refine update_all sound.ordered ?_
                constructor
                case sorted => exact sortedKeys_sorted keys
                case named =>
                  intro key member
                  obtain ⟨target, -, known⟩ :=
                    (mem_eventCheckpointKeys found).mp ((members key).mp member)
                  exact isSha256_of_checkpointId known
                case keys =>
                  rintro _ ⟨⟩
                  exact ⟨keys, found, members⟩
              case owned => exact sound.owned.frame rfl rfl (by rw [here]; rfl)
      | _ => simpa only [AdvisoryLocks.step, here] using sound
  | lock =>
      cases here : locks.sessions worker with
      | locking event locked remaining =>
          rw [here] at ordered
          cases remaining with
          | cons key remaining =>
              simp only [AdvisoryLocks.step, here]
              split
              · have all : (locked ++ [key]) ++ remaining = locked ++ key :: remaining := by simp
                constructor
                case ordered =>
                  refine update_all sound.ordered ⟨?_, ?_, ?_⟩
                  · exact all ▸ ordered.sorted
                  · exact all ▸ ordered.named
                  · exact all ▸ ordered.keys
                case owned =>
                  exact sound.owned.lock ‹_› (by rw [here]; rfl) rfl rfl
              · exact sound
          | nil =>
              simp only [AdvisoryLocks.step, here]
              constructor
              case ordered =>
                exact update_all sound.ordered ⟨ordered.sorted, ordered.named, ordered.keys⟩
              case owned => exact sound.owned.frame rfl rfl (by rw [here]; rfl)
      | _ => simpa only [AdvisoryLocks.step, here] using sound
  | fail =>
      cases here : locks.sessions worker with
      | locking event locked remaining =>
          simp only [AdvisoryLocks.step, here]
          exact sound.endTransaction worker
      | _ => simpa only [AdvisoryLocks.step, here] using sound
  | finish =>
      cases here : locks.sessions worker with
      | inside event locked =>
          simp only [AdvisoryLocks.step, here]
          exact sound.endTransaction worker
      | _ => simpa only [AdvisoryLocks.step, here] using sound

theorem sound_run (actions : List (Worker × ScopeAction)) :
    (run (AdvisoryLocks.step sha256.hexdigest) empty actions).Sound sha256 :=
  run_invariant_always (I := fun locks : AdvisoryLocks Worker => locks.Sound sha256)
    (fun _ action sound => sound.step action) sound_empty

omit [DecidableEq Worker] in
/-- The key whose lock is next is behind all that the session has locked. -/
theorem next_eq_some {key : Text} (next : session.next = some key) :
    ∃ event locked remaining, session = .locking event locked (key :: remaining) := by
  cases session with
  | locking event locked remaining =>
      cases remaining with
      | nil => cases next
      | cons first remaining =>
          obtain rfl : first = key := Option.some.inj next
          exact ⟨event, locked, remaining, rfl⟩
  | _ => cases next

omit [DecidableEq Worker] in
/-- The lock that a waiting session needs is greater than those that it has. -/
theorem Sound.number_lt (sound : locks.Sound sha256) {needed held : Text}
    (next : (locks.sessions worker).next = some needed)
    (has : held ∈ (locks.sessions worker).locked)
    (different : advisoryLockKey held ≠ advisoryLockKey needed) :
    digestNumber (held.take 16) < digestNumber (needed.take 16) := by
  obtain ⟨event, locked, remaining, here⟩ := next_eq_some next
  have ordered := sound.ordered worker
  rw [here] at ordered has
  have sorted : (locked ++ needed :: remaining).Pairwise (· ≤ ·) := ordered.sorted
  have below := (List.pairwise_append.mp sorted).2.2 held has needed List.mem_cons_self
  have digest := ordered.named held (List.mem_append_left _ has)
  have digest' := ordered.named needed (List.mem_append_right _ List.mem_cons_self)
  refine lt_of_le_of_ne (digestNumber_le digest digest' below) fun same => ?_
  exact different ((advisoryLockKey_inj digest digest').mpr same)

omit [DecidableEq Worker] in
/-- **No cyclic wait**, whichever checkpoints share a lock. -/
theorem Sound.acyclic (sound : locks.Sound sha256) (worker : Worker) :
    ¬Relation.TransGen locks.WaitsFor worker worker := by
  refine acyclic_of_ascending
    (fun worker => ((locks.sessions worker).next.map fun key => digestNumber (key.take 16)).getD 0)
    ?_ worker
  rintro first second third ⟨key, next, owner, -⟩ ⟨later, needs, owner', other⟩
  obtain ⟨held, has, same⟩ := (sound.owned _ second).mp owner
  have digest : isSha256 key = true := by
    obtain ⟨event, locked, remaining, here⟩ := next_eq_some next
    have ordered := sound.ordered first
    rw [here] at ordered
    exact ordered.named key (List.mem_append_right _ List.mem_cons_self)
  have digest' : isSha256 held = true :=
    (sound.ordered second).named held (List.mem_append_left _ has)
  have different : advisoryLockKey held ≠ advisoryLockKey later := by
    intro equal
    rw [same] at equal
    rw [← equal, owner] at owner'
    exact other (Option.some.inj owner').symm
  have ascends := sound.number_lt needs has different
  rw [(advisoryLockKey_inj digest' digest).mp same] at ascends
  show ((locks.sessions first).next.map fun key => digestNumber (key.take 16)).getD 0 <
    ((locks.sessions second).next.map fun key => digestNumber (key.take 16)).getD 0
  rw [next, needs]
  exact ascends

omit [DecidableEq Worker] in
/-- **Scopes that share a checkpoint are not held at the same time.** -/
theorem Sound.exclusive (sound : locks.Sound sha256) {event event' : FencedEvent}
    {locked locked' : List Text} {target : Text}
    (here : locks.sessions worker = .inside event locked)
    (there : locks.sessions other = .inside event' locked')
    (identity : event.logicalKey = event'.logicalKey) (targeted : target ∈ event.targetClusters)
    (targeted' : target ∈ event'.targetClusters) : worker = other := by
  have lockOf : ∀ {user : Worker} {found : FencedEvent} {keys : List Text},
      locks.sessions user = .inside found keys → target ∈ found.targetClusters →
      ∃ key, checkpointId sha256.hexdigest found target = some key ∧
        locks.owner (advisoryLockKey key) = some user := by
    intro user found items inside targeted
    have ordered := sound.ordered user
    rw [inside] at ordered
    obtain ⟨keys, listed, members⟩ := ordered.keys found rfl
    obtain ⟨key, member, known⟩ := exists_eventCheckpointKey listed targeted
    have mine : key ∈ items ++ [] := (members key).mpr member
    rw [List.append_nil] at mine
    refine ⟨key, known, (sound.owned _ user).mpr ⟨key, ?_, rfl⟩⟩
    rw [inside]
    exact mine
  obtain ⟨key, known, owner⟩ := lockOf here targeted
  obtain ⟨key', known', owner'⟩ := lockOf there targeted'
  obtain rfl : key = key' :=
    Option.some.inj (known.symm.trans ((checkpointId_congr identity target).trans known'))
  exact Option.some.inj (owner.symm.trans owner')

end AdvisoryLocks

/-! ## The fences -/

/-- **Fences are exclusive and free of deadlock.** After every interleaving of the lines of
any threads, with waits that end in exceptions: nobody waits in a circle, scopes that share an
identity and a target are not held at the same time, and threads that have a key, or wait for
it, have the lock of the one entry that the registry hands out for it. After every
interleaving of workers, whichever checkpoints share an advisory lock, nobody waits in a
circle, and scopes that share an identity and a target are not held at the same time. -/
theorem fences_exclusive_and_deadlock_free (sha256 : Sha256) (Thread Worker : Type)
    [DecidableEq Thread] [DecidableEq Worker] :
    (∀ actions : List (Thread × HoldAction),
      let registry := run (LockRegistry.step sha256.hexdigest) LockRegistry.empty actions
      (∀ thread, ¬Relation.TransGen registry.WaitsFor thread thread) ∧
      (∀ first second event event' entries entries' target,
        registry.threads first = .inside event entries →
        registry.threads second = .inside event' entries' →
        event.logicalKey = event'.logicalKey → target ∈ event.targetClusters →
        target ∈ event'.targetClusters → first = second) ∧
      (∀ first second key entry entry', (key, entry) ∈ (registry.threads first).entries →
        (key, entry') ∈ (registry.threads second).entries → entry = entry') ∧
      ∀ thread, ∀ entry ∈ (registry.threads thread).entries,
        registry.entries entry.1 = some entry.2) ∧
    ∀ actions : List (Worker × ScopeAction),
      let locks := run (AdvisoryLocks.step sha256.hexdigest) AdvisoryLocks.empty actions
      (∀ worker, ¬Relation.TransGen locks.WaitsFor worker worker) ∧
      ∀ first second event event' locked locked' target,
        locks.sessions first = .inside event locked →
        locks.sessions second = .inside event' locked' →
        event.logicalKey = event'.logicalKey → target ∈ event.targetClusters →
        target ∈ event'.targetClusters → first = second := by
  constructor
  · intro actions registry
    have sound : registry.Sound sha256.hexdigest := LockRegistry.sound_run actions
    refine ⟨sound.acyclic, ?_, ?_, sound.counted.mapped⟩
    · intro first second event event' entries entries' target here there
      exact sound.exclusive here there
    · exact fun first second key entry entry' => sound.one_lock first second
  · intro actions locks
    have sound : locks.Sound sha256 := AdvisoryLocks.sound_run actions
    refine ⟨sound.acyclic, ?_⟩
    intro first second event event' locked locked' target here there
    exact sound.exclusive here there

end ImposbroSearch.Indexing
