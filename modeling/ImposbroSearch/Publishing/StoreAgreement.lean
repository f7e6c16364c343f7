import ImposbroSearch.Foundation.Lockstep
import ImposbroSearch.Publishing.InMemoryStore
import ImposbroSearch.Publishing.StoreSequencing

/-!
# The in-memory and Postgres stores agree

The dictionary of the in-memory store is the outbox of the other, row by row, and its
counter is the last position. Every operation keeps this, as long as what is stored
fits the tables and no generated id comes twice.
-/

namespace ImposbroSearch.Publishing

open ImposbroSearch.Foundation ImposbroSearch.Indexing

variable {Doc : Type}

/-- The dictionary entry of a row. -/
def EventRow.entry (row : EventRow Doc) : String × RequestDigest × StoredEvent Doc :=
  (row.idempotencyKeyHash, row.requestDigest, rowToEvent row)

/-- **The correspondence of the two stores.** -/
structure Mirrors (memory : InMemoryStore Doc) (postgres : PostgresStore Doc) : Prop where
  sound : postgres.tables.Sound
  byKey : memory.byKey = postgres.tables.outbox.map EventRow.entry
  heads : ∀ key, memory.heads key = postgres.tables.lastSequence key
  next : postgres.nextPosition = memory.globalPosition + 1
  positions : postgres.tables.outbox.map EventRow.globalPosition =
    List.range' 1 memory.globalPosition
  ids : (postgres.tables.outbox.map EventRow.eventId).Nodup
  headed : ∀ key, postgres.tables.heads key ≠ none → postgres.tables.rowsOf key ≠ []
  registrable : ∀ row ∈ postgres.tables.outbox, row.payload.event.mutation.operation ≠ .upsert →
    RegistrableIdentity row.payload.event.identity

variable {memory : InMemoryStore Doc} {postgres : PostgresStore Doc} {canonical : Doc → String}

theorem mirrors_empty : Mirrors (InMemoryStore.empty : InMemoryStore Doc) PostgresStore.empty where
  sound := EventTables.sound_empty
  byKey := rfl
  heads _ := rfl
  next := rfl
  positions := rfl
  ids := List.nodup_nil
  headed _ missing := absurd rfl missing
  registrable _ stored := by cases stored

/-! ## What corresponding stores show -/

theorem Mirrors.events (mirrors : Mirrors memory postgres) :
    memory.events = postgres.tables.outbox.map rowToEvent := by
  unfold InMemoryStore.events
  rw [mirrors.byKey, List.map_map]
  rfl

/-- A key finds the entry of its row. -/
theorem Mirrors.lookup (mirrors : Mirrors memory postgres) (keyHash : String) :
    memory.byKey.lookup keyHash =
      (postgres.tables.existingForKey keyHash).map fun row => row.entry.2 := by
  rw [mirrors.byKey]
  unfold EventTables.existingForKey
  induction postgres.tables.outbox with
  | nil => rfl
  | cons row rows ih =>
      rw [List.map_cons]
      unfold EventRow.entry at ih ⊢
      by_cases same : row.idempotencyKeyHash = keyHash
      · simp [same]
      · have differs : (keyHash == row.idempotencyKeyHash) = false :=
          beq_eq_false_iff_ne.mpr (Ne.symm same)
        rw [List.lookup, differs, List.find?_cons_of_neg (by simpa using same)]
        exact ih

/-- Rows lie in the order of their positions. -/
theorem Mirrors.ordered (mirrors : Mirrors memory postgres) :
    postgres.tables.outbox.Pairwise fun first second =>
      first.globalPosition < second.globalPosition := by
  rw [← List.pairwise_map, mirrors.positions]
  exact List.pairwise_lt_range'

theorem Mirrors.position_le (mirrors : Mirrors memory postgres) {row : EventRow Doc}
    (stored : row ∈ postgres.tables.outbox) :
    1 ≤ row.globalPosition ∧ row.globalPosition ≤ memory.globalPosition := by
  have member := List.mem_map_of_mem (f := EventRow.globalPosition) stored
  rw [mirrors.positions, List.mem_range'_1] at member
  omega

/-- The events of an identity are its rows. -/
theorem Mirrors.eventsOf (mirrors : Mirrors memory postgres) (identityKey : String) :
    (memory.events.filter fun event => event.identityHash = identityKey) =
      (postgres.tables.rowsOf identityKey).map rowToEvent := by
  rw [mirrors.events, List.filter_map]
  unfold EventTables.rowsOf
  congr 1
  refine List.filter_congr fun row stored => ?_
  have same : (rowToEvent row).identityHash = row.identityHash := mirrors.sound.hashed row stored
  simp [same]

/-! ## The newest event of an identity -/

theorem largestSequence_getLast {events : List (StoredEvent Doc)}
    (ordered : events.Pairwise fun first second => first.sequence < second.sequence) :
    largestSequence events = events.getLast? := by
  induction events using List.reverseRecOn with
  | nil => rfl
  | append_singleton events last ih =>
      obtain ⟨before, -, above⟩ := List.pairwise_append.mp ordered
      have ih := ih before
      cases events with
      | nil => rfl
      | cons event events =>
          have step : largestSequence (event :: events ++ [last]) =
              (largestSequence (event :: events)).map fun largest =>
                if largest.sequence < last.sequence then last else largest := by
            simp [largestSequence]
          obtain ⟨largest, member, same⟩ : ∃ largest ∈ event :: events,
              (event :: events).getLast? = some largest :=
            ⟨(event :: events).getLast (by simp), List.getLast_mem _,
              List.getLast?_eq_some_getLast _⟩
          rw [step, ih, same, Option.map_some,
            if_pos (above largest member last List.mem_cons_self), List.getLast?_concat]

theorem newestRow_getLast {rows : List (EventRow Doc)}
    (ordered : rows.Pairwise fun first second => first.sequence < second.sequence) :
    EventTables.newestRow rows = rows.getLast? := by
  induction rows with
  | nil => rfl
  | cons row rows ih =>
      obtain ⟨above, rest⟩ := List.pairwise_cons.mp ordered
      unfold EventTables.newestRow
      rw [ih rest]
      cases found : rows.getLast? with
      | none =>
          rw [List.getLast?_eq_none_iff] at found
          subst found
          rfl
      | some later =>
          have lower := above later (List.mem_of_getLast? found)
          simp only
          rw [if_neg (not_lt.mpr lower.le), List.getLast?_cons, found]
          rfl

/-- The rows of an identity lie in the order of their sequences. -/
theorem sequences_ordered {tables : EventTables Doc} (sound : tables.Sound) (identityKey : String) :
    (tables.rowsOf identityKey).Pairwise fun first second => first.sequence < second.sequence := by
  rw [← List.pairwise_map, sound.counted]
  exact List.pairwise_lt_range'

/-- Both stores take the same event for the newest of an identity. -/
theorem Mirrors.newest (mirrors : Mirrors memory postgres) (identityKey : String) :
    largestSequence (memory.events.filter fun event => event.identityHash = identityKey) =
      (EventTables.newestRow (postgres.tables.rowsOf identityKey)).map rowToEvent := by
  have ordered := sequences_ordered mirrors.sound identityKey
  rw [mirrors.eventsOf, newestRow_getLast ordered, largestSequence_getLast, List.getLast?_map]
  exact List.pairwise_map.mpr ordered

/-! ## Insertions -/

/-- The largest position is the counter of the in-memory store. -/
theorem Mirrors.maxPosition (mirrors : Mirrors memory postgres) :
    postgres.tables.maxPosition = memory.globalPosition := by
  have values : postgres.tables.maxPosition =
      (postgres.tables.outbox.map EventRow.globalPosition).foldr max 0 := by
    unfold EventTables.maxPosition
    rw [List.foldr_map]
  have counted : ∀ count, (List.range' 1 count).foldr max 0 = count := by
    intro count
    induction count with
    | zero => rfl
    | succ count ih =>
        rw [List.range'_1_concat, List.foldr_append]
        have split : ∀ (numbers : List ℕ) (last : ℕ),
            numbers.foldr max last = max (numbers.foldr max 0) last := by
          intro numbers last
          induction numbers with
          | nil => simp
          | cons number numbers ih => simp [ih, max_assoc]
        rw [List.foldr_cons, List.foldr_nil, split, ih]
        omega
  rw [values, mirrors.positions, counted]

/-- A row is no later than the head of its identity. -/
theorem sequence_le {tables : EventTables Doc} (sound : tables.Sound) {row : EventRow Doc}
    (stored : row ∈ tables.outbox) : row.sequence ≤ tables.lastSequence row.identityHash := by
  have listed : row ∈ tables.rowsOf row.identityHash := by simp [EventTables.rowsOf, stored]
  have member := List.mem_map_of_mem (f := EventRow.sequence) listed
  rw [sound.counted, List.mem_range'_1] at member
  omega

section Insert

variable {tables : EventTables Doc} {draft : TracedDraft Doc} {eventId : String} {now : ℕ}

/-- The in-memory store adds an entry for a new key. -/
theorem Mirrors.prepare_missing (mirrors : Mirrors memory postgres)
    (missing : postgres.tables.existingForKey draft.idempotencyKeyHash = none) :
    memory.prepare canonical draft eventId now =
      let row := insertedRow canonical draft eventId
        (postgres.tables.lastSequence draft.identity.logicalKey) now postgres.nextPosition
      (.event (rowToEvent row),
        { heads := fun key =>
            if key = row.identityHash then row.sequence else memory.heads key
          byKey := memory.byKey ++ [row.entry]
          globalPosition := memory.globalPosition + 1 }) := by
  unfold InMemoryStore.prepare
  rw [mirrors.lookup, missing, mirrors.next]
  simp only [Option.map_none, mirrors.heads]
  rfl

/-- The Postgres store inserts a row for a new key. -/
theorem Mirrors.insertOutboxEvent (mirrors : Mirrors memory postgres) (sound : tables.Sound)
    (outbox : tables.outbox = postgres.tables.outbox)
    (missing : postgres.tables.existingForKey draft.idempotencyKeyHash = none)
    (registrable : draft.mutation.operation ≠ .upsert → draft.Registrable)
    (fresh : ∀ row ∈ postgres.tables.outbox, row.eventId ≠ eventId) :
    postgres.insertOutboxEvent canonical tables draft eventId
        (tables.lastSequence draft.identity.logicalKey) now =
      let row := insertedRow canonical draft eventId
        (tables.lastSequence draft.identity.logicalKey) now postgres.nextPosition
      (.event (rowToEvent row),
        { tables := tables.insertEvent row, nextPosition := postgres.nextPosition + 1 }) := by
  unfold PostgresStore.insertOutboxEvent
  simp only
  rw [if_neg, if_neg, if_neg]
  · rintro ⟨-, stale⟩
    have buried := sound.buried draft.identity.logicalKey
    simp only [insertedRow] at stale
    omega
  · rintro ⟨deletion, refused⟩
    exact refused (registrable deletion)
  · rw [not_not]
    intro other member
    have stored : other ∈ postgres.tables.outbox := outbox ▸ member
    refine ⟨fresh other stored, ?_, ?_, ?_⟩
    · have absent : ¬other.idempotencyKeyHash = draft.idempotencyKeyHash := by
        simpa using List.find?_eq_none.mp missing other stored
      exact absent
    · have below := (mirrors.position_le stored).2
      have drawn := mirrors.next
      simp only [insertedRow]
      omega
    · rintro ⟨identity, sequence⟩
      have last := sequence_le sound member
      rw [identity, sequence] at last
      simp only [insertedRow] at last
      omega

/-- **A new event** is the same in both stores, and its row is the new entry. The
tables may have gained the head of its identity before. -/
theorem Mirrors.insert (mirrors : Mirrors memory postgres) (sound : tables.Sound)
    (outbox : tables.outbox = postgres.tables.outbox)
    (last : ∀ key, tables.lastSequence key = postgres.tables.lastSequence key)
    (heads : ∀ key, tables.heads key ≠ none →
      postgres.tables.heads key ≠ none ∨ key = draft.identity.logicalKey)
    (missing : postgres.tables.existingForKey draft.idempotencyKeyHash = none)
    (registrable : draft.mutation.operation ≠ .upsert → draft.Registrable)
    (fresh : ∀ row ∈ postgres.tables.outbox, row.eventId ≠ eventId) :
    let inserted := postgres.insertOutboxEvent canonical tables draft eventId
      (tables.lastSequence draft.identity.logicalKey) now
    (memory.prepare canonical draft eventId now).1 = inserted.1 ∧
      Mirrors (memory.prepare canonical draft eventId now).2 inserted.2 := by
  rw [mirrors.prepare_missing missing,
    mirrors.insertOutboxEvent sound outbox missing registrable fresh, last]
  refine ⟨rfl, ?_⟩
  simp only
  set row := insertedRow canonical draft eventId
    (postgres.tables.lastSequence draft.identity.logicalKey) now postgres.nextPosition with here
  have unused : ∀ other ∈ tables.outbox, other.idempotencyKeyHash ≠ row.idempotencyKeyHash := by
    intro other member
    have absent := List.find?_eq_none.mp missing other (outbox ▸ member)
    simpa [here, insertedRow] using absent
  have below : ∀ other ∈ tables.outbox, other.globalPosition < row.globalPosition := by
    intro other member
    have position := (mirrors.position_le (outbox ▸ member)).2
    have drawn := mirrors.next
    simp only [here, insertedRow]
    omega
  constructor
  case sound =>
    refine sound.insertEvent ?_ (fun other member => below other (List.mem_of_mem_filter member))
      unused rfl
    exact congrArg (· + 1) (last draft.identity.logicalKey).symm
  case byKey =>
    show memory.byKey ++ [row.entry] = (tables.outbox ++ [row]).map EventRow.entry
    rw [List.map_append, outbox, mirrors.byKey]
    rfl
  case heads =>
    intro key
    rw [EventTables.lastSequence_insertEvent, last, ← mirrors.heads]
  case next =>
    show postgres.nextPosition + 1 = memory.globalPosition + 1 + 1
    rw [mirrors.next]
  case positions =>
    show (tables.outbox ++ [row]).map EventRow.globalPosition =
      List.range' 1 (memory.globalPosition + 1)
    rw [List.map_append, outbox, mirrors.positions, List.range'_1_concat]
    simp [here, insertedRow, mirrors.next, Nat.add_comm]
  case ids =>
    show ((tables.outbox ++ [row]).map EventRow.eventId).Nodup
    rw [List.map_append, outbox, List.nodup_append]
    refine ⟨mirrors.ids, List.nodup_singleton _, ?_⟩
    intro id member other single same
    obtain ⟨old, stored, rfl⟩ := List.mem_map.mp member
    rw [List.map_singleton, List.mem_singleton] at single
    exact fresh old stored (same.trans single)
  case headed =>
    intro key found
    rw [EventTables.rowsOf_insertEvent]
    split_ifs with same
    · simp
    · have before : tables.heads key ≠ none := by
        unfold EventTables.insertEvent at found
        simp only at found
        rwa [if_neg same] at found
      rcases heads key before with stored | own
      · have rows := mirrors.headed key stored
        unfold EventTables.rowsOf at rows ⊢
        rw [outbox]
        exact rows
      · exact absurd own same
  case registrable =>
    intro other member deletion
    rcases List.mem_append.mp member with stored | single
    · exact mirrors.registrable other (outbox ▸ stored) deletion
    · obtain rfl := List.mem_singleton.mp single
      exact (registrable deletion).1

end Insert

/-! ## Updates -/

section Update

variable {eventId : String} {update : EventRow Doc → EventRow Doc}
  {replacement : StoredEvent Doc → StoredEvent Doc}

/-- The update of one row corresponds to the replacement of one event. -/
structure Replaces (eventId : String) (update : EventRow Doc → EventRow Doc)
    (replacement : StoredEvent Doc → StoredEvent Doc) : Prop where
  found : ∀ row, row.eventId = eventId → row.publishedAt = none →
    rowToEvent (update row) = replacement (rowToEvent row)
  other : ∀ row, ¬(row.eventId = eventId ∧ row.publishedAt = none) → update row = row
  same : ∀ row, (update row).identityHash = row.identityHash ∧
    (update row).sequence = row.sequence ∧
    (update row).globalPosition = row.globalPosition ∧
    (update row).idempotencyKeyHash = row.idempotencyKeyHash ∧
    (update row).payload = row.payload ∧ (update row).eventId = row.eventId ∧
    (update row).requestDigest = row.requestDigest

theorem replaces_published (eventId : String) (now : ℕ) :
    Replaces eventId (EventRow.markPublished eventId now)
      (StoredEvent.published now : StoredEvent Doc → StoredEvent Doc) where
  found row id pending := by
    unfold EventRow.markPublished
    rw [if_pos ⟨id, pending⟩]
    rfl
  other row apart := if_neg apart
  same := EventTables.markPublished_same eventId now

theorem replaces_failed (eventId error : String) :
    Replaces eventId (EventRow.recordFailure eventId error)
      (StoredEvent.failed error : StoredEvent Doc → StoredEvent Doc) where
  found row id pending := by
    unfold EventRow.recordFailure
    rw [if_pos ⟨id, pending⟩]
    rfl
  other row apart := if_neg apart
  same := EventTables.recordFailure_same eventId error

/-- The row that the update is about. -/
def IsPending (eventId : String) (row : EventRow Doc) : Prop :=
  row.eventId = eventId ∧ row.publishedAt = none

instance (eventId : String) (row : EventRow Doc) : Decidable (IsPending eventId row) :=
  inferInstanceAs (Decidable (_ ∧ _))

theorem Replaces.map_of_none (replaces : Replaces eventId update replacement)
    {rows : List (EventRow Doc)} (none : ∀ row ∈ rows, ¬IsPending eventId row) :
    rows.map update = rows := by
  conv_rhs => rw [← List.map_id rows]
  exact List.map_congr_left fun row member => replaces.other row (none row member)

/-- **Ids are distinct**, so either one row and the first event match, or none does. -/
theorem Replaces.replaceFirst (replaces : Replaces eventId update replacement)
    {rows : List (EventRow Doc)} (ids : (rows.map EventRow.eventId).Nodup) :
    ((rows.filter fun row => IsPending eventId row).length = 1 ∧
        InMemoryStore.replaceFirst eventId replacement (rows.map EventRow.entry) =
          some ((rows.map update).map EventRow.entry)) ∨
      ((rows.filter fun row => IsPending eventId row).length = 0 ∧
        InMemoryStore.replaceFirst eventId replacement (rows.map EventRow.entry) = none ∧
          rows.map update = rows) := by
  induction rows with
  | nil => exact Or.inr ⟨rfl, rfl, rfl⟩
  | cons row rows ih =>
      rw [List.map_cons, List.nodup_cons] at ids
      by_cases hit : IsPending eventId row
      · have rest : ∀ other ∈ rows, ¬IsPending eventId other := fun other member pending =>
          ids.1 (hit.1.trans pending.1.symm ▸ List.mem_map_of_mem member)
        left
        have entry : (update row).entry = (row.idempotencyKeyHash, row.requestDigest,
            replacement (rowToEvent row)) := by
          obtain ⟨-, -, -, key, -, -, digest⟩ := replaces.same row
          unfold EventRow.entry
          rw [key, digest, replaces.found row hit.1 hit.2]
        constructor
        · rw [List.filter_cons_of_pos (by simpa using hit), List.length_cons,
            List.filter_eq_nil_iff.mpr (by simpa using rest)]
          rfl
        · rw [List.map_cons, List.map_cons, List.map_cons, entry, replaces.map_of_none rest]
          unfold EventRow.entry InMemoryStore.replaceFirst
          have kept : ¬((rowToEvent row).eventId ≠ eventId ∨ (rowToEvent row).publishedAt ≠ none) :=
            not_or.mpr ⟨not_not.mpr hit.1, not_not.mpr hit.2⟩
          rw [if_neg kept]
      · have skipped : InMemoryStore.replaceFirst eventId replacement
            ((row :: rows).map EventRow.entry) =
              (InMemoryStore.replaceFirst eventId replacement (rows.map EventRow.entry)).map
                (row.entry :: ·) := by
          rw [List.map_cons]
          conv_lhs => unfold EventRow.entry InMemoryStore.replaceFirst
          have apart : (rowToEvent row).eventId ≠ eventId ∨ (rowToEvent row).publishedAt ≠ none := by
            by_contra both
            exact hit ⟨by_contra fun id => both (Or.inl id),
              by_contra fun published => both (Or.inr published)⟩
          rw [if_pos apart]
          rfl
        rw [List.filter_cons_of_neg (by simpa using hit), skipped, List.map_cons,
          replaces.other row hit, List.map_cons]
        rcases ih ids.2 with ⟨one, found⟩ | ⟨zero, missing, same⟩
        · exact Or.inl ⟨one, by rw [found]; rfl⟩
        · exact Or.inr ⟨zero, by rw [missing]; rfl, by rw [same]⟩

/-- An update of corresponding rows keeps the correspondence. -/
theorem Mirrors.updateRows (mirrors : Mirrors memory postgres)
    (replaces : Replaces eventId update replacement) :
    Mirrors { memory with byKey := (postgres.tables.outbox.map update).map EventRow.entry }
      { postgres with tables := postgres.tables.updateRows update } := by
  constructor
  case sound =>
    exact mirrors.sound.updateRows (fun row => (replaces.same row).1)
      (fun row => (replaces.same row).2.1) (fun row => (replaces.same row).2.2.1)
      (fun row => (replaces.same row).2.2.2.1) fun row => (replaces.same row).2.2.2.2.1
  case byKey => rfl
  case heads => exact mirrors.heads
  case next => exact mirrors.next
  case positions =>
    show (postgres.tables.outbox.map update).map EventRow.globalPosition = _
    rw [List.map_map, ← mirrors.positions]
    exact List.map_congr_left fun row _ => (replaces.same row).2.2.1
  case ids =>
    show ((postgres.tables.outbox.map update).map EventRow.eventId).Nodup
    have same : (postgres.tables.outbox.map update).map EventRow.eventId =
        postgres.tables.outbox.map EventRow.eventId := by
      rw [List.map_map]
      exact List.map_congr_left fun row _ => (replaces.same row).2.2.2.2.2.1
    rw [same]
    exact mirrors.ids
  case headed =>
    intro key found empty
    refine mirrors.headed key found ?_
    refine List.filter_eq_nil_iff.mpr fun row stored => ?_
    have absent := List.filter_eq_nil_iff.mp empty (update row) (List.mem_map_of_mem stored)
    rw [(replaces.same row).1] at absent
    exact absent
  case registrable =>
    intro row stored deletion
    obtain ⟨before, member, rfl⟩ := List.mem_map.mp stored
    rw [(replaces.same before).2.2.2.2.1] at deletion ⊢
    exact mirrors.registrable before member deletion

/-- **An update** finds the same event in both stores and changes it in the same way. -/
theorem Mirrors.updateFirst (mirrors : Mirrors memory postgres)
    (replaces : Replaces eventId update replacement) :
    (memory.updateFirst eventId replacement).1 = (postgres.updateUnpublished eventId update).1 ∧
      Mirrors (memory.updateFirst eventId replacement).2
        (postgres.updateUnpublished eventId update).2 := by
  have updated := mirrors.updateRows replaces
  unfold InMemoryStore.updateFirst PostgresStore.updateUnpublished
  rw [mirrors.byKey]
  rcases replaces.replaceFirst mirrors.ids with ⟨one, found⟩ | ⟨zero, missing, same⟩
  · rw [found]
    exact ⟨congrArg StoreAnswer.found (decide_eq_true one).symm, updated⟩
  · rw [missing]
    refine ⟨congrArg StoreAnswer.found (decide_eq_false ?_).symm, ?_⟩
    · exact fun one => absurd (zero.symm.trans one) (by decide)
    · rw [same, ← mirrors.byKey] at updated
      exact updated

end Update

/-! ## Reads -/

theorem Mirrors.listPending (mirrors : Mirrors memory postgres) (limit : ℤ) :
    memory.listPending limit = postgres.listPending limit := by
  have events : (postgres.tables.outbox.map rowToEvent).Pairwise fun first second =>
      first.globalPosition < second.globalPosition := List.pairwise_map.mpr mirrors.ordered
  unfold InMemoryStore.listPending PostgresStore.listPending PostgresStore.pendingRows
  split_ifs
  · rfl
  · rw [mirrors.events, byPosition_of_pairwise events,
      byPosition_of_pairwise (mirrors.ordered.filter _), List.filter_map, List.map_take]
    rfl

theorem Mirrors.pendingCount (mirrors : Mirrors memory postgres) :
    memory.pendingCount = postgres.pendingCount := by
  unfold InMemoryStore.pendingCount PostgresStore.pendingCount PostgresStore.pendingRows
  rw [mirrors.events, List.filter_map, List.length_map]
  rfl

/-- **The pages of latest events.** Scanning the dictionary and ranking the rows give
the same page. -/
theorem Mirrors.listLatestByIdentity (mirrors : Mirrors memory postgres)
    (afterPosition throughPosition limit : ℤ) :
    memory.listLatestByIdentity afterPosition throughPosition limit =
      postgres.listLatestByIdentity afterPosition throughPosition limit := by
  unfold InMemoryStore.listLatestByIdentity PostgresStore.listLatestByIdentity
  cases validatePositionWindow afterPosition throughPosition limit with
  | some error => rfl
  | none =>
    simp only
    have window : (memory.events.filter fun event => afterPosition < event.globalPosition ∧
        event.globalPosition ≤ throughPosition) =
          (postgres.windowRows afterPosition throughPosition).map rowToEvent := by
      rw [mirrors.events, List.filter_map]
      rfl
    have hashed : ∀ row ∈ postgres.windowRows afterPosition throughPosition,
        (rowToEvent row).identityHash = row.identityHash := fun row member =>
      mirrors.sound.hashed row (List.mem_of_mem_filter member)
    have positions : ∀ rows : List (EventRow Doc),
        ∀ row ∈ rows, (rowToEvent row).globalPosition = row.globalPosition := fun _ _ _ => rfl
    have ordered : (postgres.windowRows afterPosition throughPosition).Pairwise fun first second =>
        first.globalPosition < second.globalPosition := mirrors.ordered.filter _
    rw [window, latestScan_map hashed (positions _), byPosition_map (positions _),
      byPosition_latestScan ordered, List.map_take]

/-! ## Lockstep -/

theorem verifyExisting_eq (row : EventRow Doc) (draft : TracedDraft Doc) :
    PostgresStore.verifyExisting canonical row draft =
      if row.requestDigest ≠ draft.requestDigest canonical then .refused .idempotencyConflict
      else .event (rowToEvent row) := by
  unfold PostgresStore.verifyExisting EventTables.verifyExisting
  split_ifs
  · rfl
  · rfl

/-- `prepare` answers alike and keeps the correspondence. -/
theorem Mirrors.prepare (mirrors : Mirrors memory postgres) {draft : TracedDraft Doc}
    (fits : FitsHead draft.identity)
    (registrable : draft.mutation.operation ≠ .upsert → draft.Registrable)
    {eventId : String} (fresh : ∀ row ∈ postgres.tables.outbox, row.eventId ≠ eventId) (now : ℕ) :
    (memory.prepare canonical draft eventId now).1 =
        (postgres.prepare canonical draft eventId now).1 ∧
      Mirrors (memory.prepare canonical draft eventId now).2
        (postgres.prepare canonical draft eventId now).2 := by
  cases existing : postgres.tables.existingForKey draft.idempotencyKeyHash with
  | some row =>
      unfold InMemoryStore.prepare PostgresStore.prepare
      rw [mirrors.lookup, existing]
      simp only [Option.map_some, EventRow.entry, verifyExisting_eq]
      split_ifs
      · exact ⟨rfl, mirrors⟩
      · exact ⟨rfl, mirrors⟩
  | none =>
      -- The head that is ensured holds the last sequence, 0 if it is new.
      obtain ⟨head, found, last⟩ : ∃ head,
          (postgres.tables.ensureHead draft.identity).heads draft.identity.logicalKey = some head ∧
            head.lastSequence =
              (postgres.tables.ensureHead draft.identity).lastSequence draft.identity.logicalKey := by
        refine ⟨_, if_pos rfl, ?_⟩
        unfold EventTables.lastSequence EventTables.ensureHead
        simp only [if_true]
        rfl
      have prepared : postgres.prepare canonical draft eventId now =
          postgres.insertOutboxEvent canonical (postgres.tables.ensureHead draft.identity) draft
            eventId ((postgres.tables.ensureHead draft.identity).lastSequence
              draft.identity.logicalKey) now := by
        have again : (postgres.tables.ensureHead draft.identity).existingForKey
            draft.idempotencyKeyHash = none := existing
        unfold PostgresStore.prepare
        rw [existing]
        simp only
        rw [if_neg (not_not.mpr fits), found]
        simp only
        rw [again, last]
      rw [prepared]
      refine mirrors.insert (mirrors.sound.ensureHead draft.identity) rfl ?_ ?_ existing
        registrable fresh
      · intro key
        unfold EventTables.lastSequence EventTables.ensureHead
        simp only
        split_ifs with same
        · subst same
          cases postgres.tables.heads draft.identity.logicalKey with
          | none => rfl
          | some head => rfl
        · rfl
      · intro key headed
        by_cases same : key = draft.identity.logicalKey
        · exact Or.inr same
        · refine Or.inl ?_
          unfold EventTables.ensureHead at headed
          simp only at headed
          rwa [if_neg same] at headed

/-- `prepare_latest_repair` answers alike and keeps the correspondence. -/
theorem Mirrors.prepareLatestRepair (mirrors : Mirrors memory postgres) {repair : TracedRepair}
    (route : RegistrableRoute repair.rolloutId repair.routingRevision repair.targetClusters)
    {eventId : String} (fresh : ∀ row ∈ postgres.tables.outbox, row.eventId ≠ eventId) (now : ℕ) :
    (memory.prepareLatestRepair canonical repair eventId now).1 =
        (postgres.prepareLatestRepair canonical repair eventId now).1 ∧
      Mirrors (memory.prepareLatestRepair canonical repair eventId now).2
        (postgres.prepareLatestRepair canonical repair eventId now).2 := by
  unfold InMemoryStore.prepareLatestRepair PostgresStore.prepareLatestRepair
  rw [mirrors.newest]
  cases headed : postgres.tables.heads repair.identityKey with
  | none =>
      have rows : postgres.tables.rowsOf repair.identityKey = [] := by
        refine List.filter_eq_nil_iff.mpr fun row stored same => ?_
        exact mirrors.sound.head_of_row stored (of_decide_eq_true same ▸ headed)
      rw [rows]
      exact ⟨rfl, mirrors⟩
  | some head =>
      have rows := mirrors.headed repair.identityKey (by rw [headed]; simp)
      obtain ⟨source, newest⟩ : ∃ source,
          EventTables.newestRow (postgres.tables.rowsOf repair.identityKey) = some source := by
        rw [newestRow_getLast (sequences_ordered mirrors.sound _)]
        exact ⟨_, List.getLast?_eq_some_getLast rows⟩
      obtain ⟨stored, identity⟩ := List.mem_filter.mp (EventTables.newestRow_mem newest)
      have logical : source.payload.event.identity.logicalKey = repair.identityKey :=
        (mirrors.sound.hashed source stored).trans (of_decide_eq_true identity)
      have key : indexingIdempotencyKeyHash source.payload.event.identity repair.idempotencyKey =
          indexingIdempotencyKeyHash head.identity repair.idempotencyKey :=
        keyHash_congr (logical.trans (mirrors.sound.named _ head headed).symm) _
      rw [newest]
      simp only [Option.map_some]
      rw [mirrors.lookup]
      have same : (rowToEvent source).payload.event.identity = source.payload.event.identity := rfl
      rw [same, key]
      cases existing : postgres.tables.existingForKey
          (indexingIdempotencyKeyHash head.identity repair.idempotencyKey) with
      | some row => exact ⟨rfl, mirrors⟩
      | none =>
          simp only [Option.map_none]
          have last : head.lastSequence = postgres.tables.lastSequence
              (buildRepairDraft repair (rowToEvent source)).identity.logicalKey := by
            show _ = postgres.tables.lastSequence source.payload.event.identity.logicalKey
            unfold EventTables.lastSequence
            rw [logical, headed]
            rfl
          rw [last]
          refine mirrors.insert mirrors.sound rfl (fun _ => rfl) (fun _ found => Or.inl found) ?_ ?_
            fresh
          · show postgres.tables.existingForKey
              (indexingIdempotencyKeyHash source.payload.event.identity repair.idempotencyKey) = none
            rw [key, existing]
          · exact fun deletion => ⟨mirrors.registrable source stored deletion, route⟩

/-- **One operation** answers alike in both stores and keeps the correspondence. -/
theorem Mirrors.perform (canonical : Doc → String) (mirrors : Mirrors memory postgres)
    {stamped : StampedOperation Doc} (storable : stamped.operation.Storable)
    (fresh : ∀ row ∈ postgres.tables.outbox, row.eventId ≠ stamped.eventId) :
    (memory.perform canonical stamped).1 = (postgres.perform canonical stamped).1 ∧
      Mirrors (memory.perform canonical stamped).2 (postgres.perform canonical stamped).2 := by
  obtain ⟨operation, eventId, now⟩ := stamped
  cases operation with
  | prepare draft => exact mirrors.prepare storable.1 storable.2 fresh now
  | prepareLatestRepair repair => exact mirrors.prepareLatestRepair storable fresh now
  | markPublished eventId => exact mirrors.updateFirst (replaces_published eventId now)
  | recordFailure eventId error => exact mirrors.updateFirst (replaces_failed eventId error)
  | listPending limit => exact ⟨mirrors.listPending limit, mirrors⟩
  | pendingCount => exact ⟨mirrors.pendingCount, mirrors⟩
  | listLatestByIdentity afterPosition throughPosition limit =>
      exact ⟨mirrors.listLatestByIdentity afterPosition throughPosition limit, mirrors⟩
  | highWaterMark =>
      refine ⟨?_, mirrors⟩
      exact congrArg StoreAnswer.position mirrors.maxPosition.symm

/-- The rows after an operation have the ids of the rows before it, or its own. -/
def OldOrNewIds (eventId : String) (before after : EventTables Doc) : Prop :=
  ∀ row ∈ after.outbox, row.eventId = eventId ∨ ∃ old ∈ before.outbox, old.eventId = row.eventId

theorem oldOrNewIds_of_eq {eventId : String} {before after : EventTables Doc}
    (same : after.outbox = before.outbox) : OldOrNewIds eventId before after :=
  fun row stored => Or.inr ⟨row, same ▸ stored, rfl⟩

theorem ids_insertOutboxEvent (tables : EventTables Doc) (outbox : tables.outbox =
    postgres.tables.outbox) (draft : TracedDraft Doc) (eventId : String) (last now : ℕ) :
    OldOrNewIds eventId postgres.tables
      (postgres.insertOutboxEvent canonical tables draft eventId last now).2.tables := by
  unfold PostgresStore.insertOutboxEvent
  simp only
  split
  · exact oldOrNewIds_of_eq rfl
  · split
    · exact oldOrNewIds_of_eq rfl
    · split
      · exact oldOrNewIds_of_eq rfl
      · intro row stored
        rcases List.mem_append.mp stored with before | new
        · exact Or.inr ⟨row, outbox ▸ before, rfl⟩
        · exact Or.inl (List.mem_singleton.mp new ▸ rfl)

theorem ids_updateUnpublished (eventId : String) {update : EventRow Doc → EventRow Doc}
    (same : ∀ row, (update row).eventId = row.eventId) {id : String} :
    OldOrNewIds id postgres.tables (postgres.updateUnpublished eventId update).2.tables := by
  intro row stored
  obtain ⟨old, before, rfl⟩ := List.mem_map.mp stored
  exact Or.inr ⟨old, before, (same old).symm⟩

/-- The ids of the rows after an operation. -/
theorem ids_perform (stamped : StampedOperation Doc) :
    OldOrNewIds stamped.eventId postgres.tables
      (postgres.perform canonical stamped).2.tables := by
  obtain ⟨operation, eventId, now⟩ := stamped
  cases operation with
  | prepare draft =>
      show OldOrNewIds eventId _ (postgres.prepare canonical draft eventId now).2.tables
      unfold PostgresStore.prepare
      split
      · exact oldOrNewIds_of_eq rfl
      · split
        · exact oldOrNewIds_of_eq rfl
        · simp only
          split
          · exact oldOrNewIds_of_eq rfl
          · split
            · exact oldOrNewIds_of_eq rfl
            · exact ids_insertOutboxEvent (postgres.tables.ensureHead draft.identity) rfl _ _ _ _
  | prepareLatestRepair repair =>
      show OldOrNewIds eventId _ (postgres.prepareLatestRepair canonical repair eventId now).2.tables
      unfold PostgresStore.prepareLatestRepair
      split
      · exact oldOrNewIds_of_eq rfl
      · split
        · exact oldOrNewIds_of_eq rfl
        · split
          · exact oldOrNewIds_of_eq rfl
          · exact ids_insertOutboxEvent postgres.tables rfl _ _ _ _
  | markPublished id =>
      exact ids_updateUnpublished id fun row => ((replaces_published id now).same row).2.2.2.2.2.1
  | recordFailure id error =>
      exact ids_updateUnpublished id fun row => ((replaces_failed id error).same row).2.2.2.2.2.1
  | listPending => exact oldOrNewIds_of_eq rfl
  | pendingCount => exact oldOrNewIds_of_eq rfl
  | listLatestByIdentity => exact oldOrNewIds_of_eq rfl
  | highWaterMark => exact oldOrNewIds_of_eq rfl

/-- **The two stores agree.** For every sequence of operations whose fields fit the
tables and whose generated ids are distinct, both stores give the same answers. -/
theorem stores_agree (canonical : Doc → String) (operations : List (StampedOperation Doc))
    (storable : ∀ stamped ∈ operations, stamped.operation.Storable)
    (distinct : (operations.map StampedOperation.eventId).Nodup) :
    answers (InMemoryStore.perform canonical) InMemoryStore.empty operations =
      answers (PostgresStore.perform canonical) PostgresStore.empty operations := by
  refine answers_eq_of_lockstep (R := fun remaining memory postgres =>
    Mirrors memory postgres ∧ (∀ stamped ∈ remaining, stamped.operation.Storable) ∧
      (remaining.map StampedOperation.eventId).Nodup ∧
      ∀ row ∈ postgres.tables.outbox, row.eventId ∉ remaining.map StampedOperation.eventId)
    ?_ ⟨mirrors_empty, storable, distinct, fun _ stored => by cases stored⟩
  rintro stamped remaining memory postgres ⟨mirrors, storable, distinct, fresh⟩
  rw [List.map_cons, List.nodup_cons] at distinct
  obtain ⟨same, next⟩ := mirrors.perform canonical
    (storable stamped List.mem_cons_self)
    fun row stored equal => fresh row stored (equal ▸ List.mem_cons_self)
  refine ⟨same, next, fun other member => storable other (List.mem_cons_of_mem _ member),
    distinct.2, fun row stored member => ?_⟩
  rcases ids_perform stamped row stored with new | ⟨old, before, equal⟩
  · exact distinct.1 (new ▸ member)
  · exact fresh old before (List.mem_cons_of_mem _ (equal ▸ member))

/-- A document that is written, published, deleted under a repeated key and then under
its own, and repaired. -/
def deletedNote : List (StampedOperation String) :=
  let written : TracedDraft String :=
    { identity := ⟨"acme", "notes", "n1"⟩
      mutation := .upsert "v1"
      targetClusters := ["default"]
      routingRevision := 1
      rolloutId := none
      idempotencyKey := "k1" }
  let deleted : TracedDraft String := { written with mutation := .tombstone none }
  let repair : TracedRepair :=
    { identityKey := written.identity.logicalKey
      idempotencyKey := "r1"
      targetClusters := ["default", "archive"]
      routingRevision := 2
      rolloutId := some "rollout-1" }
  [⟨.prepare written, "evt:1", 1⟩, ⟨.markPublished "evt:1", "evt:2", 2⟩,
    ⟨.prepare deleted, "evt:3", 3⟩, ⟨.prepare { deleted with idempotencyKey := "k2" }, "evt:4", 4⟩,
    ⟨.prepareLatestRepair repair, "evt:5", 5⟩, ⟨.listLatestByIdentity 0 3 10, "evt:6", 6⟩]

theorem stores_agree_deletedNote :
    answers (InMemoryStore.perform fun text => text) InMemoryStore.empty deletedNote =
      answers (PostgresStore.perform fun text => text) PostgresStore.empty deletedNote :=
  stores_agree (fun text => text) deletedNote (by decide) (by decide)

end ImposbroSearch.Publishing
