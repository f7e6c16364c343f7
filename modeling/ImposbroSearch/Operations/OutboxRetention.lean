import ImposbroSearch.Foundation.Retention
import ImposbroSearch.Publishing.StoreEffects
import ImposbroSearch.Publishing.StoreSequencing

/-!
# Retention of the indexing outbox

The retention job deletes published rows of the outbox in batches, each one statement and
one transaction. Between the statement and its commit the transactions of the event store
go on, and other batches too: the advisory lock of the job is not relied on, nor is the
table lock that would keep a batch and `high_water_mark` apart.

The store finds the sequence of an identity in its head and the source of a repair in its
newest row. So a head must always have a row with its sequence.
-/

namespace ImposbroSearch.Operations

open Foundation Publishing

variable {Doc : Type}

/-- `indexing_event_outbox` as `INDEXING_DELETE_SQL` reads it. -/
def indexingEventOutbox : RowSchema (EventRow Doc) String String String ℕ where
  id := EventRow.eventId
  publishedAt := EventRow.publishedAt
  hold := EventRow.identityHash
  series := EventRow.identityHash
  rank := EventRow.sequence

/-- The outbox in the event store, with the rows that its transactions have locked. -/
def eventStoreOutbox : RowStore (Database Doc) (EventRow Doc) String where
  rows db := db.tables.outbox
  withRows db left := { db with tables := { db.tables with outbox := left } }
  locked db eventId := (db.rowLocks eventId).isSome
  rows_withRows _ _ := rfl
  withRows_rows _ := rfl

/-- The event store, with the batches whose transactions are open. -/
abbrev RetainedEvents (Doc : Type) := RetainedStore (Database Doc) (EventRow Doc) String

namespace RetainedEvents

def empty : RetainedEvents Doc := ⟨.empty, []⟩

/-- One action. A batch skips the rows that transactions have locked. -/
def step (canonical : Doc → String) :
    RetainedEvents Doc → RetainedAction (StoreAction Doc) String → RetainedEvents Doc :=
  RetainedStore.step indexingEventOutbox eventStoreOutbox (Database.step canonical)

end RetainedEvents

/-! ## What the tables keep -/

/-- The rows of an identity end with its head, and the row of the head is there. -/
structure KeepsNewest (tables : EventTables Doc) : Prop where
  within : ∀ row ∈ tables.outbox, ∃ head, tables.heads row.identityHash = some head ∧
    row.sequence ≤ head.lastSequence
  newest : ∀ identityHash head, tables.heads identityHash = some head →
    ∃ row ∈ tables.outbox, row.identityHash = identityHash ∧ row.sequence = head.lastSequence
  named : ∀ identityHash head, tables.heads identityHash = some head →
    head.identity.logicalKey = identityHash
  hashed : ∀ row ∈ tables.outbox, row.payload.event.identity.logicalKey = row.identityHash

theorem keepsNewest_empty : KeepsNewest (EventTables.empty : EventTables Doc) where
  within := by simp [EventTables.empty]
  newest := by simp [EventTables.empty]
  named := by simp [EventTables.empty]
  hashed := by simp [EventTables.empty]

/-- **The statements of the store** keep the newest rows. -/
theorem keepsNewest_kept : KeptByStatements (@KeepsNewest Doc) where
  headed keeps row stored := by
    obtain ⟨head, found, -⟩ := keeps.within row stored
    rw [found]
    exact Option.some_ne_none _
  named keeps := keeps.named
  hashed keeps := keeps.hashed
  insertEvent {tables row} keeps next _ _ hashed := by
    have heads : ∀ key, (tables.insertEvent row).heads key = if key = row.identityHash then
        some { ((tables.heads key).getD ⟨row.payload.event.identity, 0⟩) with
          lastSequence := row.sequence } else tables.heads key := fun _ => rfl
    constructor
    case within =>
      intro other stored
      rw [heads]
      split_ifs with same
      · refine ⟨_, rfl, ?_⟩
        show other.sequence ≤ row.sequence
        rcases List.mem_append.mp stored with before | here
        · obtain ⟨head, found, below⟩ := keeps.within other before
          unfold EventTables.lastSequence at next
          rw [← same, found] at next
          exact below.trans (next ▸ Nat.le_succ _)
        · rw [List.mem_singleton.mp here]
      · rcases List.mem_append.mp stored with before | here
        · exact keeps.within other before
        · exact absurd (congrArg EventRow.identityHash (List.mem_singleton.mp here)) same
    case newest =>
      intro key head found
      rw [heads] at found
      split_ifs at found with same
      · obtain rfl := Option.some.inj found
        exact ⟨row, List.mem_append_right _ (List.mem_singleton_self row), same.symm, rfl⟩
      · obtain ⟨newest, stored, identity, sequence⟩ := keeps.newest key head found
        exact ⟨newest, List.mem_append_left _ stored, identity, sequence⟩
    case named =>
      intro key head found
      rw [heads] at found
      split_ifs at found with same
      · obtain rfl := Option.some.inj found
        subst same
        cases before : tables.heads row.identityHash with
        | none => exact hashed
        | some old => exact keeps.named _ old before
      · exact keeps.named key head found
    case hashed =>
      intro other stored
      rcases List.mem_append.mp stored with before | here
      · exact keeps.hashed other before
      · rw [List.mem_singleton.mp here]
        exact hashed
  updateRows {tables} request now keeps := by
    have rows : ∀ row ∈ (tables.updateRows (request.update now)).outbox,
        ∃ old ∈ tables.outbox, row.SameEvent old := by
      intro row stored
      obtain ⟨old, before, rfl⟩ := List.mem_map.mp stored
      exact ⟨old, before, update_same request now old⟩
    constructor
    case within =>
      intro row stored
      obtain ⟨old, before, same⟩ := rows row stored
      rw [same.identityHash, same.sequence]
      exact keeps.within old before
    case newest =>
      intro key head found
      obtain ⟨newest, stored, identity, sequence⟩ := keeps.newest key head found
      have same := update_same request now newest
      exact ⟨_, List.mem_map_of_mem stored, same.identityHash.trans identity,
        same.sequence.trans sequence⟩
    case named => exact keeps.named
    case hashed =>
      intro row stored
      obtain ⟨old, before, same⟩ := rows row stored
      rw [same.payload, same.identityHash]
      exact keeps.hashed old before

/-- **A deletion that leaves the newest rows** keeps them. -/
theorem KeepsNewest.delete {tables : EventTables Doc} (keeps : KeepsNewest tables)
    {left : List (EventRow Doc)} (stored : ∀ row ∈ left, row ∈ tables.outbox)
    (covers : indexingEventOutbox.Covers tables.outbox left) :
    KeepsNewest { tables with outbox := left } where
  within row member := keeps.within row (stored row member)
  newest key head found := by
    obtain ⟨newest, there, identity, sequence⟩ := keeps.newest key head found
    obtain ⟨kept, member, series, rank⟩ := covers newest there
    have same : kept.identityHash = key := series.trans identity
    obtain ⟨other, headed, below⟩ := keeps.within kept (stored kept member)
    obtain rfl : head = other := by
      rw [same, found] at headed
      exact Option.some.inj headed
    have least : newest.sequence ≤ kept.sequence := rank
    exact ⟨kept, member, same, by omega⟩
  named := keeps.named
  hashed row member := keeps.hashed row (stored row member)

theorem newestRow_eq_none {rows : List (EventRow Doc)}
    (missing : EventTables.newestRow rows = none) :
    rows = [] := by
  cases rows with
  | nil => rfl
  | cons row rows =>
      unfold EventTables.newestRow at missing
      split at missing
      · cases missing
      · split_ifs at missing

/-! ## Transactions and batches -/

/-- A deletion of rows is no transaction's business: nobody learns of rows that are gone. -/
theorem consistentFor_delete {I : EventTables Doc → Prop} {db : Database Doc}
    (consistent : db.ConsistentFor I) {left : List (EventRow Doc)}
    (stored : ∀ row ∈ left, row ∈ db.tables.outbox) (tables : I { db.tables with outbox := left }) :
    Database.ConsistentFor I { db with tables := { db.tables with outbox := left } } where
  tables := tables
  drawn row member := consistent.drawn row (stored row member)
  keyed row member := consistent.keyed row (stored row member)
  exclusive := consistent.exclusive
  transactions id transaction found := by
    have spares : Spares (id + 1) db { db with tables := { db.tables with outbox := left } } :=
      { transactions := fun _ _ => rfl
        locks := fun _ _ _ lock => lock
        tables := fun key _ _ _ =>
          { heads := rfl
            rows := fun row member => by
              obtain ⟨kept, named⟩ := List.mem_filter.mp member
              exact ⟨row, List.mem_filter.mpr ⟨stored row kept, named⟩, rfl, rfl⟩ }
        rowExclusive := fun _ _ writer => writer
        positions := le_rfl }
    exact (consistent.transactions id transaction found).spared spares
      (Nat.ne_of_lt (Nat.lt_succ_self id))

/-- **What every reachable store satisfies**, beside its batches. -/
structure SparesSources (db : Database Doc) : Prop where
  consistent : db.ConsistentFor KeepsNewest
  uncommitted : ∀ id row, db.uncommittedRow id = some row →
    ∀ other ∈ db.tables.outbox, other.eventId ≠ row.eventId
  apart : ∀ first second row other, first ≠ second → db.uncommittedRow first = some row →
    db.uncommittedRow second = some other → row.eventId ≠ other.eventId
  answered : ∀ request, (request, .refused .headWithoutEvent) ∉ db.outcomes

theorem sparesSources_empty : SparesSources (Database.empty : Database Doc) where
  consistent :=
    { tables := keepsNewest_empty
      drawn := by simp [Database.empty, EventTables.empty]
      keyed := by simp [Database.empty, EventTables.empty]
      exclusive := Or.inl rfl
      transactions := by simp [Database.empty] }
  uncommitted _ _ pending := by cases pending
  apart _ _ _ _ _ pending := by cases pending
  answered request := by simp [Database.empty]

/-- A transaction with an uncommitted row holds the table's `ROW EXCLUSIVE` lock. -/
theorem writes_of_uncommittedRow {I : EventTables Doc → Prop} {db : Database Doc}
    (consistent : db.ConsistentFor I) {id : ℕ} {row : EventRow Doc}
    (pending : db.uncommittedRow id = some row) : id ∈ db.rowExclusive := by
  obtain ⟨transaction, found, next⟩ := Database.exists_of_uncommittedRow pending
  exact ((consistent.transactions id transaction found).commit row next).2.2.1

section Transact

variable {db : Database Doc} {id : ℕ} {after : Database Doc}

/-- The rows after a statement: those of before, perhaps with other marks, and perhaps
the row that its transaction had inserted. -/
theorem rows_of_effect (effect : Database.Effect id db after) {row : EventRow Doc}
    (stored : row ∈ after.tables.outbox) :
    (∃ old ∈ db.tables.outbox, row.eventId = old.eventId) ∨
      db.uncommittedRow id = some row ∧ after.tables = db.tables.insertEvent row := by
  rcases effect.tables with same | ⟨new, pending, same⟩ | ⟨request, now, same⟩ | ⟨identity, same⟩
  · exact Or.inl ⟨row, same ▸ stored, rfl⟩
  · rw [same] at stored
    rcases List.mem_append.mp stored with before | here
    · exact Or.inl ⟨row, before, rfl⟩
    · obtain rfl := List.mem_singleton.mp here
      exact Or.inr ⟨pending, same⟩
  · rw [same] at stored
    obtain ⟨old, before, rfl⟩ := List.mem_map.mp stored
    exact Or.inl ⟨old, before, (update_same request now old).eventId⟩
  · exact Or.inl ⟨row, by rw [same] at stored; exact stored, rfl⟩

/-- Every row is still there after a statement, perhaps with other marks. -/
theorem kept_of_effect (effect : Database.Effect id db after) {row : EventRow Doc}
    (stored : row ∈ db.tables.outbox) : ∃ kept ∈ after.tables.outbox, kept.SameEvent row ∧
      (row.publishedAt ≠ none → kept = row) := by
  have here : row.SameEvent row := ⟨rfl, rfl, rfl, rfl, rfl, rfl, rfl⟩
  rcases effect.tables with same | ⟨new, pending, same⟩ | ⟨request, now, same⟩ | ⟨identity, same⟩
  · exact ⟨row, same ▸ stored, here, fun _ => rfl⟩
  · exact ⟨row, same ▸ List.mem_append_left _ stored, here, fun _ => rfl⟩
  · refine ⟨request.update now row, ?_, update_same request now row, update_published request now⟩
    rw [same]
    exact List.mem_map_of_mem stored
  · exact ⟨row, by rw [same]; exact stored, here, fun _ => rfl⟩

theorem grows_of_effect (effect : Database.Effect id db after) :
    indexingEventOutbox.Grows db.tables.outbox after.tables.outbox where
  kept row stored := by
    obtain ⟨kept, there, same, -⟩ := kept_of_effect effect stored
    exact ⟨kept, there, same.eventId⟩
  published row stored published := by
    obtain ⟨kept, there, -, same⟩ := kept_of_effect effect stored
    exact same published ▸ there
  covers row stored := by
    obtain ⟨kept, there, same, -⟩ := kept_of_effect effect stored
    exact ⟨kept, there, same.identityHash, same.sequence.ge⟩

theorem unique_of_effect (spares : SparesSources db)
    (before : indexingEventOutbox.UniqueIds db.tables.outbox)
    (effect : Database.Effect id db after) :
    indexingEventOutbox.UniqueIds after.tables.outbox := by
  rcases effect.tables with same | ⟨new, pending, same⟩ | ⟨request, now, same⟩ | ⟨identity, same⟩
  · rw [same]
    exact before
  · rw [same]
    refine List.pairwise_append.mpr ⟨before, List.pairwise_singleton _ _, ?_⟩
    intro other stored last here
    obtain rfl := List.mem_singleton.mp here
    exact spares.uncommitted id last pending other stored
  · rw [same]
    refine List.pairwise_map.mpr (before.imp fun apart => ?_)
    show (request.update now _).eventId ≠ (request.update now _).eventId
    rw [(update_same request now _).eventId, (update_same request now _).eventId]
    exact apart
  · rw [same]
    exact before

/-- A repair that has found its head finds its source. -/
theorem not_lacksSource (spares : SparesSources db) : ¬db.LacksSource id := by
  rintro ⟨transaction, repair, plain, found, request, next, missing⟩
  have known := spares.consistent.transactions id transaction found
  obtain ⟨-, head, headed, -⟩ := known.source next repair plain request
  obtain ⟨newest, stored, identity, -⟩ := spares.consistent.tables.newest _ head headed
  have member : newest ∈ db.tables.rowsOf repair.identityKey :=
    List.mem_filter.mpr ⟨stored, decide_eq_true identity⟩
  rw [newestRow_eq_none missing] at member
  cases member

/-- **A statement of a transaction** keeps the store as it must be. -/
theorem SparesSources.transact (spares : SparesSources db) (effect : Database.Effect id db after)
    (consistent : after.ConsistentFor KeepsNewest) : SparesSources after where
  consistent := consistent
  uncommitted other row pending stored there := by
    by_cases own : other = id
    · subst own
      obtain ⟨same, before | fresh⟩ := effect.own row pending
      · exact spares.uncommitted _ row before stored (same ▸ there)
      · exact fresh.committed stored (same ▸ there)
    · rw [effect.others other own] at pending
      rcases rows_of_effect effect there with ⟨old, before, same⟩ | ⟨inserted, -⟩
      · rw [same]
        exact spares.uncommitted other row pending old before
      · exact spares.apart id other stored row (Ne.symm own) inserted pending
  apart first second row other differs pending waiting := by
    -- an insertion is checked against the uncommitted rows of the others
    have inserts : ∀ {writer new old}, writer ≠ id → after.uncommittedRow id = some new →
        after.uncommittedRow writer = some old → old.eventId ≠ new.eventId := by
      intro writer new old apart own others
      rw [effect.others writer apart] at others
      obtain ⟨-, before | fresh⟩ := effect.own new own
      · exact spares.apart writer id old new apart others before
      · exact fresh.pending writer (writes_of_uncommittedRow spares.consistent others) old others
    by_cases own : first = id
    · subst own
      exact (inserts (Ne.symm differs) pending waiting).symm
    · by_cases same : second = id
      · subst same
        exact inserts own waiting pending
      · rw [effect.others first own] at pending
        rw [effect.others second same] at waiting
        exact spares.apart first second row other differs pending waiting
  answered request answer := by
    rcases effect.answers request answer with before | lacks
    · exact spares.answered request before
    · exact not_lacksSource spares lacks

end Transact

/-- **Transactions and batches** keep the sources of the repairs. -/
theorem keeps_sparesSources (canonical : Doc → String) :
    RetainedStore.Keeps indexingEventOutbox eventStoreOutbox (Database.step canonical) (@SparesSources Doc) where
  write db action spares unique := by
    have effect := Database.effect_step canonical db action
    exact ⟨spares.transact effect (spares.consistent.step keepsNewest_kept action),
      grows_of_effect effect, unique_of_effect spares unique effect⟩
  delete db left spares stored covers :=
    { consistent := consistentFor_delete spares.consistent stored
        (spares.consistent.tables.delete stored covers)
      uncommitted := fun id row pending other member =>
        spares.uncommitted id row pending other (stored other member)
      apart := spares.apart
      answered := spares.answered }

/-- **Retention spares what is needed.** Over every run of transactions and batches: a row
that a step takes from the outbox was selected by a batch that commits, so it was published
before the cutoff and not held, and a newer row of its identity stays; every identity keeps
the row of its head; and no repair is refused because its source is gone. -/
theorem indexing_retention_spares (canonical : Doc → String)
    (actions : List (RetainedAction (StoreAction Doc) String))
    (action : RetainedAction (StoreAction Doc) String) :
    let before := (run (RetainedEvents.step canonical) .empty actions).world
    let after := (run (RetainedEvents.step canonical) .empty (actions ++ [action])).world
    (∀ row ∈ before.tables.outbox, (∀ kept ∈ after.tables.outbox, kept.eventId ≠ row.eventId) →
      ∃ id batch, action = .commit id ∧ .select id batch ∈ actions ∧
        indexingEventOutbox.Candidate batch after.tables.outbox row) ∧
      (∀ identityHash head, after.tables.heads identityHash = some head →
        ∃ row ∈ after.tables.outbox,
          row.identityHash = identityHash ∧ row.sequence = head.lastSequence) ∧
      ∀ request, (request, .refused .headWithoutEvent) ∉ after.outcomes := by
  intro before after
  have spares := ((keeps_sparesSources canonical).run sparesSources_empty rfl
    (actions ++ [action])).1
  refine ⟨fun row stored gone => ?_, spares.consistent.tables.newest, spares.answered⟩
  exact (keeps_sparesSources canonical).spares sparesSources_empty rfl actions action stored gone

end ImposbroSearch.Operations
