import ImposbroSearch.Foundation.LatestByKey
import ImposbroSearch.Publishing.OutboxTables

/-!
# The Postgres event store, one operation at a time

Each operation is one transaction over the outbox tables, with nothing running beside
it. A refused operation leaves the tables as they were, but a position it has drawn
stays drawn. A deletion is refused when the deletion ledger refuses to register it.

Texts hold no NUL character, generated ids fit their columns, and a payload is one
that JSON storage returns unchanged.
-/

namespace ImposbroSearch.Publishing

open ImposbroSearch.Foundation ImposbroSearch.Indexing

variable {Doc : Type}

/-- An operation of `IndexingEventStore`. -/
inductive StoreOperation (Doc : Type) where
  | prepare (draft : TracedDraft Doc)
  | prepareLatestRepair (repair : TracedRepair)
  | markPublished (eventId : String)
  | recordFailure (eventId error : String)
  | listPending (limit : ℤ)
  | pendingCount
  | listLatestByIdentity (afterPosition throughPosition limit : ℤ)
  | highWaterMark

/-- What an operation returns or raises. -/
inductive StoreAnswer (Doc : Type) where
  | event (stored : StoredEvent Doc)
  | refused (error : StoreError)
  | found (updated : Bool)
  | events (page : List (StoredEvent Doc))
  | count (pending : ℕ)
  | position (mark : ℕ)

/-- An operation with the id that is generated and the time that is read during it. -/
structure StampedOperation (Doc : Type) where
  operation : StoreOperation Doc
  eventId : String
  now : ℕ

/-! ## Limits -/

/-- A text of a `String(maximum)` column. -/
def FitsColumn (maximum : ℕ) (text : String) : Prop := text.length ≤ maximum

instance (maximum : ℕ) (text : String) : Decidable (FitsColumn maximum text) :=
  inferInstanceAs (Decidable (_ ≤ _))

/-- The columns of `indexing_event_heads`. -/
def FitsHead (identity : EventIdentity) : Prop :=
  FitsColumn 256 identity.tenantId ∧ FitsColumn 128 identity.collection ∧
    FitsColumn 256 identity.documentId

instance (identity : EventIdentity) : Decidable (FitsHead identity) :=
  inferInstanceAs (Decidable (_ ∧ _))

/-- A character of `TARGET`. -/
def isTargetChar (c : Char) : Bool :=
  c.isAlphanum || c = '.' || c = '_' || c = '-'

/-- `TARGET`, `^[A-Za-z0-9._-]{1,128}$`. -/
def IsTarget (target : String) : Prop :=
  1 ≤ target.length ∧ target.length ≤ 128 ∧ target.toList.all isTargetChar = true

instance (target : String) : Decidable (IsTarget target) :=
  inferInstanceAs (Decidable (_ ∧ _))

/-- What `_validate_registration` asks of an identity. -/
def RegistrableIdentity (identity : EventIdentity) : Prop :=
  (identity.tenantId ≠ "" ∧ FitsColumn 256 identity.tenantId) ∧
    (identity.collection ≠ "" ∧ FitsColumn 128 identity.collection) ∧
    (identity.documentId ≠ "" ∧ FitsColumn 256 identity.documentId)

instance (identity : EventIdentity) : Decidable (RegistrableIdentity identity) :=
  inferInstanceAs (Decidable (_ ∧ _))

/-- What `_validate_registration` asks of a route. -/
def RegistrableRoute (rolloutId : Option String) (routingRevision : ℕ)
    (targetClusters : List ClusterName) : Prop :=
  FitsColumn 128 (rolloutId.getD "") ∧ 1 ≤ routingRevision ∧ targetClusters ≠ [] ∧
    ∀ target ∈ targetClusters, IsTarget target

instance (rolloutId : Option String) (routingRevision : ℕ) (targetClusters : List ClusterName) :
    Decidable (RegistrableRoute rolloutId routingRevision targetClusters) :=
  inferInstanceAs (Decidable (_ ∧ _))

/-- `_validate_registration` accepts the draft. -/
def TracedDraft.Registrable (draft : TracedDraft Doc) : Prop :=
  RegistrableIdentity draft.identity ∧
    RegistrableRoute draft.rolloutId draft.routingRevision draft.targetClusters

instance (draft : TracedDraft Doc) : Decidable draft.Registrable :=
  inferInstanceAs (Decidable (_ ∧ _))

/-- The fields of an operation satisfy the column limits and, for a deletion, the
checks of the deletion ledger. -/
def StoreOperation.Storable : StoreOperation Doc → Prop
  | prepare draft =>
    FitsHead draft.identity ∧ (draft.mutation.operation ≠ .upsert → draft.Registrable)
  | prepareLatestRepair repair =>
    RegistrableRoute repair.rolloutId repair.routingRevision repair.targetClusters
  | _ => True

instance : (operation : StoreOperation Doc) → Decidable operation.Storable
  | .prepare draft => inferInstanceAs (Decidable (FitsHead draft.identity ∧ _))
  | .prepareLatestRepair repair => inferInstanceAs (Decidable (RegistrableRoute repair.rolloutId _ _))
  | .markPublished _ => isTrue trivial
  | .recordFailure _ _ => isTrue trivial
  | .listPending _ => isTrue trivial
  | .pendingCount => isTrue trivial
  | .listLatestByIdentity _ _ _ => isTrue trivial
  | .highWaterMark => isTrue trivial

/-- `_validate_position_window` -/
def validatePositionWindow (afterPosition throughPosition limit : ℤ) : Option StoreError :=
  if afterPosition < 0 ∨ throughPosition < afterPosition then some .invalidWindow
  else if limit < 1 then some .invalidLimit
  else none

/-! ## The store -/

structure PostgresStore (Doc : Type) where
  tables : EventTables Doc
  nextPosition : ℕ

namespace PostgresStore

def empty : PostgresStore Doc := ⟨.empty, 1⟩

variable (canonical : Doc → String) (store : PostgresStore Doc)

/-- The unique constraints of the outbox. -/
def Unique (tables : EventTables Doc) (row : EventRow Doc) : Prop :=
  ∀ other ∈ tables.outbox, other.eventId ≠ row.eventId ∧
    other.idempotencyKeyHash ≠ row.idempotencyKeyHash ∧
    other.globalPosition ≠ row.globalPosition ∧
    ¬(other.identityHash = row.identityHash ∧ other.sequence = row.sequence)

instance (tables : EventTables Doc) (row : EventRow Doc) : Decidable (Unique tables row) :=
  inferInstanceAs (Decidable (∀ _ ∈ _, _))

/-- The head is moved on to the sequence after `last`, then `_insert_outbox_event`. -/
def insertOutboxEvent (tables : EventTables Doc) (draft : TracedDraft Doc) (eventId : String)
    (last now : ℕ) : StoreAnswer Doc × PostgresStore Doc :=
  let row := insertedRow canonical draft eventId last now store.nextPosition
  let drawn := { store with nextPosition := store.nextPosition + 1 }
  if ¬Unique tables row then (.refused .integrity, drawn)
  else if draft.mutation.operation ≠ .upsert ∧ ¬draft.Registrable then
    (.refused .invalidRegistration, drawn)
  else if draft.mutation.operation ≠ .upsert ∧
      row.sequence ≤ tables.tombstones draft.identity.logicalKey then
    (.refused .staleTombstone, drawn)
  else (.event (rowToEvent row), { drawn with tables := tables.insertEvent row })

/-- The answer of `_verify_existing`. -/
def verifyExisting (row : EventRow Doc) (draft : TracedDraft Doc) : StoreAnswer Doc :=
  match EventTables.verifyExisting canonical row draft with
  | .error error => .refused error
  | .ok stored => .event stored

/-- `prepare` -/
def prepare (draft : TracedDraft Doc) (eventId : String) (now : ℕ) :
    StoreAnswer Doc × PostgresStore Doc :=
  match store.tables.existingForKey draft.idempotencyKeyHash with
  | some row => (verifyExisting canonical row draft, store)
  | none =>
    if ¬FitsHead draft.identity then (.refused .columnLimit, store)
    else
      let tables := store.tables.ensureHead draft.identity
      match tables.heads draft.identity.logicalKey with
      | none => (.refused .integrity, store)
      | some head =>
        match tables.existingForKey draft.idempotencyKeyHash with
        | some row => (verifyExisting canonical row draft, { store with tables })
        | none => store.insertOutboxEvent canonical tables draft eventId head.lastSequence now

/-- `prepare_latest_repair` -/
def prepareLatestRepair (repair : TracedRepair) (eventId : String) (now : ℕ) :
    StoreAnswer Doc × PostgresStore Doc :=
  match store.tables.heads repair.identityKey with
  | none => (.refused .sourceNotFound, store)
  | some head =>
    match store.tables.existingForKey
        (indexingIdempotencyKeyHash head.identity repair.idempotencyKey) with
    | some row => (.event (rowToEvent row), store)
    | none =>
      match EventTables.newestRow (store.tables.rowsOf repair.identityKey) with
      | none => (.refused .headWithoutEvent, store)
      | some source =>
        store.insertOutboxEvent canonical store.tables
          (buildRepairDraft repair (rowToEvent source)) eventId head.lastSequence now

/-- An update of the unpublished row with the id, and whether it changed one row. -/
def updateUnpublished (eventId : String) (update : EventRow Doc → EventRow Doc) :
    StoreAnswer Doc × PostgresStore Doc :=
  (.found ((store.tables.outbox.filter fun row =>
      row.eventId = eventId ∧ row.publishedAt = none).length = 1),
    { store with tables := store.tables.updateRows update })

/-- `mark_published` -/
def markPublished (eventId : String) (now : ℕ) : StoreAnswer Doc × PostgresStore Doc :=
  store.updateUnpublished eventId (EventRow.markPublished eventId now)

/-- `record_failure` -/
def recordFailure (eventId error : String) : StoreAnswer Doc × PostgresStore Doc :=
  store.updateUnpublished eventId (EventRow.recordFailure eventId error)

/-- The unpublished rows. -/
def pendingRows : List (EventRow Doc) :=
  store.tables.outbox.filter fun row => row.publishedAt = none

/-- `list_pending` -/
def listPending (limit : ℤ) : StoreAnswer Doc :=
  if limit < 1 then .refused .invalidLimit
  else .events (((byPosition EventRow.globalPosition store.pendingRows).take limit.toNat).map
    rowToEvent)

/-- `pending_count` -/
def pendingCount : StoreAnswer Doc := .count store.pendingRows.length

/-- The rows after one position, through another. -/
def windowRows (afterPosition throughPosition : ℤ) : List (EventRow Doc) :=
  store.tables.outbox.filter fun row =>
    afterPosition < row.globalPosition ∧ row.globalPosition ≤ throughPosition

/-- `list_latest_by_identity` -/
def listLatestByIdentity (afterPosition throughPosition limit : ℤ) : StoreAnswer Doc :=
  match validatePositionWindow afterPosition throughPosition limit with
  | some error => .refused error
  | none =>
    .events (((byPosition EventRow.globalPosition
      (latestRanked EventRow.identityHash EventRow.globalPosition
        (store.windowRows afterPosition throughPosition))).take limit.toNat).map rowToEvent)

/-- `high_water_mark` -/
def highWaterMark : StoreAnswer Doc := .position store.tables.maxPosition

/-- One operation. -/
def perform (stamped : StampedOperation Doc) : StoreAnswer Doc × PostgresStore Doc :=
  match stamped.operation with
  | .prepare draft => store.prepare canonical draft stamped.eventId stamped.now
  | .prepareLatestRepair repair =>
    store.prepareLatestRepair canonical repair stamped.eventId stamped.now
  | .markPublished eventId => store.markPublished eventId stamped.now
  | .recordFailure eventId error => store.recordFailure eventId error
  | .listPending limit => (store.listPending limit, store)
  | .pendingCount => (store.pendingCount, store)
  | .listLatestByIdentity afterPosition throughPosition limit =>
    (store.listLatestByIdentity afterPosition throughPosition limit, store)
  | .highWaterMark => (store.highWaterMark, store)

end PostgresStore

end ImposbroSearch.Publishing
