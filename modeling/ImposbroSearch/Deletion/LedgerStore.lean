import ImposbroSearch.Deletion.Tombstones
import ImposbroSearch.Foundation.Runs
import ImposbroSearch.Publishing.PostgresStore

/-!
# The event store with its deletion ledger

A deletion stores its outbox row and registers its tombstone in one transaction, so
both are there afterwards or neither is. Receipts, legal holds and the tombstone of an
event that has been prepared before come from other components, in any order.

What the ledger is for is a statement about sets: the tombstone of an identity is the
greatest sequence among its deletions.
-/

namespace ImposbroSearch.Deletion

open ImposbroSearch.Foundation ImposbroSearch.Indexing ImposbroSearch.Publishing

variable {Doc : Type}

/-- The outbox tables and the tables of the ledger. -/
structure LedgerStore (Doc : Type) where
  events : PostgresStore Doc
  ledger : DeletionLedger

/-- An operation with the id that is generated during it. -/
inductive LedgerOperation (Doc : Type) where
  | prepare (draft : TracedDraft Doc) (eventId : String)
  | prepareLatestRepair (repair : TracedRepair) (eventId : String)
  | register (registration : TombstoneRegistration)
  | recordTarget (identityHash targetId : String) (tombstoneSequence checkpointSequence : ℕ)
      (status receipt : String)
  | setLegalHold (identityHash : String) (enabled : Bool) (reference : String)

/-- An operation with the time that is read during it. -/
structure LedgerAction (Doc : Type) where
  operation : LedgerOperation Doc
  now : ℕ

/-- What an operation returns or raises. -/
inductive LedgerAnswer (Doc : Type) where
  | event (stored : StoredEvent Doc)
  | refused (error : StoreError)
  | ledgerError (error : LedgerError)
  | registered (record : DeletionRecord)
  | done

/-- The row of a deletion. -/
def IsDeletion (row : EventRow Doc) : Prop := row.payload.event.mutation.operation ≠ .upsert

instance (row : EventRow Doc) : Decidable (IsDeletion row) := inferInstanceAs (Decidable (_ ≠ _))

namespace LedgerStore

def empty : LedgerStore Doc := ⟨.empty, .empty⟩

variable (canonical : Doc → String) (digest : EventPayload Doc → String) (state : LedgerStore Doc)

/-- The tombstone of a deletion that is being inserted. -/
def tombstoneRegistration (draft : TracedDraft Doc) (row : EventRow Doc) (now : ℕ) :
    TombstoneRegistration where
  identityHash := draft.identity.logicalKey
  tenantId := draft.identity.tenantId
  collection := draft.identity.collection
  documentId := draft.identity.documentId
  tombstoneSequence := row.sequence
  documentVersion := row.sequence
  eventId := row.eventId
  eventDigest := digest row.payload
  routingRevision := draft.routingRevision
  rolloutId := draft.rolloutId.getD ""
  targetIds := draft.targetClusters
  requestedAt := now
  retentionUntil := none

/-- The head is moved on, then `_insert_outbox_event`. Whatever it raises takes the head
and the row back. -/
def insertOutboxEvent (tables : EventTables Doc) (draft : TracedDraft Doc) (eventId : String)
    (last now : ℕ) : LedgerAnswer Doc × LedgerStore Doc :=
  let row := insertedRow canonical draft eventId last now state.events.nextPosition
  let nextPosition := state.events.nextPosition + 1
  let drawn := { state with events := { state.events with nextPosition } }
  if ¬PostgresStore.Unique tables row then (.refused .integrity, drawn)
  else if draft.mutation.operation = .upsert then
    (.event (rowToEvent row),
      { state with events := { tables := tables.insertEvent row, nextPosition } })
  else
    match state.ledger.registerTombstone (tombstoneRegistration digest draft row now) now with
    | .error error => (.ledgerError error, drawn)
    | .ok (_, ledger) =>
      (.event (rowToEvent row),
        { events := { tables := tables.insertEvent row, nextPosition }, ledger })

/-- `_verify_existing` -/
def verifyExisting (row : EventRow Doc) (draft : TracedDraft Doc) : LedgerAnswer Doc :=
  match EventTables.verifyExisting canonical row draft with
  | .error error => .refused error
  | .ok stored => .event stored

/-- `prepare` -/
def prepare (draft : TracedDraft Doc) (eventId : String) (now : ℕ) :
    LedgerAnswer Doc × LedgerStore Doc :=
  match state.events.tables.existingForKey draft.idempotencyKeyHash with
  | some row => (verifyExisting canonical row draft, state)
  | none =>
    if ¬FitsHead draft.identity then (.refused .columnLimit, state)
    else
      let tables := state.events.tables.ensureHead draft.identity
      match tables.heads draft.identity.logicalKey with
      | none => (.refused .integrity, state)
      | some head =>
        match tables.existingForKey draft.idempotencyKeyHash with
        | some row =>
          (verifyExisting canonical row draft, { state with events := { state.events with tables } })
        | none =>
          state.insertOutboxEvent canonical digest tables draft eventId head.lastSequence now

/-- `prepare_latest_repair` -/
def prepareLatestRepair (repair : TracedRepair) (eventId : String) (now : ℕ) :
    LedgerAnswer Doc × LedgerStore Doc :=
  match state.events.tables.heads repair.identityKey with
  | none => (.refused .sourceNotFound, state)
  | some head =>
    match state.events.tables.existingForKey
        (indexingIdempotencyKeyHash head.identity repair.idempotencyKey) with
    | some row => (.event (rowToEvent row), state)
    | none =>
      match EventTables.newestRow (state.events.tables.rowsOf repair.identityKey) with
      | none => (.refused .headWithoutEvent, state)
      | some source =>
        state.insertOutboxEvent canonical digest state.events.tables
          (buildRepairDraft repair (rowToEvent source)) eventId head.lastSequence now

/-- An operation of the ledger alone. -/
def updateLedger (result : Except LedgerError DeletionLedger) : LedgerAnswer Doc × LedgerStore Doc :=
  match result with
  | .error error => (.ledgerError error, state)
  | .ok ledger => (.done, { state with ledger })

/-- `register` -/
def register (registration : TombstoneRegistration) (now : ℕ) :
    LedgerAnswer Doc × LedgerStore Doc :=
  match state.ledger.registerTombstone registration now with
  | .error error => (.ledgerError error, state)
  | .ok (record, ledger) => (.registered record, { state with ledger })

/-- One operation. -/
def perform (action : LedgerAction Doc) : LedgerAnswer Doc × LedgerStore Doc :=
  match action.operation with
  | .prepare draft eventId => state.prepare canonical digest draft eventId action.now
  | .prepareLatestRepair repair eventId =>
    state.prepareLatestRepair canonical digest repair eventId action.now
  | .register registration => state.register registration action.now
  | .recordTarget identityHash targetId tombstoneSequence checkpointSequence status receipt =>
    state.updateLedger (state.ledger.recordTarget identityHash targetId tombstoneSequence
      checkpointSequence status receipt action.now)
  | .setLegalHold identityHash enabled reference =>
    state.updateLedger (state.ledger.setLegalHold identityHash enabled reference action.now)

def step (action : LedgerAction Doc) : LedgerStore Doc := (state.perform canonical digest action).2

/-- The registration of a deletion in the outbox. -/
def Registers (row : EventRow Doc) (registration : TombstoneRegistration) : Prop :=
  IsDeletion row ∧ registration.identityHash = row.identityHash ∧
    registration.tombstoneSequence = row.sequence ∧ registration.eventId = row.eventId ∧
      registration.eventDigest = digest row.payload

/-- Tombstones are registered again for events that have been prepared. -/
def Replays (action : LedgerAction Doc) : Prop :=
  ∀ registration, action.operation = .register registration →
    ∃ row ∈ state.events.tables.outbox, Registers digest row registration

/-! ## What the ledger is for -/

/-- The sequences of the deletions of an identity. -/
def deletions (identityHash : String) : Set ℕ :=
  {sequence | ∃ row ∈ state.events.tables.outbox, IsDeletion row ∧
    row.identityHash = identityHash ∧ row.sequence = sequence}

/-- **The ledger suppresses the deleted documents.** The tombstone of an identity is
its last deletion; convergence means that every target of it has confirmed; and
nothing up to the tombstone is replayed. -/
structure Suppresses : Prop where
  highest : ∀ identityHash record, state.ledger.find identityHash = some record →
    IsGreatest (state.deletions identityHash) record.tombstoneSequence
  complete : ∀ identityHash, state.ledger.find identityHash = none →
    state.deletions identityHash = ∅
  converged : ∀ identityHash record, state.ledger.find identityHash = some record →
    (record.convergedAt ≠ none ↔ state.ledger.pendingRows identityHash = [])
  receipts : ∀ target ∈ state.ledger.targets, ∃ record,
    state.ledger.find target.identityHash = some record ∧
      target.tombstoneSequence = record.tombstoneSequence ∧
      (target.receiptHash ≠ none → ∃ checkpoint, target.checkpointSequence = some checkpoint ∧
        record.tombstoneSequence ≤ checkpoint)
  replay : ∀ identityHash record (sequence : ℤ), state.ledger.find identityHash = some record →
    sequence ≤ record.tombstoneSequence →
      state.ledger.replayAllowed identityHash sequence ≠ .ok true

end LedgerStore

/-- The second row keeps its document suppressed at least as long as the first one. -/
structure DeletionRecord.Outlasts (before after : DeletionRecord) : Prop where
  sequence : before.tombstoneSequence ≤ after.tombstoneSequence
  retention : ∀ limit, after.retentionUntil = some limit →
    ∃ earlier, before.retentionUntil = some earlier ∧ earlier ≤ limit

/-- The same hold. -/
def DeletionRecord.SameHold (before after : DeletionRecord) : Prop :=
  after.legalHold = before.legalHold ∧ after.legalHoldReference = before.legalHoldReference

namespace LedgerStore

variable (digest : EventPayload Doc → String)

/-- The outbox and the tombstones move together: both stay, or a row is added and, for
a deletion, its tombstone. -/
def Together (before after : LedgerStore Doc) : Prop :=
  (after.events.tables.outbox = before.events.tables.outbox ∧
      ∀ identityHash, (after.ledger.find identityHash).map DeletionRecord.tombstoneSequence =
        (before.ledger.find identityHash).map DeletionRecord.tombstoneSequence) ∨
    ∃ row, after.events.tables.outbox = before.events.tables.outbox ++ [row] ∧
      (¬IsDeletion row → after.ledger = before.ledger) ∧
      (IsDeletion row → ∃ record, after.ledger.find row.identityHash = some record ∧
        record.tombstoneSequence = row.sequence ∧ record.eventId = row.eventId ∧
          record.eventDigest = digest row.payload)

/-- **What one operation may do to the ledger.** -/
structure Keeps (before : LedgerStore Doc) (action : LedgerAction Doc)
    (result : LedgerAnswer Doc × LedgerStore Doc) : Prop where
  outlasts : ∀ identityHash record, before.ledger.find identityHash = some record →
    ∃ after, result.2.ledger.find identityHash = some after ∧ record.Outlasts after
  holds : ∀ identityHash record after, before.ledger.find identityHash = some record →
    result.2.ledger.find identityHash = some after →
      (∀ enabled reference, action.operation ≠ .setLegalHold identityHash enabled reference) →
        record.SameHold after
  together : Together digest before result.2
  refused : (∃ error, result.1 = .refused error) ∨ (∃ error, result.1 = .ledgerError error) →
    result.2.ledger = before.ledger ∧
      result.2.events.tables.outbox = before.events.tables.outbox
  notStale : ∀ message, result.1 = .ledgerError (.staleTombstone message) →
    (∀ draft eventId, action.operation ≠ .prepare draft eventId) ∧
      ∀ repair eventId, action.operation ≠ .prepareLatestRepair repair eventId

end LedgerStore

end ImposbroSearch.Deletion
