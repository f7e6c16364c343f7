import ImposbroSearch.Foundation.Runs
import ImposbroSearch.Publishing.OutboxTables

/-!
# Interleaved transactions of the Postgres event store

A transaction is a sequence of statements, and the statements of different
transactions interleave. Each statement reads what is committed when it runs. Under
that isolation level everything rests on locks and constraints:

* selecting a head for update waits for the lock of that head, and so does the
  insertion of a head that another transaction is inserting;
* an insertion waits for an uncommitted row with the same key, and fails on a
  committed one;
* an insertion or update of the outbox takes the table's `ROW EXCLUSIVE` lock and
  `high_water_mark` its `SHARE` lock, and each waits for the other.

All locks last until the end of their transaction. A position is drawn at the
insertion and stays drawn when the transaction fails, which it may do at any point.
-/

namespace ImposbroSearch.Publishing

open ImposbroSearch.Foundation ImposbroSearch.Indexing

variable {Doc : Type}

/-- The API accepts no key with a control character. -/
def PlainKey (idempotencyKey : String) : Prop := '\x1f' ∉ idempotencyKey.toList

inductive StoreRequest (Doc : Type) where
  | prepare (draft : TracedDraft Doc) (plain : PlainKey draft.idempotencyKey)
  | prepareLatestRepair (repair : TracedRepair) (plain : PlainKey repair.idempotencyKey)
  | markPublished (eventId : String)
  | recordFailure (eventId error : String)
  | highWaterMark

inductive StoreOutcome (Doc : Type) where
  | event (stored : StoredEvent Doc)
  | refused (error : StoreError)
  | updated (found : Bool)
  | mark (position : ℕ)

/-- The next statement of a transaction. -/
inductive Statement (Doc : Type) where
  | existingForKey
  | ensureHead
  | selectHead
  | existingForKeyAgain
  | selectSource
  | insertEvent (draft : TracedDraft Doc)
  | commitEvent (row : EventRow Doc)
  | updateRow
  | commitRow
  | lockTable
  | selectMax

structure Transaction (Doc : Type) where
  request : StoreRequest Doc
  startedAt : ℕ
  next : Statement Doc
  insertedHead : Bool := false

/-- The committed tables, the position sequence, the transactions in flight with
their locks, and what the finished ones returned. -/
structure Database (Doc : Type) where
  tables : EventTables Doc
  nextPosition : ℕ
  transactions : ℕ → Option (Transaction Doc)
  headLocks : String → Option ℕ
  rowLocks : String → Option ℕ
  rowExclusive : List ℕ
  share : List ℕ
  outcomes : List (StoreRequest Doc × StoreOutcome Doc)

inductive StoreAction (Doc : Type) where
  | start (id : ℕ) (request : StoreRequest Doc) (now : ℕ)
  | advance (id : ℕ) (eventId : String)
  | abort (id : ℕ)

/-- The statement a request starts with. -/
def StoreRequest.first : StoreRequest Doc → Statement Doc
  | prepare _ _ => .existingForKey
  | prepareLatestRepair _ _ => .selectHead
  | markPublished _ => .updateRow
  | recordFailure _ _ => .updateRow
  | highWaterMark => .lockTable

/-- What an update request does to a row. -/
def StoreRequest.update (now : ℕ) : StoreRequest Doc → EventRow Doc → EventRow Doc
  | markPublished eventId => EventRow.markPublished eventId now
  | recordFailure eventId error => EventRow.recordFailure eventId error
  | _ => id

namespace Database

def empty : Database Doc where
  tables := .empty
  nextPosition := 1
  transactions := fun _ => none
  headLocks := fun _ => none
  rowLocks := fun _ => none
  rowExclusive := []
  share := []
  outcomes := []

variable (canonical : Doc → String) (db : Database Doc) (id : ℕ) (transaction : Transaction Doc)

/-- The end of a transaction: its effect is visible, its locks are free. -/
def finish (outcome : StoreOutcome Doc) (tables : EventTables Doc) : Database Doc :=
  { db with
    tables := tables
    transactions := fun other => if other = id then none else db.transactions other
    headLocks := fun key => if db.headLocks key = some id then none else db.headLocks key
    rowLocks := fun eventId => if db.rowLocks eventId = some id then none else db.rowLocks eventId
    rowExclusive := db.rowExclusive.filter (· ≠ id)
    share := db.share.filter (· ≠ id)
    outcomes := db.outcomes ++ [(transaction.request, outcome)] }

/-- The transaction goes on with its next statement. -/
def goOn (next : Statement Doc) : Database Doc :=
  { db with
    transactions := fun other =>
      if other = id then some { transaction with next } else db.transactions other }

/-- The lock of a head. -/
def lockHead (identityHash : String) : Database Doc :=
  { db with
    headLocks := fun key => if key = identityHash then some id else db.headLocks key }

/-- Another transaction holds the lock. -/
def LockedByOther (owner : Option ℕ) (id : ℕ) : Prop := owner ≠ none ∧ owner ≠ some id

instance (owner : Option ℕ) (id : ℕ) : Decidable (LockedByOther owner id) :=
  inferInstanceAs (Decidable (_ ∧ _))

/-- The row a transaction has inserted and not committed. -/
def uncommittedRow (other : ℕ) : Option (EventRow Doc) :=
  match db.transactions other with
  | some { next := .commitEvent row, .. } => some row
  | _ => none

/-- Two rows that the unique constraints keep apart. -/
def Clashes (keyHash eventId : String) (row : EventRow Doc) : Prop :=
  row.idempotencyKeyHash = keyHash ∨ row.eventId = eventId

instance (keyHash eventId : String) (row : EventRow Doc) :
    Decidable (Clashes keyHash eventId row) := inferInstanceAs (Decidable (_ ∨ _))

/-- `_insert_outbox_event`, with the head moved on. -/
def insertEvent (draft : TracedDraft Doc) (eventId : String) : Database Doc :=
  if db.share ≠ [] then db
  else if db.rowExclusive.any fun other =>
      (db.uncommittedRow other).any fun row => Clashes draft.idempotencyKeyHash eventId row then db
  else
    let row := insertedRow canonical draft eventId
      (db.tables.lastSequence draft.identity.logicalKey) transaction.startedAt db.nextPosition
    let drawn := { db with nextPosition := db.nextPosition + 1 }
    if db.tables.outbox.any fun other => Clashes draft.idempotencyKeyHash eventId other then
      drawn.finish id transaction (.refused .integrity) db.tables
    else if draft.mutation.operation ≠ .upsert ∧
        row.sequence ≤ db.tables.tombstones draft.identity.logicalKey then
      drawn.finish id transaction (.refused .staleTombstone) db.tables
    else
      { drawn.goOn id transaction (.commitEvent row) with rowExclusive := id :: db.rowExclusive }

/-- The outcome of `_verify_existing`. -/
def verified (row : EventRow Doc) (draft : TracedDraft Doc) : StoreOutcome Doc :=
  match EventTables.verifyExisting canonical row draft with
  | .error error => .refused error
  | .ok stored => .event stored

/-- One statement of `prepare`. -/
def advancePrepare (draft : TracedDraft Doc) (eventId : String) : Database Doc :=
  match transaction.next with
  | .existingForKey =>
    match db.tables.existingForKey draft.idempotencyKeyHash with
    | some row => db.finish id transaction (verified canonical row draft) db.tables
    | none => db.goOn id transaction .ensureHead
  | .ensureHead =>
    if (db.tables.heads draft.identity.logicalKey).isSome then db.goOn id transaction .selectHead
    else if LockedByOther (db.headLocks draft.identity.logicalKey) id then db
    else (db.lockHead id draft.identity.logicalKey).goOn id { transaction with insertedHead := true }
      .selectHead
  | .selectHead =>
    if (db.tables.heads draft.identity.logicalKey).isNone ∧ !transaction.insertedHead then
      db.finish id transaction (.refused .integrity) db.tables
    else if LockedByOther (db.headLocks draft.identity.logicalKey) id then db
    else (db.lockHead id draft.identity.logicalKey).goOn id transaction .existingForKeyAgain
  | .existingForKeyAgain =>
    match db.tables.existingForKey draft.idempotencyKeyHash with
    | some row =>
      db.finish id transaction (verified canonical row draft)
        (if transaction.insertedHead ∧ row.requestDigest = draft.requestDigest canonical then
          db.tables.ensureHead draft.identity
        else db.tables)
    | none => db.goOn id transaction (.insertEvent draft)
  | .insertEvent draft => db.insertEvent canonical id transaction draft eventId
  | .commitEvent row =>
    db.finish id transaction (.event (rowToEvent row)) (db.tables.insertEvent row)
  | _ => db

/-- One statement of `prepare_latest_repair`. -/
def advanceRepair (repair : TracedRepair) (eventId : String) : Database Doc :=
  match transaction.next with
  | .selectHead =>
    match db.tables.heads repair.identityKey with
    | none => db.finish id transaction (.refused .sourceNotFound) db.tables
    | some _ =>
      if LockedByOther (db.headLocks repair.identityKey) id then db
      else (db.lockHead id repair.identityKey).goOn id transaction .existingForKeyAgain
  | .existingForKeyAgain =>
    match db.tables.heads repair.identityKey with
    | none => db.finish id transaction (.refused .sourceNotFound) db.tables
    | some head =>
      match db.tables.existingForKey
          (indexingIdempotencyKeyHash head.identity repair.idempotencyKey) with
      | some row => db.finish id transaction (.event (rowToEvent row)) db.tables
      | none => db.goOn id transaction .selectSource
  | .selectSource =>
    match EventTables.newestRow (db.tables.rowsOf repair.identityKey) with
    | none => db.finish id transaction (.refused .headWithoutEvent) db.tables
    | some source =>
      db.goOn id transaction (.insertEvent (buildRepairDraft repair (rowToEvent source)))
  | .insertEvent draft => db.insertEvent canonical id transaction draft eventId
  | .commitEvent row =>
    db.finish id transaction (.event (rowToEvent row)) (db.tables.insertEvent row)
  | _ => db

/-- One statement of `mark_published` or `record_failure`. -/
def advanceUpdate (eventId : String) : Database Doc :=
  match transaction.next with
  | .updateRow =>
    if db.share ≠ [] then db
    else if db.tables.outbox.any fun row => row.eventId = eventId ∧ row.publishedAt = none then
      if LockedByOther (db.rowLocks eventId) id then db
      else
        { db.goOn id transaction .commitRow with
          rowLocks := fun other => if other = eventId then some id else db.rowLocks other
          rowExclusive := id :: db.rowExclusive }
    else db.finish id transaction (.updated false) db.tables
  | .commitRow =>
    db.finish id transaction (.updated true)
      (db.tables.updateRows (transaction.request.update transaction.startedAt))
  | _ => db

/-- One statement of `high_water_mark`. -/
def advanceMark : Database Doc :=
  match transaction.next with
  | .lockTable =>
    if db.rowExclusive ≠ [] then db
    else { db.goOn id transaction .selectMax with share := id :: db.share }
  | .selectMax => db.finish id transaction (.mark db.tables.maxPosition) db.tables
  | _ => db

/-- One statement of a transaction; one that has to wait changes nothing. -/
def advance (eventId : String) : Database Doc :=
  match db.transactions id with
  | none => db
  | some transaction =>
    match transaction.request with
    | .prepare draft _ => db.advancePrepare canonical id transaction draft eventId
    | .prepareLatestRepair repair _ => db.advanceRepair canonical id transaction repair eventId
    | .markPublished eventId => db.advanceUpdate id transaction eventId
    | .recordFailure eventId _ => db.advanceUpdate id transaction eventId
    | .highWaterMark => db.advanceMark id transaction

/-- A new transaction. -/
def start (request : StoreRequest Doc) (now : ℕ) : Database Doc :=
  if (db.transactions id).isSome then db
  else db.goOn id { request, startedAt := now, next := request.first } request.first

/-- A transaction is rolled back. -/
def abort : Database Doc :=
  match db.transactions id with
  | none => db
  | some transaction => db.finish id transaction (.refused .integrity) db.tables

def step (canonical : Doc → String) (db : Database Doc) : StoreAction Doc → Database Doc
  | .start id request now => db.start id request now
  | .advance id eventId => db.advance canonical id eventId
  | .abort id => db.abort id

end Database

end ImposbroSearch.Publishing
