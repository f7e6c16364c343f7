import ImposbroSearch.ControlPlane.Integrity
import ImposbroSearch.Foundation.HashChain
import ImposbroSearch.Foundation.Runs

/-!
# The Postgres control-plane store

The tables of the store and its transactions, statement by statement, as they interleave. A
commit locks the state row, or inserts it, and then the audit head; an audit record of its
own locks the audit head only. Locks last until the end of their transaction, whose effects
become visible all at once. A statement that has to wait changes nothing.

A text that is longer than its column is refused, unless all that is too long of it are
blanks: those are cut off. Ids are generated.
-/

namespace ImposbroSearch.ControlPlane.AuditStore

open ImposbroSearch.Foundation

/-- `CURRENT_STATE_SCHEMA_VERSION` -/
def currentStateSchemaVersion : ℤ := 1

/-! ## Rows -/

structure StateRow where
  revision : ℤ
  schemaVersion : ℤ
  stateJson : Jsonb
  stateDigest : Text
  updatedAt : Timestamp

structure AuditRow where
  id : Text
  sequence : ℕ
  revision : Option ℤ
  timestamp : Timestamp
  actor : Text
  action : Text
  resourceType : Text
  resourceId : Text
  status : Text
  requestId : Text
  detailsJson : Jsonb
  previousHash : Text
  eventHash : Text

structure OutboxRow where
  id : Text
  revision : ℤ
  eventType : Text
  payloadJson : Jsonb
  createdAt : Timestamp
  publishedAt : Option Timestamp
  lastError : Option Text
  publishAttempts : ℕ

/-- A generated id. -/
structure EventId where
  text : Text
  short : text.length ≤ 36
  storable : StorableText text

/-- A text of a `String(maximum)` column. -/
def column (maximum : ℕ) (text : Text) : Option Text :=
  if StorableText text then
    if text.length ≤ maximum then some text
    else if (text.drop maximum).all (· = 32) then some (text.take maximum)
    else none
  else none

/-- A number of a `BigInteger` column. -/
def FitsBigInteger (n : ℤ) : Prop := -9223372036854775808 ≤ n ∧ n ≤ 9223372036854775807

instance (n : ℤ) : Decidable (FitsBigInteger n) :=
  decidable_of_iff ((-n).toNat ≤ 9223372036854775808 ∧ n.toNat ≤ 9223372036854775807)
    (by unfold FitsBigInteger; omega)

variable {F : Type}

/-! ## Requests -/

structure CommitRequest (F : Type) where
  expectedRevision : ℤ
  state : JsonValue F
  audit : AuditEvent F
  eventType : Text
  eventPayload : JsonValue F
  schemaVersion : ℤ

inductive StoreRequest (F : Type) where
  | commit (request : CommitRequest F)
  | appendAudit (audit : AuditEvent F) (revision : Option ℤ)
  | markOutboxPublished (eventId : Text) (publishedAt : Timestamp)
  | recordOutboxFailure (eventId error : Text)

inductive StoreError where
  | invalidRevision
  | unsupportedStateSchema (expected actual : ℤ)
  | normalize (error : NormalizeError)
  | unencodable
  | conflict (expected actual : ℤ)
  | uncommittedRevision
  | database
  | auditHeadChanged
  deriving DecidableEq

/-- `ControlPlaneRecord` -/
structure ControlPlaneRecord (F : Type) where
  revision : ℤ
  schemaVersion : ℤ
  state : JsonValue F
  stateDigest : Text
  updatedAt : Timestamp

inductive StoreOutcome (F : Type) where
  | committed (record : ControlPlaneRecord F)
  | appended
  | updated (found : Bool)
  | refused (error : StoreError)

/-- What a commit has normalized before its transaction. -/
structure PreparedCommit (F : Type) where
  state : JsonValue F
  payload : JsonValue F
  stateDigest : Text

/-- The checks of `commit` before its transaction. -/
def prepareCommit [PyFloat F] (hash : List ℕ → Text) (request : CommitRequest F) :
    Except StoreError (PreparedCommit F) :=
  if request.expectedRevision < 0 then .error .invalidRevision
  else if request.schemaVersion ≠ currentStateSchemaVersion then
    .error (.unsupportedStateSchema currentStateSchemaVersion request.schemaVersion)
  else
    match normalizeJsonObject request.state, normalizeJsonObject request.eventPayload with
    | .error error, _ => .error (.normalize error)
    | .ok _, .error error => .error (.normalize error)
    | .ok state, .ok payload =>
      match canonicalStateDigest hash state with
      | none => .error .unencodable
      | some stateDigest => .ok ⟨state, payload, stateDigest⟩

/-! ## Transactions -/

/-- What a transaction meant to record: the material that it hashed, and the hash. -/
structure AuditEntry (F : Type) where
  material : AuditMaterial F
  unique : material.details.Unique
  eventHash : Text

/-- The next statement of a transaction. -/
inductive Statement (F : Type) where
  | selectState
  | insertState
  | updateState
  | selectRevision
  | selectHead
  | insertAudit (head : ChainPoint Text)
  | updateHead (head : ChainPoint Text) (row : AuditRow) (entry : AuditEntry F)
  | insertOutbox (row : AuditRow) (entry : AuditEntry F)
  | commit (row : AuditRow) (entry : AuditEntry F) (outbox : Option OutboxRow)
  | updateRow
  | commitRow

structure Transaction (F : Type) where
  request : StoreRequest F
  prepared : Option (PreparedCommit F)
  startedAt : Timestamp
  next : Statement F
  pendingState : Option StateRow

/-- The committed tables, the transactions in flight with their locks, what was recorded
and what the finished transactions returned. -/
structure Database (F : Type) where
  state : Option StateRow
  head : ChainPoint Text
  audit : List AuditRow
  outbox : List OutboxRow
  transactions : ℕ → Option (Transaction F)
  stateLock : Option ℕ
  headLock : Option ℕ
  rowLocks : Text → Option ℕ
  history : List (AuditEntry F)
  outcomes : List (StoreRequest F × StoreOutcome F)

inductive StoreAction (F : Type) where
  | start (id : ℕ) (request : StoreRequest F) (now : Timestamp)
  | advance (id : ℕ) (eventId : EventId)
  | abort (id : ℕ)

/-- The event that a request appends, and the revision it is about. -/
def StoreRequest.auditEvent : StoreRequest F → Option (AuditEvent F × Option ℤ)
  | commit request => some (request.audit, some (request.expectedRevision + 1))
  | appendAudit audit revision => some (audit, revision)
  | _ => none

/-- Another transaction holds the lock. -/
def LockedByOther (owner : Option ℕ) (id : ℕ) : Prop := owner ≠ none ∧ owner ≠ some id

instance (owner : Option ℕ) (id : ℕ) : Decidable (LockedByOther owner id) :=
  inferInstanceAs (Decidable (_ ∧ _))

/-- The material of the next audit event. -/
def nextMaterial (head : ChainPoint Text) (audit : AuditEvent F) (details : JsonValue F)
    (revision : Option ℤ) (timestamp : Timestamp) (eventId : EventId) : AuditMaterial F where
  eventId := eventId.text
  sequence := head.sequence + 1
  revision := revision
  timestamp := timestamp
  actor := audit.actor
  action := audit.action
  resourceType := audit.resourceType
  resourceId := audit.resourceId
  status := audit.status
  requestId := audit.requestId
  details := details.json
  previousHash := head.hash

/-- The columns of an audit row. -/
def auditColumns (material : AuditMaterial F) (detailsJson : Jsonb) (eventHash : Text) :
    Option AuditRow :=
  if FitsBigInteger material.sequence ∧ ∀ revision ∈ material.revision, FitsBigInteger revision then
    match column 256 material.actor, column 128 material.action,
        column 128 material.resourceType, column 512 material.resourceId,
        column 64 material.status, column 128 material.requestId with
    | some actor, some action, some resourceType, some resourceId, some status, some requestId =>
      some
        { id := material.eventId
          sequence := material.sequence
          revision := material.revision
          timestamp := material.timestamp
          actor, action, resourceType, resourceId, status, requestId
          detailsJson
          previousHash := material.previousHash
          eventHash }
    | _, _, _, _, _, _ => none
  else none

section Statements

variable [PyFloat F] (hash : List ℕ → Text)

/-- The row of the next audit event, and what it is meant to record. -/
def nextAuditRow (head : ChainPoint Text) (audit : AuditEvent F) (revision : Option ℤ)
    (timestamp : Timestamp) (eventId : EventId) : Except StoreError (AuditRow × AuditEntry F) :=
  match normalizeJsonObject audit.details with
  | .error error => .error (.normalize error)
  | .ok details =>
    let material := nextMaterial head audit details revision timestamp eventId
    match material.eventHash hash with
    | none => .error .unencodable
    | some eventHash =>
      match Json.toJsonb details with
      | none => .error .database
      | some detailsJson =>
        match auditColumns material detailsJson eventHash with
        | none => .error .database
        | some row => .ok (row, ⟨material, details.unique, eventHash⟩)

/-- The state row of a commit. -/
def nextStateRow (request : CommitRequest F) (prepared : PreparedCommit F)
    (timestamp : Timestamp) : Option StateRow :=
  if FitsBigInteger (request.expectedRevision + 1) then
    (Json.toJsonb prepared.state).map fun stateJson =>
      { revision := request.expectedRevision + 1
        schemaVersion := request.schemaVersion
        stateJson
        stateDigest := prepared.stateDigest
        updatedAt := timestamp }
  else none

/-- The payload of a commit's outbox row: `{**payload, …}`. -/
def outboxPayload (request : CommitRequest F) (prepared : PreparedCommit F) : JsonValue F where
  json :=
    (Json.object (match prepared.payload.json with
      | .object fields =>
        fields ++ [(chars "revision", .int (request.expectedRevision + 1)),
          (chars "schema_version", .int request.schemaVersion),
          (chars "state_digest", .str prepared.stateDigest)]
      | _ => [])).dicts
  unique := Json.unique_dicts _

/-- The outbox row of a commit. -/
def nextOutboxRow (request : CommitRequest F) (prepared : PreparedCommit F)
    (timestamp : Timestamp) (eventId : EventId) : Option OutboxRow :=
  match column 128 request.eventType, Json.toJsonb (outboxPayload request prepared) with
  | some eventType, some payloadJson =>
    some
      { id := eventId.text
        revision := request.expectedRevision + 1
        eventType, payloadJson
        createdAt := timestamp
        publishedAt := none
        lastError := none
        publishAttempts := 0 }
  | _, _ => none

end Statements

namespace Database

def empty : Database F where
  state := none
  head := ⟨0, zeroAuditHash⟩
  audit := []
  outbox := []
  transactions := fun _ => none
  stateLock := none
  headLock := none
  rowLocks := fun _ => none
  history := []
  outcomes := []

variable (db : Database F) (id : ℕ) (transaction : Transaction F)

/-- The end of a transaction: its locks are free. -/
def finish (outcome : StoreOutcome F) : Database F :=
  { db with
    transactions := fun other => if other = id then none else db.transactions other
    stateLock := if db.stateLock = some id then none else db.stateLock
    headLock := if db.headLock = some id then none else db.headLock
    rowLocks := fun row => if db.rowLocks row = some id then none else db.rowLocks row
    outcomes := db.outcomes ++ [(transaction.request, outcome)] }

/-- A transaction that fails leaves nothing behind. -/
def refuse (error : StoreError) : Database F := db.finish id transaction (.refused error)

/-- The transaction goes on with its next statement. -/
def goOn (next : Statement F) : Database F :=
  { db with
    transactions := fun other =>
      if other = id then some { transaction with next } else db.transactions other }

/-- What the transaction did to the tables. -/
def apply (row : AuditRow) (entry : AuditEntry F) (outbox : Option OutboxRow) : Database F :=
  { db with
    state := transaction.pendingState.or db.state
    head := ⟨row.sequence, row.eventHash⟩
    audit := db.audit ++ [row]
    outbox := db.outbox ++ outbox.toList
    history := db.history ++ [entry] }

variable [PyFloat F] (hash : List ℕ → Text)

/-- The revision that is committed. -/
def latestRevision : Option ℤ := db.state.map StateRow.revision

/-- The statements of `_cas_state`. The state row is locked when its statement has run. -/
def advanceState (request : CommitRequest F) (prepared : PreparedCommit F) : Database F :=
  match nextStateRow request prepared transaction.startedAt with
  | none => db.refuse id transaction .database
  | some row =>
    let locked := { db with stateLock := some id }
    match transaction.next with
    | .insertState =>
      if LockedByOther db.stateLock id then db
      else
        match db.latestRevision with
        | some actual => db.refuse id transaction (.conflict request.expectedRevision actual)
        | none => locked.goOn id { transaction with pendingState := some row } .selectHead
    | .updateState =>
      if LockedByOther db.stateLock id then db
      else if db.latestRevision = some request.expectedRevision then
        locked.goOn id { transaction with pendingState := some row } .selectHead
      else
        db.refuse id transaction
          (.conflict request.expectedRevision (db.latestRevision.getD 0))
    | _ => db

/-- The statements of `_append_audit_in_transaction`. -/
def advanceAudit (audit : AuditEvent F) (revision : Option ℤ) (eventId : EventId)
    (behind : AuditRow → AuditEntry F → Statement F) : Database F :=
  match transaction.next with
  | .selectHead =>
    if LockedByOther db.headLock id then db
    else { db with headLock := some id }.goOn id transaction (.insertAudit db.head)
  | .insertAudit head =>
    match nextAuditRow hash head audit revision transaction.startedAt eventId with
    | .error error => db.refuse id transaction error
    | .ok (row, entry) =>
      if db.audit.any fun other => other.id = row.id ∨ other.sequence = row.sequence then
        db.refuse id transaction .database
      else db.goOn id transaction (.updateHead head row entry)
  | .updateHead head row entry =>
    if db.head = head then db.goOn id transaction (behind row entry)
    else db.refuse id transaction .auditHeadChanged
  | _ => db

/-- One statement of `commit`. -/
def advanceCommit (request : CommitRequest F) (prepared : PreparedCommit F) (eventId : EventId) :
    Database F :=
  match transaction.next with
  | .selectState =>
    match db.latestRevision with
    | some _ => db.goOn id transaction .updateState
    | none =>
      if request.expectedRevision ≠ 0 then
        db.refuse id transaction (.conflict request.expectedRevision 0)
      else db.goOn id transaction .insertState
  | .insertState => db.advanceState id transaction request prepared
  | .updateState => db.advanceState id transaction request prepared
  | .insertOutbox row entry =>
    match nextOutboxRow request prepared transaction.startedAt eventId with
    | none => db.refuse id transaction .database
    | some outbox =>
      if db.outbox.any fun other => other.id = outbox.id ∨ other.revision = outbox.revision then
        db.refuse id transaction .database
      else db.goOn id transaction (.commit row entry (some outbox))
  | .commit row entry outbox =>
    (db.apply transaction row entry outbox).finish id transaction
      (.committed
        { revision := request.expectedRevision + 1
          schemaVersion := request.schemaVersion
          state := prepared.state
          stateDigest := prepared.stateDigest
          updatedAt := transaction.startedAt })
  | _ =>
    db.advanceAudit id transaction hash request.audit (some (request.expectedRevision + 1)) eventId
      .insertOutbox

/-- One statement of `append_audit`. -/
def advanceAppend (audit : AuditEvent F) (revision : Option ℤ) (eventId : EventId) : Database F :=
  match transaction.next with
  | .selectRevision =>
    if ∀ asked ∈ revision, ∃ current ∈ db.latestRevision, asked ≤ current then
      db.goOn id transaction .selectHead
    else db.refuse id transaction .uncommittedRevision
  | .commit row entry outbox =>
    (db.apply transaction row entry outbox).finish id transaction .appended
  | _ =>
    db.advanceAudit id transaction hash audit revision eventId fun row entry =>
      .commit row entry none

/-- What an update request does to a row that is not published. -/
def updateOutboxRow (request : StoreRequest F) (row : OutboxRow) : OutboxRow :=
  if row.publishedAt ≠ none then row
  else
    match request with
    | .markOutboxPublished eventId publishedAt =>
      if row.id = eventId then
        { row with
          publishedAt := some publishedAt
          lastError := none
          publishAttempts := row.publishAttempts + 1 }
      else row
    | .recordOutboxFailure eventId error =>
      if row.id = eventId then
        { row with
          lastError := some (error.take 4096)
          publishAttempts := row.publishAttempts + 1 }
      else row
    | _ => row

/-- The texts of an update are ones that the database takes. -/
def StorableArguments : StoreRequest F → Prop
  | .markOutboxPublished eventId _ => StorableText eventId
  | .recordOutboxFailure eventId error => StorableText eventId ∧ StorableText (error.take 4096)
  | _ => True

instance : (request : StoreRequest F) → Decidable (StorableArguments request)
  | .commit _ => isTrue trivial
  | .appendAudit _ _ => isTrue trivial
  | .markOutboxPublished eventId _ => inferInstanceAs (Decidable (StorableText eventId))
  | .recordOutboxFailure eventId error =>
    inferInstanceAs (Decidable (StorableText eventId ∧ StorableText (error.take 4096)))

/-- One statement of `mark_outbox_published` or `record_outbox_failure`. -/
def advanceUpdate (eventId : Text) : Database F :=
  match transaction.next with
  | .updateRow =>
    if ¬StorableArguments transaction.request then db.refuse id transaction .database
    else if db.outbox.any fun row => row.id = eventId ∧ row.publishedAt = none then
      if LockedByOther (db.rowLocks eventId) id then db
      else
        { db.goOn id transaction .commitRow with
          rowLocks := fun other => if other = eventId then some id else db.rowLocks other }
    else db.finish id transaction (.updated false)
  | .commitRow =>
    { db with outbox := db.outbox.map (updateOutboxRow transaction.request) }.finish id transaction
      (.updated true)
  | _ => db

/-- One statement of a transaction. -/
def advance (eventId : EventId) : Database F :=
  match db.transactions id with
  | none => db
  | some transaction =>
    match transaction.request, transaction.prepared with
    | .commit request, some prepared =>
      db.advanceCommit id transaction hash request prepared eventId
    | .appendAudit audit revision, _ => db.advanceAppend id transaction hash audit revision eventId
    | .markOutboxPublished eventId _, _ => db.advanceUpdate id transaction eventId
    | .recordOutboxFailure eventId _, _ => db.advanceUpdate id transaction eventId
    | _, _ => db

/-- The statement a request starts with. -/
def first : StoreRequest F → Statement F
  | .commit _ => .selectState
  | .appendAudit _ _ => .selectRevision
  | .markOutboxPublished _ _ => .updateRow
  | .recordOutboxFailure _ _ => .updateRow

/-- A new transaction. A commit that is refused before its transaction has none. -/
def start (request : StoreRequest F) (now : Timestamp) : Database F :=
  let opened (prepared : Option (PreparedCommit F)) : Transaction F :=
    { request, prepared, startedAt := now, next := first request, pendingState := none }
  if (db.transactions id).isSome then db
  else
    match request with
    | .commit arguments =>
      match prepareCommit hash arguments with
      | .error error =>
        { db with outcomes := db.outcomes ++ [(request, .refused error)] }
      | .ok prepared => db.goOn id (opened (some prepared)) (first request)
    | _ => db.goOn id (opened none) (first request)

/-- A transaction is rolled back. -/
def abort : Database F :=
  match db.transactions id with
  | none => db
  | some transaction => db.refuse id transaction .database

def step (db : Database F) : StoreAction F → Database F
  | .start id request now => db.start id hash request now
  | .advance id eventId => db.advance id hash eventId
  | .abort id => db.abort id

end Database

/-! ## A first event -/

/-- A change of the routing by an administrator. -/
def routingEvent : AuditEvent SampleFloat where
  actor := chars "admin"
  action := chars "routing.update"
  resourceType := chars "routing"
  resourceId := chars "products"
  status := chars "ok"
  requestId := chars "r1"
  details := ⟨.object [], by decide +kernel⟩

def firstMidnight : Timestamp := ⟨2026, 1, 1, 0, 0, 0, 0, by decide, by decide⟩

def firstId : EventId := ⟨chars "e1", by decide, by decide +kernel⟩

end ImposbroSearch.ControlPlane.AuditStore
