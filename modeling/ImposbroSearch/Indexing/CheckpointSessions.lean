import ImposbroSearch.Foundation.LatestByKey
import ImposbroSearch.Indexing.CheckpointCodec
import ImposbroSearch.Indexing.Worker

/-!
# Checkpoint sessions

An event is processed in a session of a checkpoint store. It plans every target from its
checkpoint, and then applies the event to one target after another and saves the checkpoint
of each. The store in memory stages what is saved and merges it at the end of the scope, and
the one in Postgres saves it in a transaction that is committed at the end: either is done
when the processing has failed, too.

What Postgres returns of a row, the clock, and the answers of the clusters are inputs.
-/

namespace ImposbroSearch.Indexing.EventEnvelope

open ImposbroSearch.Foundation ImposbroSearch.ControlPlane

variable {table : PrintableTable} {F : Type}

/-! ## Processing in a session -/

/-- What the processing of an event raises. -/
inductive ProcessingError where
  | missingTargetCluster (target : Text)
  | checkpointStore (error : CheckpointStoreError)
  | eventOrdering (message : Text)
  /-- `UnicodeEncodeError`, or a time that is not read. -/
  | conversion
  /-- A statement that the database refuses. -/
  | database (target : Text)
  /-- The call of a cluster. -/
  | typesense (target : Text)
  deriving DecidableEq

/-- An event, and what its processing meets. -/
structure Attempt (table : PrintableTable) (F : Type) where
  event : IndexingEventV2 table F
  /-- There is a client of the target. -/
  clients : Text → Bool
  /-- The call of the target completes. -/
  completes : Text → Bool
  /-- The clock when the checkpoint of the target is built. -/
  clock : Text → Datetime
  afterEpoch : ∀ target, 0 ≤ (clock target).sinceEpoch

/-- The names of the targets. -/
def IndexingEventV2.targets (event : IndexingEventV2 table F) : List Text :=
  event.targetClusters.map Identifier.text

/-- `checkpoint_id` -/
def checkpointId (sha256 : Sha256) (event : IndexingEventV2 table F) (target : Text) :
    Option Text :=
  digestOf sha256.hexdigest (event.identity.logicalKey ++ 31 :: target)

/-- `EventCheckpointSession` -/
structure EventCheckpointSession (table : PrintableTable) (F σ : Type) where
  load : σ → IndexingEventV2 table F → Text → Except ProcessingError (Option TargetCheckpoint)
  save : σ → TargetCheckpoint → Except ProcessingError σ

/-- What is done in a session: the decisions, the checkpoints that were saved, in order, and
the result. -/
structure Processed where
  decisions : List CheckpointDecision
  saved : List TargetCheckpoint
  outcome : Except ProcessingError ProcessingResult

section Processing

variable [PyFloat F] (hash : List ℕ → Text)

/-- The event is where the checkpoint is. -/
def SamePosition (event : IndexingEventV2 table F) (checkpoint : TargetCheckpoint) : Prop :=
  event.sequence.value = checkpoint.sequence ∧
    event.documentVersion.value = checkpoint.documentVersion

instance (event : IndexingEventV2 table F) (checkpoint : TargetCheckpoint) :
    Decidable (SamePosition event checkpoint) := inferInstanceAs (Decidable (_ ∧ _))

/-- `classify_event` -/
def classifyEvent (event : IndexingEventV2 table F) :
    Option TargetCheckpoint → Except ProcessingError CheckpointDecision
  | none => .ok .apply
  | some checkpoint =>
    if event.eventId.text = checkpoint.eventId then
      if SamePosition event checkpoint ∧ operationText event.operation = checkpoint.operation then
        match indexingEventDigest hash event with
        | none => .error .conversion
        | some eventDigest =>
          if eventDigest = checkpoint.eventDigest then .ok .duplicate
          else .error (.eventOrdering (chars "event_id was reused with different event contents"))
      else .error (.eventOrdering (chars "event_id was reused with different event contents"))
    else if SamePosition event checkpoint then
      .error (.eventOrdering
        (chars "different event_id values share the same sequence and document_version"))
    else if event.sequence.value < checkpoint.sequence ∧
        event.documentVersion.value < checkpoint.documentVersion then
      .ok .stale
    else if event.sequence.value ≤ checkpoint.sequence ∨
        event.documentVersion.value ≤ checkpoint.documentVersion then
      .error (.eventOrdering
        (chars "sequence and document_version must both increase for a new event"))
    else .ok .apply

variable {σ : Type} (session : EventCheckpointSession table F σ) (attempt : Attempt table F)

/-- The first loop of `_process_v2_event`, with the exception that ends it. -/
def planTargets (state : σ) : List Text →
    List (Text × CheckpointDecision) × Option ProcessingError
  | [] => ([], none)
  | target :: targets =>
    if attempt.clients target = false then ([], some (.missingTargetCluster target))
    else
      match session.load state attempt.event target with
      | .error error => ([], some error)
      | .ok checkpoint =>
        match classifyEvent hash attempt.event checkpoint with
        | .error error => ([], some error)
        | .ok decision =>
          let (plans, failure) := planTargets state targets
          ((target, decision) :: plans, failure)

/-- A target in the second loop: the call of its cluster, and what is saved. -/
def applyTarget (state : σ) (target : Text) : Except ProcessingError (σ × TargetCheckpoint) :=
  if attempt.completes target = false then .error (.typesense target)
  else
    match checkpointFromEvent hash attempt.event target (attempt.clock target) with
    | none => .error .conversion
    | some checkpoint => (session.save state checkpoint).map fun state => (state, checkpoint)

/-- The second loop, with what it has saved and the exception that ends it. -/
def applyPlans (suppressApplies : Bool) (state : σ) : List (Text × CheckpointDecision) →
    σ × List TargetCheckpoint × Option ProcessingError
  | [] => (state, [], none)
  | plan :: plans =>
    if plan.2 ≠ .apply ∨ suppressApplies then applyPlans suppressApplies state plans
    else
      match applyTarget hash session attempt state plan.1 with
      | .error error => (state, [], some error)
      | .ok applied =>
        let rest := applyPlans suppressApplies applied.1 plans
        (rest.1, applied.2 :: rest.2.1, rest.2.2)

/-- `_process_v2_event` -/
def processV2Event (state : σ) : σ × Processed :=
  match planTargets hash session attempt state attempt.event.targets with
  | (plans, some error) => (state, ⟨plans.map Prod.snd, [], .error error⟩)
  | (plans, none) =>
    let decisions := plans.map Prod.snd
    match applyPlans hash session attempt (decisions.contains .stale) state plans with
    | (state, saved, some error) => (state, ⟨decisions, saved, .error error⟩)
    | (state, saved, none) => (state, ⟨decisions, saved, .ok (resultOf decisions)⟩)

end Processing

/-! ## The store in memory -/

/-- `_records` -/
abbrev CheckpointRecords := Text → Option TargetCheckpoint

/-- `_InMemoryEventSession` -/
structure InMemoryEventSession (table : PrintableTable) (F : Type) where
  event : IndexingEventV2 table F
  records : CheckpointRecords
  staged : List (Text × TargetCheckpoint)

section Stores

instance (maximum : ℕ) : DecidableEq (SafeText table maximum) := fun first second =>
  decidable_of_iff (first.text = second.text) ⟨SafeText.ext, congrArg SafeText.text⟩

instance : DecidableEq (EventIdentity table) := fun first second =>
  decidable_of_iff (first.tenantId = second.tenantId ∧ first.collection = second.collection ∧
      first.documentId = second.documentId)
    ⟨fun same => EventIdentity.ext same.1 same.2.1 same.2.2, by rintro rfl; exact ⟨rfl, rfl, rfl⟩⟩

/-- `CheckpointStoreError` -/
def storeRefuses {α : Type} (message : String) : Except ProcessingError α :=
  .error (.checkpointStore (.refused (chars message)))

/-- A conversion that may raise. -/
def converted {α : Type} : Option α → Except ProcessingError α
  | none => .error .conversion
  | some value => .ok value

variable (sha256 : Sha256)

namespace InMemoryEventSession

/-- `load` -/
def load (session : InMemoryEventSession table F) (event : IndexingEventV2 table F)
    (target : Text) : Except ProcessingError (Option TargetCheckpoint) := do
  if event.identity ≠ session.event.identity ∨ !session.event.targets.contains target then
    storeRefuses "Checkpoint identity/target was not fenced"
  let key ← converted (checkpointId sha256 event target)
  match session.staged.lookup key with
  | some checkpoint => .ok (some checkpoint)
  | none => .ok (session.records key)

/-- `_validate_advance` -/
def validateAdvance (records : CheckpointRecords) (key : Text) (checkpoint : TargetCheckpoint) :
    Except ProcessingError Unit :=
  match records key with
  | none => .ok ()
  | some current =>
    if checkpoint.eventId = current.eventId ∧ checkpoint.eventDigest = current.eventDigest ∧
        checkpoint.sequence = current.sequence ∧
        checkpoint.documentVersion = current.documentVersion then .ok ()
    else if checkpoint.sequence ≤ current.sequence ∨
        checkpoint.documentVersion ≤ current.documentVersion then
      storeRefuses "Checkpoint advancement would regress state"
    else .ok ()

/-- `save` -/
def save (session : InMemoryEventSession table F) (checkpoint : TargetCheckpoint) :
    Except ProcessingError (InMemoryEventSession table F) := do
  if !session.event.targets.contains checkpoint.targetCluster then
    storeRefuses "Checkpoint target was not fenced"
  let key ← converted (checkpointDocumentId sha256 checkpoint)
  validateAdvance session.records key checkpoint
  .ok { session with staged := assign Prod.fst session.staged (key, checkpoint) }

/-- The session as the processing sees it. -/
def protocol : EventCheckpointSession table F (InMemoryEventSession table F) :=
  ⟨load sha256, save sha256⟩

end InMemoryEventSession

/-- `_commit_staged`, which keeps what it has merged before an exception. -/
def commitStaged (records : CheckpointRecords) : List (Text × TargetCheckpoint) →
    CheckpointRecords × Option ProcessingError
  | [] => (records, none)
  | (key, checkpoint) :: staged =>
    if (records key).any fun current => checkpoint.sequence < current.sequence ||
        checkpoint.documentVersion < current.documentVersion then
      (records, some (.checkpointStore
        (.refused (chars "Concurrent checkpoint commit would regress state"))))
    else commitStaged (Function.update records key (some checkpoint)) staged

variable [PyFloat F]

/-- `InMemoryCheckpointStore.event_scope` around the processing; its fences are free. -/
def inMemoryScope (records : CheckpointRecords) (attempt : Attempt table F) :
    CheckpointRecords × Processed :=
  match attempt.event.targets.mapM (checkpointId sha256 attempt.event) with
  | none => (records, ⟨[], [], .error .conversion⟩)
  | some _ =>
    let (session, processed) :=
      processV2Event sha256.hexdigest (InMemoryEventSession.protocol sha256) attempt
        ⟨attempt.event, records, []⟩
    match commitStaged records session.staged with
    | (records, none) => (records, processed)
    | (records, some error) => (records, { processed with outcome := .error error })

/-! ## The store in Postgres -/

/-- A row, as its columns were written. -/
abbrev CheckpointRow := List (Text × StoredValue)

/-- The rows of the table, by their keys. -/
abbrev CheckpointRows := Text → Option CheckpointRow

/-- A column that holds a text of some length. -/
def CheckpointRow.hasText (row : CheckpointRow) (column : String) (maximum : ℕ) : Bool :=
  match row.lookup (chars column) with
  | some (.text text) => text.length ≤ maximum
  | _ => false

/-- A column of 64 bits with a lower bound. -/
def CheckpointRow.hasInt (row : CheckpointRow) (column : String) (minimum : ℤ) : Bool :=
  match row.lookup (chars column) with
  | some (.int value) => minimum ≤ value && value ≤ maxInt64
  | _ => false

/-- The widths of the columns, and the check constraints. -/
def CheckpointRow.allowed (row : CheckpointRow) : Bool :=
  row.hasText "checkpoint_key" 64 && row.hasText "tenant_id" 256 &&
    row.hasText "collection" 128 && row.hasText "document_id" 256 &&
    row.hasText "target_cluster" 128 && row.hasText "operation" 16 &&
    row.hasText "event_id" 128 && row.hasText "event_digest" 64 &&
    row.hasText "rollout_id" 128 && row.hasInt "sequence" 1 &&
    row.hasInt "document_version" 1 && row.hasInt "routing_revision" 1 &&
    row.hasInt "applied_at_ms" 0 &&
    (match row.lookup (chars "checkpoint_key"), row.lookup (chars "event_digest") with
    | some (.text key), some (.text digest) => key.length = 64 && digest.length = 64
    | _, _ => false) &&
    match row.lookup (chars "operation"), row.lookup (chars "tombstone") with
    | some (.text operation), some (.bool tombstone) =>
      (operation = chars "upsert" && !tombstone) || (isRemoval operation && tombstone)
    | _, _ => false

/-- The condition of the update: the row is of the same identity and target, and older. -/
def CheckpointRow.precedes (row excluded : CheckpointRow) : Bool :=
  (match row.lookup (chars "identity_key"), excluded.lookup (chars "identity_key") with
    | some (.text first), some (.text second) => first = second
    | _, _ => false) &&
  (match row.lookup (chars "target_cluster"), excluded.lookup (chars "target_cluster") with
    | some (.text first), some (.text second) => first = second
    | _, _ => false) &&
  (match row.lookup (chars "sequence"), excluded.lookup (chars "sequence") with
    | some (.int first), some (.int second) => first < second
    | _, _ => false) &&
  match row.lookup (chars "document_version"), excluded.lookup (chars "document_version") with
  | some (.int first), some (.int second) => first < second
  | _, _ => false

/-- `_PostgresEventSession`; the rows are those of its transaction. -/
structure PostgresEventSession (table : PrintableTable) (F : Type) where
  event : IndexingEventV2 table F
  rows : CheckpointRows
  lockedKeys : List (Text × Text)

namespace PostgresEventSession

variable (otherFormats : Text → Option Moment) (returned : CheckpointRow → CheckpointRow)

/-- `load` -/
def load (session : PostgresEventSession table F) (event : IndexingEventV2 table F)
    (target : Text) : Except ProcessingError (Option TargetCheckpoint) := do
  if event.identity ≠ session.event.identity then
    storeRefuses "Checkpoint identity was not fenced"
  match session.lockedKeys.lookup target with
  | none => storeRefuses "Checkpoint target was not fenced"
  | some key =>
    match session.rows key with
    | none => .ok none
    | some row =>
      match checkpointFromDocument otherFormats target (.mapping (returned row)) event with
      | .ok checkpoint => .ok (some checkpoint)
      | .error error => .error (.checkpointStore error)

/-- `save` -/
def save (session : PostgresEventSession table F) (checkpoint : TargetCheckpoint) :
    Except ProcessingError (PostgresEventSession table F) := do
  let actualKey ← converted (checkpointDocumentId sha256 checkpoint)
  if session.lockedKeys.lookup checkpoint.targetCluster ≠ some actualKey then
    storeRefuses "Checkpoint save was not covered by an event fence"
  let values ← converted (postgresCheckpointValues otherFormats sha256 checkpoint)
  if ¬CheckpointRow.allowed values then .error (.database checkpoint.targetCluster)
  let saved := { session with rows := Function.update session.rows actualKey (some values) }
  match session.rows actualKey with
  | none => .ok saved
  | some row =>
    if row.precedes values then .ok saved
    else storeRefuses "PostgreSQL checkpoint compare-and-set rejected a non-monotonic write"

/-- The session as the processing sees it. -/
def protocol : EventCheckpointSession table F (PostgresEventSession table F) :=
  ⟨load otherFormats returned, save sha256 otherFormats⟩

end PostgresEventSession

variable (otherFormats : Text → Option Moment) (returned : CheckpointRow → CheckpointRow)

/-- `PostgresCheckpointStore.event_scope` around the processing; its locks are free, and its
transaction is committed, unless a statement was refused in it. -/
def postgresScope (rows : CheckpointRows) (attempt : Attempt table F) :
    CheckpointRows × Processed :=
  match attempt.event.targets.mapM (checkpointId sha256 attempt.event) with
  | none => (rows, ⟨[], [], .error .conversion⟩)
  | some keys =>
    let (session, processed) :=
      processV2Event sha256.hexdigest (PostgresEventSession.protocol sha256 otherFormats returned)
        attempt ⟨attempt.event, rows, attempt.event.targets.zip keys⟩
    match processed.outcome with
    | .error (.database _) => (rows, processed)
    | _ => (session.rows, processed)

end Stores

end ImposbroSearch.Indexing.EventEnvelope
