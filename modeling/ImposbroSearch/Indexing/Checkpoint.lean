import ImposbroSearch.Indexing.Envelope
import Mathlib.Order.WithBot

/-!
# Per-target checkpoints

A checkpoint records, for one identity and one target cluster, the last event
whose side effect was durably accounted for. `classify_event` compares an
incoming event with it, and the PostgreSQL adapter replaces it only by a
strictly newer one.

The store is keyed by the logical key and the target. The source hashes their
concatenation; the pair stands for that digest, which is assumed not to collide.
-/

namespace ImposbroSearch.Indexing

variable {Doc : Type}

/-- What processing an event can raise. -/
inductive WorkerError where
  | missingTargetCluster (target : ClusterName)
  | checkpointStore (message : String)
  | eventOrdering (message : String)
  | digestEncoding
  | sideEffect (target : ClusterName)
  deriving DecidableEq, Repr

/-- The error is an `EventOrderingError`. -/
def WorkerError.IsOrdering : WorkerError → Prop
  | eventOrdering _ => True
  | _ => False

/-- `TargetCheckpoint`, without its two wall-clock fields. -/
@[ext] structure TargetCheckpoint where
  identityKey : String
  tenantId : String
  collection : String
  documentId : String
  targetCluster : ClusterName
  sequence : ℕ
  documentVersion : ℕ
  operation : Operation
  eventId : String
  eventDigest : String
  tombstone : Bool
  routingRevision : ℕ
  rolloutId : String
  deriving DecidableEq, Repr

inductive CheckpointDecision where
  | apply
  | duplicate
  | stale
  deriving DecidableEq, Repr

/-- The event digest. `none` is the encoding error a lone surrogate causes. -/
abbrev Digest (Doc : Type) := IndexingEventV2 Doc → Option String

/-- The event sits exactly where the checkpoint does. -/
abbrev SamePosition (event : IndexingEventV2 Doc) (checkpoint : TargetCheckpoint) : Prop :=
  event.sequence = checkpoint.sequence ∧ event.documentVersion = checkpoint.documentVersion

variable (digest : Digest Doc)

/-- `classify_event` -/
def classifyEvent (event : IndexingEventV2 Doc) (checkpoint : Option TargetCheckpoint) :
    Except WorkerError CheckpointDecision :=
  match checkpoint with
  | none => .ok .apply
  | some checkpoint =>
    if event.eventId = checkpoint.eventId then
      if SamePosition event checkpoint ∧ event.operation = checkpoint.operation then
        match digest event with
        | none => .error .digestEncoding
        | some eventDigest =>
          if eventDigest = checkpoint.eventDigest then .ok .duplicate
          else .error (.eventOrdering "event_id was reused with different event contents")
      else .error (.eventOrdering "event_id was reused with different event contents")
    else if SamePosition event checkpoint then
      .error (.eventOrdering
        "different event_id values share the same sequence and document_version")
    else if event.sequence < checkpoint.sequence ∧
        event.documentVersion < checkpoint.documentVersion then
      .ok .stale
    else if event.sequence ≤ checkpoint.sequence ∨
        event.documentVersion ≤ checkpoint.documentVersion then
      .error (.eventOrdering
        "sequence and document_version must both increase for a new event")
    else .ok .apply

/-- `checkpoint_from_event` -/
def checkpointFromEvent (event : IndexingEventV2 Doc) (targetCluster : ClusterName) :
    Option TargetCheckpoint :=
  (digest event).map fun eventDigest =>
    { identityKey := event.identity.logicalKey
      tenantId := event.identity.tenantId
      collection := event.identity.collection
      documentId := event.identity.documentId
      targetCluster := targetCluster
      sequence := event.sequence
      documentVersion := event.documentVersion
      operation := event.operation
      eventId := event.eventId
      eventDigest := eventDigest
      tombstone := event.operation = .delete ∨ event.operation = .tombstone
      routingRevision := event.routingRevision
      rolloutId := event.rolloutId.getD "" }

/-- The checkpoint rows of one store, keyed by `checkpoint_id`. -/
abbrev CheckpointTable := String → ClusterName → Option TargetCheckpoint

/-- `_PostgresEventSession.save`: insert, or replace a strictly older row. -/
def saveCheckpoint (table : CheckpointTable) (checkpoint : TargetCheckpoint) :
    Except WorkerError CheckpointTable :=
  let write : CheckpointTable := fun key target =>
    if key = checkpoint.identityKey ∧ target = checkpoint.targetCluster then some checkpoint
    else table key target
  match table checkpoint.identityKey checkpoint.targetCluster with
  | none => .ok write
  | some row =>
    if row.identityKey = checkpoint.identityKey ∧
        row.targetCluster = checkpoint.targetCluster ∧
        row.sequence < checkpoint.sequence ∧
        row.documentVersion < checkpoint.documentVersion then .ok write
    else .error (.checkpointStore
      "PostgreSQL checkpoint compare-and-set rejected a non-monotonic write")

variable {digest}

/-! ## What a decision says about the two positions -/

/-- The branch taken for the event the checkpoint already names. -/
theorem classifyEvent_same {event : IndexingEventV2 Doc} {row : TargetCheckpoint}
    (same : event.eventId = row.eventId) :
    classifyEvent digest event (some row) =
      if SamePosition event row ∧ event.operation = row.operation then
        match digest event with
        | none => .error .digestEncoding
        | some eventDigest =>
          if eventDigest = row.eventDigest then .ok .duplicate
          else .error (.eventOrdering "event_id was reused with different event contents")
      else .error (.eventOrdering "event_id was reused with different event contents") :=
  if_pos same

/-- The branch taken for any other event. -/
theorem classifyEvent_other {event : IndexingEventV2 Doc} {row : TargetCheckpoint}
    (other : event.eventId ≠ row.eventId) :
    classifyEvent digest event (some row) =
      if SamePosition event row then
        .error (.eventOrdering
          "different event_id values share the same sequence and document_version")
      else if event.sequence < row.sequence ∧ event.documentVersion < row.documentVersion then
        .ok .stale
      else if event.sequence ≤ row.sequence ∨ event.documentVersion ≤ row.documentVersion then
        .error (.eventOrdering
          "sequence and document_version must both increase for a new event")
      else .ok .apply :=
  if_neg other

/-- An event is applied exactly over no checkpoint, or over one that another
event wrote and that both of its counters exceed. -/
theorem classifyEvent_apply_iff {event : IndexingEventV2 Doc}
    {checkpoint : Option TargetCheckpoint} :
    classifyEvent digest event checkpoint = .ok .apply ↔
      ∀ row, checkpoint = some row →
        event.eventId ≠ row.eventId ∧ row.sequence < event.sequence ∧
          row.documentVersion < event.documentVersion := by
  cases checkpoint with
  | none => simp [classifyEvent]
  | some row =>
      simp only [Option.some.injEq, forall_eq']
      by_cases same : event.eventId = row.eventId
      · rw [classifyEvent_same same]
        constructor
        · intro h
          split_ifs at h
          split at h
          · cases h
          · split_ifs at h
            cases h
        · rintro ⟨other, -⟩
          exact absurd same other
      · rw [classifyEvent_other same]
        constructor
        · intro h
          split_ifs at h with equal older newer
          · cases h
          · exact ⟨same, by omega, by omega⟩
        · rintro ⟨-, sequence, version⟩
          rw [if_neg (by omega), if_neg (by omega), if_neg (by omega)]

theorem classifyEvent_stale {event : IndexingEventV2 Doc} {row : TargetCheckpoint}
    (h : classifyEvent digest event (some row) = .ok .stale) :
    event.sequence < row.sequence ∧ event.documentVersion < row.documentVersion := by
  by_cases same : event.eventId = row.eventId
  · rw [classifyEvent_same same] at h
    split_ifs at h
    split at h
    · cases h
    · split_ifs at h
      cases h
  · rw [classifyEvent_other same] at h
    split_ifs at h with equal older newer
    · exact older
    · cases h

theorem classifyEvent_duplicate {event : IndexingEventV2 Doc} {row : TargetCheckpoint}
    (h : classifyEvent digest event (some row) = .ok .duplicate) :
    event.eventId = row.eventId ∧ SamePosition event row ∧
      digest event = some row.eventDigest := by
  by_cases same : event.eventId = row.eventId
  · rw [classifyEvent_same same] at h
    split_ifs at h with position
    split at h
    · cases h
    next eventDigest found =>
      split_ifs at h with equal
      exact ⟨same, position.1, by rw [found, equal]⟩
  · rw [classifyEvent_other same] at h
    split_ifs at h
    all_goals cases h

end ImposbroSearch.Indexing
