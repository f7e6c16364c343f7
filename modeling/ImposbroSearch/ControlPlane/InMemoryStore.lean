import ImposbroSearch.ControlPlane.StoreTransactions

/-!
# The in-memory control-plane store

The store of the unit and contract tests: one record, the audit rows, the outbox and the
last hash, under one lock, so that a call is one step. An audit row is its material and its
hash. Ids and times, which the methods draw themselves, come with the call.
-/

namespace ImposbroSearch.ControlPlane.AuditStore

open ImposbroSearch.Foundation

variable {F : Type}

/-- `OutboxRecord` -/
structure OutboxRecord (F : Type) where
  eventId : Text
  revision : ℤ
  eventType : Text
  payload : JsonValue F
  createdAt : Timestamp
  publishedAt : Option Timestamp := none
  lastError : Option Text := none
  publishAttempts : ℕ := 0

/-- `InMemoryControlPlaneStore` -/
structure InMemoryControlPlaneStore (F : Type) where
  record : Option (ControlPlaneRecord F)
  audit : List (AuditEntry F)
  outbox : List (OutboxRecord F)
  auditHash : Text

/-- A call of a method, with the time and the ids that it takes. -/
structure StoreCall (F : Type) where
  request : StoreRequest F
  now : Timestamp
  auditId : EventId
  outboxId : EventId

/-- The loop over a list that replaces the first item of a kind, if there is one. -/
def replaceFirst {α : Type} (wanted : α → Bool) (replacement : α → α) : List α → Option (List α)
  | [] => none
  | item :: items =>
    if wanted item then some (replacement item :: items)
    else (replaceFirst wanted replacement items).map (item :: ·)

/-- Where at most one item is wanted, this one is replaced. -/
theorem replaceFirst_eq {α : Type} {wanted : α → Bool} {replacement : α → α} {items : List α}
    (single : items.Pairwise fun first second => ¬(wanted first = true ∧ wanted second = true)) :
    replaceFirst wanted replacement items =
      if items.any wanted then
        some (items.map fun item => if wanted item then replacement item else item)
      else none := by
  induction items with
  | nil => rfl
  | cons item items ih =>
      obtain ⟨others, rest⟩ := List.pairwise_cons.mp single
      unfold replaceFirst
      by_cases here : wanted item = true
      · have alone : ∀ other ∈ items, wanted other = false := fun other member =>
          Bool.eq_false_iff.mpr fun also => others other member ⟨here, also⟩
        have same : items.map (fun other => if wanted other then replacement other else other) =
            items := by
          refine (List.map_congr_left fun other member => ?_).trans (List.map_id _)
          rw [alone other member]
          rfl
        simp [here, same]
      · rw [if_neg here, ih rest]
        simp only [List.any_cons, Bool.eq_false_iff.mpr here, Bool.false_or, List.map_cons,
          Bool.false_eq_true, if_false]
        cases items.any wanted with
        | true => rfl
        | false => rfl

/-- What `mark_outbox_published` replaces a record by. -/
def OutboxRecord.published (publishedAt : Timestamp) (record : OutboxRecord F) : OutboxRecord F :=
  { record with
    publishedAt := some publishedAt
    lastError := none
    publishAttempts := record.publishAttempts + 1 }

/-- What `record_outbox_failure` replaces a record by. -/
def OutboxRecord.failed (error : Text) (record : OutboxRecord F) : OutboxRecord F :=
  { record with
    lastError := some (error.take 4096)
    publishAttempts := record.publishAttempts + 1 }

namespace InMemoryControlPlaneStore

def empty : InMemoryControlPlaneStore F := ⟨none, [], [], zeroAuditHash⟩

variable (store : InMemoryControlPlaneStore F)

/-- `latest_revision` -/
def latestRevision : Option ℤ := store.record.map ControlPlaneRecord.revision

/-- The loop of `mark_outbox_published` and of `record_outbox_failure`. -/
def updateOutbox (eventId : Text) (replacement : OutboxRecord F → OutboxRecord F) :
    StoreOutcome F × InMemoryControlPlaneStore F :=
  let wanted (record : OutboxRecord F) : Bool :=
    record.eventId = eventId && record.publishedAt.isNone
  match replaceFirst wanted replacement store.outbox with
  | some outbox => (.updated true, { store with outbox })
  | none => (.updated false, store)

variable [PyFloat F] (hash : List ℕ → Text)

/-- `_build_audit_record` -/
def buildAuditRecord (audit : AuditEvent F) (revision : Option ℤ) (timestamp : Timestamp)
    (eventId : EventId) : Except StoreError (AuditEntry F) :=
  match normalizeJsonObject audit.details with
  | .error error => .error (.normalize error)
  | .ok details =>
    let material :=
      nextMaterial ⟨store.audit.length, store.auditHash⟩ audit details revision timestamp eventId
    match material.eventHash hash with
    | none => .error .unencodable
    | some eventHash => .ok ⟨material, details.unique, eventHash⟩

/-- A new audit row. -/
def withAudit (entry : AuditEntry F) : InMemoryControlPlaneStore F :=
  { store with
    audit := store.audit ++ [entry]
    auditHash := entry.eventHash }

/-- The part of `commit` under the lock. -/
def commitPrepared (request : CommitRequest F) (state payload : JsonValue F) (now : Timestamp)
    (auditId outboxId : EventId) : StoreOutcome F × InMemoryControlPlaneStore F :=
  let actual := store.latestRevision.getD 0
  if actual ≠ request.expectedRevision then
    (.refused (.conflict request.expectedRevision actual), store)
  else
    match canonicalStateDigest hash state with
    | none => (.refused .unencodable, store)
    | some stateDigest =>
      match store.buildAuditRecord hash request.audit (some (actual + 1)) now auditId with
      | .error error => (.refused error, store)
      | .ok entry =>
        let record : ControlPlaneRecord F :=
          { revision := actual + 1
            schemaVersion := request.schemaVersion
            state
            stateDigest
            updatedAt := now }
        let outboxRecord : OutboxRecord F :=
          { eventId := outboxId.text
            revision := actual + 1
            eventType := request.eventType
            payload := outboxPayload request ⟨state, payload, stateDigest⟩
            createdAt := now }
        (.committed record,
          { store.withAudit entry with
            record := some record
            outbox := store.outbox ++ [outboxRecord] })

/-- `commit` -/
def commit (request : CommitRequest F) (now : Timestamp) (auditId outboxId : EventId) :
    StoreOutcome F × InMemoryControlPlaneStore F :=
  if request.schemaVersion ≠ currentStateSchemaVersion then
    (.refused (.unsupportedStateSchema currentStateSchemaVersion request.schemaVersion), store)
  else
    match normalizeJsonObject request.state, normalizeJsonObject request.eventPayload with
    | .error error, _ => (.refused (.normalize error), store)
    | .ok _, .error error => (.refused (.normalize error), store)
    | .ok state, .ok payload =>
      store.commitPrepared hash request state payload now auditId outboxId

/-- `append_audit`. The revision is not compared with the committed one. -/
def appendAudit (audit : AuditEvent F) (revision : Option ℤ) (now : Timestamp)
    (auditId : EventId) : StoreOutcome F × InMemoryControlPlaneStore F :=
  match store.buildAuditRecord hash audit revision now auditId with
  | .error error => (.refused error, store)
  | .ok entry => (.appended, store.withAudit entry)

/-- One call. -/
def perform (call : StoreCall F) : StoreOutcome F × InMemoryControlPlaneStore F :=
  match call.request with
  | .commit request => store.commit hash request call.now call.auditId call.outboxId
  | .appendAudit audit revision => store.appendAudit hash audit revision call.now call.auditId
  | .markOutboxPublished eventId publishedAt =>
    store.updateOutbox eventId (OutboxRecord.published publishedAt)
  | .recordOutboxFailure eventId error => store.updateOutbox eventId (OutboxRecord.failed error)

end InMemoryControlPlaneStore

end ImposbroSearch.ControlPlane.AuditStore
