import ImposbroSearch.ControlPlane.StoreEffects
import Mathlib.Data.List.Sort

/-!
# The chain of audit records

How the rows of the audit table are read and hashed anew, and what every run keeps: the
rows are numbered from one without a gap, each is linked to the one before it, and the head
is their end.
-/

namespace ImposbroSearch.ControlPlane.AuditStore

open ImposbroSearch.Foundation

/-! ## Reading -/

/-- An audit row as a reader has it. Of `details`, `dict` is still to be made. -/
structure AuditRecord (F : Type) where
  id : Text
  sequence : ℕ
  revision : Option ℤ
  timestamp : Timestamp
  actor : Text
  action : Text
  resourceType : Text
  resourceId : Text
  status : Text
  requestId : Text
  details : JsonValue F
  previousHash : Text
  eventHash : Text

section Reading

variable {F : Type} [PyFloat F]

/-- The columns of a row, with its `JSONB` value loaded. -/
def AuditRow.read (row : AuditRow) : Except JsonError (AuditRecord F) :=
  match Json.fromJsonb row.detailsJson with
  | .error error => .error error
  | .ok details =>
    .ok
      { id := row.id
        sequence := row.sequence
        revision := row.revision
        timestamp := row.timestamp
        actor := row.actor
        action := row.action
        resourceType := row.resourceType
        resourceId := row.resourceId
        status := row.status
        requestId := row.requestId
        details
        previousHash := row.previousHash
        eventHash := row.eventHash }

/-- `build_audit_material` of a record, with its details in order. -/
def AuditRecord.material (record : AuditRecord F) (details : JsonValue F) : AuditMaterial F where
  eventId := record.id
  sequence := record.sequence
  revision := record.revision
  timestamp := record.timestamp
  actor := record.actor
  action := record.action
  resourceType := record.resourceType
  resourceId := record.resourceId
  status := record.status
  requestId := record.requestId
  details := details.json
  previousHash := record.previousHash

/-- The hash of a record, calculated anew. -/
def AuditRecord.calculatedHash (hash : List ℕ → Text) (record : AuditRecord F) : Option Text :=
  (normalizeDict record.details).bind fun details => (record.material details).eventHash hash

theorem AuditRow.read_ok {row : AuditRow} {record : AuditRecord F} (read : row.read = .ok record) :
    Json.fromJsonb row.detailsJson = .ok record.details ∧ record.sequence = row.sequence ∧
      record.previousHash = row.previousHash ∧ record.eventHash = row.eventHash := by
  unfold AuditRow.read at read
  split at read
  · cases read
  next details loaded =>
    obtain rfl := Except.ok.inj read
    exact ⟨loaded, rfl, rfl, rfl⟩

end Reading

/-- The chain of the audit rows, hashed as a reader hashes them. -/
def auditChain (F : Type) [PyFloat F] (hash : List ℕ → Text) : ChainSchema AuditRow Text where
  sequence := AuditRow.sequence
  previousHash := AuditRow.previousHash
  eventHash := AuditRow.eventHash
  calculate row :=
    match AuditRow.read (F := F) row with
    | .error _ => none
    | .ok record => record.calculatedHash hash

/-- Where every chain begins. -/
def genesis : ChainPoint Text := ⟨0, zeroAuditHash⟩

variable {F : Type} [PyFloat F] {hash : List ℕ → Text}

/-! ## The rows that are written -/

omit [PyFloat F] in
theorem auditColumns_eq {material : AuditMaterial F} {detailsJson : Jsonb} {eventHash : Text}
    {row : AuditRow} (built : auditColumns material detailsJson eventHash = some row) :
    row.id = material.eventId ∧ row.sequence = material.sequence ∧
      row.revision = material.revision ∧ row.timestamp = material.timestamp ∧
      row.detailsJson = detailsJson ∧ row.previousHash = material.previousHash ∧
      row.eventHash = eventHash ∧
      column 256 material.actor = some row.actor ∧ column 128 material.action = some row.action ∧
      column 128 material.resourceType = some row.resourceType ∧
      column 512 material.resourceId = some row.resourceId ∧
      column 64 material.status = some row.status ∧
      column 128 material.requestId = some row.requestId := by
  unfold auditColumns at built
  split_ifs at built
  split at built
  next actor action resourceType resourceId status requestId =>
    obtain rfl := Option.some.inj built
    exact ⟨rfl, rfl, rfl, rfl, rfl, rfl, rfl, ‹_›, ‹_›, ‹_›, ‹_›, ‹_›, ‹_›⟩
  · cases built

/-- **A built row** and the material that it was hashed from. -/
theorem nextAuditRow_ok {head : ChainPoint Text} {audit : AuditEvent F} {revision : Option ℤ}
    {now : Timestamp} {eventId : EventId} {row : AuditRow} {entry : AuditEntry F}
    (built : nextAuditRow hash head audit revision now eventId = .ok (row, entry)) :
    ∃ details detailsJson, normalizeJsonObject audit.details = .ok details ∧
      entry.material = nextMaterial head audit details revision now eventId ∧
      entry.material.eventHash hash = some entry.eventHash ∧
      Json.toJsonb details = some detailsJson ∧
      auditColumns entry.material detailsJson entry.eventHash = some row := by
  unfold nextAuditRow at built
  split at built
  · cases built
  next details normalized =>
    simp only at built
    split at built
    · cases built
    next eventHash hashed =>
      split at built
      · cases built
      next detailsJson stored =>
        split at built
        · cases built
        next columns written =>
          obtain ⟨rfl, rfl⟩ := Prod.mk.inj (Except.ok.inj built)
          exact ⟨details, detailsJson, normalized, rfl, hashed, stored, written⟩

/-- A built row follows the head it was built from. -/
theorem nextAuditRow_follows {head : ChainPoint Text} {audit : AuditEvent F} {revision : Option ℤ}
    {now : Timestamp} {eventId : EventId} {row : AuditRow} {entry : AuditEntry F}
    (built : nextAuditRow hash head audit revision now eventId = .ok (row, entry)) :
    row.sequence = head.sequence + 1 ∧ row.previousHash = head.hash := by
  obtain ⟨details, detailsJson, -, material, -, -, columns⟩ := nextAuditRow_ok built
  obtain ⟨-, sequence, -, -, -, previousHash, -⟩ := auditColumns_eq columns
  rw [material] at sequence previousHash
  exact ⟨sequence, previousHash⟩

/-! ## Runs -/

/-- The rows stand in the order of their numbers, and the head is the last of them. -/
structure Numbered (db : Database F) : Prop where
  sequences : db.audit.map AuditRow.sequence = List.range' 1 db.audit.length
  length : db.head.sequence = db.audit.length

omit [PyFloat F] in
theorem numbered_empty : Numbered (Database.empty : Database F) := ⟨rfl, rfl⟩

theorem Numbered.records {db after : Database F} {audit : AuditEvent F} {revision : Option ℤ}
    {now : Timestamp} {row : AuditRow} {entry : AuditEntry F} (numbered : Numbered db)
    (records : Records hash db after audit revision now row entry) : Numbered after := by
  obtain ⟨eventId, built⟩ := records.built
  obtain ⟨sequence, -⟩ := nextAuditRow_follows built
  rw [numbered.length] at sequence
  constructor
  · rw [records.audit, List.map_append, numbered.sequences, List.length_append,
      List.length_singleton, List.range'_concat, List.map_singleton, sequence]
    simp [Nat.add_comm]
  · rw [records.head, records.audit, List.length_append, List.length_singleton]
    exact sequence

theorem Numbered.effect {db after : Database F} (numbered : Numbered db)
    (effect : Effect hash db after) : Numbered after := by
  cases effect with
  | quiet state head audit _ _ _ _ =>
      constructor
      · rw [audit]
        exact numbered.sequences
      · rw [head, audit]
        exact numbered.length
  | appended audit revision now row entry records _ _ _ => exact numbered.records records
  | committed request prepared now stateRow row entry outbox eventId _ _ _ records _ _ _ _ _ =>
      exact numbered.records records

/-- A record that is written stays where it is. -/
theorem Effect.audit_prefix {db after : Database F} (effect : Effect hash db after) :
    db.audit <+: after.audit := by
  cases effect with
  | quiet state head audit _ _ _ _ => rw [audit]
  | appended audit revision now row entry records _ _ _ =>
      rw [records.audit]
      exact List.prefix_append _ _
  | committed request prepared now stateRow row entry outbox eventId _ _ _ records _ _ _ _ _ =>
      rw [records.audit]
      exact List.prefix_append _ _

omit [PyFloat F] in
/-- No two records have one number. -/
theorem Numbered.unique {db : Database F} (numbered : Numbered db) {row other : AuditRow}
    (stored : row ∈ db.audit) (member : other ∈ db.audit) (same : row.sequence = other.sequence) :
    row = other := by
  have distinct : (db.audit.map AuditRow.sequence).Nodup := by
    rw [numbered.sequences]
    exact List.nodup_range'
  exact List.inj_on_of_nodup_map distinct stored member same

end ImposbroSearch.ControlPlane.AuditStore
