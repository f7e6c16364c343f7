import Mathlib
import ImposbroSearch.Auth.TenantPolicy
import ImposbroSearch.Publishing.PostgresStore
import ImposbroSearch.Routing.Federation

/-!
# The deletion ledger

Two tables: one row for each identity that has ever been deleted, with its last
tombstone, and one row for each cluster that has to confirm this tombstone. A later
tombstone takes over the row of its identity and replaces its target rows; a receipt
of a cluster is stored on its target row.

Texts that are hashes stand for what they hash. An unset retention is no bound at
all, so it is the greatest one.
-/

namespace ImposbroSearch.Deletion

open ImposbroSearch.Auth ImposbroSearch.Publishing ImposbroSearch.Routing

/-- `TombstoneRegistration` -/
structure TombstoneRegistration where
  identityHash : String
  tenantId : String
  collection : String
  documentId : String
  tombstoneSequence : ℕ
  documentVersion : ℕ
  eventId : String
  eventDigest : String
  routingRevision : ℕ
  targetIds : List String
  requestedAt : ℕ
  rolloutId : String := ""
  retentionUntil : Option ℕ := none
  deriving DecidableEq, Repr

/-- A row of `deletion_ledger`. -/
structure DeletionRecord where
  identityHash : String
  tenantId : String
  collection : String
  documentId : String
  tombstoneSequence : ℕ
  documentVersion : ℕ
  eventId : String
  eventDigest : String
  routingRevision : ℕ
  rolloutId : String
  requestedAt : ℕ
  retentionUntil : Option ℕ
  legalHold : Bool := false
  legalHoldReference : Option String := none
  convergedAt : Option ℕ := none
  lastVerifiedAt : Option ℕ := none
  updatedAt : ℕ
  deriving DecidableEq, Repr

inductive TargetStatus where
  | pending
  | applied
  | absent
  deriving DecidableEq, Repr

/-- The status a receipt may carry. -/
def TargetStatus.ofReceipt (status : String) : Option TargetStatus :=
  if status = "applied" then some .applied
  else if status = "absent" then some .absent
  else none

/-- A row of `deletion_ledger_targets`. -/
structure TargetRow where
  identityHash : String
  targetId : String
  tombstoneSequence : ℕ
  status : TargetStatus := .pending
  checkpointSequence : Option ℕ := none
  receiptHash : Option String := none
  verifiedAt : Option ℕ := none
  updatedAt : ℕ
  deriving DecidableEq, Repr

namespace TargetRow

variable (target : TargetRow)

/-- The target row that `record_target` updates. -/
def Matches (identityHash targetId : String) (tombstoneSequence : ℕ) : Prop :=
  target.identityHash = identityHash ∧ target.targetId = targetId ∧
    target.tombstoneSequence = tombstoneSequence

instance (identityHash targetId : String) (tombstoneSequence : ℕ) :
    Decidable (target.Matches identityHash targetId tombstoneSequence) :=
  inferInstanceAs (Decidable (_ ∧ _))

/-- The target row with its receipt. -/
def received (status : TargetStatus) (checkpointSequence : ℕ) (receipt : String) (now : ℕ) :
    TargetRow :=
  { target with
    status
    checkpointSequence := some checkpointSequence
    receiptHash := some receipt
    verifiedAt := some now
    updatedAt := now }

end TargetRow

/-- The two tables. -/
structure DeletionLedger where
  records : List DeletionRecord
  targets : List TargetRow
  deriving DecidableEq, Repr

inductive LedgerError where
  | deletionLedger (message : String)
  | staleTombstone (message : String)
  | value (message : String)
  deriving DecidableEq, Repr

/-- `_later_retention` -/
def laterRetention : Option ℕ → Option ℕ → Option ℕ
  | some current, some requested => some (max current requested)
  | _, _ => none

/-- A text of at least one and at most `maximum` characters. -/
def Bounded (maximum : ℕ) (text : String) : Prop := text ≠ "" ∧ text.length ≤ maximum

instance (maximum : ℕ) (text : String) : Decidable (Bounded maximum text) :=
  inferInstanceAs (Decidable (_ ∧ _))

namespace TombstoneRegistration

variable (value : TombstoneRegistration)

/-- `_validate_registration`: the first check that refuses the registration. -/
def refusal : Option String :=
  if ¬Bounded 256 value.tenantId then some "tenant_id is invalid"
  else if ¬Bounded 128 value.collection then some "collection is invalid"
  else if ¬Bounded 256 value.documentId then some "document_id is invalid"
  else if ¬Bounded 128 value.eventId then some "event_id is invalid"
  else if ¬FitsColumn 128 value.rolloutId then some "rollout_id is invalid"
  else if value.tombstoneSequence < 1 ∨ value.documentVersion < 1 then
    some "tombstone sequence/version must be positive"
  else if value.routingRevision < 1 then some "routing_revision must be positive"
  else if value.targetIds = [] ∨ ∃ target ∈ value.targetIds, ¬IsTarget target then
    some "at least one bounded target_id is required"
  else if value.retentionUntil.any (· ≤ value.requestedAt) then
    some "retention must extend beyond the tombstone request"
  else none

/-- The ledger row of a first tombstone. -/
def record (now : ℕ) : DeletionRecord where
  identityHash := value.identityHash
  tenantId := value.tenantId
  collection := value.collection
  documentId := value.documentId
  tombstoneSequence := value.tombstoneSequence
  documentVersion := value.documentVersion
  eventId := value.eventId
  eventDigest := value.eventDigest
  routingRevision := value.routingRevision
  rolloutId := value.rolloutId
  requestedAt := value.requestedAt
  retentionUntil := value.retentionUntil
  updatedAt := now

/-- The ledger row of a later tombstone. -/
def recordOver (current : DeletionRecord) (now : ℕ) : DeletionRecord :=
  { value.record now with
    retentionUntil := laterRetention current.retentionUntil value.retentionUntil
    legalHold := current.legalHold
    legalHoldReference := current.legalHoldReference }

/-- The target rows of a tombstone. -/
def targetRows (now : ℕ) : List TargetRow :=
  (uniqueTargets value.targetIds).map fun targetId =>
    { identityHash := value.identityHash
      targetId
      tombstoneSequence := value.tombstoneSequence
      updatedAt := now }

end TombstoneRegistration

namespace DeletionLedger

def empty : DeletionLedger := ⟨[], []⟩

variable (ledger : DeletionLedger)

/-- The row of an identity. -/
def find (identityHash : String) : Option DeletionRecord :=
  ledger.records.find? fun record => record.identityHash = identityHash

/-- Rewrite the row of an identity. -/
def updateRecord (identityHash : String) (update : DeletionRecord → DeletionRecord) :
    DeletionLedger :=
  { ledger with
    records := ledger.records.map fun record =>
      if record.identityHash = identityHash then update record else record }

/-- `register_tombstone_in_transaction` -/
def registerTombstone (registration : TombstoneRegistration) (now : ℕ) :
    Except LedgerError (DeletionRecord × DeletionLedger) :=
  match registration.refusal with
  | some message => .error (.value message)
  | none =>
    match ledger.find registration.identityHash with
    | some current =>
      if registration.tombstoneSequence < current.tombstoneSequence then
        .error (.staleTombstone "A newer deletion tombstone already exists")
      else if registration.tombstoneSequence = current.tombstoneSequence then
        if current.eventId ≠ registration.eventId ∨
            current.eventDigest ≠ registration.eventDigest then
          .error (.deletionLedger "Tombstone sequence conflicts with existing event")
        else .ok (current, ledger)
      else
        .ok (registration.recordOver current now,
          { (ledger.updateRecord registration.identityHash fun _ =>
                registration.recordOver current now) with
            targets := (ledger.targets.filter fun target =>
              target.identityHash ≠ registration.identityHash) ++ registration.targetRows now })
    | none =>
      .ok (registration.record now,
        { records := ledger.records ++ [registration.record now]
          targets := ledger.targets ++ registration.targetRows now })

/-- The target rows of an identity that have no receipt. -/
def pendingRows (identityHash : String) : List TargetRow :=
  ledger.targets.filter fun target =>
    target.identityHash = identityHash ∧ target.status = .pending

/-- Store a receipt on the rows it matches. -/
def receive (identityHash targetId : String) (tombstoneSequence checkpointSequence : ℕ)
    (status : TargetStatus) (receipt : String) (now : ℕ) : DeletionLedger :=
  { ledger with
    targets := ledger.targets.map fun target =>
      if target.Matches identityHash targetId tombstoneSequence then
        target.received status checkpointSequence receipt now
      else target }

/-- Set `converged_at` when no target of the identity is pending, and clear it else. -/
def verify (identityHash : String) (now : ℕ) : DeletionLedger :=
  ledger.updateRecord identityHash fun record =>
    { record with
      convergedAt := if ledger.pendingRows identityHash = [] then some now else none
      lastVerifiedAt := some now
      updatedAt := now }

/-- `record_target` -/
def recordTarget (identityHash targetId : String) (tombstoneSequence checkpointSequence : ℕ)
    (status receipt : String) (now : ℕ) : Except LedgerError DeletionLedger :=
  if ¬IsTarget targetId then .error (.value "target_id is invalid")
  else
    match TargetStatus.ofReceipt status with
    | none => .error (.value "target status must be applied or absent")
    | some received =>
      if checkpointSequence < tombstoneSequence then
        .error (.staleTombstone "Target checkpoint is older than tombstone")
      else if ¬Bounded 2048 receipt then
        .error (.value "receipt must be a bounded non-empty provider identifier")
      else
        match ledger.find identityHash with
        | none => .error (.deletionLedger "Deletion identity is not registered")
        | some current =>
          if current.tombstoneSequence ≠ tombstoneSequence then
            .error (.staleTombstone "Target receipt does not match current tombstone")
          else if (ledger.targets.filter fun target =>
              target.Matches identityHash targetId tombstoneSequence).length ≠ 1 then
            .error (.deletionLedger "Target is not part of current deletion")
          else
            .ok ((ledger.receive identityHash targetId tombstoneSequence checkpointSequence received
              receipt now).verify identityHash now)

/-- `set_legal_hold` -/
def setLegalHold (identityHash : String) (enabled : Bool) (reference : String) (now : ℕ) :
    Except LedgerError DeletionLedger :=
  if strip reference = "" then .error (.value "legal hold changes require a reference")
  else if (ledger.find identityHash).isNone then
    .error (.deletionLedger "Deletion identity is not registered")
  else
    .ok (ledger.updateRecord identityHash fun record =>
      { record with
        legalHold := enabled
        legalHoldReference := some reference
        updatedAt := now })

/-- `should_suppress` -/
def shouldSuppress (identityHash : String) (candidateSequence : ℤ) : Except LedgerError Bool :=
  if candidateSequence < 1 then .error (.value "candidate_sequence must be positive")
  else .ok ((ledger.find identityHash).any fun record =>
    candidateSequence ≤ record.tombstoneSequence)

/-- `replay_allowed` -/
def replayAllowed (identityHash : String) (sequence : ℤ) : Except LedgerError Bool :=
  (ledger.shouldSuppress identityHash sequence).map not

/-- `list_restore_suppressions` -/
def listRestoreSuppressions (afterIdentityHash : String) (limit : ℤ) :
    Except LedgerError (List DeletionRecord) :=
  if limit < 1 ∨ 5000 < limit then .error (.value "limit must be between 1 and 5000")
  else .ok (((ledger.records.filter fun record =>
      afterIdentityHash = "" ∨ afterIdentityHash < record.identityHash).insertionSort
    fun first second => first.identityHash ≤ second.identityHash).take limit.toNat)

/-- `pending_targets` -/
def pendingTargets (identityHash : String) : List String :=
  ((ledger.pendingRows identityHash).map TargetRow.targetId).insertionSort (· ≤ ·)

/-- `target_ids` -/
def targetIds (identityHash : String) : List String :=
  ((ledger.targets.filter fun target => target.identityHash = identityHash).map
    TargetRow.targetId).insertionSort (· ≤ ·)

/-! ## What the tables keep -/

/-- Keys are unique; a target row belongs to the current tombstone of its identity; a
row without a receipt is pending, and a receipt vouches for a checkpoint that has
reached the tombstone. -/
structure Linked : Prop where
  keys : (ledger.records.map DeletionRecord.identityHash).Nodup
  targetKeys : (ledger.targets.map fun target => (target.identityHash, target.targetId)).Nodup
  current : ∀ target ∈ ledger.targets, ∃ record ∈ ledger.records,
    record.identityHash = target.identityHash ∧
      record.tombstoneSequence = target.tombstoneSequence
  awaited : ∀ record ∈ ledger.records, ∃ target ∈ ledger.targets,
    target.identityHash = record.identityHash
  identified : ∀ target ∈ ledger.targets, IsTarget target.targetId
  receipts : ∀ target ∈ ledger.targets,
    (target.status = .pending ∧ target.checkpointSequence = none ∧ target.receiptHash = none) ∨
      (target.status ≠ .pending ∧ target.receiptHash ≠ none ∧
        ∃ checkpoint, target.checkpointSequence = some checkpoint ∧
          target.tombstoneSequence ≤ checkpoint)

/-- No target of the identity is pending. -/
def Settled (identityHash : String) : Prop :=
  ∀ target ∈ ledger.targets, target.identityHash = identityHash → target.status ≠ .pending

/-- `converged_at` is set when no target is pending. -/
structure Sound : Prop extends ledger.Linked where
  converged : ∀ record ∈ ledger.records,
    record.convergedAt ≠ none ↔ ledger.Settled record.identityHash

variable {ledger} {identityHash : String} {record : DeletionRecord}

theorem sound_empty : empty.Sound where
  keys := List.nodup_nil
  targetKeys := List.nodup_nil
  current := by simp [empty]
  awaited := by simp [empty]
  identified := by simp [empty]
  receipts := by simp [empty]
  converged := by simp [empty]

theorem mem_of_find (found : ledger.find identityHash = some record) :
    record ∈ ledger.records ∧ record.identityHash = identityHash :=
  ⟨List.mem_of_find?_eq_some found, by simpa using List.find?_some found⟩

/-- One row has the hash of an identity. -/
theorem Sound.eq_of_hash (sound : ledger.Sound) (member : record ∈ ledger.records)
    {other : DeletionRecord} (otherMember : other ∈ ledger.records)
    (same : record.identityHash = other.identityHash) : record = other :=
  List.inj_on_of_nodup_map sound.keys member otherMember same

theorem Sound.find (sound : ledger.Sound) (member : record ∈ ledger.records) :
    ledger.find record.identityHash = some record := by
  cases found : ledger.find record.identityHash with
  | none =>
      have absent := List.find?_eq_none.mp found record member
      simp at absent
  | some other =>
      obtain ⟨otherMember, same⟩ := mem_of_find found
      rw [sound.eq_of_hash otherMember member same]

theorem find_eq_none :
    ledger.find identityHash = none ↔ ∀ record ∈ ledger.records,
      record.identityHash ≠ identityHash := by
  simp [DeletionLedger.find]

theorem mem_updateRecord {update : DeletionRecord → DeletionRecord} :
    record ∈ (ledger.updateRecord identityHash update).records ↔
      ∃ before ∈ ledger.records, record =
        if before.identityHash = identityHash then update before else before := by
  simp [updateRecord, eq_comm]

end DeletionLedger

end ImposbroSearch.Deletion
