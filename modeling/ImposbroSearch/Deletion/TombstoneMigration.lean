import ImposbroSearch.Deletion.LedgerInvariant
import ImposbroSearch.Foundation.Checks
import ImposbroSearch.Foundation.JsonObjects
import ImposbroSearch.Foundation.LatestByKey
import ImposbroSearch.Publishing.StoreContents

/-!
# The migration to the deletion ledger

`_backfill_existing_tombstones` fills the new tables of the ledger from the outbox: it keeps
the last deletion of each identity and inserts the rows of its tombstone. It reads them off
the JSON of the payload, where a registration has the draft of the event. Registering every
deletion in the order of its sequence leaves the same rows: each one takes over the row of its
identity and replaces its target rows.

The hash function, the JSON of a document and the text of a time are parameters.
-/

namespace ImposbroSearch.Deletion

open ImposbroSearch.Foundation ImposbroSearch.Indexing ImposbroSearch.Publishing
open ImposbroSearch.Routing

variable {Doc F : Type}

/-! ## The JSON of a payload -/

/-- How documents and times are written. -/
structure PayloadFormat (Doc F : Type) where
  documentJson : Doc → Json F
  isoformat : ℕ → String

def textJson (text : String) : Json F := .str (chars text)

def operationName : Operation → String
  | .upsert => "upsert"
  | .delete => "delete"
  | .tombstone => "tombstone"

/-- The `document` and the `delete_filter` of a payload, where there is one. -/
def mutationFields (format : PayloadFormat Doc F) : Mutation Doc → List (Text × Json F)
  | .upsert document => [(chars "document", format.documentJson document)]
  | .delete deleteFilter =>
    deleteFilter.toList.map fun filter => (chars "delete_filter", textJson filter)
  | .tombstone deleteFilter =>
    deleteFilter.toList.map fun filter => (chars "delete_filter", textJson filter)

def identityFields (identity : EventIdentity) : List (Text × Json F) :=
  [(chars "tenant_id", textJson identity.tenantId),
    (chars "collection", textJson identity.collection),
    (chars "document_id", textJson identity.documentId)]

/-- The fields that `build_event_payload` fills in order. -/
def payloadFields (format : PayloadFormat Doc F) (payload : EventPayload Doc) :
    List (Text × Json F) :=
  [(chars "envelope_version", .int 2),
    (chars "event_id", textJson payload.event.eventId),
    (chars "identity", .object (identityFields payload.event.identity)),
    (chars "document_version", .int payload.event.documentVersion),
    (chars "sequence", .int payload.event.sequence),
    (chars "operation", textJson (operationName payload.event.mutation.operation)),
    (chars "routing_revision", .int payload.event.routingRevision),
    (chars "rollout_id", payload.event.rolloutId.elim .null textJson),
    (chars "target_clusters", .list (payload.event.targetClusters.map textJson)),
    (chars "occurred_at", textJson (format.isoformat payload.occurredAt)),
    (chars "trace", .object (payload.trace.map fun entry => (chars entry.1, textJson entry.2)))] ++
  mutationFields format payload.event.mutation

/-- What `build_event_payload` returns. -/
def payloadJson (format : PayloadFormat Doc F) (payload : EventPayload Doc) : Json F :=
  .object (payloadFields format payload)

/-- The `event_digest` of a payload. What is stored holds no constants, so it does not matter
which of the two encoders allows them. -/
def eventDigest [PyFloat F] (sha256 : Text → String) (payload : Json F) : String :=
  sha256 (payload.sortKeys.print Json.compact)

/-! ## The migration -/

/-- A `payload_json`, as the driver returns it. -/
inductive PayloadColumn (F : Type) where
  | parsed (value : Json F)
  | text (encoded : Text)

/-- `if isinstance(payload, str): payload = json.loads(payload)` -/
def PayloadColumn.load [PyFloat F] : PayloadColumn F → Option (Json F)
  | .parsed value => some value
  | .text encoded => (Json.loads encoded).toOption.map JsonValue.json

/-- The columns that the migration selects. -/
structure OutboxColumns (F : Type) where
  eventId : String
  identityHash : String
  sequence : ℕ
  payload : PayloadColumn F
  createdAt : ℕ

/-- `ORDER BY identity_hash, sequence` -/
def OutboxColumns.Before (first second : OutboxColumns F) : Prop :=
  first.identityHash < second.identityHash ∨
    (first.identityHash = second.identityHash ∧ first.sequence ≤ second.sequence)

instance : DecidableRel (@OutboxColumns.Before F) := fun _ _ => inferInstanceAs (Decidable (_ ∨ _))

/-- `payload.get("operation") in {"delete", "tombstone"}`. Only an object has a `get`, and a list
or an object is in no set. -/
def isDeletionPayload : Json F → Option Bool
  | .object fields =>
    match fields.lookup (chars "operation") with
    | some (.str text) => some (text = chars "delete" || text = chars "tombstone")
    | some (.list _) => none
    | some (.object _) => none
    | _ => some false
  | _ => none

/-- `str(value)` of a text. -/
def strValue : Json F → Option String
  | .str text => some (String.ofList (text.map Char.ofNat))
  | _ => none

/-- `int(value)` of an integer that a counter may be. -/
def intValue : Json F → Option ℕ
  | .int n => if 0 ≤ n then some n.toNat else none
  | _ => none

/-- `str(payload.get(key) or "")` -/
def strOrEmpty [PyFloat F] (payload : Json F) (key : String) : Option String :=
  match payload.field (chars key) with
  | none => some ""
  | some value => if value.isFalsy then some "" else strValue value

/-- The texts of `payload.get(key) or ()`. -/
def textsOf [PyFloat F] (payload : Json F) (key : String) : Option (List String) :=
  match payload.field (chars key) with
  | some (.list items) => items.mapM strValue
  | some value => if value.isFalsy then some [] else none
  | none => some []

/-- The lengths and the check constraints of the new tables. -/
def FitsTables (record : DeletionRecord) (targets : List TargetRow) : Prop :=
  FitsColumn 256 record.tenantId ∧ FitsColumn 128 record.collection ∧
    FitsColumn 256 record.documentId ∧ FitsColumn 128 record.eventId ∧
    FitsColumn 128 record.rolloutId ∧ 1 ≤ record.tombstoneSequence ∧ 1 ≤ record.documentVersion ∧
    1 ≤ record.routingRevision ∧ ∀ target ∈ targets, FitsColumn 128 target.targetId

instance (record : DeletionRecord) (targets : List TargetRow) :
    Decidable (FitsTables record targets) := inferInstanceAs (Decidable (_ ∧ _))

/-- The rows that are inserted for the last deletion of an identity. -/
def migratedTombstone [PyFloat F] (sha256 : Text → String) (entry : OutboxColumns F × Json F) :
    Option (DeletionRecord × List TargetRow) := do
  let (row, payload) := entry
  let identity ← payload.field (chars "identity")
  let tenantId ← (identity.field (chars "tenant_id")).bind strValue
  let collection ← (identity.field (chars "collection")).bind strValue
  let documentId ← (identity.field (chars "document_id")).bind strValue
  let documentVersion ←
    ((payload.field (chars "document_version")).elim (some row.sequence) intValue)
  let routingRevision ← (payload.field (chars "routing_revision")).bind intValue
  let rolloutId ← strOrEmpty payload "rollout_id"
  let targetIds ← textsOf payload "target_clusters"
  let record : DeletionRecord :=
    { identityHash := row.identityHash
      tenantId
      collection
      documentId
      tombstoneSequence := row.sequence
      documentVersion
      eventId := row.eventId
      eventDigest := eventDigest sha256 payload
      routingRevision
      rolloutId
      requestedAt := row.createdAt
      retentionUntil := none
      updatedAt := row.createdAt }
  let targets := (uniqueTargets targetIds).map fun targetId =>
    { identityHash := row.identityHash
      targetId
      tombstoneSequence := row.sequence
      updatedAt := row.createdAt : TargetRow }
  if FitsTables record targets then some (record, targets) else none

/-- One row of the loop that collects `latest`. -/
def latestDeletion [PyFloat F] (latest : List (OutboxColumns F × Json F)) (row : OutboxColumns F) :
    Option (List (OutboxColumns F × Json F)) := do
  let payload ← row.payload.load
  let deletion ← isDeletionPayload payload
  some (if deletion then assign (fun entry => entry.1.identityHash) latest (row, payload)
    else latest)

/-- `_backfill_existing_tombstones` -/
def backfillExistingTombstones [PyFloat F] (sha256 : Text → String)
    (rows : List (OutboxColumns F)) : Option DeletionLedger := do
  let latest ← (rows.insertionSort OutboxColumns.Before).foldlM latestDeletion []
  let tombstones ← latest.mapM (migratedTombstone sha256)
  some { records := tombstones.map Prod.fst, targets := tombstones.flatMap Prod.snd }

/-! ## The registrations -/

/-- The registration of a deletion when its event was prepared. -/
def registrationOf [PyFloat F] (sha256 : Text → String) (format : PayloadFormat Doc F)
    (drafts : EventRow Doc → TracedDraft Doc) (row : EventRow Doc) : TombstoneRegistration :=
  LedgerStore.tombstoneRegistration (fun payload => eventDigest sha256 (payloadJson format payload))
    (drafts row) row row.createdAt

@[simp] theorem strValue_textJson (text : String) :
    strValue (textJson text : Json F) = some text := by
  have same : (Char.ofNat ∘ Char.toNat) = id := by
    funext c
    exact Char.ofNat_toNat c
  show some (String.ofList ((text.toList.map Char.toNat).map Char.ofNat)) = some text
  rw [List.map_map, same, List.map_id, String.ofList_toList]

@[simp] theorem intValue_nat (n : ℕ) : intValue (.int n : Json F) = some n := by
  simp [intValue]

theorem mapM_strValue (texts : List String) :
    (texts.map textJson : List (Json F)).mapM strValue = some texts := by
  induction texts with
  | nil => rfl
  | cons text texts ih =>
      rw [List.map_cons, List.mapM_cons, ih, strValue_textJson]
      rfl

/-- The names of the fields of every payload. -/
def payloadKeys : List Text :=
  [chars "envelope_version", chars "event_id", chars "identity", chars "document_version",
    chars "sequence", chars "operation", chars "routing_revision", chars "rollout_id",
    chars "target_clusters", chars "occurred_at", chars "trace"]

theorem payloadKeys_nodup :
    (payloadKeys ++ [chars "document"]).Nodup ∧ (payloadKeys ++ [chars "delete_filter"]).Nodup := by
  decide

theorem identityFields_keys :
    [chars "tenant_id", chars "collection", chars "document_id"].Nodup := by decide

variable {format : PayloadFormat Doc F} {payload : EventPayload Doc}

/-- A payload has each key once. -/
theorem payloadFields_nodup (format : PayloadFormat Doc F) (payload : EventPayload Doc) :
    ((payloadFields format payload).map Prod.fst).Nodup := by
  unfold payloadFields
  rw [List.map_append]
  show (payloadKeys ++ (mutationFields format payload.event.mutation).map Prod.fst).Nodup
  have plain : (payloadKeys ++ []).Nodup := by
    rw [List.append_nil]
    exact (List.nodup_append.mp payloadKeys_nodup.1).1
  cases payload.event.mutation with
  | upsert document => exact payloadKeys_nodup.1
  | delete deleteFilter =>
      cases deleteFilter with
      | none => exact plain
      | some filter => exact payloadKeys_nodup.2
  | tombstone deleteFilter =>
      cases deleteFilter with
      | none => exact plain
      | some filter => exact payloadKeys_nodup.2

theorem field_payloadJson {key : Text} {value : Json F}
    (member : (key, value) ∈ payloadFields format payload) :
    (payloadJson format payload).field key = some value :=
  (lookup_eq_some_iff_mem (payloadFields_nodup format payload)).mpr member

theorem field_identity {identity : EventIdentity} {key : Text} {value : Json F}
    (member : (key, value) ∈ identityFields identity) :
    (Json.object (identityFields identity)).field key = some value := by
  have distinct : ((identityFields (F := F) identity).map Prod.fst).Nodup := identityFields_keys
  exact (lookup_eq_some_iff_mem distinct).mpr member

theorem operationName_iff (operation : Operation) :
    (chars (operationName operation) = chars "delete" ||
      chars (operationName operation) = chars "tombstone") = true ↔ operation ≠ .upsert := by
  cases operation with
  | upsert => decide
  | delete => decide
  | tombstone => decide

/-- The deletions of the payloads are those of the events. -/
theorem isDeletionPayload_eq (row : EventRow Doc) :
    isDeletionPayload (payloadJson format row.payload) = some (decide (IsDeletion row)) := by
  have member : (chars "operation", textJson (operationName
      row.payload.event.mutation.operation)) ∈ payloadFields format row.payload :=
    List.mem_of_getElem? (i := 5) rfl
  have operation : (payloadFields format row.payload).lookup (chars "operation") = _ :=
    field_payloadJson member
  unfold isDeletionPayload payloadJson
  simp only [operation]
  exact congrArg some (Bool.eq_iff_iff.mpr
    ((operationName_iff row.payload.event.mutation.operation).trans decide_eq_true_iff.symm))

section Tombstone

variable [PyFloat F] {sha256 : Text → String} {drafts : EventRow Doc → TracedDraft Doc}
  {row : EventRow Doc}

theorem strOrEmpty_rolloutId (format : PayloadFormat Doc F) (payload : EventPayload Doc) :
    strOrEmpty (payloadJson format payload) "rollout_id" =
      some (payload.event.rolloutId.getD "") := by
  have rollout : (payloadJson format payload).field (chars "rollout_id") =
      some (payload.event.rolloutId.elim .null textJson) :=
    field_payloadJson (List.mem_of_getElem? (i := 7) rfl)
  unfold strOrEmpty
  rw [rollout]
  cases payload.event.rolloutId with
  | none => rfl
  | some rolloutId =>
      show (if (textJson rolloutId : Json F).isFalsy then some ""
        else strValue (textJson rolloutId)) = some rolloutId
      split_ifs with falsy
      · have empty : rolloutId.toList.map Char.toNat = [] := List.isEmpty_iff.mp falsy
        have same : rolloutId = "" := String.toList_inj.mp (List.map_eq_nil_iff.mp empty)
        rw [same]
      · exact strValue_textJson rolloutId

theorem textsOf_targetClusters (format : PayloadFormat Doc F) (payload : EventPayload Doc) :
    textsOf (payloadJson format payload) "target_clusters" = some payload.event.targetClusters := by
  have targets : (payloadJson format payload).field (chars "target_clusters") =
      some (.list (payload.event.targetClusters.map textJson)) :=
    field_payloadJson (List.mem_of_getElem? (i := 8) rfl)
  unfold textsOf
  rw [targets]
  exact mapM_strValue payload.event.targetClusters

/-- What a registration checks is what the tables take. -/
theorem fitsTables_of_accepted {registration : TombstoneRegistration}
    (accepted : registration.refusal = none) {now : ℕ} :
    FitsTables (registration.record now) (registration.targetRows now) := by
  have targets := (DeletionLedger.targets_of_accepted accepted).2
  unfold TombstoneRegistration.refusal at accepted
  split_ifs at accepted with tenant collection document event rollout positive revision
  rw [not_or] at positive
  refine ⟨tenant.2, collection.2, document.2, event.2, rollout, ?_, ?_, ?_, ?_⟩
  · exact Nat.le_of_not_lt positive.1
  · exact Nat.le_of_not_lt positive.2
  · exact Nat.le_of_not_lt revision
  · intro target member
    obtain ⟨targetId, listed, rfl⟩ := DeletionLedger.mem_targetRows.mp member
    exact (targets targetId listed).2.1

/-- **The migration inserts what the registration would.** -/
theorem migratedTombstone_eq {columns : OutboxColumns F}
    (identified : columns.identityHash = row.identityHash) (named : columns.eventId = row.eventId)
    (numbered : columns.sequence = row.sequence) (timed : columns.createdAt = row.createdAt)
    (prepared : row.PreparedFrom (drafts row))
    (accepted : (registrationOf sha256 format drafts row).refusal = none) :
    migratedTombstone sha256 (columns, payloadJson format row.payload) =
      some ((registrationOf sha256 format drafts row).record row.createdAt,
        (registrationOf sha256 format drafts row).targetRows row.createdAt) := by
  obtain ⟨last, sequence, hashed, payload⟩ := prepared
  have identity : (payloadJson format row.payload).field (chars "identity") =
      some (.object (identityFields row.payload.event.identity)) :=
    field_payloadJson (List.mem_of_getElem? (i := 2) rfl)
  have version : (payloadJson format row.payload).field (chars "document_version") =
      some (.int row.payload.event.documentVersion) :=
    field_payloadJson (List.mem_of_getElem? (i := 3) rfl)
  have revision : (payloadJson format row.payload).field (chars "routing_revision") =
      some (.int row.payload.event.routingRevision) :=
    field_payloadJson (List.mem_of_getElem? (i := 6) rfl)
  have tenant : (Json.object (identityFields (F := F) row.payload.event.identity)).field
      (chars "tenant_id") = some (textJson row.payload.event.identity.tenantId) :=
    field_identity (List.mem_of_getElem? (i := 0) rfl)
  have collection : (Json.object (identityFields (F := F) row.payload.event.identity)).field
      (chars "collection") = some (textJson row.payload.event.identity.collection) :=
    field_identity (List.mem_of_getElem? (i := 1) rfl)
  have document : (Json.object (identityFields (F := F) row.payload.event.identity)).field
      (chars "document_id") = some (textJson row.payload.event.identity.documentId) :=
    field_identity (List.mem_of_getElem? (i := 2) rfl)
  unfold migratedTombstone
  simp only [identity, version, revision, tenant, collection, document, strValue_textJson,
    intValue_nat, strOrEmpty_rolloutId, textsOf_targetClusters, Option.bind_eq_bind,
    Option.bind_some, Option.elim_some]
  have sameIdentity : row.payload.event.identity = (drafts row).identity := by rw [payload]; rfl
  have sameVersion : row.payload.event.documentVersion = row.sequence := by
    rw [payload, sequence]
    rfl
  have sameRevision : row.payload.event.routingRevision = (drafts row).routingRevision := by
    rw [payload]
    rfl
  have sameRollout : row.payload.event.rolloutId = (drafts row).rolloutId := by rw [payload]; rfl
  have sameTargets : row.payload.event.targetClusters = (drafts row).targetClusters := by
    rw [payload]
    rfl
  rw [identified, named, numbered, timed, hashed, sameIdentity, sameVersion, sameRevision,
    sameRollout, sameTargets]
  exact if_pos (fitsTables_of_accepted accepted)

end Tombstone

/-! ## Registering one deletion after the other -/

section Replay

variable {registration : EventRow Doc → TombstoneRegistration} {done : List (EventRow Doc)}
  {ledger : DeletionLedger} {row : EventRow Doc}

/-- What the registration of an event says about it. -/
structure Describes (registration : EventRow Doc → TombstoneRegistration) (row : EventRow Doc) :
    Prop where
  identity : (registration row).identityHash = row.identityHash
  sequence : (registration row).tombstoneSequence = row.sequence
  unbounded : (registration row).retentionUntil = none
  accepted : (registration row).refusal = none

/-- **The ledger after some registrations**: the rows of the last tombstone of each identity. -/
structure AfterRegistering (registration : EventRow Doc → TombstoneRegistration)
    (done : List (EventRow Doc)) (ledger : DeletionLedger) : Prop where
  sound : ledger.Sound
  records : ∀ record, record ∈ ledger.records ↔ ∃ row,
    IsLatest EventRow.identityHash EventRow.sequence done row ∧
      record = (registration row).record row.createdAt
  targets : ∀ target, target ∈ ledger.targets ↔ ∃ row,
    IsLatest EventRow.identityHash EventRow.sequence done row ∧
      target ∈ (registration row).targetRows row.createdAt

/-- A tombstone without holds and bounds leaves nothing to the next one. -/
theorem recordOver_record {earlier later : TombstoneRegistration} {before now : ℕ}
    (unbounded : earlier.retentionUntil = none) (still : later.retentionUntil = none) :
    later.recordOver (earlier.record before) now = later.record now := by
  unfold TombstoneRegistration.recordOver TombstoneRegistration.record
  rw [unbounded, still]
  rfl

/-- **One registration**, of an event behind those of its identity. -/
theorem AfterRegistering.register (registered : AfterRegistering registration done ledger)
    (describes : ∀ other ∈ done, Describes registration other) (here : Describes registration row)
    (outranks : ∀ other ∈ done, other.identityHash = row.identityHash →
      other.sequence < row.sequence) :
    ∃ record next, ledger.registerTombstone (registration row) row.createdAt = .ok (record, next) ∧
      AfterRegistering registration (done ++ [row]) next := by
  -- The row that is there is the one of an earlier deletion.
  have earlier : ∀ current, ledger.find (registration row).identityHash = some current →
      current.tombstoneSequence < row.sequence ∧
        (registration row).recordOver current row.createdAt =
          (registration row).record row.createdAt := by
    intro current found
    obtain ⟨member, named⟩ := DeletionLedger.mem_of_find found
    obtain ⟨other, latest, rfl⟩ := (registered.records current).mp member
    have described := describes other latest.1
    constructor
    · show (registration other).tombstoneSequence < row.sequence
      rw [described.sequence]
      refine outranks other latest.1 ?_
      rw [← described.identity, ← here.identity]
      exact named
    · exact recordOver_record described.unbounded here.unbounded
  have succeeds : ∃ next, ledger.registerTombstone (registration row) row.createdAt =
      .ok ((registration row).record row.createdAt, next) := by
    unfold DeletionLedger.registerTombstone
    rw [here.accepted]
    simp only
    cases found : ledger.find (registration row).identityHash with
    | none => exact ⟨_, rfl⟩
    | some current =>
        obtain ⟨lower, same⟩ := earlier current found
        rw [← here.sequence] at lower
        simp only
        rw [if_neg (not_lt.mpr (le_of_lt lower)), if_neg (ne_of_gt lower), same]
        exact ⟨_, rfl⟩
  obtain ⟨next, accepted⟩ := succeeds
  refine ⟨_, next, accepted, ?_⟩
  obtain ⟨-, ⟨-, found, same, -⟩ | ⟨-, takes⟩⟩ :=
    DeletionLedger.registerTombstone_ok registered.sound accepted
  · have lower := (earlier _ found).1
    rw [same, here.sequence] at lower
    exact absurd lower (lt_irrefl _)
  · constructor
    case sound => exact DeletionLedger.registerTombstone_sound registered.sound accepted
    case records =>
      intro record
      rw [takes.records, registered.records]
      constructor
      · rintro (rfl | ⟨⟨other, latest, rfl⟩, differs⟩)
        · exact ⟨row, (isLatest_snoc outranks).mpr (Or.inl rfl), rfl⟩
        · refine ⟨other, (isLatest_snoc outranks).mpr (Or.inr ⟨latest, ?_⟩), rfl⟩
          rw [← (describes other latest.1).identity, ← here.identity]
          exact differs
      · rintro ⟨other, latest, rfl⟩
        rcases (isLatest_snoc outranks).mp latest with rfl | ⟨before, differs⟩
        · exact Or.inl rfl
        · refine Or.inr ⟨⟨other, before, rfl⟩, ?_⟩
          show (registration other).identityHash ≠ _
          rw [(describes other before.1).identity, here.identity]
          exact differs
    case targets =>
      have owner : ∀ other ∈ done, ∀ target ∈ (registration other).targetRows other.createdAt,
          target.identityHash = other.identityHash := by
        intro other member target listed
        obtain ⟨targetId, -, rfl⟩ := DeletionLedger.mem_targetRows.mp listed
        exact (describes other member).identity
      intro target
      rw [takes.targets, registered.targets]
      constructor
      · rintro (new | ⟨⟨other, latest, listed⟩, differs⟩)
        · exact ⟨row, (isLatest_snoc outranks).mpr (Or.inl rfl), new⟩
        · refine ⟨other, (isLatest_snoc outranks).mpr (Or.inr ⟨latest, ?_⟩), listed⟩
          rw [← owner other latest.1 target listed, ← here.identity]
          exact differs
      · rintro ⟨other, latest, listed⟩
        rcases (isLatest_snoc outranks).mp latest with rfl | ⟨before, differs⟩
        · exact Or.inl listed
        · refine Or.inr ⟨⟨other, before, listed⟩, ?_⟩
          rw [owner other before.1 target listed, here.identity]
          exact differs

end Replay

/-! ## The last deletion of each identity -/

section Latest

variable [PyFloat F]

/-- The columns of a row of the outbox, with its payload as the driver returns it. -/
def columnsOf (column : EventRow Doc → PayloadColumn F) (row : EventRow Doc) : OutboxColumns F where
  eventId := row.eventId
  identityHash := row.identityHash
  sequence := row.sequence
  payload := column row
  createdAt := row.createdAt

/-- The row and its payload, as the loop keeps them. -/
def entryOf (format : PayloadFormat Doc F) (column : EventRow Doc → PayloadColumn F)
    (row : EventRow Doc) : OutboxColumns F × Json F :=
  (columnsOf column row, payloadJson format row.payload)

omit [PyFloat F] in
/-- Rows are sorted by identity, and by sequence in each. -/
theorem sorted_columns (rows : List (OutboxColumns F)) :
    (rows.insertionSort OutboxColumns.Before).Pairwise OutboxColumns.Before := by
  have total : Std.Total (@OutboxColumns.Before F) := by
    constructor
    intro first second
    unfold OutboxColumns.Before
    rcases lt_trichotomy first.identityHash second.identityHash with lower | same | higher
    · exact Or.inl (Or.inl lower)
    · rcases le_total first.sequence second.sequence with low | high
      · exact Or.inl (Or.inr ⟨same, low⟩)
      · exact Or.inr (Or.inr ⟨same.symm, high⟩)
    · exact Or.inr (Or.inl higher)
  have transitive : IsTrans (OutboxColumns F) OutboxColumns.Before := by
    constructor
    rintro first second third (lower | ⟨same, low⟩) (lower' | ⟨same', low'⟩)
    · exact Or.inl (lt_trans lower lower')
    · exact Or.inl (same' ▸ lower)
    · exact Or.inl (same ▸ lower')
    · exact Or.inr ⟨same.trans same', le_trans low low'⟩
  exact List.pairwise_insertionSort _ rows

/-- **The loop** keeps what assignments of the deletions keep. -/
theorem foldlM_latestDeletion {rows : List (OutboxColumns F)}
    {payloadOf : OutboxColumns F → Json F}
    (loads : ∀ row ∈ rows, row.payload.load = some (payloadOf row))
    (decides : ∀ row ∈ rows, isDeletionPayload (payloadOf row) ≠ none)
    (latest : List (OutboxColumns F × Json F)) :
    rows.foldlM latestDeletion latest =
      some (((rows.map fun row => (row, payloadOf row)).filter fun entry =>
        isDeletionPayload entry.2 = some true).foldl
          (assign fun entry => entry.1.identityHash) latest) := by
  induction rows generalizing latest with
  | nil => rfl
  | cons row rows ih =>
      obtain ⟨deletion, decided⟩ := Option.ne_none_iff_exists'.mp (decides row List.mem_cons_self)
      have here : latestDeletion latest row = some (if deletion then
          assign (fun entry => entry.1.identityHash) latest (row, payloadOf row) else latest) := by
        unfold latestDeletion
        rw [loads row List.mem_cons_self]
        show (isDeletionPayload (payloadOf row)).bind _ = _
        rw [decided]
        rfl
      rw [List.foldlM_cons, here, List.map_cons, List.filter_cons]
      show rows.foldlM latestDeletion _ = _
      rw [ih (fun other member => loads other (List.mem_cons_of_mem _ member))
        fun other member => decides other (List.mem_cons_of_mem _ member)]
      cases deletion with
      | true =>
          rw [if_pos rfl, if_pos (decide_eq_true decided)]
          rfl
      | false =>
          have spared : ¬decide (isDeletionPayload (payloadOf row) = some true) = true := by
            simp [decided]
          rw [if_neg Bool.false_ne_true, if_neg spared]

/-- The rows of an identity are inserted under its hash. -/
theorem migratedTombstone_owner {sha256 : Text → String} {entry : OutboxColumns F × Json F}
    {pair : DeletionRecord × List TargetRow}
    (migrated : migratedTombstone sha256 entry = some pair) :
    pair.1.identityHash = entry.1.identityHash := by
  unfold migratedTombstone at migrated
  simp only [Option.bind_eq_bind, Option.bind_eq_some_iff] at migrated
  obtain ⟨_, -, _, -, _, -, _, -, _, -, _, -, _, -, _, -, inserted⟩ := migrated
  split_ifs at inserted
  rw [← Option.some.inj inserted]

end Latest

/-! ## Two ledgers with the same rows -/

section Same

variable {registration : EventRow Doc → TombstoneRegistration} {rows others : List (EventRow Doc)}
  {ledger other : DeletionLedger}

/-- The ledger holds the last tombstone of each identity, and nothing twice. -/
structure LastTombstones (registration : EventRow Doc → TombstoneRegistration)
    (rows : List (EventRow Doc)) (ledger : DeletionLedger) : Prop where
  records : ∀ record, record ∈ ledger.records ↔ ∃ row,
    IsLatest EventRow.identityHash EventRow.sequence rows row ∧
      record = (registration row).record row.createdAt
  targets : ∀ target, target ∈ ledger.targets ↔ ∃ row,
    IsLatest EventRow.identityHash EventRow.sequence rows row ∧
      target ∈ (registration row).targetRows row.createdAt
  recordsOnce : ledger.records.Nodup
  targetsOnce : ledger.targets.Nodup

theorem LastTombstones.perm (first : LastTombstones registration rows ledger)
    (second : LastTombstones registration others other) (same : ∀ row, row ∈ rows ↔ row ∈ others) :
    ledger.records.Perm other.records ∧ ledger.targets.Perm other.targets := by
  have latest : ∀ row, IsLatest EventRow.identityHash EventRow.sequence rows row ↔
      IsLatest EventRow.identityHash EventRow.sequence others row := by
    intro row
    unfold IsLatest
    simp only [same]
  constructor
  · rw [List.perm_ext_iff_of_nodup first.recordsOnce second.recordsOnce]
    intro record
    rw [first.records, second.records]
    simp only [latest]
  · rw [List.perm_ext_iff_of_nodup first.targetsOnce second.targetsOnce]
    intro target
    rw [first.targets, second.targets]
    simp only [latest]

end Same

/-! ## The two procedures -/

section Migration

variable [PyFloat F] {sha256 : Text → String} {format : PayloadFormat Doc F}
  {column : EventRow Doc → PayloadColumn F} {drafts : EventRow Doc → TracedDraft Doc}
  {rows : List (EventRow Doc)}

/-- The content of an outbox: each row was inserted for its draft, its payload came back
unchanged, its registration passes the checks, and no identity has a sequence twice. -/
structure OutboxContent (sha256 : Text → String) (format : PayloadFormat Doc F)
    (column : EventRow Doc → PayloadColumn F) (drafts : EventRow Doc → TracedDraft Doc)
    (rows : List (EventRow Doc)) : Prop where
  nodup : rows.Nodup
  numbered : ∀ first ∈ rows, ∀ second ∈ rows, first.identityHash = second.identityHash →
    first.sequence = second.sequence → first = second
  stored : ∀ row ∈ rows, (column row).load = some (payloadJson format row.payload)
  prepared : ∀ row ∈ rows, row.PreparedFrom (drafts row)
  valid : ∀ row ∈ rows, IsDeletion row →
    (registrationOf sha256 format drafts row).refusal = none

theorem OutboxContent.describes (content : OutboxContent sha256 format column drafts rows)
    {row : EventRow Doc} (member : row ∈ rows) (deletion : IsDeletion row) :
    Describes (registrationOf sha256 format drafts) row where
  identity := by
    obtain ⟨last, -, hashed, -⟩ := content.prepared row member
    exact hashed.symm
  sequence := rfl
  unbounded := rfl
  accepted := content.valid row member deletion

/-- The deletions that the loop assigns, in their order. -/
theorem OutboxContent.deletions (content : OutboxContent sha256 format column drafts rows) :
    ∃ entries : List (OutboxColumns F × Json F),
      ((rows.map (columnsOf column)).insertionSort OutboxColumns.Before).foldlM latestDeletion [] =
        some (entries.foldl (assign fun entry => entry.1.identityHash) []) ∧
      (∀ entry, entry ∈ entries ↔
        ∃ row ∈ rows, IsDeletion row ∧ entry = entryOf format column row) ∧
      entries.Pairwise fun first second => first.1.identityHash = second.1.identityHash →
        first.1.sequence < second.1.sequence := by
  set sorted := (rows.map (columnsOf column)).insertionSort OutboxColumns.Before with sorted_eq
  have perm : sorted.Perm (rows.map (columnsOf column)) := List.perm_insertionSort _ _
  have origin : ∀ columns, columns ∈ sorted ↔ ∃ row ∈ rows, columnsOf column row = columns := by
    intro columns
    rw [perm.mem_iff, List.mem_map]
  have loaded : ∀ row ∈ rows, ((columnsOf column row).payload.load).getD .null =
      payloadJson format row.payload := by
    intro row member
    show ((column row).load).getD .null = _
    rw [content.stored row member]
    rfl
  have loads : ∀ columns ∈ sorted, columns.payload.load =
      some (columns.payload.load.getD .null) := by
    intro columns member
    obtain ⟨row, stored, rfl⟩ := (origin columns).mp member
    show (column row).load = some ((column row).load.getD .null)
    rw [content.stored row stored]
    rfl
  have decides : ∀ columns ∈ sorted,
      isDeletionPayload (columns.payload.load.getD .null) ≠ none := by
    intro columns member
    obtain ⟨row, stored, rfl⟩ := (origin columns).mp member
    rw [loaded row stored, isDeletionPayload_eq]
    exact Option.some_ne_none _
  have deletes : ∀ row, isDeletionPayload (payloadJson format row.payload) = some true ↔
      IsDeletion row := by
    intro row
    rw [isDeletionPayload_eq, Option.some.injEq, decide_eq_true_eq]
  refine ⟨_, foldlM_latestDeletion loads decides [], fun entry => ?_, ?_⟩
  · rw [List.mem_filter, List.mem_map]
    constructor
    · rintro ⟨⟨columns, member, rfl⟩, deletion⟩
      obtain ⟨row, stored, rfl⟩ := (origin columns).mp member
      rw [loaded row stored] at deletion ⊢
      exact ⟨row, stored, (deletes row).mp (of_decide_eq_true deletion), rfl⟩
    · rintro ⟨row, stored, deletion, rfl⟩
      refine ⟨⟨columnsOf column row, (origin _).mpr ⟨row, stored, rfl⟩, ?_⟩, ?_⟩
      · rw [loaded row stored]
        rfl
      · exact decide_eq_true ((deletes row).mpr deletion)
  · have distinct : sorted.Nodup := by
      refine perm.nodup_iff.mpr (List.Nodup.map_on ?_ content.nodup)
      intro first here second there same
      exact content.numbered first here second there (congrArg OutboxColumns.identityHash same)
        (congrArg OutboxColumns.sequence same)
    have ordered : sorted.Pairwise fun first second =>
        first.identityHash = second.identityHash → first.sequence < second.sequence := by
      refine List.Pairwise.imp_of_mem ?_ (List.Pairwise.and (sorted_columns _) distinct)
      rintro first second here there ⟨before, differs⟩ same
      have low : first.sequence ≤ second.sequence := by
        rcases before with lower | ⟨-, low⟩
        · exact absurd (same ▸ lower) (lt_irrefl _)
        · exact low
      refine lt_of_le_of_ne low fun equal => differs ?_
      obtain ⟨row, stored, rfl⟩ := (origin first).mp here
      obtain ⟨other, stored', rfl⟩ := (origin second).mp there
      rw [content.numbered row stored other stored' same equal]
    exact (List.pairwise_map.mpr ordered).filter _

/-- **What the migration inserts**: the rows of the last deletion of each identity. -/
theorem OutboxContent.backfill (content : OutboxContent sha256 format column drafts rows) :
    ∃ ledger, backfillExistingTombstones sha256 (rows.map (columnsOf column)) = some ledger ∧
      LastTombstones (registrationOf sha256 format drafts) (rows.filter fun row => IsDeletion row)
        ledger := by
  obtain ⟨entries, looped, members, ordered⟩ := content.deletions
  set latest := entries.foldl (assign fun entry => entry.1.identityHash) [] with latest_eq
  obtain ⟨kept, keys⟩ : (∀ entry, entry ∈ latest ↔
      IsLatest (fun entry : OutboxColumns F × Json F => entry.1.identityHash)
        (fun entry => entry.1.sequence) entries entry) ∧
      (latest.map fun entry => entry.1.identityHash).Nodup := mem_foldl_assign ordered
  -- An entry that is kept is the one of a row that is the latest.
  have rowOf : ∀ entry, entry ∈ latest ↔ ∃ row,
      IsLatest EventRow.identityHash EventRow.sequence (rows.filter fun row => IsDeletion row) row ∧
        entry = entryOf format column row := by
    intro entry
    rw [kept]
    constructor
    · rintro ⟨member, highest⟩
      obtain ⟨row, stored, deletion, rfl⟩ := (members entry).mp member
      refine ⟨row, ⟨List.mem_filter.mpr ⟨stored, decide_eq_true deletion⟩, ?_⟩, rfl⟩
      intro other there same
      obtain ⟨otherStored, otherDeletion⟩ := List.mem_filter.mp there
      exact highest (entryOf format column other) ((members _).mpr
        ⟨other, otherStored, of_decide_eq_true otherDeletion, rfl⟩) same
    · rintro ⟨row, ⟨member, highest⟩, rfl⟩
      obtain ⟨stored, deletion⟩ := List.mem_filter.mp member
      refine ⟨(members _).mpr ⟨row, stored, of_decide_eq_true deletion, rfl⟩, ?_⟩
      intro other there same
      obtain ⟨otherRow, otherStored, otherDeletion, rfl⟩ := (members other).mp there
      exact highest otherRow (List.mem_filter.mpr ⟨otherStored, decide_eq_true otherDeletion⟩) same
  have inserts : ∀ row, IsLatest EventRow.identityHash EventRow.sequence
      (rows.filter fun row => IsDeletion row) row →
        migratedTombstone sha256 (entryOf format column row) =
          some ((registrationOf sha256 format drafts row).record row.createdAt,
            (registrationOf sha256 format drafts row).targetRows row.createdAt) := by
    rintro row ⟨member, -⟩
    obtain ⟨stored, deletion⟩ := List.mem_filter.mp member
    exact migratedTombstone_eq rfl rfl rfl rfl (content.prepared row stored)
      (content.valid row stored (of_decide_eq_true deletion))
  cases all : latest.mapM (migratedTombstone sha256) with
  | none =>
      obtain ⟨entry, member, failed⟩ := mapM_eq_none.mp all
      obtain ⟨row, last, rfl⟩ := (rowOf entry).mp member
      rw [inserts row last] at failed
      cases failed
  | some tombstones =>
      have pairOf : ∀ pair, pair ∈ tombstones ↔ ∃ row,
          IsLatest EventRow.identityHash EventRow.sequence
            (rows.filter fun row => IsDeletion row) row ∧
          pair = ((registrationOf sha256 format drafts row).record row.createdAt,
            (registrationOf sha256 format drafts row).targetRows row.createdAt) := by
        intro pair
        rw [mem_of_mapM all]
        constructor
        · rintro ⟨entry, member, migrated⟩
          obtain ⟨row, last, rfl⟩ := (rowOf entry).mp member
          rw [inserts row last] at migrated
          exact ⟨row, last, (Option.some.inj migrated).symm⟩
        · rintro ⟨row, last, rfl⟩
          exact ⟨_, (rowOf _).mpr ⟨row, last, rfl⟩, inserts row last⟩
      have owners : (tombstones.map fun pair => pair.1.identityHash).Nodup := by
        rw [map_of_mapM (fun entry pair migrated => migratedTombstone_owner migrated) all]
        exact keys
      refine ⟨⟨tombstones.map Prod.fst, tombstones.flatMap Prod.snd⟩, ?_, ?_⟩
      · unfold backfillExistingTombstones
        rw [looped]
        show (latest.mapM (migratedTombstone sha256)).bind _ = _
        rw [all]
        rfl
      · constructor
        case records =>
          intro record
          rw [List.mem_map]
          constructor
          · rintro ⟨pair, member, rfl⟩
            obtain ⟨row, last, rfl⟩ := (pairOf pair).mp member
            exact ⟨row, last, rfl⟩
          · rintro ⟨row, last, rfl⟩
            exact ⟨_, (pairOf _).mpr ⟨row, last, rfl⟩, rfl⟩
        case targets =>
          intro target
          rw [List.mem_flatMap]
          constructor
          · rintro ⟨pair, member, listed⟩
            obtain ⟨row, last, rfl⟩ := (pairOf pair).mp member
            exact ⟨row, last, listed⟩
          · rintro ⟨row, last, listed⟩
            exact ⟨_, (pairOf _).mpr ⟨row, last, rfl⟩, listed⟩
        case recordsOnce =>
          refine List.Nodup.of_map DeletionRecord.identityHash ?_
          rw [List.map_map]
          exact owners
        case targetsOnce =>
          rw [List.nodup_flatMap]
          constructor
          · intro pair member
            obtain ⟨row, -, rfl⟩ := (pairOf pair).mp member
            exact List.Nodup.of_map _ DeletionLedger.targetRows_nodup
          · have apart : tombstones.Pairwise fun first second =>
                first.1.identityHash ≠ second.1.identityHash := List.pairwise_map.mp owners
            refine List.Pairwise.imp_of_mem ?_ apart
            intro first second here there differs target listed listed'
            obtain ⟨row, -, rfl⟩ := (pairOf first).mp here
            obtain ⟨other, -, rfl⟩ := (pairOf second).mp there
            obtain ⟨targetId, -, rfl⟩ := DeletionLedger.mem_targetRows.mp listed
            obtain ⟨otherId, -, same⟩ := DeletionLedger.mem_targetRows.mp listed'
            exact differs (congrArg TargetRow.identityHash same)

end Migration

/-! ## A document that is deleted before the migration -/

end ImposbroSearch.Deletion
