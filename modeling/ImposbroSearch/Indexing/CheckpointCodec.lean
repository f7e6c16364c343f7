import ImposbroSearch.Foundation.Checks
import ImposbroSearch.Indexing.EventDigest

/-!
# Stored checkpoints

A checkpoint is stored as a Typesense document or as a row of Postgres, and is read back
for an event and a target. The reader checks every field, against the event and against
the other fields. It takes back what the writer stores, and it takes nothing whose
identity, target, or operation is another one.
-/

namespace ImposbroSearch.Indexing.EventEnvelope

open ImposbroSearch.Foundation ImposbroSearch.ControlPlane

variable {table : PrintableTable} {F : Type}

/-- A value of a stored checkpoint. -/
inductive StoredValue where
  | text (text : Text)
  | int (value : ℤ)
  | bool (value : Bool)
  | datetime (moment : Moment)
  | other

/-- What is stored: a mapping, or something else. -/
inductive StoredDocument where
  | mapping (fields : List (Text × StoredValue))
  | other

/-! ## The writer -/

/-- `_is_sha256` -/
def isSha256 (value : Text) : Bool := value.length = 64 && value.all isHex

/-- SHA-256, of which only the form of a digest matters. -/
structure Sha256 where
  hexdigest : List ℕ → Text
  shape : ∀ bytes, isSha256 (hexdigest bytes) = true

/-- `checkpoint_document_id` -/
def checkpointDocumentId (sha256 : Sha256) (checkpoint : TargetCheckpoint) : Option Text :=
  digestOf sha256.hexdigest (checkpoint.identityKey ++ 31 :: checkpoint.targetCluster)

/-- `checkpoint_document` -/
def checkpointDocument (sha256 : Sha256) (checkpoint : TargetCheckpoint) :
    Option (List (Text × StoredValue)) :=
  (checkpointDocumentId sha256 checkpoint).map fun documentId =>
    [(chars "id", .text documentId),
      (chars "identity_key", .text checkpoint.identityKey),
      (chars "tenant_id", .text checkpoint.tenantId),
      (chars "collection", .text checkpoint.collection),
      (chars "document_id", .text checkpoint.documentId),
      (chars "target_cluster", .text checkpoint.targetCluster),
      (chars "sequence", .int checkpoint.sequence),
      (chars "document_version", .int checkpoint.documentVersion),
      (chars "operation", .text checkpoint.operation),
      (chars "event_id", .text checkpoint.eventId),
      (chars "event_digest", .text checkpoint.eventDigest),
      (chars "occurred_at", .text checkpoint.occurredAt),
      (chars "applied_at_ms", .int checkpoint.appliedAtMs),
      (chars "tombstone", .bool checkpoint.tombstone),
      (chars "routing_revision", .int checkpoint.routingRevision),
      (chars "rollout_id", .text checkpoint.rolloutId)]

variable (otherFormats : Text → Option Moment)

/-- `postgres_checkpoint_values`: the id is the key of the row, and the time a datetime. -/
def postgresCheckpointValues (sha256 : Sha256) (checkpoint : TargetCheckpoint) :
    Option (List (Text × StoredValue)) :=
  (checkpointDocument sha256 checkpoint).bind fun document =>
    (fromisoformat otherFormats checkpoint.occurredAt).map fun moment =>
      ((document.filter fun field => field.1 ≠ chars "id").map fun field =>
        if field.1 = chars "occurred_at" then (field.1, .datetime moment) else field) ++
        (document.filter fun field => field.1 = chars "id").map fun field =>
          (chars "checkpoint_key", field.2)

/-- The instant of an aware datetime. -/
def Moment.instant (moment : Moment) : Option Datetime := moment.offset.bind (toUtc moment.wall)

/-- What Postgres returns for the values of a row: a time is returned in the zone of the
session, and every other value as it is. -/
structure ReadBack (values row : List (Text × StoredValue)) : Prop where
  time : ∀ key moment instant, values.lookup key = some (.datetime moment) →
    Moment.instant moment = some instant →
      ∃ returned, row.lookup key = some (.datetime returned) ∧
        Moment.instant returned = some instant
  same : ∀ key value, values.lookup key = some value → (∀ moment, value ≠ .datetime moment) →
    row.lookup key = some value

/-! ## The reader -/

/-- `CheckpointStoreError` with its message, and the error of a time beyond the calendar. -/
inductive CheckpointStoreError where
  | refused (message : Text)
  | overflow
  deriving DecidableEq

section Reader

variable (target : Text)

/-- An error that names the target. -/
def storeError {α : Type} (what : String) : Except CheckpointStoreError α :=
  .error (.refused (chars (what ++ " for target '") ++ (target ++ chars "'")))

def invalidCheckpoint {α : Type} : Except CheckpointStoreError α :=
  storeError target "Invalid checkpoint stored"

variable (fields : List (Text × StoredValue))

/-- `_stored_string` -/
def storedString (name : Text) (allowEmpty : Bool) : Except CheckpointStoreError Text :=
  match fields.lookup name with
  | some (.text value) =>
    if value = [] ∧ allowEmpty = false then invalidCheckpoint target else .ok value
  | _ => invalidCheckpoint target

/-- `_stored_int` -/
def storedInt (name : Text) (minimum : ℤ) : Except CheckpointStoreError ℤ :=
  match fields.lookup name with
  | some (.int value) => if value < minimum then invalidCheckpoint target else .ok value
  | _ => invalidCheckpoint target

/-- The check of a flag. -/
def storedBool (name : Text) : Except CheckpointStoreError Bool :=
  match fields.lookup name with
  | some (.bool value) => .ok value
  | _ => invalidCheckpoint target

/-- The text of an instant. -/
def timestampText (moment : Moment) : Except CheckpointStoreError Text :=
  match moment.offset with
  | none => invalidCheckpoint target
  | some offset =>
    match toUtc moment.wall offset with
    | none => .error .overflow
    | some instant => .ok instant.isoformat

/-- `_stored_timestamp` -/
def storedTimestamp (name : Text) : Except CheckpointStoreError Text :=
  match fields.lookup name with
  | some (.datetime moment) => timestampText target moment
  | some (.text value) =>
    match fromisoformat otherFormats value with
    | some moment => timestampText target moment
    | none => invalidCheckpoint target
  | _ => invalidCheckpoint target

/-- The fields of a stored checkpoint, in the order in which they are checked. -/
def readFields : Except CheckpointStoreError TargetCheckpoint := do
  let sequence ← storedInt target fields (chars "sequence") 1
  let documentVersion ← storedInt target fields (chars "document_version") 1
  let appliedAtMs ← storedInt target fields (chars "applied_at_ms") 0
  let routingRevision ← storedInt target fields (chars "routing_revision") 1
  let tombstone ← storedBool target fields (chars "tombstone")
  let identityKey ← storedString target fields (chars "identity_key") false
  let tenantId ← storedString target fields (chars "tenant_id") false
  let collection ← storedString target fields (chars "collection") false
  let documentId ← storedString target fields (chars "document_id") false
  let targetCluster ← storedString target fields (chars "target_cluster") false
  let operation ← storedString target fields (chars "operation") false
  let eventId ← storedString target fields (chars "event_id") false
  let eventDigest ← storedString target fields (chars "event_digest") false
  let occurredAt ← storedTimestamp otherFormats target fields (chars "occurred_at")
  let rolloutId ← storedString target fields (chars "rollout_id") true
  .ok
    { identityKey, tenantId, collection, documentId, targetCluster, sequence, documentVersion,
      operation, eventId, eventDigest, occurredAt, appliedAtMs, tombstone, routingRevision,
      rolloutId }

/-- What a checkpoint says it is about. -/
def HasIdentity (checkpoint : TargetCheckpoint) (identity : EventIdentity table) (target : Text) :
    Prop :=
  checkpoint.identityKey = identity.logicalKey ∧ checkpoint.tenantId = identity.tenantId.text ∧
    checkpoint.collection = identity.collection.text ∧
      checkpoint.documentId = identity.documentId.text ∧ checkpoint.targetCluster = target

instance (checkpoint : TargetCheckpoint) (identity : EventIdentity table) (target : Text) :
    Decidable (HasIdentity checkpoint identity target) := inferInstanceAs (Decidable (_ ∧ _))

/-- The checks of the fields against the event and each other. -/
def checkCheckpoint (identity : EventIdentity table) (checkpoint : TargetCheckpoint) :
    Except CheckpointStoreError TargetCheckpoint :=
  if ¬HasIdentity checkpoint identity target then storeError target "Checkpoint identity mismatch"
  else if (operationOf checkpoint.operation).isNone then
    storeError target "Invalid checkpoint operation"
  else if checkpoint.tombstone ≠ isRemoval checkpoint.operation then
    storeError target "Checkpoint tombstone mismatch"
  else if ¬eventIdPattern.fullmatch checkpoint.eventId then
    storeError target "Invalid checkpoint event ID"
  else if ¬isSha256 checkpoint.eventDigest then storeError target "Invalid checkpoint digest"
  else if checkpoint.rolloutId ≠ [] ∧ ¬namePattern.fullmatch checkpoint.rolloutId then
    storeError target "Invalid checkpoint rollout ID"
  else .ok checkpoint

/-- `checkpoint_from_document` -/
def checkpointFromDocument (document : StoredDocument) (event : IndexingEventV2 table F) :
    Except CheckpointStoreError TargetCheckpoint :=
  match document with
  | .other => invalidCheckpoint target
  | .mapping fields => do
    let checkpoint ← readFields otherFormats target fields
    checkCheckpoint target event.identity checkpoint

end Reader

/-! ## What is taken -/

/-- The fields of a mapping that identify an event and a target, and say what was done. -/
structure Matching (fields : List (Text × StoredValue)) (identity : EventIdentity table)
    (target : Text) : Prop where
  identityKey : fields.lookup (chars "identity_key") = some (.text identity.logicalKey)
  tenantId : fields.lookup (chars "tenant_id") = some (.text identity.tenantId.text)
  collection : fields.lookup (chars "collection") = some (.text identity.collection.text)
  documentId : fields.lookup (chars "document_id") = some (.text identity.documentId.text)
  targetCluster : fields.lookup (chars "target_cluster") = some (.text target)
  operation : ∃ operation, fields.lookup (chars "operation") = some (.text (operationText operation)) ∧
    fields.lookup (chars "tombstone") = some (.bool (operation ≠ .upsert))

theorem storedString_eq_ok {target : Text} {fields : List (Text × StoredValue)} {name value : Text}
    {allowEmpty : Bool} :
    storedString target fields name allowEmpty = .ok value ↔
      fields.lookup name = some (.text value) ∧ (value = [] → allowEmpty = true) := by
  unfold storedString
  split
  next stored found =>
    rw [found]
    split
    next refused =>
      refine iff_of_false nofun ?_
      rintro ⟨same, allowed⟩
      obtain rfl := StoredValue.text.inj (Option.some.inj same)
      rw [allowed refused.1] at refused
      exact absurd refused.2 (by simp)
    next accepted =>
      constructor
      · intro same
        obtain rfl := Except.ok.inj same
        exact ⟨rfl, fun empty => by simpa using fun refused => accepted ⟨empty, refused⟩⟩
      · rintro ⟨same, -⟩
        obtain rfl := StoredValue.text.inj (Option.some.inj same)
        rfl
  next other =>
    exact iff_of_false nofun fun found => other value found.1

theorem storedInt_eq_ok {target : Text} {fields : List (Text × StoredValue)} {name : Text}
    {minimum value : ℤ} :
    storedInt target fields name minimum = .ok value ↔
      fields.lookup name = some (.int value) ∧ minimum ≤ value := by
  unfold storedInt
  split
  next stored found =>
    rw [found]
    split
    next refused =>
      refine iff_of_false nofun ?_
      rintro ⟨same, bounded⟩
      obtain rfl := StoredValue.int.inj (Option.some.inj same)
      omega
    next accepted =>
      constructor
      · intro same
        obtain rfl := Except.ok.inj same
        exact ⟨rfl, not_lt.mp accepted⟩
      · rintro ⟨same, -⟩
        obtain rfl := StoredValue.int.inj (Option.some.inj same)
        rfl
  next other => exact iff_of_false nofun fun found => other value found.1

theorem storedBool_eq_ok {target : Text} {fields : List (Text × StoredValue)} {name : Text}
    {value : Bool} :
    storedBool target fields name = .ok value ↔ fields.lookup name = some (.bool value) := by
  unfold storedBool
  split
  next stored found =>
    rw [found]
    constructor
    · intro same
      rw [Except.ok.inj same]
    · intro same
      rw [StoredValue.bool.inj (Option.some.inj same)]
  next other => exact iff_of_false nofun fun found => other value found

/-- **A checkpoint that passes** is about the event and the target. -/
theorem checkCheckpoint_eq_ok {target : Text} {identity : EventIdentity table}
    {checkpoint result : TargetCheckpoint} :
    checkCheckpoint target identity checkpoint = .ok result ↔
      result = checkpoint ∧ HasIdentity checkpoint identity target ∧
        (operationOf checkpoint.operation).isSome = true ∧
        checkpoint.tombstone = isRemoval checkpoint.operation ∧
        eventIdPattern.fullmatch checkpoint.eventId = true ∧
        isSha256 checkpoint.eventDigest = true ∧
        (checkpoint.rolloutId = [] ∨ namePattern.fullmatch checkpoint.rolloutId = true) := by
  unfold checkCheckpoint storeError
  simp only [ite_error_eq_ok, not_not, Except.ok.injEq, Option.isNone_iff_eq_none, ne_eq,
    not_and_or, ← Option.isSome_iff_ne_none, eq_comm (a := checkpoint)]
  tauto

theorem isRemoval_operationText (operation : Operation) :
    isRemoval (operationText operation) = decide (operation ≠ .upsert) := by
  cases operation with
  | upsert => decide
  | delete => decide
  | tombstone => decide

theorem operationOf_operationText (operation : Operation) :
    operationOf (operationText operation) = some operation := by
  cases operation with
  | upsert => decide
  | delete => decide
  | tombstone => decide

/-- **Only a matching checkpoint is taken.** -/
theorem matching_of_ok {otherFormats : Text → Option Moment} {target : Text}
    {fields : List (Text × StoredValue)} {event : IndexingEventV2 table F}
    {checkpoint : TargetCheckpoint}
    (taken : checkpointFromDocument otherFormats target (.mapping fields) event = .ok checkpoint) :
    Matching fields event.identity target := by
  obtain ⟨read, done, checked⟩ := except_bind_eq_ok.mp taken
  obtain ⟨-, ⟨identityKey, tenantId, collection, documentId, targetCluster⟩, known, removal, -⟩ :=
    checkCheckpoint_eq_ok.mp checked
  obtain ⟨operation, named⟩ := Option.isSome_iff_exists.mp known
  have word : operationText operation = read.operation := by
    simpa using List.find?_some named
  unfold readFields at done
  simp only [except_bind_eq_ok, storedString_eq_ok, storedInt_eq_ok, storedBool_eq_ok] at done
  obtain ⟨_, -, _, -, _, -, _, -, tombstone, flag, identity, identityText, tenant, tenantText,
    collected, collectionText, document, documentText, cluster, targetText, done, operationFound,
    _, -, _, -, _, -, _, -, same⟩ := done
  obtain rfl := Except.ok.inj same
  simp only at identityKey tenantId collection documentId targetCluster word removal
  subst identityKey tenantId collection documentId targetCluster word removal
  refine ⟨identityText.1, tenantText.1, collectionText.1, documentText.1, targetText.1, operation,
    operationFound.1, ?_⟩
  rw [flag, isRemoval_operationText]

/-! ## The round trip -/

/-- The mapping holds the fields of the checkpoint. -/
structure Holds (otherFormats : Text → Option Moment) (target : Text)
    (fields : List (Text × StoredValue)) (checkpoint : TargetCheckpoint) : Prop where
  identityKey : fields.lookup (chars "identity_key") = some (.text checkpoint.identityKey)
  tenantId : fields.lookup (chars "tenant_id") = some (.text checkpoint.tenantId)
  collection : fields.lookup (chars "collection") = some (.text checkpoint.collection)
  documentId : fields.lookup (chars "document_id") = some (.text checkpoint.documentId)
  targetCluster : fields.lookup (chars "target_cluster") = some (.text checkpoint.targetCluster)
  sequence : fields.lookup (chars "sequence") = some (.int checkpoint.sequence)
  documentVersion :
    fields.lookup (chars "document_version") = some (.int checkpoint.documentVersion)
  operation : fields.lookup (chars "operation") = some (.text checkpoint.operation)
  eventId : fields.lookup (chars "event_id") = some (.text checkpoint.eventId)
  eventDigest : fields.lookup (chars "event_digest") = some (.text checkpoint.eventDigest)
  occurredAt : storedTimestamp otherFormats target fields (chars "occurred_at") =
    .ok checkpoint.occurredAt
  appliedAtMs : fields.lookup (chars "applied_at_ms") = some (.int checkpoint.appliedAtMs)
  tombstone : fields.lookup (chars "tombstone") = some (.bool checkpoint.tombstone)
  routingRevision :
    fields.lookup (chars "routing_revision") = some (.int checkpoint.routingRevision)
  rolloutId : fields.lookup (chars "rollout_id") = some (.text checkpoint.rolloutId)

theorem Identifier.ne_nil {pattern : NamePattern} (positive : 0 < pattern.shortest)
    (identifier : Identifier pattern) : identifier.text ≠ [] := by
  intro empty
  have matched := identifier.matched
  unfold NamePattern.fullmatch at matched
  simp only [empty, List.length_nil, Bool.and_eq_true, decide_eq_true_eq] at matched
  omega

theorem EventIdentity.logicalKey_ne_nil (identity : EventIdentity table) :
    identity.logicalKey ≠ [] := by
  obtain ⟨c, rest, tenant⟩ := List.exists_cons_of_ne_nil identity.tenantId.length_pos
  unfold EventIdentity.logicalKey
  simp [List.intercalate, tenant]

variable [PyFloat F]

/-- **A mapping with the fields of an event's checkpoint** is read as that checkpoint, for
every event of the same identity. -/
theorem checkpointFromDocument_of_holds {otherFormats : Text → Option Moment} {sha256 : Sha256}
    {event other : IndexingEventV2 table F} {target : Text} {appliedAt : Datetime}
    {checkpoint : TargetCheckpoint} {fields : List (Text × StoredValue)} (named : target ≠ [])
    (after : 0 ≤ appliedAt.sinceEpoch)
    (built : checkpointFromEvent sha256.hexdigest event target appliedAt = some checkpoint)
    (same : other.identity = event.identity) (holds : Holds otherFormats target fields checkpoint) :
    checkpointFromDocument otherFormats target (.mapping fields) other = .ok checkpoint := by
  obtain ⟨digest, digested, rfl⟩ := Option.map_eq_some_iff.mp built
  have shape : isSha256 digest = true := by
    obtain ⟨text, -, hashed⟩ := Option.bind_eq_some_iff.mp digested
    obtain ⟨bytes, -, rfl⟩ := Option.map_eq_some_iff.mp hashed
    exact sha256.shape bytes
  have filled : digest ≠ [] := by
    rintro rfl
    cases shape
  have operation : operationText event.operation ≠ [] := by
    cases event.operation with
    | upsert => decide
    | delete => decide
    | tombstone => decide
  refine except_bind_eq_ok.mpr ⟨_, ?_, checkCheckpoint_eq_ok.mpr ⟨rfl, ?_⟩⟩
  · unfold readFields
    simp only [except_bind_eq_ok, storedString_eq_ok, storedInt_eq_ok, storedBool_eq_ok]
    exact ⟨_, ⟨holds.sequence, event.sequence.bounds.1⟩,
      _, ⟨holds.documentVersion, event.documentVersion.bounds.1⟩,
      _, ⟨holds.appliedAtMs, milliseconds_nonneg after⟩,
      _, ⟨holds.routingRevision, event.routingRevision.bounds.1⟩,
      _, holds.tombstone,
      _, ⟨holds.identityKey, fun empty => absurd empty event.identity.logicalKey_ne_nil⟩,
      _, ⟨holds.tenantId, fun empty => absurd empty event.identity.tenantId.length_pos⟩,
      _, ⟨holds.collection,
        fun empty => absurd empty (event.identity.collection.ne_nil Nat.one_pos)⟩,
      _, ⟨holds.documentId,
        fun empty => absurd empty (event.identity.documentId.ne_nil Nat.one_pos)⟩,
      _, ⟨holds.targetCluster, fun empty => absurd empty named⟩,
      _, ⟨holds.operation, fun empty => absurd empty operation⟩,
      _, ⟨holds.eventId, fun empty => absurd empty (event.eventId.ne_nil (by decide))⟩,
      _, ⟨holds.eventDigest, fun empty => absurd empty filled⟩,
      _, holds.occurredAt, _, ⟨holds.rolloutId, fun _ => trivial⟩, rfl⟩
  · rw [same]
    refine ⟨⟨rfl, rfl, rfl, rfl, rfl⟩, ?_, rfl, event.eventId.matched, shape, ?_⟩
    · exact Option.isSome_iff_exists.mpr ⟨_, operationOf_operationText event.operation⟩
    · cases event.rolloutId with
      | none => exact Or.inl rfl
      | some rolloutId => exact Or.inr rolloutId.matched

/-- The key of a row is defined: an identity and a target can be encoded. -/
theorem exists_checkpointDocumentId (sha256 : Sha256) {event : IndexingEventV2 table F}
    {target : Text} {appliedAt : Datetime} {checkpoint : TargetCheckpoint}
    (named : target ∈ event.targetClusters.map Identifier.text)
    (built : checkpointFromEvent sha256.hexdigest event target appliedAt = some checkpoint) :
    ∃ documentId, checkpointDocumentId sha256 checkpoint = some documentId := by
  obtain ⟨digest, -, rfl⟩ := Option.map_eq_some_iff.mp built
  obtain ⟨cluster, -, rfl⟩ := List.mem_map.mp named
  have scalar : IsScalarText (event.identity.logicalKey ++ 31 :: cluster.text) := by
    intro c member
    have unit : IsScalar 31 := Or.inl (by decide)
    unfold EventIdentity.logicalKey at member
    simp only [List.intercalate, List.intersperse, List.flatten_cons, List.flatten_nil,
      List.append_nil, List.mem_append, List.mem_cons, List.not_mem_nil, or_false] at member
    rcases member with (tenant | rfl | collection | rfl | document) | rfl | target
    · exact event.identity.tenantId.scalar c tenant
    · exact unit
    · exact event.identity.collection.scalar namePattern_ascii c collection
    · exact unit
    · exact event.identity.documentId.scalar documentIdPattern_ascii c document
    · exact unit
    · exact cluster.scalar namePattern_ascii c target
  obtain ⟨bytes, encoded⟩ := Option.ne_none_iff_exists'.mp (utf8Encode_isSome.mpr scalar)
  exact ⟨sha256.hexdigest bytes, by
    unfold checkpointDocumentId digestOf
    rw [encoded]
    rfl⟩

theorem instant_utc (t : Datetime) : Moment.instant ⟨t, some 0⟩ = some t := by
  unfold Moment.instant
  rw [Option.bind_some, toUtc_zero]

theorem timestampText_of_instant {target : Text} {moment : Moment} {instant : Datetime}
    (same : Moment.instant moment = some instant) :
    timestampText target moment = .ok instant.isoformat := by
  obtain ⟨offset, aware, shifted⟩ := Option.bind_eq_some_iff.mp same
  unfold timestampText
  rw [aware]
  simp only [shifted]

theorem storedTimestamp_of_datetime {otherFormats : Text → Option Moment} {target name : Text}
    {fields : List (Text × StoredValue)} {moment : Moment} {instant : Datetime}
    (found : fields.lookup name = some (.datetime moment))
    (same : Moment.instant moment = some instant) :
    storedTimestamp otherFormats target fields name = .ok instant.isoformat := by
  unfold storedTimestamp
  rw [found]
  exact timestampText_of_instant same

theorem storedTimestamp_of_text {otherFormats : Text → Option Moment} {target name : Text}
    {fields : List (Text × StoredValue)} {instant : Datetime}
    (found : fields.lookup name = some (.text instant.isoformat)) :
    storedTimestamp otherFormats target fields name = .ok instant.isoformat := by
  unfold storedTimestamp
  rw [found]
  simp only [fromisoformat_isoformat]
  exact timestampText_of_instant (instant_utc instant)

/-- The names of the fields of a document. -/
def checkpointKeys : List Text :=
  [chars "id", chars "identity_key", chars "tenant_id", chars "collection", chars "document_id",
    chars "target_cluster", chars "sequence", chars "document_version", chars "operation",
    chars "event_id", chars "event_digest", chars "occurred_at", chars "applied_at_ms",
    chars "tombstone", chars "routing_revision", chars "rollout_id"]

theorem checkpointKeys_nodup : checkpointKeys.Nodup := by decide

theorem occurredAt_ne_id : chars "occurred_at" ≠ chars "id" := by decide

theorem rowKeys_nodup :
    ((checkpointKeys.filter fun key => key ≠ chars "id") ++
      (checkpointKeys.filter fun key => key = chars "id").map fun _ => chars "checkpoint_key").Nodup := by
  decide

/-- The fields of a document, and which of them Postgres keeps as they are. -/
theorem checkpointDocument_spec {sha256 : Sha256} {checkpoint : TargetCheckpoint}
    {document : List (Text × StoredValue)}
    (stored : checkpointDocument sha256 checkpoint = some document) :
    document.map Prod.fst = checkpointKeys ∧
      (chars "occurred_at", .text checkpoint.occurredAt) ∈ document ∧
      ∀ field ∈ document, ∀ moment, field.2 ≠ .datetime moment := by
  obtain ⟨documentId, -, rfl⟩ := Option.map_eq_some_iff.mp stored
  refine ⟨rfl, List.mem_of_getElem? (i := 11) rfl, ?_⟩
  simp

/-- **The fields are held** where every field of the document but the time is found. -/
theorem holds_of_lookup {otherFormats : Text → Option Moment} {sha256 : Sha256} {target : Text}
    {checkpoint : TargetCheckpoint} {document fields : List (Text × StoredValue)}
    (stored : checkpointDocument sha256 checkpoint = some document)
    (same : ∀ key value, (key, value) ∈ document → key ≠ chars "id" →
      key ≠ chars "occurred_at" → fields.lookup key = some value)
    (time : storedTimestamp otherFormats target fields (chars "occurred_at") =
      .ok checkpoint.occurredAt) :
    Holds otherFormats target fields checkpoint := by
  obtain ⟨documentId, -, rfl⟩ := Option.map_eq_some_iff.mp stored
  exact
    { identityKey := same _ _ (List.mem_of_getElem? (i := 1) rfl) (by decide) (by decide)
      tenantId := same _ _ (List.mem_of_getElem? (i := 2) rfl) (by decide) (by decide)
      collection := same _ _ (List.mem_of_getElem? (i := 3) rfl) (by decide) (by decide)
      documentId := same _ _ (List.mem_of_getElem? (i := 4) rfl) (by decide) (by decide)
      targetCluster := same _ _ (List.mem_of_getElem? (i := 5) rfl) (by decide) (by decide)
      sequence := same _ _ (List.mem_of_getElem? (i := 6) rfl) (by decide) (by decide)
      documentVersion := same _ _ (List.mem_of_getElem? (i := 7) rfl) (by decide) (by decide)
      operation := same _ _ (List.mem_of_getElem? (i := 8) rfl) (by decide) (by decide)
      eventId := same _ _ (List.mem_of_getElem? (i := 9) rfl) (by decide) (by decide)
      eventDigest := same _ _ (List.mem_of_getElem? (i := 10) rfl) (by decide) (by decide)
      occurredAt := time
      appliedAtMs := same _ _ (List.mem_of_getElem? (i := 12) rfl) (by decide) (by decide)
      tombstone := same _ _ (List.mem_of_getElem? (i := 13) rfl) (by decide) (by decide)
      routingRevision := same _ _ (List.mem_of_getElem? (i := 14) rfl) (by decide) (by decide)
      rolloutId := same _ _ (List.mem_of_getElem? (i := 15) rfl) (by decide) (by decide) }

/-- The document of a checkpoint holds its fields. -/
theorem holds_checkpointDocument {otherFormats : Text → Option Moment} {sha256 : Sha256}
    {event : IndexingEventV2 table F} {target : Text} {appliedAt : Datetime}
    {checkpoint : TargetCheckpoint} {document : List (Text × StoredValue)}
    (built : checkpointFromEvent sha256.hexdigest event target appliedAt = some checkpoint)
    (stored : checkpointDocument sha256 checkpoint = some document) :
    Holds otherFormats target document checkpoint := by
  obtain ⟨keys, time, -⟩ := checkpointDocument_spec stored
  have distinct : (document.map Prod.fst).Nodup := by
    rw [keys]
    exact checkpointKeys_nodup
  refine holds_of_lookup stored (fun key value member _ _ =>
    (lookup_eq_some_iff_mem distinct).mpr member) ?_
  obtain ⟨digest, -, rfl⟩ := Option.map_eq_some_iff.mp built
  exact storedTimestamp_of_text ((lookup_eq_some_iff_mem distinct).mpr time)

/-- The columns of a row are distinct, and its key is the id of the document. -/
theorem postgresCheckpointValues_spec {otherFormats : Text → Option Moment} {sha256 : Sha256}
    {checkpoint : TargetCheckpoint} {values : List (Text × StoredValue)}
    (stored : postgresCheckpointValues otherFormats sha256 checkpoint = some values) :
    (values.map Prod.fst).Nodup ∧ ∃ documentId,
      checkpointDocumentId sha256 checkpoint = some documentId ∧
        (chars "checkpoint_key", .text documentId) ∈ values := by
  obtain ⟨document, documented, stored⟩ := Option.bind_eq_some_iff.mp stored
  obtain ⟨moment, -, rfl⟩ := Option.map_eq_some_iff.mp stored
  obtain ⟨keys, -, -⟩ := checkpointDocument_spec documented
  constructor
  · have kept : ((document.filter fun field => field.1 ≠ chars "id").map (fun field =>
        if field.1 = chars "occurred_at" then (field.1, .datetime moment) else field) ++
        (document.filter fun field => field.1 = chars "id").map fun field =>
          (chars "checkpoint_key", field.2)).map Prod.fst =
        (checkpointKeys.filter fun key => key ≠ chars "id") ++
          (checkpointKeys.filter fun key => key = chars "id").map fun _ => chars "checkpoint_key" := by
      rw [← keys, List.filter_map, List.filter_map, List.map_append, List.map_map,
        List.map_map, List.map_map]
      congr 1
      refine List.map_congr_left fun field _ => ?_
      simp only [Function.comp_apply]
      split <;> rfl
    rw [kept]
    exact rowKeys_nodup
  · obtain ⟨documentId, keyed, rfl⟩ := Option.map_eq_some_iff.mp documented
    refine ⟨documentId, keyed, List.mem_append_right _ (List.mem_map.mpr
      ⟨(chars "id", .text documentId), List.mem_filter.mpr ⟨List.mem_cons_self, ?_⟩, rfl⟩)⟩
    exact decide_eq_true rfl

/-- What Postgres returns for a checkpoint holds its fields. -/
theorem holds_postgresCheckpointValues {otherFormats : Text → Option Moment} {sha256 : Sha256}
    {event : IndexingEventV2 table F} {target : Text} {appliedAt : Datetime}
    {checkpoint : TargetCheckpoint} {values row : List (Text × StoredValue)}
    (built : checkpointFromEvent sha256.hexdigest event target appliedAt = some checkpoint)
    (stored : postgresCheckpointValues otherFormats sha256 checkpoint = some values)
    (returned : ReadBack values row) : Holds otherFormats target row checkpoint := by
  have distinct := (postgresCheckpointValues_spec stored).1
  obtain ⟨document, documented, stored⟩ := Option.bind_eq_some_iff.mp stored
  obtain ⟨moment, parsed, rfl⟩ := Option.map_eq_some_iff.mp stored
  obtain ⟨keys, time, texts⟩ := checkpointDocument_spec documented
  set values := (document.filter fun field => field.1 ≠ chars "id").map (fun field =>
      if field.1 = chars "occurred_at" then (field.1, .datetime moment) else field) ++
    (document.filter fun field => field.1 = chars "id").map fun field =>
      (chars "checkpoint_key", field.2) with row_values
  -- every field but the time comes back as it is
  have same : ∀ key value, (key, value) ∈ document → key ≠ chars "id" →
      key ≠ chars "occurred_at" → row.lookup key = some value := by
    intro key value member named timeless
    refine returned.same key value ((lookup_eq_some_iff_mem distinct).mpr ?_)
      (texts (key, value) member)
    refine List.mem_append_left _ (List.mem_map.mpr ⟨(key, value), List.mem_filter.mpr ⟨member, ?_⟩, ?_⟩)
    · exact decide_eq_true named
    · rw [if_neg timeless]
  refine holds_of_lookup documented same ?_
  obtain ⟨digest, -, rfl⟩ := Option.map_eq_some_iff.mp built
  obtain rfl := Option.some.inj ((fromisoformat_isoformat otherFormats event.occurredAt).symm.trans
    parsed)
  have written : values.lookup (chars "occurred_at") =
      some (.datetime ⟨event.occurredAt, some 0⟩) :=
    (lookup_eq_some_iff_mem distinct).mpr (List.mem_append_left _ (List.mem_map.mpr
      ⟨_, List.mem_filter.mpr ⟨time, decide_eq_true occurredAt_ne_id⟩, if_pos rfl⟩))
  obtain ⟨shown, found, instant⟩ := returned.time _ _ _ written (instant_utc event.occurredAt)
  exact storedTimestamp_of_datetime found instant

/-- **A stored checkpoint is read back.** The checkpoint of an accepted event and a target
of it, at a time from the epoch on, is stored, and what is stored of it, the document or
the row, is read as the checkpoint for every event of the same identity. What does not
match the identity, the target, and the operation is refused. -/
theorem checkpoint_round_trip (sha256 : Sha256) :
    (∀ (allowLegacy : Bool) (payload : JsonValue F) (event : IndexingEventV2 table F),
      parseIndexingEvent table otherFormats allowLegacy payload = .ok (.v2 event) →
      ∀ target ∈ event.targetClusters.map Identifier.text,
      ∀ appliedAt : Datetime, 0 ≤ appliedAt.sinceEpoch →
      ∀ checkpoint, checkpointFromEvent sha256.hexdigest event target appliedAt = some checkpoint →
      ∀ other : IndexingEventV2 table F, other.identity = event.identity →
        (∃ document, checkpointDocument sha256 checkpoint = some document ∧
          checkpointFromDocument otherFormats target (.mapping document) other =
            .ok checkpoint) ∧
        ∃ values, postgresCheckpointValues otherFormats sha256 checkpoint = some values ∧
          ∀ row, ReadBack values row →
            checkpointFromDocument otherFormats target (.mapping row) other = .ok checkpoint) ∧
    ∀ (document : StoredDocument) (event : IndexingEventV2 table F) (target : Text),
      (∀ fields, document = .mapping fields → ¬Matching fields event.identity target) →
        ∃ error, checkpointFromDocument otherFormats target document event = .error error := by
  constructor
  · intro allowLegacy payload event _ target named appliedAt after checkpoint built other same
    obtain ⟨documentId, keyed⟩ := exists_checkpointDocumentId sha256 named built
    have filled : target ≠ [] := by
      obtain ⟨cluster, -, rfl⟩ := List.mem_map.mp named
      exact cluster.ne_nil Nat.one_pos
    have stored : checkpointDocument sha256 checkpoint = some _ :=
      Option.map_eq_some_iff.mpr ⟨documentId, keyed, rfl⟩
    refine ⟨⟨_, stored, ?_⟩, ?_⟩
    · exact checkpointFromDocument_of_holds filled after built same
        (holds_checkpointDocument built stored)
    · have parsed : fromisoformat otherFormats checkpoint.occurredAt =
          some ⟨event.occurredAt, some 0⟩ := by
        obtain ⟨digest, -, rfl⟩ := Option.map_eq_some_iff.mp built
        exact fromisoformat_isoformat otherFormats event.occurredAt
      have written : postgresCheckpointValues otherFormats sha256 checkpoint = some _ :=
        Option.bind_eq_some_iff.mpr ⟨_, stored, Option.map_eq_some_iff.mpr ⟨_, parsed, rfl⟩⟩
      exact ⟨_, written, fun row returned => checkpointFromDocument_of_holds filled after built same
        (holds_postgresCheckpointValues built written returned)⟩
  · intro document event target differs
    cases outcome : checkpointFromDocument otherFormats target document event with
    | error error => exact ⟨error, rfl⟩
    | ok checkpoint =>
      cases document with
      | other => cases outcome
      | mapping fields => exact absurd (matching_of_ok outcome) (differs fields rfl)

/-- SHA-256 on the two texts that are hashed for a note, which differ in length. -/
def noteSha256 : Sha256 where
  hexdigest bytes :=
    if bytes.length = 21 then
      ["dc34f732", "3159a4f9", "ce64dedb", "756402da", "bc3133d6", "391b71be", "136ab122",
        "0e1e2f7a"].flatMap chars
    else
      ["b3f96b90", "4d0f9c7f", "c0470ca3", "0fe72192", "0a7588c0", "25e6748a", "be89ba5c",
        "02daad4a"].flatMap chars
  shape bytes := by
    split
    · decide +kernel
    · decide +kernel

/-- Every string and every key of the document is ASCII. -/
def IndexingEventV2.isPlain (event : IndexingEventV2 table F) : Bool :=
  event.document.all fun document => document.value.json.parts.all fun part =>
    match part with
    | .text text => text.all (· < 128)
    | _ => true

omit [PyFloat F] in
theorem encodable_of_isPlain {event : IndexingEventV2 table F} (plain : event.isPlain = true) :
    event.Encodable := by
  intro document held text part
  unfold IndexingEventV2.isPlain at plain
  rw [Option.mem_def.mp held, Option.all_some, List.all_eq_true] at plain
  exact isScalarText_of_ascii fun c member => by
    simpa using List.all_eq_true.mp (plain _ part) c member

theorem checkpoint_round_trip_note :
    ∃ (event : IndexingEventV2 asciiTable SampleFloat) (checkpoint : TargetCheckpoint),
      parsedEvent (noteValue "hello") = some event ∧
      checkpointFromEvent noteSha256.hexdigest event (chars "default") event.occurredAt =
        some checkpoint ∧
      ∃ document, checkpointDocument noteSha256 checkpoint = some document ∧
        checkpointFromDocument (fun _ => none) (chars "default") (.mapping document) event =
          .ok checkpoint := by
  have shown : (parsedEvent (noteValue "hello")).map (fun event =>
      decide (chars "default" ∈ event.targetClusters.map Identifier.text ∧
        0 ≤ event.occurredAt.sinceEpoch) && event.isPlain) = some true := by decide +kernel
  obtain ⟨event, parsed, holds⟩ := Option.map_eq_some_iff.mp shown
  obtain ⟨⟨named, after⟩, plain⟩ := by simpa only [Bool.and_eq_true, decide_eq_true_eq] using holds
  obtain ⟨payload, -, accepted⟩ := accepted_of_parsedEvent parsed
  have defined : indexingEventDigest noteSha256.hexdigest event ≠ none :=
    (digest_ne_none event).mpr (encodable_of_isPlain plain)
  obtain ⟨digest, digested⟩ := Option.ne_none_iff_exists'.mp defined
  have built : checkpointFromEvent noteSha256.hexdigest event (chars "default") event.occurredAt =
      some _ := Option.map_eq_some_iff.mpr ⟨digest, digested, rfl⟩
  exact ⟨event, _, parsed, built,
    ((checkpoint_round_trip (fun _ => none) noteSha256).1 false payload event accepted _ named
      event.occurredAt after _ built event rfl).1⟩

end ImposbroSearch.Indexing.EventEnvelope
