import ImposbroSearch.Publishing.Repair

/-!
# The tables of the Postgres event store

Three tables: the head of each identity with its last sequence, the outbox with one
row for each event, and the deletion ledger with the last tombstone of each
identity. One event is one insertion: its head moves on by one, its row is added,
and if it is a deletion its tombstone is registered.

Counters are taken to stay within their columns. The logical key stands for its
hash, and the joined text for the hash of an idempotency key.
-/

namespace ImposbroSearch.Publishing

open ImposbroSearch.Indexing

variable {Doc : Type}

/-- `IndexingEventDraft` -/
structure TracedDraft (Doc : Type) extends IndexingEventDraft Doc where
  trace : List (String × String) := []

/-- `LatestRepairDraft` -/
structure TracedRepair extends LatestRepairDraft where
  trace : List (String × String) := []

/-- The v2 envelope with its diagnostic fields. -/
structure EventPayload (Doc : Type) where
  event : IndexingEventV2 Doc
  occurredAt : ℕ
  trace : List (String × String)

/-- `build_event_payload` for the sequence after `last`. -/
def buildEventPayload (draft : TracedDraft Doc) (eventId : String) (last occurredAt : ℕ) :
    EventPayload Doc where
  event :=
    { eventId
      identity := draft.identity
      documentVersion := last + 1
      sequence := last + 1
      mutation := draft.mutation
      routingRevision := draft.routingRevision
      rolloutId := draft.rolloutId
      targetClusters := draft.targetClusters
      documentVersion_pos := Nat.succ_pos _
      sequence_pos := Nat.succ_pos _
      targets_ne := draft.targets_ne
      targets_nodup := draft.targets_nodup }
  occurredAt
  trace := draft.trace

/-- A row of `indexing_event_heads`. -/
structure IndexingEventHead where
  identity : EventIdentity
  lastSequence : ℕ
  deriving DecidableEq, Repr

/-- A row of `indexing_event_outbox`. -/
structure EventRow (Doc : Type) where
  eventId : String
  globalPosition : ℕ
  idempotencyKeyHash : String
  requestDigest : RequestDigest
  identityHash : String
  sequence : ℕ
  payload : EventPayload Doc
  createdAt : ℕ
  publishedAt : Option ℕ := none
  lastError : Option String := none
  publishAttempts : ℕ := 0

/-- `PreparedIndexingEvent`, what a store returns. -/
structure StoredEvent (Doc : Type) where
  eventId : String
  sequence : ℕ
  payload : EventPayload Doc
  createdAt : ℕ
  globalPosition : ℕ
  publishedAt : Option ℕ := none
  publishAttempts : ℕ := 0
  lastError : Option String := none

/-- `PreparedIndexingEvent.identity_hash` -/
def StoredEvent.identityHash (stored : StoredEvent Doc) : String :=
  stored.payload.event.identity.logicalKey

/-- `_row_to_event` -/
def rowToEvent (row : EventRow Doc) : StoredEvent Doc where
  eventId := row.eventId
  sequence := row.sequence
  payload := row.payload
  createdAt := row.createdAt
  globalPosition := row.globalPosition
  publishedAt := row.publishedAt
  publishAttempts := row.publishAttempts
  lastError := row.lastError

/-- The digest of a draft. -/
def TracedDraft.requestDigest (canonical : Doc → String) (draft : TracedDraft Doc) :
    RequestDigest :=
  Publishing.requestDigest canonical draft.identity draft.mutation

/-- The hash of a draft's key. -/
def TracedDraft.idempotencyKeyHash (draft : TracedDraft Doc) : String :=
  indexingIdempotencyKeyHash draft.identity draft.idempotencyKey

/-- `build_latest_repair_draft` -/
def buildRepairDraft (repair : TracedRepair) (source : StoredEvent Doc) : TracedDraft Doc where
  identity := source.payload.event.identity
  mutation := source.payload.event.mutation
  targetClusters := repair.targetClusters
  routingRevision := repair.routingRevision
  rolloutId := repair.rolloutId
  idempotencyKey := repair.idempotencyKey
  targets_ne := repair.targets_ne
  targets_nodup := repair.targets_nodup
  trace := repair.trace

/-- The row of a new event. -/
def insertedRow (canonical : Doc → String) (draft : TracedDraft Doc) (eventId : String)
    (last now position : ℕ) : EventRow Doc where
  eventId
  globalPosition := position
  idempotencyKeyHash := draft.idempotencyKeyHash
  requestDigest := draft.requestDigest canonical
  identityHash := draft.identity.logicalKey
  sequence := last + 1
  payload := buildEventPayload draft eventId last now
  createdAt := now

/-- `UPDATE … SET published_at … WHERE event_id = … AND published_at IS NULL` -/
def EventRow.markPublished (eventId : String) (now : ℕ) (row : EventRow Doc) : EventRow Doc :=
  if row.eventId = eventId ∧ row.publishedAt = none then
    { row with
      publishedAt := some now
      lastError := none
      publishAttempts := row.publishAttempts + 1 }
  else row

/-- `str(error)[:4096]` -/
def truncatedError (error : String) : String := String.ofList (error.toList.take 4096)

/-- `UPDATE … SET last_error … WHERE event_id = … AND published_at IS NULL` -/
def EventRow.recordFailure (eventId error : String) (row : EventRow Doc) : EventRow Doc :=
  if row.eventId = eventId ∧ row.publishedAt = none then
    { row with
      lastError := some (truncatedError error)
      publishAttempts := row.publishAttempts + 1 }
  else row

/-- What the store keeps. A missing tombstone counts as sequence 0. -/
structure EventTables (Doc : Type) where
  heads : String → Option IndexingEventHead
  outbox : List (EventRow Doc)
  tombstones : String → ℕ

/-- Why the store refuses an operation. -/
inductive StoreError where
  | idempotencyConflict
  | sourceNotFound
  | headWithoutEvent
  | invalidWindow
  | invalidLimit
  | columnLimit
  | invalidRegistration
  | staleTombstone
  | integrity
  deriving DecidableEq, Repr

namespace EventTables

def empty : EventTables Doc := ⟨fun _ => none, [], fun _ => 0⟩

variable (tables : EventTables Doc)

/-- `_existing_for_key` -/
def existingForKey (keyHash : String) : Option (EventRow Doc) :=
  tables.outbox.find? fun row => row.idempotencyKeyHash = keyHash

/-- The last sequence of an identity, 0 before its first event. -/
def lastSequence (identityHash : String) : ℕ :=
  (tables.heads identityHash).elim 0 (·.lastSequence)

/-- The rows of an identity. -/
def rowsOf (identityHash : String) : List (EventRow Doc) :=
  tables.outbox.filter fun row => row.identityHash = identityHash

/-- `SELECT max(global_position)`, 0 when there is no row. -/
def maxPosition : ℕ := tables.outbox.foldr (fun row mark => max row.globalPosition mark) 0

/-- The row with the highest sequence. -/
def newestRow : List (EventRow Doc) → Option (EventRow Doc)
  | [] => none
  | row :: rows =>
    match newestRow rows with
    | none => some row
    | some later => if later.sequence < row.sequence then some row else some later

/-- `_ensure_head` -/
def ensureHead (identity : EventIdentity) : EventTables Doc :=
  { tables with
    heads := fun key =>
      if key = identity.logicalKey then
        some ((tables.heads key).getD { identity, lastSequence := 0 })
      else tables.heads key }

/-- The head moves on, the row is added, and a deletion registers its tombstone. -/
def insertEvent (row : EventRow Doc) : EventTables Doc where
  heads key :=
    if key = row.identityHash then
      some { ((tables.heads key).getD ⟨row.payload.event.identity, 0⟩) with
        lastSequence := row.sequence }
    else tables.heads key
  outbox := tables.outbox ++ [row]
  tombstones key :=
    if key = row.identityHash ∧ row.payload.event.mutation.operation ≠ .upsert then row.sequence
    else tables.tombstones key

/-- One update of the outbox. -/
def updateRows (update : EventRow Doc → EventRow Doc) : EventTables Doc :=
  { tables with outbox := tables.outbox.map update }

/-- `_verify_existing` -/
def verifyExisting (canonical : Doc → String) (row : EventRow Doc) (draft : TracedDraft Doc) :
    Except StoreError (StoredEvent Doc) :=
  if row.requestDigest ≠ draft.requestDigest canonical then .error .idempotencyConflict
  else .ok (rowToEvent row)

/-! ## What the tables keep -/

/-- Sequences count the events of an identity, in the order of their positions; a
key and an event id are used once; a row is stored under its own hashes; a tombstone
is no later than its head. -/
structure Sound : Prop where
  counted : ∀ identityHash, (tables.rowsOf identityHash).map EventRow.sequence =
    List.range' 1 (tables.lastSequence identityHash)
  ordered : ∀ identityHash, (tables.rowsOf identityHash).Pairwise fun first second =>
    first.globalPosition < second.globalPosition
  keys : tables.outbox.Pairwise fun first second =>
    first.idempotencyKeyHash ≠ second.idempotencyKeyHash
  named : ∀ identityHash head, tables.heads identityHash = some head →
    head.identity.logicalKey = identityHash
  hashed : ∀ row ∈ tables.outbox, row.payload.event.identity.logicalKey = row.identityHash
  buried : ∀ identityHash, tables.tombstones identityHash ≤ tables.lastSequence identityHash

variable {tables} {row : EventRow Doc} {identityHash : String}

theorem sound_empty : (empty : EventTables Doc).Sound where
  counted := by simp [empty, rowsOf, lastSequence]
  ordered := by simp [empty, rowsOf]
  keys := List.Pairwise.nil
  named := by simp [empty]
  hashed := by simp [empty]
  buried := by simp [empty]

/-- A key finds the one row stored under it. -/
theorem Sound.existingForKey (sound : tables.Sound) (stored : row ∈ tables.outbox) :
    tables.existingForKey row.idempotencyKeyHash = some row := by
  unfold EventTables.existingForKey
  cases found : tables.outbox.find? fun other =>
      other.idempotencyKeyHash = row.idempotencyKeyHash with
  | none =>
      have absent := List.find?_eq_none.mp found row stored
      simp at absent
  | some other =>
      have same : other.idempotencyKeyHash = row.idempotencyKeyHash := by
        simpa using List.find?_some found
      have member := List.mem_of_find?_eq_some found
      by_contra differs
      have symm : Std.Symm fun first second : EventRow Doc =>
          first.idempotencyKeyHash ≠ second.idempotencyKeyHash := ⟨fun _ _ h => h.symm⟩
      exact sound.keys.forall member stored (fun equal => differs (equal ▸ rfl)) same

/-- An identity with an event has a head. -/
theorem Sound.head_of_row (sound : tables.Sound) (stored : row ∈ tables.outbox) :
    tables.heads row.identityHash ≠ none := by
  intro missing
  have counted := sound.counted row.identityHash
  unfold lastSequence at counted
  rw [missing] at counted
  have member : row ∈ tables.rowsOf row.identityHash := by simp [rowsOf, stored]
  rw [List.map_eq_nil_iff.mp counted] at member
  cases member

@[simp] theorem lastSequence_insertEvent (tables : EventTables Doc) (row : EventRow Doc)
    (key : String) : (tables.insertEvent row).lastSequence key =
      if key = row.identityHash then row.sequence else tables.lastSequence key := by
  unfold lastSequence insertEvent
  simp only
  split_ifs
  · rfl
  · rfl

theorem rowsOf_insertEvent (tables : EventTables Doc) (row : EventRow Doc) (key : String) :
    (tables.insertEvent row).rowsOf key =
      if key = row.identityHash then tables.rowsOf key ++ [row] else tables.rowsOf key := by
  unfold rowsOf insertEvent
  simp only
  rw [List.filter_append]
  split_ifs with same
  · simp [same]
  · simp [Ne.symm same]

/-- **Inserting an event** with the next sequence, a later position and a new key. -/
theorem Sound.insertEvent (sound : tables.Sound)
    (next : row.sequence = tables.lastSequence row.identityHash + 1)
    (later : ∀ other ∈ tables.rowsOf row.identityHash,
      other.globalPosition < row.globalPosition)
    (fresh : ∀ other ∈ tables.outbox, other.idempotencyKeyHash ≠ row.idempotencyKeyHash)
    (hashed : row.payload.event.identity.logicalKey = row.identityHash) :
    (tables.insertEvent row).Sound where
  counted key := by
    rw [rowsOf_insertEvent, lastSequence_insertEvent]
    split_ifs with same
    · subst same
      rw [List.map_append, sound.counted, next, List.range'_concat]
      simp [next, Nat.add_comm]
    · exact sound.counted key
  ordered key := by
    rw [rowsOf_insertEvent]
    split_ifs with same
    · subst same
      refine List.pairwise_append.mpr ⟨sound.ordered _, List.pairwise_singleton _ _, ?_⟩
      intro other stored last here
      obtain rfl := List.mem_singleton.mp here
      exact later other stored
    · exact sound.ordered key
  keys := by
    refine List.pairwise_append.mpr ⟨sound.keys, List.pairwise_singleton _ _, ?_⟩
    intro other stored last here
    obtain rfl := List.mem_singleton.mp here
    exact fresh other stored
  named key head found := by
    unfold EventTables.insertEvent at found
    simp only at found
    split_ifs at found with same
    · subst same
      obtain rfl := Option.some.inj found
      cases before : tables.heads row.identityHash with
      | none => exact hashed
      | some head => exact sound.named _ head before
    · exact sound.named key head found
  hashed other stored := by
    rcases List.mem_append.mp stored with stored | here
    · exact sound.hashed other stored
    · obtain rfl := List.mem_singleton.mp here
      exact hashed
  buried key := by
    rw [lastSequence_insertEvent]
    unfold EventTables.insertEvent
    simp only
    have before := sound.buried key
    split_ifs with buried same same
    · exact le_rfl
    · exact absurd buried.1 same
    · subst same
      omega
    · exact before

/-- A new head has no event yet. -/
theorem lastSequence_ensureHead (tables : EventTables Doc) (identity : EventIdentity)
    (key : String) : (tables.ensureHead identity).lastSequence key = tables.lastSequence key := by
  unfold lastSequence EventTables.ensureHead
  simp only
  split_ifs with here
  · subst here
    cases tables.heads identity.logicalKey with
    | none => rfl
    | some head => rfl
  · rfl

/-- A new head of an identity without events. -/
theorem Sound.ensureHead (sound : tables.Sound) (identity : EventIdentity) :
    (tables.ensureHead identity).Sound := by
  constructor
  case counted =>
    intro key
    rw [lastSequence_ensureHead]
    exact sound.counted key
  case ordered => exact sound.ordered
  case keys => exact sound.keys
  case named =>
    intro key head found
    unfold EventTables.ensureHead at found
    simp only at found
    split_ifs at found with here
    · subst here
      obtain rfl := Option.some.inj found
      cases before : tables.heads identity.logicalKey with
      | none => rfl
      | some head => exact sound.named _ head before
    · exact sound.named key head found
  case hashed => exact sound.hashed
  case buried =>
    intro key
    rw [lastSequence_ensureHead]
    exact sound.buried key

theorem newestRow_mem {rows : List (EventRow Doc)} {row : EventRow Doc}
    (found : newestRow rows = some row) : row ∈ rows := by
  induction rows generalizing row with
  | nil => cases found
  | cons head rows ih =>
      unfold newestRow at found
      split at found
      · cases found
        exact List.mem_cons_self
      next later here =>
        split_ifs at found
        · cases found
          exact List.mem_cons_self
        · cases found
          exact List.mem_cons_of_mem _ (ih here)

/-- An update that keeps identities, sequences, positions and keys keeps the tables sound. -/
theorem Sound.updateRows (sound : tables.Sound) {update : EventRow Doc → EventRow Doc}
    (identityHash : ∀ row, (update row).identityHash = row.identityHash)
    (sequence : ∀ row, (update row).sequence = row.sequence)
    (position : ∀ row, (update row).globalPosition = row.globalPosition)
    (key : ∀ row, (update row).idempotencyKeyHash = row.idempotencyKeyHash)
    (payload : ∀ row, (update row).payload = row.payload) :
    (tables.updateRows update).Sound := by
  have rows : ∀ hash, (tables.updateRows update).rowsOf hash = (tables.rowsOf hash).map update := by
    intro hash
    unfold rowsOf EventTables.updateRows
    rw [List.filter_map]
    congr 1
    exact List.filter_congr fun row _ => by simp [identityHash row]
  constructor
  case counted =>
    intro hash
    rw [rows, List.map_map]
    refine Eq.trans ?_ (sound.counted hash)
    exact List.map_congr_left fun row _ => sequence row
  case ordered =>
    intro hash
    rw [rows]
    exact List.pairwise_map.mpr ((sound.ordered hash).imp fun lower => by
      rw [position, position]
      exact lower)
  case keys =>
    exact List.pairwise_map.mpr (sound.keys.imp fun differ => by
      rw [key, key]
      exact differ)
  case named => exact sound.named
  case hashed =>
    intro row stored
    obtain ⟨before, member, rfl⟩ := List.mem_map.mp stored
    rw [payload, identityHash]
    exact sound.hashed before member
  case buried => exact sound.buried

section Updates

variable (eventId error : String) (now : ℕ) (row : EventRow Doc)

/-- What both updates leave alone. -/
theorem markPublished_same : (row.markPublished eventId now).identityHash = row.identityHash ∧
    (row.markPublished eventId now).sequence = row.sequence ∧
    (row.markPublished eventId now).globalPosition = row.globalPosition ∧
    (row.markPublished eventId now).idempotencyKeyHash = row.idempotencyKeyHash ∧
    (row.markPublished eventId now).payload = row.payload ∧
    (row.markPublished eventId now).eventId = row.eventId ∧
    (row.markPublished eventId now).requestDigest = row.requestDigest := by
  unfold EventRow.markPublished
  split_ifs
  · exact ⟨rfl, rfl, rfl, rfl, rfl, rfl, rfl⟩
  · exact ⟨rfl, rfl, rfl, rfl, rfl, rfl, rfl⟩

theorem recordFailure_same : (row.recordFailure eventId error).identityHash = row.identityHash ∧
    (row.recordFailure eventId error).sequence = row.sequence ∧
    (row.recordFailure eventId error).globalPosition = row.globalPosition ∧
    (row.recordFailure eventId error).idempotencyKeyHash = row.idempotencyKeyHash ∧
    (row.recordFailure eventId error).payload = row.payload ∧
    (row.recordFailure eventId error).eventId = row.eventId ∧
    (row.recordFailure eventId error).requestDigest = row.requestDigest := by
  unfold EventRow.recordFailure
  split_ifs
  · exact ⟨rfl, rfl, rfl, rfl, rfl, rfl, rfl⟩
  · exact ⟨rfl, rfl, rfl, rfl, rfl, rfl, rfl⟩

end Updates

end EventTables

end ImposbroSearch.Publishing
