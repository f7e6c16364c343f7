import ImposbroSearch.Indexing.Delivery
import Mathlib.Data.List.Pairwise

/-!
# The durable event store

`prepare` gives each accepted mutation the next sequence of its logical identity
and the next global position, in one transaction. A request that repeats an
idempotency key gets the stored event back, or is refused when it asks for
another mutation.

The store is keyed by hashes of joined strings; the strings stand for their
hashes. Event ids are fresh uuids; here an id is its row's position in unary.
Allocated positions may have gaps, which nothing below can see.
-/

namespace ImposbroSearch.Publishing

open ImposbroSearch.Indexing

variable {Doc : Type}

/-- `IndexingEventDraft`, without its trace. -/
structure IndexingEventDraft (Doc : Type) where
  identity : EventIdentity
  mutation : Mutation Doc
  targetClusters : List ClusterName
  routingRevision : ℕ
  rolloutId : Option String
  idempotencyKey : String
  targets_ne : targetClusters ≠ [] := by decide
  targets_nodup : targetClusters.Nodup := by decide

/-- `indexing_idempotency_key_hash` -/
def indexingIdempotencyKeyHash (identity : EventIdentity) (idempotencyKey : String) : String :=
  identitySeparator.intercalate
    [identity.tenantId, identity.collection, identity.documentId, idempotencyKey]

/-- What `request_digest` hashes. -/
structure RequestDigest where
  identity : EventIdentity
  operation : Operation
  document : Option String
  deleteFilter : Option String
  deriving DecidableEq, Repr

/-- The digest of a mutation, over the canonical text of its document. -/
def requestDigest (canonical : Doc → String) (identity : EventIdentity) (mutation : Mutation Doc) :
    RequestDigest where
  identity := identity
  operation := mutation.operation
  document := mutation.document.map canonical
  deleteFilter :=
    match mutation with
    | .upsert _ => none
    | .delete filterBy => filterBy
    | .tombstone filterBy => filterBy

/-- A row of the outbox table. -/
structure PreparedIndexingEvent (Doc : Type) where
  event : IndexingEventV2 Doc
  idempotencyKeyHash : String
  globalPosition : ℕ
  published : Bool := false

/-- The heads and outbox tables. A missing head counts as sequence 0. -/
structure EventStore (Doc : Type) where
  lastSequence : String → ℕ
  rows : List (PreparedIndexingEvent Doc)

inductive EventStoreError where
  | idempotencyConflict (message : String)
  | repairSourceNotFound (message : String)
  deriving DecidableEq, Repr

namespace EventStore

def empty : EventStore Doc := ⟨fun _ => 0, []⟩

/-- The events of the store, in the order of their positions. -/
def events (store : EventStore Doc) : List (IndexingEventV2 Doc) :=
  store.rows.map PreparedIndexingEvent.event

/-- `high_water_mark` -/
def highWaterMark (store : EventStore Doc) : ℕ :=
  store.rows.foldr (fun row mark => max row.globalPosition mark) 0

/-- `_existing_for_key` -/
def existingForKey (store : EventStore Doc) (keyHash : String) :
    Option (PreparedIndexingEvent Doc) :=
  store.rows.find? fun row => row.idempotencyKeyHash = keyHash

def freshEventId (position : ℕ) : String :=
  "evt:" ++ String.ofList (List.replicate position '0')

/-- The row that the next insertion stores. -/
def nextRow (store : EventStore Doc) (draft : IndexingEventDraft Doc) :
    PreparedIndexingEvent Doc where
  event :=
    { eventId := freshEventId (store.highWaterMark + 1)
      identity := draft.identity
      documentVersion := store.lastSequence draft.identity.logicalKey + 1
      sequence := store.lastSequence draft.identity.logicalKey + 1
      mutation := draft.mutation
      routingRevision := draft.routingRevision
      rolloutId := draft.rolloutId
      targetClusters := draft.targetClusters
      documentVersion_pos := Nat.succ_pos _
      sequence_pos := Nat.succ_pos _
      targets_ne := draft.targets_ne
      targets_nodup := draft.targets_nodup }
  idempotencyKeyHash := indexingIdempotencyKeyHash draft.identity draft.idempotencyKey
  globalPosition := store.highWaterMark + 1

/-- Allocate the next sequence and `_insert_outbox_event`. -/
def insertOutboxEvent (store : EventStore Doc) (draft : IndexingEventDraft Doc) :
    EventStore Doc where
  lastSequence key :=
    if key = draft.identity.logicalKey then store.lastSequence key + 1 else store.lastSequence key
  rows := store.rows ++ [store.nextRow draft]

/-- `prepare` -/
def prepare (canonical : Doc → String) (store : EventStore Doc) (draft : IndexingEventDraft Doc) :
    Except EventStoreError (PreparedIndexingEvent Doc × EventStore Doc) :=
  match store.existingForKey (indexingIdempotencyKeyHash draft.identity draft.idempotencyKey) with
  | some row =>
    if requestDigest canonical row.event.identity row.event.mutation =
        requestDigest canonical draft.identity draft.mutation then .ok (row, store)
    else .error (.idempotencyConflict "Idempotency key was already used for another mutation")
  | none => .ok (store.nextRow draft, store.insertOutboxEvent draft)

/-! ## What the tables keep -/

/-- Rows are stored in the order of their positions; per logical key sequences
increase and never pass the head; versions and ids are those `prepare` gave. -/
structure Sound (store : EventStore Doc) : Prop where
  positions : store.rows.Pairwise fun first second => first.globalPosition < second.globalPosition
  sequences : store.rows.Pairwise fun first second =>
    first.event.identity.logicalKey = second.event.identity.logicalKey →
      first.event.sequence < second.event.sequence
  heads : ∀ row ∈ store.rows,
    row.event.sequence ≤ store.lastSequence row.event.identity.logicalKey
  version_eq : ∀ row ∈ store.rows, row.event.documentVersion = row.event.sequence
  eventId_eq : ∀ row ∈ store.rows, row.event.eventId = freshEventId row.globalPosition

variable {store : EventStore Doc} {draft : IndexingEventDraft Doc}

theorem le_highWaterMark {row : PreparedIndexingEvent Doc} (member : row ∈ store.rows) :
    row.globalPosition ≤ store.highWaterMark := by
  obtain ⟨heads, rows⟩ := store
  unfold highWaterMark
  induction rows with
  | nil => cases member
  | cons head rows ih =>
      rcases List.mem_cons.mp member with rfl | member
      · exact le_max_left _ _
      · exact le_trans (ih member) (le_max_right _ _)

/-- An insertion raises the high-water mark to the new position. -/
theorem highWaterMark_insert (store : EventStore Doc) (draft : IndexingEventDraft Doc) :
    (store.insertOutboxEvent draft).highWaterMark = store.highWaterMark + 1 := by
  have raised : ∀ (rows : List (PreparedIndexingEvent Doc)) (mark : ℕ),
      (∀ row ∈ rows, row.globalPosition ≤ mark) →
        rows.foldr (fun row high => max row.globalPosition high) mark = mark := by
    intro rows mark bound
    induction rows with
    | nil => rfl
    | cons head rows ih =>
        have here := bound head List.mem_cons_self
        rw [List.foldr_cons, ih fun row member => bound row (List.mem_cons_of_mem _ member)]
        omega
  show (store.rows ++ [store.nextRow draft]).foldr _ 0 = _
  rw [List.foldr_append]
  exact raised store.rows (store.highWaterMark + 1) fun row member =>
    Nat.le_succ_of_le (le_highWaterMark member)

theorem sound_empty : (empty : EventStore Doc).Sound where
  positions := List.Pairwise.nil
  sequences := List.Pairwise.nil
  heads := by simp [empty]
  version_eq := by simp [empty]
  eventId_eq := by simp [empty]

/-- Inserting the next row keeps the tables sound. -/
theorem Sound.insert (sound : store.Sound) : (store.insertOutboxEvent draft).Sound where
  positions := by
    refine List.pairwise_append.mpr ⟨sound.positions, List.pairwise_singleton _ _, ?_⟩
    intro row member last here
    obtain rfl := List.mem_singleton.mp here
    exact Nat.lt_succ_of_le (le_highWaterMark member)
  sequences := by
    refine List.pairwise_append.mpr ⟨sound.sequences, List.pairwise_singleton _ _, ?_⟩
    intro row member last here sameKey
    obtain rfl := List.mem_singleton.mp here
    have le := sound.heads row member
    rw [sameKey] at le
    exact Nat.lt_succ_of_le le
  heads row member := by
    rcases List.mem_append.mp member with member | here
    · have le := sound.heads row member
      show _ ≤ if _ then _ else _
      split_ifs
      · exact Nat.le_succ_of_le le
      · exact le
    · obtain rfl := List.mem_singleton.mp here
      exact le_of_eq (if_pos rfl).symm
  version_eq row member := by
    rcases List.mem_append.mp member with member | here
    · exact sound.version_eq row member
    · obtain rfl := List.mem_singleton.mp here
      rfl
  eventId_eq row member := by
    rcases List.mem_append.mp member with member | here
    · exact sound.eventId_eq row member
    · obtain rfl := List.mem_singleton.mp here
      rfl

/-- What `prepare` does to the tables: nothing, or one insertion. -/
theorem prepare_cases {canonical : Doc → String} {row : PreparedIndexingEvent Doc}
    {next : EventStore Doc} (prepared : store.prepare canonical draft = .ok (row, next)) :
    (row ∈ store.rows ∧ next = store) ∨
      (row = store.nextRow draft ∧ next = store.insertOutboxEvent draft) := by
  unfold prepare at prepared
  split at prepared
  next existing found =>
    split_ifs at prepared
    cases prepared
    exact Or.inl ⟨List.mem_of_find?_eq_some found, rfl⟩
  next =>
    cases prepared
    exact Or.inr ⟨rfl, rfl⟩

/-- A replayed row has the identity that was asked for. -/
theorem prepare_identity {canonical : Doc → String} {row : PreparedIndexingEvent Doc}
    {next : EventStore Doc} (prepared : store.prepare canonical draft = .ok (row, next)) :
    row.event.identity = draft.identity := by
  unfold prepare at prepared
  split at prepared
  · split_ifs at prepared with same
    cases prepared
    exact congrArg RequestDigest.identity same
  · cases prepared
    rfl

theorem freshEventId_inj {first second : ℕ} (same : freshEventId first = freshEventId second) :
    first = second := by
  have text := congrArg String.toList same
  simp only [freshEventId, String.toList_append, String.toList_ofList,
    List.append_cancel_left_eq] at text
  simpa using congrArg List.length text

/-- Two rows at one position are one row. -/
theorem Sound.position_inj (sound : store.Sound) {first second : PreparedIndexingEvent Doc}
    (firstMember : first ∈ store.rows) (secondMember : second ∈ store.rows)
    (same : first.globalPosition = second.globalPosition) : first = second := by
  by_contra distinct
  have apart := sound.positions.imp fun lower => Nat.ne_of_lt lower
  have symm : Std.Symm fun first second : PreparedIndexingEvent Doc =>
      first.globalPosition ≠ second.globalPosition := ⟨fun _ _ h => h.symm⟩
  exact apart.forall firstMember secondMember distinct same

/-- Two rows of one identity with one sequence are one row. -/
theorem Sound.sequence_inj (sound : store.Sound) {first second : PreparedIndexingEvent Doc}
    (firstMember : first ∈ store.rows) (secondMember : second ∈ store.rows)
    (sameKey : first.event.identity.logicalKey = second.event.identity.logicalKey)
    (same : first.event.sequence = second.event.sequence) : first = second := by
  by_contra distinct
  have apart : store.rows.Pairwise fun first second =>
      first.event.identity.logicalKey = second.event.identity.logicalKey →
        first.event.sequence ≠ second.event.sequence :=
    sound.sequences.imp fun lower sameKey => Nat.ne_of_lt (lower sameKey)
  have symm : Std.Symm fun first second : PreparedIndexingEvent Doc =>
      first.event.identity.logicalKey = second.event.identity.logicalKey →
        first.event.sequence ≠ second.event.sequence :=
    ⟨fun _ _ h sameKey => (h sameKey.symm).symm⟩
  exact apart.forall firstMember secondMember distinct sameKey same

/-- **The events of a sound store form a log.** -/
theorem Sound.eventLog (sound : store.Sound) : EventLog {event | event ∈ store.events} where
  version_eq event member := by
    obtain ⟨row, stored, rfl⟩ := List.mem_map.mp member
    exact sound.version_eq row stored
  sequence_inj event member other otherMember sameKey sameSequence := by
    obtain ⟨row, stored, rfl⟩ := List.mem_map.mp member
    obtain ⟨otherRow, otherStored, rfl⟩ := List.mem_map.mp otherMember
    rw [sound.sequence_inj stored otherStored sameKey sameSequence]
  eventId_inj event member other otherMember same := by
    obtain ⟨row, stored, rfl⟩ := List.mem_map.mp member
    obtain ⟨otherRow, otherStored, rfl⟩ := List.mem_map.mp otherMember
    rw [sound.eventId_eq row stored, sound.eventId_eq otherRow otherStored] at same
    rw [sound.position_inj stored otherStored (freshEventId_inj same)]

/-- In log order the sequences of one key increase. -/
theorem Sound.sorted (sound : store.Sound) : store.events.Pairwise fun first second =>
    first.identity.logicalKey = second.identity.logicalKey → first.sequence < second.sequence :=
  List.pairwise_map.mpr sound.sequences

end EventStore

end ImposbroSearch.Publishing
