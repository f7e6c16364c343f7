import ImposbroSearch.Publishing.PostgresStore

/-!
# The in-memory event store

Two dictionaries and a counter: the last sequence of each identity, the digest and the
event of each key in the order in which the keys were first used, and the last
position. A new event takes the next position, so the counter is the high-water mark.
-/

namespace ImposbroSearch.Publishing

open ImposbroSearch.Foundation ImposbroSearch.Indexing

variable {Doc : Type}

/-- `InMemoryIndexingEventStore` -/
structure InMemoryStore (Doc : Type) where
  heads : String → ℕ
  byKey : List (String × RequestDigest × StoredEvent Doc)
  globalPosition : ℕ

/-- What `mark_published` replaces an event by. -/
def StoredEvent.published (now : ℕ) (stored : StoredEvent Doc) : StoredEvent Doc :=
  { stored with
    publishedAt := some now
    publishAttempts := stored.publishAttempts + 1
    lastError := none }

/-- What `record_failure` replaces an event by. -/
def StoredEvent.failed (error : String) (stored : StoredEvent Doc) : StoredEvent Doc :=
  { stored with
    publishAttempts := stored.publishAttempts + 1
    lastError := some (truncatedError error) }

/-- `max(candidates, key=…)`: the first of the largest. -/
def largestSequence : List (StoredEvent Doc) → Option (StoredEvent Doc)
  | [] => none
  | event :: events =>
    some (events.foldl (fun largest other =>
      if largest.sequence < other.sequence then other else largest) event)

namespace InMemoryStore

def empty : InMemoryStore Doc := ⟨fun _ => 0, [], 0⟩

variable (canonical : Doc → String) (store : InMemoryStore Doc)

/-- The events, in the order of the keys. -/
def events : List (StoredEvent Doc) := store.byKey.map fun entry => entry.2.2

/-- `prepare` -/
def prepare (draft : TracedDraft Doc) (eventId : String) (now : ℕ) :
    StoreAnswer Doc × InMemoryStore Doc :=
  match store.byKey.lookup draft.idempotencyKeyHash with
  | some (digest, event) =>
    if digest ≠ draft.requestDigest canonical then (.refused .idempotencyConflict, store)
    else (.event event, store)
  | none =>
    let last := store.heads draft.identity.logicalKey
    let event : StoredEvent Doc :=
      { eventId
        sequence := last + 1
        payload := buildEventPayload draft eventId last now
        createdAt := now
        globalPosition := store.globalPosition + 1 }
    (.event event,
      { heads := fun key =>
          if key = draft.identity.logicalKey then last + 1 else store.heads key
        byKey := store.byKey ++
          [(draft.idempotencyKeyHash, draft.requestDigest canonical, event)]
        globalPosition := store.globalPosition + 1 })

/-- `prepare_latest_repair` -/
def prepareLatestRepair (repair : TracedRepair) (eventId : String) (now : ℕ) :
    StoreAnswer Doc × InMemoryStore Doc :=
  match largestSequence (store.events.filter fun event =>
      event.identityHash = repair.identityKey) with
  | none => (.refused .sourceNotFound, store)
  | some source =>
    match store.byKey.lookup
        (indexingIdempotencyKeyHash source.payload.event.identity repair.idempotencyKey) with
    | some (_, event) => (.event event, store)
    | none => store.prepare canonical (buildRepairDraft repair source) eventId now

/-- The loop of both updates: the first unpublished event with the id is replaced. -/
def replaceFirst (eventId : String) (replacement : StoredEvent Doc → StoredEvent Doc) :
    List (String × RequestDigest × StoredEvent Doc) →
      Option (List (String × RequestDigest × StoredEvent Doc))
  | [] => none
  | (key, digest, event) :: entries =>
    if event.eventId ≠ eventId ∨ event.publishedAt ≠ none then
      (replaceFirst eventId replacement entries).map ((key, digest, event) :: ·)
    else some ((key, digest, replacement event) :: entries)

/-- An update, and whether it found an event. -/
def updateFirst (eventId : String) (replacement : StoredEvent Doc → StoredEvent Doc) :
    StoreAnswer Doc × InMemoryStore Doc :=
  match replaceFirst eventId replacement store.byKey with
  | some byKey => (.found true, { store with byKey })
  | none => (.found false, store)

/-- `mark_published` -/
def markPublished (eventId : String) (now : ℕ) : StoreAnswer Doc × InMemoryStore Doc :=
  store.updateFirst eventId (StoredEvent.published now)

/-- `record_failure` -/
def recordFailure (eventId error : String) : StoreAnswer Doc × InMemoryStore Doc :=
  store.updateFirst eventId (StoredEvent.failed error)

/-- `list_pending` -/
def listPending (limit : ℤ) : StoreAnswer Doc :=
  if limit < 1 then .refused .invalidLimit
  else .events (((byPosition StoredEvent.globalPosition store.events).filter fun event =>
    event.publishedAt = none).take limit.toNat)

/-- `pending_count` -/
def pendingCount : StoreAnswer Doc :=
  .count (store.events.filter fun event => event.publishedAt = none).length

/-- `list_latest_by_identity` -/
def listLatestByIdentity (afterPosition throughPosition limit : ℤ) : StoreAnswer Doc :=
  match validatePositionWindow afterPosition throughPosition limit with
  | some error => .refused error
  | none =>
    .events ((byPosition StoredEvent.globalPosition
      (latestScan StoredEvent.identityHash StoredEvent.globalPosition
        (store.events.filter fun event =>
          afterPosition < event.globalPosition ∧
            event.globalPosition ≤ throughPosition))).take limit.toNat)

/-- `high_water_mark` -/
def highWaterMark : StoreAnswer Doc := .position store.globalPosition

/-- One operation. -/
def perform (stamped : StampedOperation Doc) : StoreAnswer Doc × InMemoryStore Doc :=
  match stamped.operation with
  | .prepare draft => store.prepare canonical draft stamped.eventId stamped.now
  | .prepareLatestRepair repair =>
    store.prepareLatestRepair canonical repair stamped.eventId stamped.now
  | .markPublished eventId => store.markPublished eventId stamped.now
  | .recordFailure eventId error => store.recordFailure eventId error
  | .listPending limit => (store.listPending limit, store)
  | .pendingCount => (store.pendingCount, store)
  | .listLatestByIdentity afterPosition throughPosition limit =>
    (store.listLatestByIdentity afterPosition throughPosition limit, store)
  | .highWaterMark => (store.highWaterMark, store)

end InMemoryStore

end ImposbroSearch.Publishing
