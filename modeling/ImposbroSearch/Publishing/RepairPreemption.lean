import ImposbroSearch.Publishing.StoreAgreement
import ImposbroSearch.Publishing.StoreEffects
import ImposbroSearch.Publishing.StoreSequencing
import Mathlib

/-!
# Repairs and client requests under one key

Repairs and client mutations share one namespace of idempotency keys. A repair that
finds an event under its key returns it, whoever stored it there. A history records
what the database forgets: what was committed when a repair was called, and which
request created an event. Over every history of interleaved transactions a repair
returns the clone it asks for, unless a client mutation of its identity has created
an event under its key.
-/

namespace ImposbroSearch.Publishing

open ImposbroSearch.Foundation ImposbroSearch.Indexing

variable {Doc : Type}

/-- A call of `prepare_latest_repair`, with the rows of its identity that were
committed when it was made. -/
structure RepairCall (Doc : Type) where
  repair : TracedRepair
  stored : List (EventRow Doc)

/-- A database, the repair calls made to it, and the events with the requests that
created them. -/
structure StoreHistory (Doc : Type) where
  db : Database Doc
  calls : List (RepairCall Doc)
  created : List (StoreRequest Doc × EventRow Doc)

/-- Repairs of one identity with one key. -/
def SameKey (repair other : TracedRepair) : Prop :=
  other.identityKey = repair.identityKey ∧ other.idempotencyKey = repair.idempotencyKey

instance (repair other : TracedRepair) : Decidable (SameKey repair other) :=
  inferInstanceAs (Decidable (_ ∧ _))

/-- A call of `prepare_latest_repair`. -/
def StoreRequest.isRepair : StoreRequest Doc → Bool
  | prepareLatestRepair _ _ => true
  | _ => false

theorem LatestRepairDraft.fields_injective :
    Function.Injective fun repair : LatestRepairDraft =>
      (repair.identityKey, repair.idempotencyKey, repair.targetClusters, repair.routingRevision,
        repair.rolloutId) := by
  rintro ⟨identity, key, targets, revision, rollout⟩ ⟨_, _, _, _, _⟩ same
  cases same
  rfl

instance : DecidableEq LatestRepairDraft :=
  fun _ _ => decidable_of_iff _ LatestRepairDraft.fields_injective.eq_iff

deriving instance DecidableEq for TracedRepair

namespace StoreHistory

def empty : StoreHistory Doc := ⟨.empty, [], []⟩

/-- The repair call that an action makes. -/
def callsOf (db : Database Doc) : StoreAction Doc → List (RepairCall Doc)
  | .start id (.prepareLatestRepair repair _) _ =>
    if (db.transactions id).isSome then [] else [⟨repair, db.tables.rowsOf repair.identityKey⟩]
  | _ => []

/-- The event that an action commits, with the request of its transaction. -/
def createdBy (db : Database Doc) : StoreAction Doc → List (StoreRequest Doc × EventRow Doc)
  | .advance id _ =>
    match db.transactions id with
    | some { request, next := .commitEvent row, .. } => [(request, row)]
    | _ => []
  | _ => []

def step (canonical : Doc → String) (history : StoreHistory Doc) (action : StoreAction Doc) :
    StoreHistory Doc where
  db := Database.step canonical history.db action
  calls := history.calls ++ callsOf history.db action
  created := history.created ++ createdBy history.db action

variable (history : StoreHistory Doc)

/-- The first call with the key of a repair. -/
def firstCall (repair : TracedRepair) : Option (RepairCall Doc) :=
  history.calls.find? fun call => SameKey repair call.repair

/-- A client mutation of the identity has created an event under the repair's key. -/
def Preempted (repair : TracedRepair) : Prop :=
  ∃ draft plain row, (.prepare draft plain, row) ∈ history.created ∧
    draft.identity.logicalKey = repair.identityKey ∧
      draft.idempotencyKey = repair.idempotencyKey

/-- The event was created by a repair with this key, for the targets of that repair. It
carries the mutation of an earlier event, at least as new as every event that existed
at the first call with the key. -/
structure Repairs (repair : TracedRepair) (stored : StoredEvent Doc) : Prop where
  addressed : ∃ creator plain row, (.prepareLatestRepair creator plain, row) ∈ history.created ∧
    SameKey repair creator ∧ stored.eventId = row.eventId ∧
      stored.payload.event.targetClusters = creator.targetClusters
  newest : ∃ call, history.firstCall repair = some call ∧
    ∃ source ∈ history.db.tables.rowsOf repair.identityKey, source.sequence < stored.sequence ∧
      stored.payload.event.mutation = source.payload.event.mutation ∧
        ∀ earlier ∈ call.stored, earlier.sequence ≤ source.sequence

end StoreHistory

/-! ## Statements of a repair -/

namespace Database

variable {canonical : Doc → String} {db : Database Doc} {id : ℕ} {transaction : Transaction Doc}

/-- What a statement of `prepare_latest_repair` does. -/
inductive RepairStep (canonical : Doc → String) (db : Database Doc) (id : ℕ)
    (transaction : Transaction Doc) (repair : TracedRepair) (after : Database Doc) : Prop where
  | waits (same : after = db)
  | reads (next : Statement Doc) (tables : after.tables = db.tables)
      (outcomes : after.outcomes = db.outcomes)
      (going : after.transactions id = some { transaction with next })
      (drafts : ∀ draft, next ≠ .insertEvent draft) (commits : ∀ row, next ≠ .commitEvent row)
  | clones (source : EventRow Doc) (here : transaction.next = .selectSource)
      (newest : EventTables.newestRow (db.tables.rowsOf repair.identityKey) = some source)
      (same : after =
        db.goOn id transaction (.insertEvent (buildRepairDraft repair (rowToEvent source))))
  | inserts (draft : TracedDraft Doc) (eventId : String) (now position : ℕ)
      (here : transaction.next = .insertEvent draft) (tables : after.tables = db.tables)
      (outcomes : after.outcomes = db.outcomes)
      (going : after.transactions id = some { transaction with
        next := .commitEvent (insertedRow canonical draft eventId
          (db.tables.lastSequence draft.identity.logicalKey) now position) })
  | refuses (error : StoreError) (tables : after.tables = db.tables)
      (outcomes : after.outcomes = db.outcomes ++ [(transaction.request, .refused error)])
      (ended : after.transactions id = none)
  | finds (head : IndexingEventHead) (row : EventRow Doc)
      (headed : db.tables.heads repair.identityKey = some head)
      (existing : db.tables.existingForKey
        (indexingIdempotencyKeyHash head.identity repair.idempotencyKey) = some row)
      (same : after = db.finish id transaction (.event (rowToEvent row)) db.tables)
  | commits (row : EventRow Doc) (here : transaction.next = .commitEvent row)
      (same : after =
        db.finish id transaction (.event (rowToEvent row)) (db.tables.insertEvent row))

theorem repairStep_insertEvent {repair : TracedRepair} {draft : TracedDraft Doc}
    (here : transaction.next = .insertEvent draft) (eventId : String) :
    RepairStep canonical db id transaction repair
      (db.insertEvent canonical id transaction draft eventId) := by
  unfold Database.insertEvent
  split
  · exact .waits rfl
  · split
    · exact .waits rfl
    · simp only
      split
      · exact .refuses .integrity rfl rfl (if_pos rfl)
      · split
        · exact .refuses .staleTombstone rfl rfl (if_pos rfl)
        · exact .inserts draft eventId transaction.startedAt db.nextPosition here rfl rfl (if_pos rfl)

/-- **Every statement of a repair.** -/
theorem repairStep (canonical : Doc → String) (db : Database Doc) (id : ℕ)
    (transaction : Transaction Doc) (repair : TracedRepair) (eventId : String) :
    RepairStep canonical db id transaction repair
      (db.advanceRepair canonical id transaction repair eventId) := by
  unfold Database.advanceRepair
  split
  · split
    · exact .refuses .sourceNotFound rfl rfl (if_pos rfl)
    · split
      · exact .waits rfl
      · exact .reads .existingForKeyAgain rfl rfl (if_pos rfl) (by simp) (by simp)
  · split
    · exact .refuses .sourceNotFound rfl rfl (if_pos rfl)
    next head headed =>
      split
      next row existing => exact .finds head row headed existing rfl
      next => exact .reads .selectSource rfl rfl (if_pos rfl) (by simp) (by simp)
  next here =>
    split
    · exact .refuses .headWithoutEvent rfl rfl (if_pos rfl)
    next source newest => exact .clones source here newest rfl
  next draft here => exact repairStep_insertEvent here eventId
  next row here => exact .commits row here rfl
  next => exact .waits rfl

/-- A transaction that serves a request goes on with it or answers it. -/
structure Serves (db : Database Doc) (id : ℕ) (request : StoreRequest Doc)
    (after : Database Doc) : Prop where
  others : ∀ other ≠ id, after.transactions other = db.transactions other
  going : ∀ transaction, after.transactions id = some transaction → transaction.request = request
  outcomes : after.outcomes = db.outcomes ∨
    ∃ outcome, after.outcomes = db.outcomes ++ [(request, outcome)]

theorem Serves.refl (found : db.transactions id = some transaction) :
    Serves db id transaction.request db where
  others _ _ := rfl
  going other same := by
    obtain rfl := Option.some.inj (found.symm.trans same)
    rfl
  outcomes := Or.inl rfl

theorem Serves.next {after : Database Doc} (inserted : Bool) (next : Statement Doc)
    (transactions : after.transactions =
      (db.goOn id { transaction with insertedHead := inserted } next).transactions)
    (outcomes : after.outcomes = db.outcomes) : Serves db id transaction.request after where
  others other differs := by
    rw [transactions]
    exact if_neg differs
  going other same := by
    rw [transactions] at same
    obtain rfl := Option.some.inj ((if_pos rfl).symm.trans same)
    rfl
  outcomes := Or.inl outcomes

theorem Serves.ends {outcome : StoreOutcome Doc} {after : Database Doc}
    (ended : after.transactions id = none)
    (others : ∀ other ≠ id, after.transactions other = db.transactions other)
    (outcomes : after.outcomes = db.outcomes ++ [(transaction.request, outcome)]) :
    Serves db id transaction.request after where
  others := others
  going other same := absurd (ended.symm.trans same) (by simp)
  outcomes := Or.inr ⟨outcome, outcomes⟩

theorem Serves.finish {outcome : StoreOutcome Doc} {tables : EventTables Doc} :
    Serves db id transaction.request (db.finish id transaction outcome tables) :=
  Serves.ends (if_pos rfl) (fun _ differs => if_neg differs) rfl

theorem serves_insertEvent (found : db.transactions id = some transaction)
    (draft : TracedDraft Doc) (eventId : String) :
    Serves db id transaction.request (db.insertEvent canonical id transaction draft eventId) := by
  unfold Database.insertEvent
  split
  · exact Serves.refl found
  · split
    · exact Serves.refl found
    · simp only
      split
      · exact Serves.ends (if_pos rfl) (fun _ differs => if_neg differs) rfl
      · split
        · exact Serves.ends (if_pos rfl) (fun _ differs => if_neg differs) rfl
        · exact Serves.next transaction.insertedHead _ rfl rfl

/-- **Every statement** serves the request of its transaction. -/
theorem serves_advance (canonical : Doc → String) (found : db.transactions id = some transaction)
    (eventId : String) :
    Serves db id transaction.request (db.advance canonical id eventId) := by
  unfold Database.advance
  rw [found]
  simp only
  have updates : ∀ key, Serves db id transaction.request (db.advanceUpdate id transaction key) := by
    intro key
    unfold Database.advanceUpdate
    split
    · split
      · exact Serves.refl found
      · split
        · split
          · exact Serves.refl found
          · exact Serves.next transaction.insertedHead .commitRow rfl rfl
        · exact Serves.finish
    · exact Serves.finish
    · exact Serves.refl found
  split
  · unfold Database.advancePrepare
    split
    · split
      · exact Serves.finish
      · exact Serves.next transaction.insertedHead .ensureHead rfl rfl
    · split
      · exact Serves.next transaction.insertedHead .selectHead rfl rfl
      · split
        · exact Serves.refl found
        · exact Serves.next true .selectHead rfl rfl
    · split
      · exact Serves.finish
      · split
        · exact Serves.refl found
        · exact Serves.next transaction.insertedHead .existingForKeyAgain rfl rfl
    · split
      · exact Serves.finish
      · exact Serves.next transaction.insertedHead _ rfl rfl
    · exact serves_insertEvent found _ _
    · exact Serves.finish
    · exact Serves.refl found
  · unfold Database.advanceRepair
    split
    · split
      · exact Serves.finish
      · split
        · exact Serves.refl found
        · exact Serves.next transaction.insertedHead .existingForKeyAgain rfl rfl
    · split
      · exact Serves.finish
      · split
        · exact Serves.finish
        · exact Serves.next transaction.insertedHead .selectSource rfl rfl
    · split
      · exact Serves.finish
      · exact Serves.next transaction.insertedHead _ rfl rfl
    · exact serves_insertEvent found _ _
    · exact Serves.finish
    · exact Serves.refl found
  · exact updates _
  · exact updates _
  · unfold Database.advanceMark
    split
    · split
      · exact Serves.refl found
      · exact Serves.next transaction.insertedHead .selectMax rfl rfl
    · exact Serves.finish
    · exact Serves.refl found

end Database

/-! ## What stays in the tables -/

theorem EventRow.SameEvent.refl (row : EventRow Doc) : row.SameEvent row :=
  ⟨rfl, rfl, rfl, rfl, rfl, rfl, rfl⟩

theorem EventRow.SameEvent.trans {first second third : EventRow Doc}
    (same : first.SameEvent second) (again : second.SameEvent third) : first.SameEvent third where
  identityHash := same.identityHash.trans again.identityHash
  sequence := same.sequence.trans again.sequence
  globalPosition := same.globalPosition.trans again.globalPosition
  idempotencyKeyHash := same.idempotencyKeyHash.trans again.idempotencyKeyHash
  payload := same.payload.trans again.payload
  eventId := same.eventId.trans again.eventId
  requestDigest := same.requestDigest.trans again.requestDigest

/-- A statement that commits no event. -/
inductive Keeps (before after : EventTables Doc) : Prop where
  | same (tables : after = before)
  | updates (request : StoreRequest Doc) (now : ℕ)
      (tables : after = before.updateRows (request.update now))
  | heads (identity : EventIdentity) (tables : after = before.ensureHead identity)

theorem lastSequence_updateRows (tables : EventTables Doc) (update : EventRow Doc → EventRow Doc)
    (identityHash : String) :
    (tables.updateRows update).lastSequence identityHash = tables.lastSequence identityHash := rfl

/-- The updated version of a row of the identity. -/
theorem mem_rowsOf_updateRows {tables : EventTables Doc} {identityHash : String}
    {row : EventRow Doc} (stored : row ∈ tables.rowsOf identityHash) (request : StoreRequest Doc)
    (now : ℕ) :
    request.update now row ∈ (tables.updateRows (request.update now)).rowsOf identityHash := by
  obtain ⟨member, named⟩ := List.mem_filter.mp stored
  refine List.mem_filter.mpr ⟨List.mem_map_of_mem member, ?_⟩
  rw [(update_same request now row).identityHash]
  exact named

theorem Keeps.rows {before after : EventTables Doc} (keeps : Keeps before after)
    {identityHash : String} {row : EventRow Doc} (stored : row ∈ before.rowsOf identityHash) :
    ∃ later ∈ after.rowsOf identityHash, later.SameEvent row := by
  cases keeps with
  | same tables =>
      subst tables
      exact ⟨row, stored, EventRow.SameEvent.refl row⟩
  | updates request now tables =>
      subst tables
      exact ⟨_, mem_rowsOf_updateRows stored request now, update_same request now row⟩
  | heads identity tables =>
      subst tables
      exact ⟨row, stored, EventRow.SameEvent.refl row⟩

theorem Keeps.outbox {before after : EventTables Doc} (keeps : Keeps before after)
    {later : EventRow Doc} (stored : later ∈ after.outbox) :
    ∃ row ∈ before.outbox, later.SameEvent row := by
  cases keeps with
  | same tables =>
      subst tables
      exact ⟨later, stored, EventRow.SameEvent.refl later⟩
  | updates request now tables =>
      subst tables
      obtain ⟨row, member, rfl⟩ := List.mem_map.mp stored
      exact ⟨row, member, update_same request now row⟩
  | heads identity tables =>
      subst tables
      exact ⟨later, stored, EventRow.SameEvent.refl later⟩

theorem Keeps.lastSequence {before after : EventTables Doc} (keeps : Keeps before after)
    (identityHash : String) : after.lastSequence identityHash = before.lastSequence identityHash := by
  cases keeps with
  | same tables => rw [tables]
  | updates request now tables => rw [tables, lastSequence_updateRows]
  | heads identity tables => rw [tables, EventTables.lastSequence_ensureHead]

namespace Database

variable {canonical : Doc → String} {db : Database Doc} {id : ℕ} {transaction : Transaction Doc}

/-- What one action commits. -/
inductive Commits (canonical : Doc → String) (db : Database Doc) (action : StoreAction Doc) :
    Prop where
  | event (id : ℕ) (transaction : Transaction Doc) (row : EventRow Doc)
      (acts : action.transactionId = id) (found : db.transactions id = some transaction)
      (here : transaction.next = .commitEvent row)
      (created : StoreHistory.createdBy db action = [(transaction.request, row)])
      (after : Database.step canonical db action =
        db.finish id transaction (.event (rowToEvent row)) (db.tables.insertEvent row))
  | nothing (created : StoreHistory.createdBy db action = [])
      (keeps : Keeps db.tables (Database.step canonical db action).tables)

/-- **An action commits an event**, or it keeps the rows there are. -/
theorem Consistent.commits (canonical : Doc → String) (consistent : db.Consistent)
    (action : StoreAction Doc) : Commits canonical db action := by
  cases action with
  | start id request now =>
      refine .nothing rfl (.same ?_)
      show (db.start id request now).tables = db.tables
      unfold Database.start
      split
      · rfl
      · rfl
  | abort id =>
      refine .nothing rfl (.same ?_)
      show (db.abort id).tables = db.tables
      unfold Database.abort
      split
      · rfl
      · rfl
  | advance id eventId =>
      by_cases writing : ∃ row, db.uncommittedRow id = some row
      · obtain ⟨row, pending⟩ := writing
        obtain ⟨transaction, found, here⟩ := exists_of_uncommittedRow pending
        obtain ⟨-, -, -, draft, asked, -⟩ :=
          (consistent.transactions id transaction found).commit row here
        obtain ⟨request, startedAt, next, insertedHead⟩ := transaction
        obtain rfl : next = .commitEvent row := here
        have created : StoreHistory.createdBy db (.advance id eventId) = [(request, row)] := by
          unfold StoreHistory.createdBy
          simp only [found]
        refine .event id _ row rfl found rfl created ?_
        show db.advance canonical id eventId = _
        unfold Database.advance
        rw [found]
        cases request with
        | prepare => rfl
        | prepareLatestRepair => rfl
        | markPublished => exact asked.elim
        | recordFailure => exact asked.elim
        | highWaterMark => exact asked.elim
      · have created : StoreHistory.createdBy db (.advance id eventId) = [] := by
          unfold StoreHistory.createdBy
          simp only
          split
          next found => exact absurd ⟨_, uncommittedRow_eq found rfl⟩ writing
          next => rfl
        refine .nothing created ?_
        rcases (effect_step canonical db (.advance id eventId)).tables with same | ⟨row, pending, -⟩ |
          ⟨request, now, same⟩ | ⟨identity, same⟩
        · exact .same same
        · exact absurd ⟨row, pending⟩ writing
        · exact .updates request now same
        · exact .heads identity same

/-- **A committed row stays**, up to its publication marks. -/
theorem Commits.rows {action : StoreAction Doc} (commits : Commits canonical db action)
    {identityHash : String} {row : EventRow Doc} (stored : row ∈ db.tables.rowsOf identityHash) :
    ∃ later ∈ (Database.step canonical db action).tables.rowsOf identityHash,
      later.SameEvent row := by
  cases commits with
  | event id transaction new acts found here created after =>
      refine ⟨row, ?_, EventRow.SameEvent.refl row⟩
      rw [after]
      show row ∈ (db.tables.insertEvent new).rowsOf identityHash
      rw [EventTables.rowsOf_insertEvent]
      split
      · exact List.mem_append_left _ stored
      · exact stored
  | nothing created keeps => exact keeps.rows stored

/-- **A row is committed once**, by the action that creates it. -/
theorem Commits.outbox {action : StoreAction Doc} (commits : Commits canonical db action)
    {later : EventRow Doc} (stored : later ∈ (Database.step canonical db action).tables.outbox) :
    (∃ row ∈ db.tables.outbox, later.SameEvent row) ∨
      ∃ entry ∈ StoreHistory.createdBy db action, later.SameEvent entry.2 := by
  cases commits with
  | event id transaction new acts found here created after =>
      rw [after] at stored
      rw [created]
      rcases List.mem_append.mp stored with before | last
      · exact Or.inl ⟨later, before, EventRow.SameEvent.refl later⟩
      · obtain rfl := List.mem_singleton.mp last
        exact Or.inr ⟨_, List.mem_singleton_self _, EventRow.SameEvent.refl later⟩
  | nothing created keeps => exact Or.inl (keeps.outbox stored)

/-- **Sequences only grow.** -/
theorem Consistent.lastSequence_le (consistent : db.Consistent) {action : StoreAction Doc}
    (commits : Commits canonical db action) (identityHash : String) :
    db.tables.lastSequence identityHash ≤
      (Database.step canonical db action).tables.lastSequence identityHash := by
  cases commits with
  | event id transaction new acts found here created after =>
      obtain ⟨continues, -⟩ := (consistent.transactions id transaction found).commit new here
      rw [after]
      show _ ≤ (db.tables.insertEvent new).lastSequence identityHash
      rw [EventTables.lastSequence_insertEvent]
      split
      next same =>
        rw [same, continues.next]
        exact Nat.le_succ _
      next => exact le_rfl
  | nothing created keeps => exact (keeps.lastSequence identityHash).ge

/-! ## The source of a repair -/

/-- The mutation is the one of the newest event of the identity. -/
def CarriesNewest (tables : EventTables Doc) (identityHash : String)
    (mutation : Mutation Doc) : Prop :=
  ∃ source ∈ tables.rowsOf identityHash, source.sequence = tables.lastSequence identityHash ∧
    mutation = source.payload.event.mutation

/-- What a repair knows about the event it is going to create. -/
def ClonesNewest (tables : EventTables Doc) (repair : TracedRepair) : Statement Doc → Prop
  | .insertEvent draft => draft.targetClusters = repair.targetClusters ∧
      CarriesNewest tables repair.identityKey draft.mutation
  | .commitEvent row => row.payload.event.targetClusters = repair.targetClusters ∧
      CarriesNewest tables repair.identityKey row.payload.event.mutation
  | _ => True

/-- The newest row of an identity has its last sequence. -/
theorem newestRow_sequence {tables : EventTables Doc} (sound : tables.Sound) {identityHash : String}
    {source : EventRow Doc}
    (newest : EventTables.newestRow (tables.rowsOf identityHash) = some source) :
    source.sequence = tables.lastSequence identityHash := by
  rw [newestRow_getLast (sequences_ordered sound identityHash)] at newest
  have last := congrArg List.getLast? (sound.counted identityHash)
  rw [List.getLast?_map, newest, Option.map_some, List.getLast?_range'] at last
  split at last
  · cases last
  · have value := Option.some.inj last
    omega

/-- **The source stays the newest** while its identity is locked. -/
theorem CarriesNewest.step {identityHash : String} {mutation : Mutation Doc}
    {action : StoreAction Doc} (consistent : db.Consistent)
    (commits : Commits canonical db action) {other : ℕ} (differs : other ≠ action.transactionId)
    (held : db.headLocks identityHash = some other)
    (carries : CarriesNewest db.tables identityHash mutation) :
    CarriesNewest (Database.step canonical db action).tables identityHash mutation := by
  obtain ⟨source, stored, last, same⟩ := carries
  obtain ⟨later, there, version⟩ := commits.rows stored
  refine ⟨later, there, ?_, by rw [version.payload, same]⟩
  rw [version.sequence, last]
  cases commits with
  | event id transaction new acts found here created after =>
      obtain ⟨-, lock, -⟩ := (consistent.transactions id transaction found).commit new here
      rw [after]
      show _ = (db.tables.insertEvent new).lastSequence identityHash
      rw [EventTables.lastSequence_insertEvent, if_neg]
      rintro rfl
      exact differs (acts ▸ Option.some.inj (held.symm.trans lock))
  | nothing created keeps => exact (keeps.lastSequence identityHash).symm

/-- Another transaction leaves a repair what it knows. -/
theorem ClonesNewest.step {action : StoreAction Doc} (consistent : db.Consistent)
    (commits : Commits canonical db action) {other : ℕ} (differs : other ≠ action.transactionId)
    (found : db.transactions other = some transaction) {repair : TracedRepair}
    {plain : PlainKey repair.idempotencyKey}
    (request : transaction.request = .prepareLatestRepair repair plain)
    (clones : ClonesNewest db.tables repair transaction.next) :
    ClonesNewest (Database.step canonical db action).tables repair transaction.next := by
  have known := consistent.transactions other transaction found
  cases here : transaction.next with
  | insertEvent draft =>
      rw [here] at clones
      obtain ⟨asked, held, -⟩ := known.insert draft here
      rw [request] at asked
      rw [asked.1] at held
      exact ⟨clones.1, clones.2.step consistent commits differs held⟩
  | commitEvent row =>
      rw [here] at clones
      obtain ⟨-, held, -, draft, asked, hash, -⟩ := known.commit row here
      rw [request] at asked
      rw [hash, asked.1] at held
      exact ⟨clones.1, clones.2.step consistent commits differs held⟩
  | existingForKey => trivial
  | ensureHead => trivial
  | selectHead => trivial
  | existingForKeyAgain => trivial
  | selectSource => trivial
  | updateRow => trivial
  | commitRow => trivial
  | lockTable => trivial
  | selectMax => trivial

end Database

/-! ## Histories -/

namespace StoreHistory

variable {canonical : Doc → String} {history : StoreHistory Doc}

/-- A repair has created the row as its clone of the newest event. -/
structure Cloned (history : StoreHistory Doc) (creator : TracedRepair) (row : EventRow Doc) :
    Prop where
  targets : row.payload.event.targetClusters = creator.targetClusters
  newest : ∃ call, history.firstCall creator = some call ∧
    ∃ source ∈ history.db.tables.rowsOf creator.identityKey, source.sequence < row.sequence ∧
      row.payload.event.mutation = source.payload.event.mutation ∧
        ∀ earlier ∈ call.stored, earlier.sequence ≤ source.sequence

/-- A row of the identity is stored under the repair's key. -/
def Keyed (repair : TracedRepair) (row : EventRow Doc) : Prop :=
  ∃ identity : EventIdentity, identity.logicalKey = repair.identityKey ∧
    row.idempotencyKeyHash = indexingIdempotencyKeyHash identity repair.idempotencyKey

/-- **What every history satisfies.** -/
structure Sound (history : StoreHistory Doc) : Prop where
  consistent : history.db.Consistent
  unique : history.created.Pairwise fun first second =>
    first.2.idempotencyKeyHash ≠ second.2.idempotencyKeyHash
  stored : ∀ entry ∈ history.created,
    ∃ row ∈ history.db.tables.rowsOf entry.2.identityHash, row.SameEvent entry.2
  accounted : ∀ row ∈ history.db.tables.outbox, ∃ entry ∈ history.created, row.SameEvent entry.2
  asked : ∀ entry ∈ history.created, ∃ draft, entry.1.For draft ∧
    entry.2.identityHash = draft.identity.logicalKey ∧
      entry.2.idempotencyKeyHash = draft.idempotencyKeyHash
  called : ∀ id transaction repair plain, history.db.transactions id = some transaction →
    transaction.request = .prepareLatestRepair repair plain → history.firstCall repair ≠ none
  seen : ∀ call ∈ history.calls, ∀ earlier ∈ call.stored,
    earlier.sequence ≤ history.db.tables.lastSequence call.repair.identityKey
  flying : ∀ id transaction repair plain, history.db.transactions id = some transaction →
    transaction.request = .prepareLatestRepair repair plain →
      Database.ClonesNewest history.db.tables repair transaction.next
  cloned : ∀ creator plain row, (.prepareLatestRepair creator plain, row) ∈ history.created →
    history.Cloned creator row
  answered : ∀ repair plain event,
    (.prepareLatestRepair repair plain, .event event) ∈ history.db.outcomes →
      ∃ row ∈ history.db.tables.outbox, Keyed repair row ∧ event.eventId = row.eventId ∧
        event.payload = row.payload ∧ event.sequence = row.sequence

theorem sound_empty : (empty : StoreHistory Doc).Sound where
  consistent := Database.Consistent.empty
  unique := List.Pairwise.nil
  stored _ member := nomatch member
  accounted _ member := nomatch member
  asked _ member := nomatch member
  called _ _ _ _ found := nomatch found
  seen _ member := nomatch member
  flying _ _ _ _ found := nomatch found
  cloned _ _ _ member := nomatch member
  answered _ _ _ member := nomatch member

/-- The first call with a key stays the first. -/
theorem firstCall_step {repair : TracedRepair} {call : RepairCall Doc}
    (first : history.firstCall repair = some call) (action : StoreAction Doc) :
    (history.step canonical action).firstCall repair = some call := by
  unfold firstCall at first ⊢
  show (history.calls ++ _).find? _ = _
  rw [List.find?_append, first, Option.some_or]

theorem firstCall_ne_none_step {repair : TracedRepair} (called : history.firstCall repair ≠ none)
    (action : StoreAction Doc) : (history.step canonical action).firstCall repair ≠ none := by
  obtain ⟨call, first⟩ := Option.ne_none_iff_exists'.mp called
  rw [firstCall_step first action]
  exact Option.some_ne_none call

theorem Cloned.step {creator : TracedRepair} {row : EventRow Doc} (cloned : history.Cloned creator row)
    {action : StoreAction Doc} (commits : Database.Commits canonical history.db action) :
    (history.step canonical action).Cloned creator row := by
  obtain ⟨targets, call, first, source, stored, before, mutation, newest⟩ := cloned
  obtain ⟨later, there, version⟩ := commits.rows stored
  refine ⟨targets, call, firstCall_step first action, later, there, ?_, ?_, ?_⟩
  · rw [version.sequence]
    exact before
  · rw [version.payload]
    exact mutation
  · rw [version.sequence]
    exact newest

theorem sequence_le_lastSequence {tables : EventTables Doc} (sound : tables.Sound)
    {identityHash : String} {row : EventRow Doc} (stored : row ∈ tables.rowsOf identityHash) :
    row.sequence ≤ tables.lastSequence identityHash := by
  have member := List.mem_map_of_mem (f := EventRow.sequence) stored
  rw [sound.counted, List.mem_range'_1] at member
  omega

/-- A transaction in flight has been in flight, or is new. -/
theorem inFlight_step (db : Database Doc) (action : StoreAction Doc) {id : ℕ}
    {transaction : Transaction Doc}
    (found : (Database.step canonical db action).transactions id = some transaction) :
    (id ≠ action.transactionId ∧ db.transactions id = some transaction) ∨
      (∃ eventId before, action = .advance id eventId ∧ db.transactions id = some before ∧
        transaction.request = before.request) ∨
      (db.transactions id = some transaction ∧ Database.step canonical db action = db) ∨
      ∃ request now, action = .start id request now ∧ db.transactions id = none ∧
        transaction.request = request ∧ transaction.next = request.first := by
  cases action with
  | start other request now =>
      change (db.start other request now).transactions id = some transaction at found
      unfold Database.start at found
      split at found
      next busy =>
        refine Or.inr (Or.inr (Or.inl ⟨found, ?_⟩))
        show db.start other request now = db
        unfold Database.start
        rw [if_pos busy]
      next free =>
        by_cases same : id = other
        · subst same
          obtain rfl := Option.some.inj ((if_pos rfl).symm.trans found)
          exact Or.inr (Or.inr (Or.inr ⟨request, now, rfl, by simpa using free, rfl, rfl⟩))
        · exact Or.inl ⟨same, (if_neg same).symm.trans found⟩
  | abort other =>
      change (db.abort other).transactions id = some transaction at found
      unfold Database.abort at found
      split at found
      next absent =>
        refine Or.inr (Or.inr (Or.inl ⟨found, ?_⟩))
        show db.abort other = db
        unfold Database.abort
        rw [absent]
      next running =>
        by_cases same : id = other
        · exact absurd ((if_pos same).symm.trans found) (by simp)
        · exact Or.inl ⟨same, (if_neg same).symm.trans found⟩
  | advance other eventId =>
      cases running : db.transactions other with
      | none =>
          have idle : Database.step canonical db (.advance other eventId) = db := by
            show db.advance canonical other eventId = db
            unfold Database.advance
            rw [running]
          rw [idle] at found
          exact Or.inr (Or.inr (Or.inl ⟨found, idle⟩))
      | some before =>
          have serves := Database.serves_advance canonical running eventId
          by_cases same : id = other
          · subst same
            exact Or.inr (Or.inl ⟨eventId, before, rfl, running, serves.going transaction found⟩)
          · exact Or.inl ⟨same, (serves.others id same).symm.trans found⟩

/-- **The outcomes of an action**: a repair that returns an event has found it under its
key or has created it. -/
theorem outcome_step (consistent : history.db.Consistent) (action : StoreAction Doc)
    {repair : TracedRepair} {plain : PlainKey repair.idempotencyKey} {event : StoredEvent Doc}
    (returned : (.prepareLatestRepair repair plain, .event event) ∈
      (Database.step canonical history.db action).outcomes) :
    (.prepareLatestRepair repair plain, .event event) ∈ history.db.outcomes ∨
      ∃ row ∈ (Database.step canonical history.db action).tables.outbox,
        Keyed repair row ∧ event = rowToEvent row := by
  cases action with
  | start id request now =>
      change _ ∈ (history.db.start id request now).outcomes at returned
      unfold Database.start at returned
      split at returned
      · exact Or.inl returned
      · exact Or.inl returned
  | abort id =>
      change _ ∈ (history.db.abort id).outcomes at returned
      unfold Database.abort at returned
      split at returned
      · exact Or.inl returned
      · rcases List.mem_append.mp returned with before | last
        · exact Or.inl before
        · cases (Prod.mk.inj (List.mem_singleton.mp last)).2
  | advance id eventId =>
      cases running : history.db.transactions id with
      | none =>
          change _ ∈ (history.db.advance canonical id eventId).outcomes at returned
          unfold Database.advance at returned
          rw [running] at returned
          exact Or.inl returned
      | some transaction =>
          change _ ∈ (history.db.advance canonical id eventId).outcomes at returned
          by_cases repairs : transaction.request = .prepareLatestRepair repair plain
          · have advance : history.db.advance canonical id eventId =
                history.db.advanceRepair canonical id transaction repair eventId := by
              unfold Database.advance
              simp only [running, repairs]
            show _ ∨ ∃ row ∈ (history.db.advance canonical id eventId).tables.outbox, _
            rw [advance] at returned ⊢
            cases Database.repairStep canonical history.db id transaction repair eventId with
            | waits same => exact Or.inl (same ▸ returned)
            | reads next tables outcomes going drafts commits => exact Or.inl (outcomes ▸ returned)
            | clones source here newest same =>
                rw [same] at returned
                exact Or.inl returned
            | inserts draft eventId now position here tables outcomes going =>
                exact Or.inl (outcomes ▸ returned)
            | refuses error tables outcomes ended =>
                rw [outcomes] at returned
                rcases List.mem_append.mp returned with before | last
                · exact Or.inl before
                · cases (Prod.mk.inj (List.mem_singleton.mp last)).2
            | finds head row headed existing same =>
                rw [same] at returned ⊢
                rcases List.mem_append.mp returned with before | last
                · exact Or.inl before
                · have here := StoreOutcome.event.inj (Prod.mk.inj (List.mem_singleton.mp last)).2
                  refine Or.inr ⟨row, List.mem_of_find?_eq_some existing,
                    ⟨head.identity, consistent.sound.named _ head headed, ?_⟩, here⟩
                  simpa using List.find?_some existing
            | commits row here same =>
                rw [same] at returned ⊢
                rcases List.mem_append.mp returned with before | last
                · exact Or.inl before
                · have event := StoreOutcome.event.inj (Prod.mk.inj (List.mem_singleton.mp last)).2
                  obtain ⟨-, -, -, draft, asked, -, keyHash⟩ :=
                    (consistent.transactions id transaction running).commit row here
                  rw [repairs] at asked
                  refine Or.inr ⟨row, List.mem_append_right _ (List.mem_singleton_self row),
                    ⟨draft.identity, asked.1, ?_⟩, event⟩
                  rw [keyHash, ← asked.2]
                  rfl
          · rcases (Database.serves_advance canonical running eventId).outcomes with
              same | ⟨outcome, same⟩
            · exact Or.inl (same ▸ returned)
            · rw [same] at returned
              rcases List.mem_append.mp returned with before | last
              · exact Or.inl before
              · exact absurd (Prod.mk.inj (List.mem_singleton.mp last)).1.symm repairs

/-- What a repair in flight knows after its own statement. -/
theorem clonesNewest_advance (consistent : history.db.Consistent) {id : ℕ} {eventId : String}
    {before transaction : Transaction Doc} {repair : TracedRepair}
    {plain : PlainKey repair.idempotencyKey} (running : history.db.transactions id = some before)
    (request : before.request = .prepareLatestRepair repair plain)
    (knows : Database.ClonesNewest history.db.tables repair before.next)
    (found : (history.db.advance canonical id eventId).transactions id = some transaction) :
    Database.ClonesNewest (history.db.advance canonical id eventId).tables repair
      transaction.next := by
  have advance : history.db.advance canonical id eventId =
      history.db.advanceRepair canonical id before repair eventId := by
    unfold Database.advance
    simp only [running, request]
  rw [advance] at found ⊢
  cases Database.repairStep canonical history.db id before repair eventId with
  | waits same =>
      rw [same] at found ⊢
      obtain rfl := Option.some.inj (running.symm.trans found)
      exact knows
  | reads next tables outcomes going drafts commits =>
      obtain rfl := Option.some.inj (going.symm.trans found)
      cases next with
      | insertEvent draft => exact absurd rfl (drafts draft)
      | commitEvent row => exact absurd rfl (commits row)
      | existingForKey => trivial
      | ensureHead => trivial
      | selectHead => trivial
      | existingForKeyAgain => trivial
      | selectSource => trivial
      | updateRow => trivial
      | commitRow => trivial
      | lockTable => trivial
      | selectMax => trivial
  | clones source here newest same =>
      rw [same] at found ⊢
      obtain rfl := Option.some.inj ((if_pos rfl).symm.trans found)
      exact ⟨rfl, source, EventTables.newestRow_mem newest,
        Database.newestRow_sequence consistent.sound newest, rfl⟩
  | inserts draft eventId now position here tables outcomes going =>
      obtain rfl := Option.some.inj (going.symm.trans found)
      rw [here] at knows
      rw [tables]
      exact knows
  | refuses error tables outcomes ended => cases ended.symm.trans found
  | finds head row headed existing same =>
      rw [same] at found
      cases (if_pos rfl).symm.trans found
  | commits row here same =>
      rw [same] at found
      cases (if_pos rfl).symm.trans found

/-- **The row that a repair commits** is its clone of the newest event. -/
theorem Sound.cloned_commit (sound : history.Sound) {id : ℕ} {transaction : Transaction Doc}
    {row : EventRow Doc} {repair : TracedRepair} {plain : PlainKey repair.idempotencyKey}
    (found : history.db.transactions id = some transaction)
    (here : transaction.next = .commitEvent row)
    (request : transaction.request = .prepareLatestRepair repair plain) :
    history.Cloned repair row := by
  obtain ⟨continues, -, -, draft, asked, hash, -⟩ :=
    (sound.consistent.transactions id transaction found).commit row here
  have knows := sound.flying id transaction repair plain found request
  rw [here] at knows
  obtain ⟨targets, source, stored, last, mutation⟩ := knows
  obtain ⟨call, first⟩ :=
    Option.ne_none_iff_exists'.mp (sound.called id transaction repair plain found request)
  have same : SameKey repair call.repair := by simpa using List.find?_some first
  rw [request] at asked
  refine ⟨targets, call, first, source, stored, ?_, mutation, fun earlier before => ?_⟩
  · rw [continues.next, hash, asked.1, last]
    exact Nat.lt_succ_self _
  · rw [last, ← same.1]
    exact sound.seen call (List.mem_of_find?_eq_some first) earlier before

/-- **Every action keeps a history sound.** -/
theorem Sound.step (sound : history.Sound) (action : StoreAction Doc) :
    (history.step canonical action).Sound := by
  have consistent := sound.consistent
  have commits := consistent.commits canonical action
  have entries : ∀ entry ∈ (history.step canonical action).created,
      entry ∈ history.created ∨ ∃ id transaction, history.db.transactions id = some transaction ∧
        transaction.request = entry.1 ∧ transaction.next = .commitEvent entry.2 ∧
          (Database.step canonical history.db action).tables =
            history.db.tables.insertEvent entry.2 := by
    intro entry member
    rcases List.mem_append.mp member with before | new
    · exact Or.inl before
    · cases commits with
      | event id transaction row acts found here created after =>
          rw [created] at new
          obtain rfl := List.mem_singleton.mp new
          exact Or.inr ⟨id, transaction, found, rfl, here, by rw [after]; rfl⟩
      | nothing created keeps =>
          rw [created] at new
          cases new
  constructor
  case consistent => exact consistent.step action
  case unique =>
    refine List.pairwise_append.mpr ⟨sound.unique, ?_, ?_⟩
    · cases commits with
      | event id transaction row acts found here created after =>
          rw [created]
          exact List.pairwise_singleton _ _
      | nothing created keeps =>
          rw [created]
          exact List.Pairwise.nil
    · intro entry before new member
      cases commits with
      | event id transaction row acts found here created after =>
          rw [created] at member
          obtain rfl := List.mem_singleton.mp member
          obtain ⟨kept, stored, version⟩ := sound.stored entry before
          obtain ⟨continues, -⟩ := (consistent.transactions id transaction found).commit row here
          rw [← version.idempotencyKeyHash]
          exact continues.fresh_outbox consistent.keyed kept (List.mem_of_mem_filter stored)
      | nothing created keeps =>
          rw [created] at member
          cases member
  case stored =>
    intro entry member
    rcases entries entry member with before | ⟨id, transaction, found, request, here, after⟩
    · obtain ⟨row, stored, version⟩ := sound.stored entry before
      obtain ⟨later, there, again⟩ := commits.rows stored
      exact ⟨later, there, again.trans version⟩
    · refine ⟨entry.2, ?_, EventRow.SameEvent.refl entry.2⟩
      show _ ∈ (Database.step canonical history.db action).tables.rowsOf _
      rw [after, EventTables.rowsOf_insertEvent, if_pos rfl]
      exact List.mem_append_right _ (List.mem_singleton_self _)
  case accounted =>
    intro later stored
    rcases commits.outbox stored with ⟨row, before, version⟩ | ⟨entry, new, version⟩
    · obtain ⟨entry, member, again⟩ := sound.accounted row before
      exact ⟨entry, List.mem_append_left _ member, version.trans again⟩
    · exact ⟨entry, List.mem_append_right _ new, version⟩
  case asked =>
    intro entry member
    rcases entries entry member with before | ⟨id, transaction, found, request, here, after⟩
    · exact sound.asked entry before
    · obtain ⟨-, -, -, draft, asked, hash, keyHash⟩ :=
        (consistent.transactions id transaction found).commit entry.2 here
      exact ⟨draft, request ▸ asked, hash, keyHash⟩
  case called =>
    intro id transaction repair plain found request
    rcases inFlight_step history.db action found with ⟨-, before⟩ |
      ⟨eventId, old, -, before, same⟩ | ⟨before, -⟩ | ⟨asked, now, rfl, idle, same, -⟩
    · exact firstCall_ne_none_step (sound.called id transaction repair plain before request) action
    · exact firstCall_ne_none_step
        (sound.called id old repair plain before (same.symm.trans request)) action
    · exact firstCall_ne_none_step (sound.called id transaction repair plain before request) action
    · obtain rfl := same.symm.trans request
      have call : (⟨repair, history.db.tables.rowsOf repair.identityKey⟩ : RepairCall Doc) ∈
          (history.step canonical (.start id (.prepareLatestRepair repair plain) now)).calls := by
        refine List.mem_append_right _ ?_
        show _ ∈ (if (history.db.transactions id).isSome then _ else _)
        rw [idle]
        exact List.mem_singleton_self _
      intro missing
      have absent := List.find?_eq_none.mp missing _ call
      simp [SameKey] at absent
  case seen =>
    intro call member earlier stored
    rcases List.mem_append.mp member with before | new
    · exact (sound.seen call before earlier stored).trans (consistent.lastSequence_le commits _)
    · refine le_trans ?_ (consistent.lastSequence_le commits _)
      cases action with
      | start id request now =>
          cases request with
          | prepareLatestRepair repair plain =>
              change call ∈ (if _ then [] else [_]) at new
              split at new
              · cases new
              · obtain rfl := List.mem_singleton.mp new
                exact sequence_le_lastSequence consistent.sound stored
          | prepare => cases new
          | markPublished => cases new
          | recordFailure => cases new
          | highWaterMark => cases new
      | advance => cases new
      | abort => cases new
  case flying =>
    intro id transaction repair plain found request
    rcases inFlight_step history.db action found with ⟨differs, before⟩ |
      ⟨eventId, old, rfl, before, same⟩ | ⟨before, idle⟩ | ⟨asked, now, rfl, idle, same, first⟩
    · exact (sound.flying id transaction repair plain before request).step consistent commits
        differs before request
    · have asked := same.symm.trans request
      exact clonesNewest_advance consistent before asked
        (sound.flying id old repair plain before asked) found
    · show Database.ClonesNewest (Database.step canonical history.db action).tables _ _
      rw [idle]
      exact sound.flying id transaction repair plain before request
    · obtain rfl := same.symm.trans request
      rw [first]
      trivial
  case cloned =>
    intro creator plain row member
    rcases entries _ member with before | ⟨id, transaction, found, request, here, after⟩
    · exact (sound.cloned creator plain row before).step commits
    · exact (sound.cloned_commit found here request).step commits
  case answered =>
    intro repair plain event returned
    rcases outcome_step consistent action returned with before | ⟨row, stored, keyed, rfl⟩
    · obtain ⟨row, stored, keyed, eventId, payload, sequence⟩ :=
        sound.answered repair plain event before
      obtain ⟨later, there, version⟩ :=
        commits.rows (List.mem_filter.mpr ⟨stored, decide_eq_true rfl⟩)
      obtain ⟨identity, logical, keyHash⟩ := keyed
      refine ⟨later, List.mem_of_mem_filter there, ⟨identity, logical, ?_⟩, ?_, ?_, ?_⟩
      · exact version.idempotencyKeyHash.trans keyHash
      · exact eventId.trans version.eventId.symm
      · exact payload.trans version.payload.symm
      · exact sequence.trans version.sequence.symm
    · exact ⟨row, stored, keyed, rfl, rfl, rfl⟩

theorem sound_run (canonical : Doc → String) (actions : List (StoreAction Doc)) :
    (run (step canonical) empty actions).Sound :=
  run_invariant_always (I := Sound) (fun _ action sound => sound.step action) sound_empty

/-- The database of a history is that of the same run without it. -/
theorem db_run (canonical : Doc → String) (history : StoreHistory Doc)
    (actions : List (StoreAction Doc)) :
    (run (step canonical) history actions).db =
      run (Database.step canonical) history.db actions := by
  induction actions generalizing history with
  | nil => rfl
  | cons action actions ih => exact ih (history.step canonical action)

/-- Repairs with the same key have the same first call. -/
theorem firstCall_congr {repair creator : TracedRepair} (same : SameKey repair creator) :
    history.firstCall creator = history.firstCall repair := by
  have keys : ∀ other, SameKey creator other ↔ SameKey repair other := by
    intro other
    unfold SameKey
    rw [same.1, same.2]
  unfold firstCall
  congr 1
  funext call
  exact decide_eq_decide.mpr (keys call.repair)

/-- **Pre-emption.** In every history of interleaved transactions, an event that
`prepare_latest_repair` returned was created by a repair with this key, for the targets of
that repair and with a mutation at least as new as every event that existed at the first
call with the key, if and only if no client mutation of the identity has created an
event under the key. -/
theorem repair_unpreempted_iff (canonical : Doc → String) (actions : List (StoreAction Doc)) :
    let history := run (step canonical) empty actions
    ∀ repair plain stored,
      (.prepareLatestRepair repair plain, .event stored) ∈ history.db.outcomes →
        (history.Repairs repair stored ↔ ¬history.Preempted repair) := by
  intro history repair plain stored returned
  have sound : history.Sound := sound_run canonical actions
  obtain ⟨row, there, ⟨identity, logical, keyHash⟩, eventId, payload, sequence⟩ :=
    sound.answered repair plain stored returned
  constructor
  · rintro ⟨⟨creator, creatorPlain, clone, created, same, -⟩, -⟩
      ⟨draft, draftPlain, other, preempting, owner, key⟩
    -- Both events would be stored under one key.
    obtain ⟨cloneDraft, asked, -, cloneHash⟩ := sound.asked _ created
    obtain ⟨otherDraft, otherAsked, -, otherHash⟩ := sound.asked _ preempting
    have named : otherDraft = draft := otherAsked
    rw [named] at otherHash
    have equal : clone.idempotencyKeyHash = other.idempotencyKeyHash := by
      rw [cloneHash, otherHash]
      unfold TracedDraft.idempotencyKeyHash
      rw [asked.2, same.2, key]
      exact keyHash_congr (asked.1.trans (same.1.trans owner.symm)) _
    have symm : Std.Symm fun first second : StoreRequest Doc × EventRow Doc =>
        first.2.idempotencyKeyHash ≠ second.2.idempotencyKeyHash := ⟨fun _ _ h => h.symm⟩
    have apart : (StoreRequest.prepareLatestRepair creator creatorPlain, clone) ≠
        (StoreRequest.prepare draft draftPlain, other) := by simp
    exact sound.unique.forall created preempting apart equal
  · intro unpreempted
    obtain ⟨⟨request, origin⟩, created, version⟩ := sound.accounted row there
    obtain ⟨draft, asked, hash, originHash⟩ := sound.asked _ created
    have own : indexingIdempotencyKeyHash draft.identity draft.idempotencyKey =
        indexingIdempotencyKeyHash identity repair.idempotencyKey := by
      rw [← keyHash, version.idempotencyKeyHash, originHash]
      rfl
    obtain ⟨owner, key⟩ := logicalKey_of_keyHash asked.plain plain own
    rw [logical] at owner
    cases request with
    | prepare other otherPlain =>
        obtain rfl : draft = other := asked
        exact absurd ⟨draft, otherPlain, origin, created, owner, key⟩ unpreempted
    | prepareLatestRepair creator creatorPlain =>
        have same : SameKey repair creator :=
          ⟨asked.1.symm.trans owner, asked.2.symm.trans key⟩
        obtain ⟨targets, call, first, source, member, before, mutation, newest⟩ :=
          sound.cloned creator creatorPlain origin created
        constructor
        · refine ⟨creator, creatorPlain, origin, created, same, ?_, ?_⟩
          · exact eventId.trans version.eventId
          · rw [payload, version.payload, targets]
        · refine ⟨call, (firstCall_congr same) ▸ first, source, same.1 ▸ member, ?_, ?_, newest⟩
          · rw [sequence, version.sequence]
            exact before
          · rw [payload, version.payload, mutation]
    | markPublished => exact asked.elim
    | recordFailure => exact asked.elim
    | highWaterMark => exact asked.elim

/-- A write of one note under a key of the client. -/
def clientWrite (idempotencyKey text : String) : TracedDraft String where
  identity := ⟨"globex", "notes", "n7"⟩
  mutation := .upsert text
  targetClusters := ["legacy"]
  routingRevision := 1
  rolloutId := none
  idempotencyKey

/-- The repair of the note for a rollout to another cluster. -/
def rolloutRepair : TracedRepair where
  identityKey := (clientWrite "" "").identity.logicalKey
  idempotencyKey := "rollout-repair:r1:2:5f2c"
  targetClusters := ["legacy", "candidate"]
  routingRevision := 2
  rolloutId := some "r1"

/-- The note is written twice, at first under the given key, and then repaired. -/
def writtenThenRepaired (firstKey : String) (plain : PlainKey firstKey) :
    List (StoreAction String) :=
  let first : List (StoreAction String) :=
    .start 0 (.prepare (clientWrite firstKey "old") plain) 0 ::
      List.replicate 6 (.advance 0 "evt:1")
  let second : List (StoreAction String) :=
    .start 1 (.prepare (clientWrite "client-2" "new") (by unfold PlainKey clientWrite; decide)) 1 ::
      List.replicate 6 (.advance 1 "evt:2")
  let repair : List (StoreAction String) :=
    .start 2 (.prepareLatestRepair rolloutRepair (by unfold PlainKey rolloutRepair; decide)) 2 ::
      List.replicate 5 (.advance 2 "evt:3")
  first ++ second ++ repair

/-- What the transactions of a repair have returned, the first of them. -/
def answer (history : StoreHistory Doc) (repair : TracedRepair) : Option (StoredEvent Doc) :=
  history.db.outcomes.findSome? fun result =>
    match result with
    | (.prepareLatestRepair asked _, .event stored) => if asked = repair then some stored else none
    | _ => none

theorem returned_of_answer {repair : TracedRepair} {stored : StoredEvent Doc}
    (answered : history.answer repair = some stored) :
    ∃ plain, (.prepareLatestRepair repair plain, .event stored) ∈ history.db.outcomes := by
  obtain ⟨⟨request, outcome⟩, member, here⟩ := List.exists_of_findSome?_eq_some answered
  split at here
  next asked plain event same =>
    obtain ⟨rfl, rfl⟩ := Prod.mk.inj same
    split at here
    next equal =>
      subst equal
      obtain rfl := Option.some.inj here
      exact ⟨plain, member⟩
    next => cases here
  next => cases here

theorem repair_unpreempted_written :
    let history := run (step fun text => text) empty
      (writtenThenRepaired "client-1" (by unfold PlainKey; decide))
    ∃ stored, history.answer rolloutRepair = some stored ∧
      (history.Repairs rolloutRepair stored ↔ ¬history.Preempted rolloutRepair) := by
  intro history
  obtain ⟨stored, answered⟩ : ∃ stored, history.answer rolloutRepair = some stored :=
    Option.isSome_iff_exists.mp (by decide +kernel)
  obtain ⟨plain, returned⟩ := returned_of_answer answered
  exact ⟨stored, answered, repair_unpreempted_iff (fun text => text)
    (writtenThenRepaired "client-1" (by unfold PlainKey; decide)) rolloutRepair plain stored
    returned⟩

/-- A client has used the key of the repair: the repair returns the client's event, with
its first text and without the candidate cluster. -/
theorem client_event_answers_repair :
    let history := run (step fun text => text) empty
      (writtenThenRepaired "rollout-repair:r1:2:5f2c" (by unfold PlainKey; decide))
    ∃ plain stored, (.prepareLatestRepair rolloutRepair plain, .event stored) ∈ history.db.outcomes ∧
      stored.payload.event.targetClusters = ["legacy"] ∧
      stored.payload.event.mutation = .upsert "old" ∧ ¬history.Repairs rolloutRepair stored := by
  intro history
  have shown : (history.answer rolloutRepair).map (fun stored =>
      (stored.payload.event.targetClusters, stored.payload.event.mutation)) =
        some (["legacy"], .upsert "old") := by decide +kernel
  obtain ⟨stored, answered, content⟩ := Option.map_eq_some_iff.mp shown
  obtain ⟨targets, mutation⟩ := Prod.mk.inj content
  obtain ⟨plain, returned⟩ := returned_of_answer answered
  refine ⟨plain, stored, returned, targets, mutation, ?_⟩
  -- No repair has created an event.
  rintro ⟨⟨creator, creatorPlain, row, created, -⟩, -⟩
  have requests : ∀ entry ∈ history.created, entry.1.isRepair = false := by decide +kernel
  exact Bool.noConfusion (requests _ created)

end StoreHistory

end ImposbroSearch.Publishing
