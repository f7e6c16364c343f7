import ImposbroSearch.Publishing.StoreTransactions

/-!
# Sequencing and idempotency under interleaving

What a transaction has seen stays true while it waits, because it holds the lock of
its identity's head: no other transaction adds a row of that identity. A key belongs
to one identity, so no other transaction uses its key either. Each commit is then a
sound insertion into sound tables.
-/

namespace ImposbroSearch.Publishing

open ImposbroSearch.Foundation ImposbroSearch.Indexing

variable {Doc : Type}

/-- The key that a plain key is joined to is determined by the joined text. -/
theorem logicalKey_of_keyHash {first second : EventIdentity} {key other : String}
    (plain : PlainKey key) (otherPlain : PlainKey other)
    (same : indexingIdempotencyKeyHash first key = indexingIdempotencyKeyHash second other) :
    first.logicalKey = second.logicalKey ∧ key = other := by
  have text := congrArg String.toList same
  rw [idempotencyKeyHash_eq, idempotencyKeyHash_eq] at text
  simp only [String.toList_append, List.append_assoc] at text
  obtain ⟨lead, rest⟩ := cut_inj plain otherPlain text
  exact ⟨String.toList_inj.mp lead, String.toList_inj.mp rest⟩

/-- A key hash depends on the identity through its logical key. -/
theorem keyHash_congr {first second : EventIdentity} (same : first.logicalKey = second.logicalKey)
    (key : String) : indexingIdempotencyKeyHash first key = indexingIdempotencyKeyHash second key := by
  rw [idempotencyKeyHash_eq, idempotencyKeyHash_eq, same]

/-- The row is stored under a plain key of its identity. -/
def EventRow.Keyed (row : EventRow Doc) : Prop :=
  ∃ identity key, PlainKey key ∧ row.identityHash = identity.logicalKey ∧
    row.idempotencyKeyHash = indexingIdempotencyKeyHash identity key

/-- Rows with one key are rows of one identity. -/
theorem EventRow.Keyed.identityHash {row other : EventRow Doc} (keyed : row.Keyed)
    (otherKeyed : other.Keyed) (same : row.idempotencyKeyHash = other.idempotencyKeyHash) :
    row.identityHash = other.identityHash := by
  obtain ⟨identity, key, plain, hash, keyHash⟩ := keyed
  obtain ⟨otherIdentity, otherKey, otherPlain, otherHash, otherKeyHash⟩ := otherKeyed
  rw [hash, otherHash]
  exact (logicalKey_of_keyHash plain otherPlain (keyHash ▸ otherKeyHash ▸ same)).1

/-- The draft is the one of the request, or a repair's clone of a stored event. -/
def StoreRequest.For (request : StoreRequest Doc) (draft : TracedDraft Doc) : Prop :=
  match request with
  | prepare asked _ => draft = asked
  | prepareLatestRepair repair _ =>
    draft.identity.logicalKey = repair.identityKey ∧ draft.idempotencyKey = repair.idempotencyKey
  | _ => False

theorem StoreRequest.For.plain {request : StoreRequest Doc} {draft : TracedDraft Doc}
    (asked : request.For draft) : PlainKey draft.idempotencyKey := by
  cases request with
  | prepare draft plain => exact asked ▸ plain
  | prepareLatestRepair repair plain => exact asked.2 ▸ plain
  | markPublished => exact asked.elim
  | recordFailure => exact asked.elim
  | highWaterMark => exact asked.elim

/-! ## What is known at each statement -/

/-- The row that is about to be committed continues its identity. -/
structure Continues (tables : EventTables Doc) (nextPosition : ℕ) (row : EventRow Doc) : Prop where
  next : row.sequence = tables.lastSequence row.identityHash + 1
  later : ∀ other ∈ tables.rowsOf row.identityHash, other.globalPosition < row.globalPosition
  drawn : row.globalPosition < nextPosition
  fresh : ∀ other ∈ tables.rowsOf row.identityHash,
    other.idempotencyKeyHash ≠ row.idempotencyKeyHash
  hashed : row.payload.event.identity.logicalKey = row.identityHash
  keyed : row.Keyed

/-- A row with this key would be one of this identity. -/
theorem Continues.fresh_outbox {tables : EventTables Doc} {nextPosition : ℕ} {row : EventRow Doc}
    (continues : Continues tables nextPosition row) (keyed : ∀ other ∈ tables.outbox, other.Keyed) :
    ∀ other ∈ tables.outbox, other.idempotencyKeyHash ≠ row.idempotencyKeyHash := by
  intro other stored same
  have identity := (keyed other stored).identityHash continues.keyed same
  exact continues.fresh other (by simp [EventTables.rowsOf, stored, identity]) same

/-- A transaction knows, by the statement it has reached, and by the locks it holds. -/
structure TransactionSound (db : Database Doc) (id : ℕ) (transaction : Transaction Doc) :
    Prop where
  inserted : transaction.insertedHead = true → ∃ draft plain,
    transaction.request = .prepare draft plain ∧
      db.headLocks draft.identity.logicalKey = some id ∧
      db.tables.heads draft.identity.logicalKey = none
  again : transaction.next = .existingForKeyAgain →
    (∀ draft plain, transaction.request = .prepare draft plain →
      db.headLocks draft.identity.logicalKey = some id) ∧
    ∀ repair plain, transaction.request = .prepareLatestRepair repair plain →
      db.headLocks repair.identityKey = some id
  source : transaction.next = .selectSource →
    ∀ repair plain, transaction.request = .prepareLatestRepair repair plain →
      db.headLocks repair.identityKey = some id ∧
        ∃ head, db.tables.heads repair.identityKey = some head ∧
          ∀ row ∈ db.tables.rowsOf repair.identityKey,
            row.idempotencyKeyHash ≠
              indexingIdempotencyKeyHash head.identity repair.idempotencyKey
  insert : ∀ draft, transaction.next = .insertEvent draft →
    transaction.request.For draft ∧ db.headLocks draft.identity.logicalKey = some id ∧
      ∀ row ∈ db.tables.rowsOf draft.identity.logicalKey,
        row.idempotencyKeyHash ≠ draft.idempotencyKeyHash
  commit : ∀ row, transaction.next = .commitEvent row →
    Continues db.tables db.nextPosition row ∧ db.headLocks row.identityHash = some id ∧
      id ∈ db.rowExclusive ∧ ∃ draft, transaction.request.For draft ∧
        row.identityHash = draft.identity.logicalKey ∧
        row.idempotencyKeyHash = draft.idempotencyKeyHash

/-- **What every reachable database satisfies.** -/
structure Database.Consistent (db : Database Doc) : Prop where
  sound : db.tables.Sound
  drawn : ∀ row ∈ db.tables.outbox, row.globalPosition < db.nextPosition
  keyed : ∀ row ∈ db.tables.outbox, row.Keyed
  exclusive : db.share = [] ∨ db.rowExclusive = []
  transactions : ∀ id transaction, db.transactions id = some transaction →
    TransactionSound db id transaction

/-- A property of the tables that holds of them as long as the statements keep it. -/
structure KeptByStatements (I : EventTables Doc → Prop) : Prop where
  headed : ∀ {tables}, I tables → ∀ row ∈ tables.outbox, tables.heads row.identityHash ≠ none
  named : ∀ {tables}, I tables → ∀ identityHash head,
    tables.heads identityHash = some head → head.identity.logicalKey = identityHash
  hashed : ∀ {tables}, I tables → ∀ row ∈ tables.outbox,
    row.payload.event.identity.logicalKey = row.identityHash
  insertEvent : ∀ {tables} {row : EventRow Doc}, I tables →
    row.sequence = tables.lastSequence row.identityHash + 1 →
    (∀ other ∈ tables.rowsOf row.identityHash, other.globalPosition < row.globalPosition) →
    (∀ other ∈ tables.outbox, other.idempotencyKeyHash ≠ row.idempotencyKeyHash) →
    row.payload.event.identity.logicalKey = row.identityHash → I (tables.insertEvent row)
  updateRows : ∀ {tables} (request : StoreRequest Doc) (now : ℕ), I tables →
    I (tables.updateRows (request.update now))

/-- Consistency with another property of the tables in the place of soundness. -/
structure Database.ConsistentFor (I : EventTables Doc → Prop) (db : Database Doc) : Prop where
  tables : I db.tables
  drawn : ∀ row ∈ db.tables.outbox, row.globalPosition < db.nextPosition
  keyed : ∀ row ∈ db.tables.outbox, row.Keyed
  exclusive : db.share = [] ∨ db.rowExclusive = []
  transactions : ∀ id transaction, db.transactions id = some transaction →
    TransactionSound db id transaction

theorem Database.consistent_iff {db : Database Doc} :
    db.Consistent ↔ db.ConsistentFor EventTables.Sound := by
  constructor
  · intro consistent
    exact ⟨consistent.sound, consistent.drawn, consistent.keyed, consistent.exclusive,
      consistent.transactions⟩
  · intro consistent
    exact ⟨consistent.tables, consistent.drawn, consistent.keyed, consistent.exclusive,
      consistent.transactions⟩


/-! ## What other transactions leave alone -/

/-- The tables agree at an identity, up to publication marks. -/
structure AgreeAt (before after : EventTables Doc) (identityHash : String) : Prop where
  heads : after.heads identityHash = before.heads identityHash
  rows : ∀ row ∈ after.rowsOf identityHash, ∃ old ∈ before.rowsOf identityHash,
    old.globalPosition = row.globalPosition ∧ old.idempotencyKeyHash = row.idempotencyKeyHash

theorem AgreeAt.refl (tables : EventTables Doc) (identityHash : String) :
    AgreeAt tables tables identityHash :=
  ⟨rfl, fun row stored => ⟨row, stored, rfl, rfl⟩⟩

theorem AgreeAt.lastSequence {before after : EventTables Doc} {identityHash : String}
    (agree : AgreeAt before after identityHash) :
    after.lastSequence identityHash = before.lastSequence identityHash := by
  unfold EventTables.lastSequence
  rw [agree.heads]

theorem AgreeAt.insertEvent (tables : EventTables Doc) {row : EventRow Doc} {identityHash : String}
    (differs : identityHash ≠ row.identityHash) :
    AgreeAt tables (tables.insertEvent row) identityHash where
  heads := if_neg differs
  rows other stored := by
    rw [EventTables.rowsOf_insertEvent, if_neg differs] at stored
    exact ⟨other, stored, rfl, rfl⟩

/-- Two versions of a row that differ in their publication marks only. -/
structure EventRow.SameEvent (updated row : EventRow Doc) : Prop where
  identityHash : updated.identityHash = row.identityHash
  sequence : updated.sequence = row.sequence
  globalPosition : updated.globalPosition = row.globalPosition
  idempotencyKeyHash : updated.idempotencyKeyHash = row.idempotencyKeyHash
  payload : updated.payload = row.payload
  eventId : updated.eventId = row.eventId
  requestDigest : updated.requestDigest = row.requestDigest

/-- An update request changes publication marks only. -/
theorem update_same (request : StoreRequest Doc) (now : ℕ) (row : EventRow Doc) :
    (request.update now row).SameEvent row := by
  cases request with
  | markPublished eventId =>
      obtain ⟨identity, sequence, position, key, payload, id, digest⟩ :=
        EventTables.markPublished_same eventId now row
      exact ⟨identity, sequence, position, key, payload, id, digest⟩
  | recordFailure eventId error =>
      obtain ⟨identity, sequence, position, key, payload, id, digest⟩ :=
        EventTables.recordFailure_same eventId error row
      exact ⟨identity, sequence, position, key, payload, id, digest⟩
  | prepare => exact ⟨rfl, rfl, rfl, rfl, rfl, rfl, rfl⟩
  | prepareLatestRepair => exact ⟨rfl, rfl, rfl, rfl, rfl, rfl, rfl⟩
  | highWaterMark => exact ⟨rfl, rfl, rfl, rfl, rfl, rfl, rfl⟩

/-- An update request leaves published rows alone. -/
theorem update_published (request : StoreRequest Doc) (now : ℕ) {row : EventRow Doc}
    (published : row.publishedAt ≠ none) : request.update now row = row := by
  have unmatched : ∀ eventId, ¬(row.eventId = eventId ∧ row.publishedAt = none) :=
    fun _ pending => published pending.2
  cases request with
  | markPublished eventId => exact if_neg (unmatched eventId)
  | recordFailure eventId error => exact if_neg (unmatched eventId)
  | prepare => rfl
  | prepareLatestRepair => rfl
  | highWaterMark => rfl

theorem rowsOf_updateRows {tables : EventTables Doc} {request : StoreRequest Doc} {now : ℕ}
    {identityHash : String} {row : EventRow Doc}
    (stored : row ∈ (tables.updateRows (request.update now)).rowsOf identityHash) :
    ∃ old ∈ tables.rowsOf identityHash, request.update now old = row := by
  obtain ⟨member, named⟩ := List.mem_filter.mp stored
  obtain ⟨old, before, rfl⟩ := List.mem_map.mp member
  refine ⟨old, List.mem_filter.mpr ⟨before, ?_⟩, rfl⟩
  rw [← (update_same request now old).identityHash]
  exact named

theorem AgreeAt.updateRows (tables : EventTables Doc) (request : StoreRequest Doc) (now : ℕ)
    (identityHash : String) :
    AgreeAt tables (tables.updateRows (request.update now)) identityHash where
  heads := rfl
  rows row stored := by
    obtain ⟨old, before, rfl⟩ := rowsOf_updateRows stored
    exact ⟨old, before, (update_same request now old).globalPosition.symm,
      (update_same request now old).idempotencyKeyHash.symm⟩

/-- One transaction's statement leaves to the others what they hold. -/
structure Spares (id : ℕ) (before after : Database Doc) : Prop where
  transactions : ∀ other ≠ id, after.transactions other = before.transactions other
  locks : ∀ key other, other ≠ id → before.headLocks key = some other →
    after.headLocks key = some other
  tables : ∀ key other, other ≠ id → before.headLocks key = some other →
    AgreeAt before.tables after.tables key
  rowExclusive : ∀ other ≠ id, other ∈ before.rowExclusive → other ∈ after.rowExclusive
  positions : before.nextPosition ≤ after.nextPosition

/-- **Frame.** What a transaction knows survives the statements of the others. -/
theorem TransactionSound.spared {before after : Database Doc} {id other : ℕ}
    {transaction : Transaction Doc} (spares : Spares id before after) (differs : other ≠ id)
    (known : TransactionSound before other transaction) :
    TransactionSound after other transaction := by
  have kept : ∀ {key}, before.headLocks key = some other →
      after.headLocks key = some other ∧ AgreeAt before.tables after.tables key := fun held =>
    ⟨spares.locks _ other differs held, spares.tables _ other differs held⟩
  constructor
  case inserted =>
    intro flag
    obtain ⟨draft, plain, request, held, missing⟩ := known.inserted flag
    exact ⟨draft, plain, request, (kept held).1, (kept held).2.heads.trans missing⟩
  case again =>
    intro next
    obtain ⟨prepares, repairs⟩ := known.again next
    exact ⟨fun draft plain request => (kept (prepares draft plain request)).1,
      fun repair plain request => (kept (repairs repair plain request)).1⟩
  case source =>
    intro next repair plain request
    obtain ⟨held, head, found, fresh⟩ := known.source next repair plain request
    refine ⟨(kept held).1, head, (kept held).2.heads.trans found, fun row stored => ?_⟩
    obtain ⟨old, there, -, key⟩ := (kept held).2.rows row stored
    rw [← key]
    exact fresh old there
  case insert =>
    intro draft next
    obtain ⟨asked, held, fresh⟩ := known.insert draft next
    refine ⟨asked, (kept held).1, fun row stored => ?_⟩
    obtain ⟨old, there, -, key⟩ := (kept held).2.rows row stored
    rw [← key]
    exact fresh old there
  case commit =>
    intro row next
    obtain ⟨continues, held, writer, draft, asked, hash, keyHash⟩ := known.commit row next
    obtain ⟨lock, agree⟩ := kept held
    refine ⟨?_, lock, spares.rowExclusive other differs writer, draft, asked, hash, keyHash⟩
    constructor
    case next => rw [agree.lastSequence, continues.next]
    case later =>
      intro stored member
      obtain ⟨old, there, position, -⟩ := agree.rows stored member
      rw [← position]
      exact continues.later old there
    case drawn => exact lt_of_lt_of_le continues.drawn spares.positions
    case fresh =>
      intro stored member
      obtain ⟨old, there, -, key⟩ := agree.rows stored member
      rw [← key]
      exact continues.fresh old there
    case hashed => exact continues.hashed
    case keyed => exact continues.keyed

/-- A database is consistent after a statement that spares the other transactions,
when its tables are and what the transaction itself knows is true. -/
theorem Database.ConsistentFor.of_spares {I : EventTables Doc → Prop}
    {before after : Database Doc} {id : ℕ} (consistent : before.ConsistentFor I)
    (spares : Spares id before after) (tables : I after.tables)
    (drawn : ∀ row ∈ after.tables.outbox, row.globalPosition < after.nextPosition)
    (keyed : ∀ row ∈ after.tables.outbox, row.Keyed)
    (exclusive : after.share = [] ∨ after.rowExclusive = [])
    (own : ∀ transaction, after.transactions id = some transaction →
      TransactionSound after id transaction) : after.ConsistentFor I := by
  refine ⟨tables, drawn, keyed, exclusive, fun other transaction found => ?_⟩
  by_cases same : other = id
  · subst same
    exact own transaction found
  · rw [spares.transactions other same] at found
    exact (consistent.transactions other transaction found).spared spares same

/-! ## What one statement does -/

namespace Database

variable {db : Database Doc} {id : ℕ} {transaction : Transaction Doc}
  {I : EventTables Doc → Prop}

theorem spares_goOn (db : Database Doc) (id : ℕ) (transaction : Transaction Doc)
    (next : Statement Doc) : Spares id db (db.goOn id transaction next) where
  transactions _ differs := if_neg differs
  locks _ _ _ held := held
  tables key _ _ _ := AgreeAt.refl db.tables key
  rowExclusive _ _ writer := writer
  positions := le_rfl

/-- A free lock is nobody else's. -/
theorem spares_lockHead_goOn {identityHash : String}
    (free : ¬LockedByOther (db.headLocks identityHash) id) (next : Statement Doc) :
    Spares id db ((db.lockHead id identityHash).goOn id transaction next) where
  transactions _ differs := if_neg differs
  locks key _ differs held := by
    have apart : key ≠ identityHash := by
      rintro rfl
      exact free ⟨by simp [held], by simp [held, differs]⟩
    exact (if_neg apart).trans held
  tables key _ _ _ := AgreeAt.refl db.tables key
  rowExclusive _ _ writer := writer
  positions := le_rfl

theorem spares_finish (outcome : StoreOutcome Doc) {tables : EventTables Doc}
    (agree : ∀ key other, other ≠ id → db.headLocks key = some other →
      AgreeAt db.tables tables key) :
    Spares id db (db.finish id transaction outcome tables) where
  transactions other differs := if_neg differs
  locks key other differs held := by
    have apart : db.headLocks key ≠ some id := by simp [held, differs]
    exact (if_neg apart).trans held
  tables := agree
  rowExclusive other differs writer := List.mem_filter.mpr ⟨writer, by simp [differs]⟩
  positions := le_rfl

/-- **The end of a transaction**, with tables that agree where others hold locks. -/
theorem ConsistentFor.finish (consistent : db.ConsistentFor I) (outcome : StoreOutcome Doc)
    {tables : EventTables Doc}
    (agree : ∀ key other, other ≠ id → db.headLocks key = some other →
      AgreeAt db.tables tables key)
    (holds : I tables) (drawn : ∀ row ∈ tables.outbox, row.globalPosition < db.nextPosition)
    (keyed : ∀ row ∈ tables.outbox, row.Keyed) :
    (db.finish id transaction outcome tables).ConsistentFor I := by
  refine consistent.of_spares (spares_finish outcome agree) holds drawn keyed ?_ ?_
  · rcases consistent.exclusive with none | none
    · exact Or.inl (by simp [Database.finish, none])
    · exact Or.inr (by simp [Database.finish, none])
  · intro left found
    exact absurd ((if_pos rfl).symm.trans found) (by simp)

/-- The end of a transaction that wrote nothing. -/
theorem ConsistentFor.finish_same (consistent : db.ConsistentFor I) (outcome : StoreOutcome Doc) :
    (db.finish id transaction outcome db.tables).ConsistentFor I :=
  consistent.finish outcome (fun key _ _ _ => AgreeAt.refl db.tables key) consistent.tables
    consistent.drawn consistent.keyed

theorem ConsistentFor.goOn (consistent : db.ConsistentFor I) {next : Statement Doc}
    (own : TransactionSound (db.goOn id transaction next) id { transaction with next }) :
    (db.goOn id transaction next).ConsistentFor I := by
  refine consistent.of_spares (spares_goOn db id transaction next) consistent.tables
    consistent.drawn consistent.keyed consistent.exclusive ?_
  intro found stored
  obtain rfl := Option.some.inj ((if_pos rfl).symm.trans stored)
  exact own

theorem ConsistentFor.lockHead_goOn (consistent : db.ConsistentFor I) {identityHash : String}
    (free : ¬LockedByOther (db.headLocks identityHash) id) {next : Statement Doc}
    (own : TransactionSound ((db.lockHead id identityHash).goOn id transaction next) id
      { transaction with next }) :
    ((db.lockHead id identityHash).goOn id transaction next).ConsistentFor I := by
  refine consistent.of_spares (spares_lockHead_goOn free next) consistent.tables
    consistent.drawn consistent.keyed consistent.exclusive ?_
  intro found stored
  obtain rfl := Option.some.inj ((if_pos rfl).symm.trans stored)
  exact own

/-- Drawing a position changes nothing that anyone knows. -/
theorem ConsistentFor.draw (consistent : db.ConsistentFor I) :
    { db with nextPosition := db.nextPosition + 1 }.ConsistentFor I where
  tables := consistent.tables
  drawn row stored := Nat.lt_succ_of_lt (consistent.drawn row stored)
  keyed := consistent.keyed
  exclusive := consistent.exclusive
  transactions id transaction found := by
    have known := consistent.transactions id transaction found
    refine ⟨known.inserted, known.again, known.source, known.insert, fun row next => ?_⟩
    obtain ⟨continues, rest⟩ := known.commit row next
    exact ⟨{ continues with drawn := Nat.lt_succ_of_lt continues.drawn }, rest⟩

/-- A key that is not found is not stored. -/
theorem fresh_of_existingForKey {tables : EventTables Doc} {keyHash : String}
    (missing : tables.existingForKey keyHash = none) (identityHash : String) :
    ∀ row ∈ tables.rowsOf identityHash, row.idempotencyKeyHash ≠ keyHash := by
  intro row stored
  have absent := List.find?_eq_none.mp missing row (List.mem_of_mem_filter stored)
  simpa using absent

variable {canonical : Doc → String}

/-- **The insertion statement.** -/
theorem ConsistentFor.insertEvent (consistent : db.ConsistentFor I)
    (known : TransactionSound db id transaction) {draft : TracedDraft Doc}
    (next : transaction.next = .insertEvent draft) (eventId : String) :
    (db.insertEvent canonical id transaction draft eventId).ConsistentFor I := by
  obtain ⟨asked, held, fresh⟩ := known.insert draft next
  unfold Database.insertEvent
  split
  · exact consistent
  next unshared =>
    split
    · exact consistent
    · simp only
      split
      · exact consistent.draw.finish_same _
      · split
        · exact consistent.draw.finish_same _
        · -- The row continues its identity, and the lock keeps it so.
          have spares : Spares id db
              { ({ db with nextPosition := db.nextPosition + 1 } : Database Doc).goOn id transaction
                (.commitEvent (insertedRow canonical draft eventId
                  (db.tables.lastSequence draft.identity.logicalKey) transaction.startedAt
                  db.nextPosition)) with
                rowExclusive := id :: db.rowExclusive } :=
            { transactions := fun other differs => if_neg differs
              locks := fun _ _ _ lock => lock
              tables := fun key _ _ _ => AgreeAt.refl db.tables key
              rowExclusive := fun _ _ writer => List.mem_cons_of_mem _ writer
              positions := Nat.le_succ _ }
          refine consistent.of_spares spares consistent.tables
            (fun row stored => Nat.lt_succ_of_lt (consistent.drawn row stored)) consistent.keyed
            (Or.inl (not_not.mp unshared)) ?_
          intro found stored
          obtain rfl := Option.some.inj ((if_pos rfl).symm.trans stored)
          refine ⟨known.inserted, by simp, by simp, by simp, ?_⟩
          intro row here
          obtain rfl := Statement.commitEvent.inj here
          refine ⟨?_, held, List.mem_cons_self, draft, asked, rfl, rfl⟩
          constructor
          case next => rfl
          case later =>
            exact fun other member => consistent.drawn other (List.mem_of_mem_filter member)
          case drawn => exact Nat.lt_succ_self _
          case fresh => exact fresh
          case hashed => rfl
          case keyed => exact ⟨draft.identity, draft.idempotencyKey, asked.plain, rfl, rfl⟩

/-- **The commit of an event.** -/
theorem ConsistentFor.commitEvent (kept : KeptByStatements I) (consistent : db.ConsistentFor I)
    (known : TransactionSound db id transaction) {row : EventRow Doc}
    (next : transaction.next = .commitEvent row) (outcome : StoreOutcome Doc) :
    (db.finish id transaction outcome (db.tables.insertEvent row)).ConsistentFor I := by
  obtain ⟨continues, held, -, -⟩ := known.commit row next
  have fresh := continues.fresh_outbox consistent.keyed
  refine consistent.finish outcome ?_
    (kept.insertEvent consistent.tables continues.next continues.later fresh continues.hashed) ?_ ?_
  · intro key other differs lock
    refine AgreeAt.insertEvent db.tables fun same => differs ?_
    rw [same, held] at lock
    exact (Option.some.inj lock).symm
  · intro other member
    rcases List.mem_append.mp member with stored | here
    · exact consistent.drawn other stored
    · obtain rfl := List.mem_singleton.mp here
      exact continues.drawn
  · intro other member
    rcases List.mem_append.mp member with stored | here
    · exact consistent.keyed other stored
    · obtain rfl := List.mem_singleton.mp here
      exact continues.keyed

/-- **Every statement of `prepare`** keeps the database consistent. -/
theorem ConsistentFor.advancePrepare (kept : KeptByStatements I)
    (consistent : db.ConsistentFor I) {draft : TracedDraft Doc}
    {plain : PlainKey draft.idempotencyKey} (found : db.transactions id = some transaction)
    (request : transaction.request = .prepare draft plain) (eventId : String) :
    (db.advancePrepare canonical id transaction draft eventId).ConsistentFor I := by
  have known := consistent.transactions id transaction found
  unfold Database.advancePrepare
  split
  next here =>
    split
    · exact consistent.finish_same _
    · exact consistent.goOn ⟨known.inserted, by simp, by simp, by simp, by simp⟩
  next here =>
    split
    · exact consistent.goOn ⟨known.inserted, by simp, by simp, by simp, by simp⟩
    next missing =>
      split
      · exact consistent
      next free =>
        have unheaded : db.tables.heads draft.identity.logicalKey = none := by simpa using missing
        refine consistent.lockHead_goOn free ⟨fun _ => ?_, by simp, by simp, by simp, by simp⟩
        exact ⟨draft, plain, request, if_pos rfl, unheaded⟩
  next here =>
    split
    · exact consistent.finish_same _
    · split
      · exact consistent
      next free =>
        refine consistent.lockHead_goOn free ⟨fun flag => ?_, fun _ => ⟨?_, ?_⟩, by simp, by simp,
          by simp⟩
        · obtain ⟨other, otherPlain, asked, held, missing⟩ := known.inserted flag
          obtain rfl : draft = other := by
            rw [request] at asked
            exact (StoreRequest.prepare.inj asked)
          exact ⟨draft, plain, request, if_pos rfl, missing⟩
        · intro other otherPlain asked
          obtain rfl : draft = other := StoreRequest.prepare.inj (request.symm.trans asked)
          exact if_pos rfl
        · intro repair otherPlain asked
          cases request.symm.trans asked
  next here =>
    have held := (known.again here).1 draft plain request
    split
    next row existing =>
      split
      next inserted =>
        -- The row has a head, so this transaction has not inserted one.
        obtain ⟨draft', plain', asked, -, missing⟩ := known.inserted inserted.1
        obtain rfl : draft = draft' := StoreRequest.prepare.inj (request.symm.trans asked)
        have stored := List.mem_of_find?_eq_some existing
        have keyHash : row.idempotencyKeyHash = draft.idempotencyKeyHash := by
          simpa using List.find?_some existing
        obtain ⟨identity, key, otherPlain, hash, rowKey⟩ := consistent.keyed row stored
        have same := (logicalKey_of_keyHash otherPlain plain (rowKey.symm.trans keyHash)).1
        rw [← same, ← hash] at missing
        exact absurd missing (kept.headed consistent.tables row stored)
      · exact consistent.finish_same _
    next missing =>
      refine consistent.goOn ⟨known.inserted, by simp, by simp, ?_, by simp⟩
      intro other next
      obtain rfl := Statement.insertEvent.inj next
      refine ⟨?_, held, fresh_of_existingForKey missing _⟩
      rw [request]
      rfl
  next other here => exact consistent.insertEvent known here eventId
  next row here => exact consistent.commitEvent kept known here _
  next => exact consistent

/-- **Every statement of `prepare_latest_repair`** keeps the database consistent. -/
theorem ConsistentFor.advanceRepair (kept : KeptByStatements I)
    (consistent : db.ConsistentFor I) {repair : TracedRepair}
    {plain : PlainKey repair.idempotencyKey} (found : db.transactions id = some transaction)
    (request : transaction.request = .prepareLatestRepair repair plain) (eventId : String) :
    (db.advanceRepair canonical id transaction repair eventId).ConsistentFor I := by
  have known := consistent.transactions id transaction found
  have uninserted : transaction.insertedHead = true → False := by
    intro flag
    obtain ⟨draft, other, asked, -⟩ := known.inserted flag
    cases request.symm.trans asked
  unfold Database.advanceRepair
  split
  next here =>
    split
    · exact consistent.finish_same _
    · split
      · exact consistent
      next free =>
        refine consistent.lockHead_goOn free ⟨fun flag => (uninserted flag).elim,
          fun _ => ⟨?_, ?_⟩, by simp, by simp, by simp⟩
        · intro draft other asked
          cases request.symm.trans asked
        · intro other otherPlain asked
          obtain rfl : repair = other :=
            StoreRequest.prepareLatestRepair.inj (request.symm.trans asked)
          exact if_pos rfl
  next here =>
    have held := (known.again here).2 repair plain request
    split
    · exact consistent.finish_same _
    next head headed =>
      split
      · exact consistent.finish_same _
      next missing =>
        refine consistent.goOn ⟨fun flag => (uninserted flag).elim, by simp, ?_, by simp, by simp⟩
        intro _ other otherPlain asked
        obtain rfl : repair = other :=
          StoreRequest.prepareLatestRepair.inj (request.symm.trans asked)
        exact ⟨held, head, headed, fresh_of_existingForKey missing _⟩
  next here =>
    obtain ⟨held, head, headed, fresh⟩ := known.source here repair plain request
    split
    · exact consistent.finish_same _
    next source newest =>
      obtain ⟨stored, hash⟩ := List.mem_filter.mp (EventTables.newestRow_mem newest)
      -- The clone has the identity of the head.
      have logical : source.payload.event.identity.logicalKey = repair.identityKey :=
        (kept.hashed consistent.tables source stored).trans (of_decide_eq_true hash)
      refine consistent.goOn ⟨fun flag => (uninserted flag).elim, by simp, by simp, ?_, by simp⟩
      intro draft next
      obtain rfl := Statement.insertEvent.inj next
      refine ⟨?_, ?_, ?_⟩
      · rw [request]
        exact ⟨logical, rfl⟩
      · show db.headLocks source.payload.event.identity.logicalKey = some id
        rw [logical]
        exact held
      · show ∀ row ∈ db.tables.rowsOf source.payload.event.identity.logicalKey,
          row.idempotencyKeyHash ≠
            indexingIdempotencyKeyHash source.payload.event.identity repair.idempotencyKey
        rw [logical, keyHash_congr (logical.trans (kept.named consistent.tables _ head headed).symm)]
        exact fresh
  next draft here => exact consistent.insertEvent known here eventId
  next row here => exact consistent.commitEvent kept known here _
  next => exact consistent

/-- **Every statement of an update** keeps the database consistent. -/
theorem ConsistentFor.advanceUpdate (kept : KeptByStatements I) (consistent : db.ConsistentFor I)
    (found : db.transactions id = some transaction) (eventId : String) :
    (db.advanceUpdate id transaction eventId).ConsistentFor I := by
  have known := consistent.transactions id transaction found
  unfold Database.advanceUpdate
  split
  next here =>
    split
    · exact consistent
    next unshared =>
      split
      · split
        · exact consistent
        · have spares : Spares id db
              { db.goOn id transaction .commitRow with
                rowLocks := fun other => if other = eventId then some id else db.rowLocks other
                rowExclusive := id :: db.rowExclusive } :=
            { transactions := fun other differs => if_neg differs
              locks := fun _ _ _ lock => lock
              tables := fun key _ _ _ => AgreeAt.refl db.tables key
              rowExclusive := fun _ _ writer => List.mem_cons_of_mem _ writer
              positions := le_rfl }
          refine consistent.of_spares spares consistent.tables consistent.drawn consistent.keyed
            (Or.inl (not_not.mp unshared)) ?_
          intro after stored
          obtain rfl := Option.some.inj ((if_pos rfl).symm.trans stored)
          exact ⟨known.inserted, by simp, by simp, by simp, by simp⟩
      · exact consistent.finish_same _
  next here =>
    have updated : ∀ row ∈ (db.tables.updateRows
        (transaction.request.update transaction.startedAt)).outbox,
        ∃ old ∈ db.tables.outbox,
          transaction.request.update transaction.startedAt old = row := fun row stored =>
      List.mem_map.mp stored
    refine consistent.finish _ (fun key _ _ _ => AgreeAt.updateRows db.tables _ _ key)
      (kept.updateRows _ _ consistent.tables) ?_ ?_
    · intro row stored
      obtain ⟨old, before, rfl⟩ := updated row stored
      rw [(update_same _ _ old).globalPosition]
      exact consistent.drawn old before
    · intro row stored
      obtain ⟨old, before, rfl⟩ := updated row stored
      obtain ⟨identity, key, plain, hash, keyHash⟩ := consistent.keyed old before
      exact ⟨identity, key, plain, (update_same _ _ old).identityHash.trans hash,
        (update_same _ _ old).idempotencyKeyHash.trans keyHash⟩
  next => exact consistent

theorem ConsistentFor.advanceMark (consistent : db.ConsistentFor I)
    (found : db.transactions id = some transaction) :
    (db.advanceMark id transaction).ConsistentFor I := by
  have known := consistent.transactions id transaction found
  unfold Database.advanceMark
  split
  next here =>
    split
    · exact consistent
    next unwritten =>
      have spares : Spares id db
          { db.goOn id transaction .selectMax with share := id :: db.share } :=
        { transactions := fun other differs => if_neg differs
          locks := fun _ _ _ lock => lock
          tables := fun key _ _ _ => AgreeAt.refl db.tables key
          rowExclusive := fun _ _ writer => writer
          positions := le_rfl }
      refine consistent.of_spares spares consistent.tables consistent.drawn consistent.keyed
        (Or.inr (not_not.mp unwritten)) ?_
      intro after stored
      obtain rfl := Option.some.inj ((if_pos rfl).symm.trans stored)
      exact ⟨known.inserted, by simp, by simp, by simp, by simp⟩
  next here => exact consistent.finish_same _
  next => exact consistent

/-- **Every action keeps the database consistent.** -/
theorem ConsistentFor.step (kept : KeptByStatements I) (consistent : db.ConsistentFor I)
    (action : StoreAction Doc) : (Database.step canonical db action).ConsistentFor I := by
  cases action with
  | start id request now =>
      show (db.start id request now).ConsistentFor I
      unfold Database.start
      split
      · exact consistent
      · refine consistent.goOn ⟨by simp, ?_, ?_, ?_, ?_⟩
        all_goals
          cases request <;> simp [StoreRequest.first]
  | advance id eventId =>
      show (db.advance canonical id eventId).ConsistentFor I
      unfold Database.advance
      split
      · exact consistent
      next transaction found =>
        split
        next draft plain request => exact consistent.advancePrepare kept found request eventId
        next repair plain request => exact consistent.advanceRepair kept found request eventId
        next eventId request => exact consistent.advanceUpdate kept found eventId
        next eventId error request => exact consistent.advanceUpdate kept found eventId
        next request => exact consistent.advanceMark found
  | abort id =>
      show (db.abort id).ConsistentFor I
      unfold Database.abort
      split
      · exact consistent
      · exact consistent.finish_same _

/-- Soundness is kept. -/
theorem sound_kept : KeptByStatements (@EventTables.Sound Doc) where
  headed sound _ stored := sound.head_of_row stored
  named sound := sound.named
  hashed sound := sound.hashed
  insertEvent sound next later fresh hashed := sound.insertEvent next later fresh hashed
  updateRows request now sound :=
    sound.updateRows (fun row => (update_same request now row).identityHash)
      (fun row => (update_same request now row).sequence)
      (fun row => (update_same request now row).globalPosition)
      (fun row => (update_same request now row).idempotencyKeyHash)
      (fun row => (update_same request now row).payload)

theorem Consistent.step (consistent : db.Consistent) (action : StoreAction Doc) :
    (Database.step canonical db action).Consistent :=
  consistent_iff.mpr ((consistent_iff.mp consistent).step sound_kept action)

theorem Consistent.empty : (Database.empty : Database Doc).Consistent where
  sound := EventTables.sound_empty
  drawn := by simp [Database.empty, EventTables.empty]
  keyed := by simp [Database.empty, EventTables.empty]
  exclusive := Or.inl rfl
  transactions := by simp [Database.empty]

/-- **Every reachable database is consistent.** -/
theorem consistent_run (canonical : Doc → String) (actions : List (StoreAction Doc)) :
    (run (Database.step canonical) Database.empty actions).Consistent :=
  run_invariant_always (I := Database.Consistent) (fun _ action consistent =>
    consistent.step action) Consistent.empty

end Database

end ImposbroSearch.Publishing
