import ImposbroSearch.Publishing.StoreEffects
import ImposbroSearch.Publishing.StoreSequencing

/-!
# Repeated keys and published events

Once a row is committed under a key, a transaction with that key has either not yet
checked for the key after its lock, or waits for the lock: it can only find the row.
Only committed rows are published, and no statement takes a publication mark back.
-/

namespace ImposbroSearch.Publishing

open ImposbroSearch.Foundation ImposbroSearch.Indexing

variable {Doc : Type}

namespace Database

variable {db : Database Doc} {id : ℕ} {transaction : Transaction Doc} {canonical : Doc → String}

/-! ## What the outbox shows -/

/-- **What one action does to the outbox.** It commits an inserted row, updates rows,
or leaves it alone. -/
theorem outbox_step (canonical : Doc → String) (db : Database Doc) (action : StoreAction Doc) :
    (Database.step canonical db action).tables.outbox = db.tables.outbox ∨
      (∃ id transaction row, db.transactions id = some transaction ∧
        transaction.next = .commitEvent row ∧
        (Database.step canonical db action).tables.outbox = db.tables.outbox ++ [row]) ∨
      ∃ (request : StoreRequest Doc) (now : ℕ), (Database.step canonical db action).tables.outbox =
        db.tables.outbox.map (request.update now) := by
  rcases (effect_step canonical db action).tables with same | ⟨row, pending, same⟩ |
    ⟨request, now, same⟩ | ⟨identity, same⟩
  · exact Or.inl (congrArg EventTables.outbox same)
  · obtain ⟨transaction, found, next⟩ := exists_of_uncommittedRow pending
    exact Or.inr (Or.inl ⟨_, transaction, row, found, next, congrArg EventTables.outbox same⟩)
  · exact Or.inr (Or.inr ⟨request, now, congrArg EventTables.outbox same⟩)
  · have outbox := congrArg EventTables.outbox same
    exact Or.inl outbox

/-- **A published event stays published**, over every run. -/
theorem published_run {row : EventRow Doc} {moment : ℕ} (published : row.publishedAt = some moment) :
    ∀ (actions : List (StoreAction Doc)) {db : Database Doc}, row ∈ db.tables.outbox →
      row ∈ (run (Database.step canonical) db actions).tables.outbox := by
  intro actions
  induction actions with
  | nil => exact fun stored => stored
  | cons action actions ih =>
      intro db stored
      refine ih ?_
      rcases outbox_step canonical db action with same | ⟨_, _, new, _, _, same⟩ |
        ⟨request, now, same⟩
      · rw [same]
        exact stored
      · rw [same]
        exact List.mem_append_left _ stored
      · rw [same]
        refine List.mem_map.mpr ⟨row, stored, update_published request now ?_⟩
        rw [published]
        exact Option.some_ne_none _

/-! ## Repeated keys -/

/-- The action leaves the tables as they are, and if it ends the transaction, with
this outcome. -/
def Answers (db after : Database Doc) (id : ℕ) (outcome : StoreOutcome Doc) : Prop :=
  after.tables = db.tables ∧ ∀ transaction, db.transactions id = some transaction →
    after.transactions id = none → after.outcomes = db.outcomes ++ [(transaction.request, outcome)]

theorem answers_finish (found : db.transactions id = some transaction)
    (outcome : StoreOutcome Doc) :
    Answers db (db.finish id transaction outcome db.tables) id outcome := by
  refine ⟨rfl, fun other same _ => ?_⟩
  obtain rfl := Option.some.inj (found.symm.trans same)
  rfl

/-- A transaction that is still in flight has returned nothing. -/
theorem answers_of_inFlight {after : Database Doc} (outcome : StoreOutcome Doc)
    (tables : after.tables = db.tables) {still : Transaction Doc}
    (going : after.transactions id = some still) : Answers db after id outcome :=
  ⟨tables, fun _ _ ended => absurd (going.symm.trans ended) (by simp)⟩

theorem goOn_self (db : Database Doc) (id : ℕ) (transaction : Transaction Doc)
    (next : Statement Doc) :
    (db.goOn id transaction next).transactions id = some { transaction with next } := if_pos rfl

/-- **A repeated key.** Where a row is stored under the key of a draft, `prepare`
returns that row or the conflict, by the digests, and writes nothing. -/
theorem Consistent.prepare_repeated (canonical : Doc → String) (consistent : db.Consistent)
    {draft : TracedDraft Doc} {plain : PlainKey draft.idempotencyKey} (found : db.transactions id = some transaction)
    (request : transaction.request = .prepare draft plain) {row : EventRow Doc}
    (stored : row ∈ db.tables.outbox) (same : row.idempotencyKeyHash = draft.idempotencyKeyHash)
    (eventId : String) :
    Answers db (db.advance canonical id eventId) id (verified canonical row draft) ∧
      (transaction.next = .existingForKey →
        (db.advance canonical id eventId).transactions id = none) := by
  have known := consistent.transactions id transaction found
  have existing : db.tables.existingForKey draft.idempotencyKeyHash = some row := by
    rw [← same]
    exact consistent.sound.existingForKey stored
  -- The key is one of the draft's identity, which therefore has a head.
  have identity : row.identityHash = draft.identity.logicalKey := by
    obtain ⟨owner, key, keyPlain, hash, keyHash⟩ := consistent.keyed row stored
    rw [hash]
    exact (logicalKey_of_keyHash keyPlain plain (keyHash.symm.trans same)).1
  have headed := identity ▸ consistent.sound.head_of_row stored
  have member : row ∈ db.tables.rowsOf draft.identity.logicalKey := by
    simp [EventTables.rowsOf, stored, identity]
  have uninserted : transaction.insertedHead = false := by
    by_contra flag
    obtain ⟨other, otherPlain, asked, -, missing⟩ := known.inserted (by simpa using flag)
    obtain rfl : draft = other := StoreRequest.prepare.inj (request.symm.trans asked)
    exact headed missing
  have advance : db.advance canonical id eventId =
      db.advancePrepare canonical id transaction draft eventId := by
    unfold Database.advance
    simp only [found, request]
  rw [advance]
  unfold Database.advancePrepare
  split
  next here =>
    rw [existing]
    exact ⟨answers_finish found _, fun _ => if_pos rfl⟩
  next here =>
    rw [if_pos (Option.isSome_iff_ne_none.mpr headed)]
    exact ⟨answers_of_inFlight _ rfl (goOn_self db id transaction .selectHead), by simp [here]⟩
  next here =>
    rw [if_neg (by simp [headed])]
    refine ⟨?_, by simp [here]⟩
    split
    · exact answers_of_inFlight _ rfl found
    · exact answers_of_inFlight _ rfl (goOn_self _ id transaction .existingForKeyAgain)
  next here =>
    rw [existing]
    simp only [uninserted, Bool.false_eq_true, false_and, if_false]
    exact ⟨answers_finish found _, by simp [here]⟩
  next other here =>
    -- Past the second check no row is stored under the key.
    obtain ⟨asked, -, fresh⟩ := known.insert other here
    rw [request] at asked
    obtain rfl : other = draft := asked
    exact absurd same (fresh row member)
  next inserted here =>
    obtain ⟨continues, -, -, other, asked, hash, keyHash⟩ := known.commit inserted here
    rw [request] at asked
    obtain rfl : other = draft := asked
    exact absurd (same.trans keyHash.symm) (continues.fresh row (hash ▸ member))
  next => exact ⟨answers_of_inFlight _ rfl found, fun _ => by contradiction⟩

/-- **A repeated repair** returns the row stored under its key and writes nothing. -/
theorem Consistent.repair_repeated (consistent : db.Consistent) {repair : TracedRepair}
    {plain : PlainKey repair.idempotencyKey} (found : db.transactions id = some transaction)
    (request : transaction.request = .prepareLatestRepair repair plain) {row : EventRow Doc}
    (stored : row ∈ db.tables.outbox) (identity : row.identityHash = repair.identityKey)
    (same : row.idempotencyKeyHash =
      indexingIdempotencyKeyHash row.payload.event.identity repair.idempotencyKey)
    (eventId : String) :
    Answers db (db.advance canonical id eventId) id (.event (rowToEvent row)) := by
  have known := consistent.transactions id transaction found
  obtain ⟨head, headed⟩ := Option.ne_none_iff_exists'.mp
    (identity ▸ consistent.sound.head_of_row stored)
  have member : row ∈ db.tables.rowsOf repair.identityKey := by
    simp [EventTables.rowsOf, stored, identity]
  have logical : row.payload.event.identity.logicalKey = head.identity.logicalKey := by
    rw [consistent.sound.hashed row stored, identity, consistent.sound.named _ head headed]
  have keyHash : row.idempotencyKeyHash =
      indexingIdempotencyKeyHash head.identity repair.idempotencyKey :=
    same.trans (keyHash_congr logical _)
  have existing : db.tables.existingForKey
      (indexingIdempotencyKeyHash head.identity repair.idempotencyKey) = some row := by
    rw [← keyHash]
    exact consistent.sound.existingForKey stored
  have advance : db.advance canonical id eventId =
      db.advanceRepair canonical id transaction repair eventId := by
    unfold Database.advance
    simp only [found, request]
  rw [advance]
  unfold Database.advanceRepair
  split
  next here =>
    rw [headed]
    simp only
    split
    · exact answers_of_inFlight _ rfl found
    · exact answers_of_inFlight _ rfl (goOn_self _ id transaction .existingForKeyAgain)
  next here =>
    rw [headed]
    simp only
    rw [existing]
    exact answers_finish found _
  next here =>
    obtain ⟨-, other, found', fresh⟩ := known.source here repair plain request
    obtain rfl := Option.some.inj (headed.symm.trans found')
    exact absurd keyHash (fresh row member)
  next draft here =>
    obtain ⟨asked, -, fresh⟩ := known.insert draft here
    rw [request] at asked
    obtain ⟨owner, key⟩ := asked
    refine absurd ?_ (fresh row (owner ▸ member))
    rw [keyHash]
    unfold TracedDraft.idempotencyKeyHash
    rw [key]
    exact keyHash_congr ((consistent.sound.named _ head headed).trans owner.symm) _
  next inserted here =>
    obtain ⟨continues, -, -, draft, asked, hash, insertedKey⟩ := known.commit inserted here
    rw [request] at asked
    obtain ⟨owner, key⟩ := asked
    refine absurd ?_ (continues.fresh row (hash ▸ owner ▸ member))
    rw [keyHash, insertedKey]
    unfold TracedDraft.idempotencyKeyHash
    rw [key]
    exact keyHash_congr ((consistent.sound.named _ head headed).trans owner.symm) _
  next => exact answers_of_inFlight _ rfl found

/-- **Event store sequencing and idempotency.** In every database that interleaved
transactions reach: the sequences of an identity count its rows from 1 to its head,
in the order of their positions; `prepare` with a stored key returns the stored event
for the same digest and the conflict for another, by its first statement if it began
later, and a repair with a stored key returns the stored event, all without writing;
and published rows stay as they are. -/
theorem event_store_sequencing (canonical : Doc → String) (actions : List (StoreAction Doc)) :
    let db := run (Database.step canonical) Database.empty actions
    (∀ identityHash, (db.tables.rowsOf identityHash).map EventRow.sequence =
        List.range' 1 (db.tables.lastSequence identityHash) ∧
      (db.tables.rowsOf identityHash).Pairwise fun first second =>
        first.globalPosition < second.globalPosition) ∧
    (∀ id transaction draft plain, db.transactions id = some transaction →
      transaction.request = .prepare draft plain → ∀ row ∈ db.tables.outbox,
        row.idempotencyKeyHash = draft.idempotencyKeyHash → ∀ eventId,
          (row.requestDigest = draft.requestDigest canonical →
            Answers db (db.advance canonical id eventId) id (.event (rowToEvent row))) ∧
          (row.requestDigest ≠ draft.requestDigest canonical →
            Answers db (db.advance canonical id eventId) id (.refused .idempotencyConflict)) ∧
          (transaction.next = .existingForKey →
            (db.advance canonical id eventId).transactions id = none)) ∧
    (∀ id transaction repair plain, db.transactions id = some transaction →
      transaction.request = .prepareLatestRepair repair plain → ∀ row ∈ db.tables.outbox,
        row.identityHash = repair.identityKey → row.idempotencyKeyHash =
          indexingIdempotencyKeyHash row.payload.event.identity repair.idempotencyKey →
        ∀ eventId,
          Answers db (db.advance canonical id eventId) id (.event (rowToEvent row))) ∧
    ∀ row ∈ db.tables.outbox, ∀ moment, row.publishedAt = some moment →
      ∀ later, row ∈ (run (Database.step canonical) db later).tables.outbox := by
  intro db
  have consistent : db.Consistent := consistent_run canonical actions
  refine ⟨fun identityHash => ⟨consistent.sound.counted identityHash,
    consistent.sound.ordered identityHash⟩, ?_, ?_, ?_⟩
  · intro id transaction draft plain found request row stored same eventId
    obtain ⟨answers, first⟩ :=
      consistent.prepare_repeated canonical found request stored same eventId
    refine ⟨fun digest => ?_, fun digest => ?_, first⟩
    · have outcome : verified canonical row draft = .event (rowToEvent row) := by
        simp [verified, EventTables.verifyExisting, digest]
      exact outcome ▸ answers
    · have outcome : verified canonical row draft = .refused .idempotencyConflict := by
        simp [verified, EventTables.verifyExisting, digest]
      exact outcome ▸ answers
  · intro id transaction repair plain found request row stored identity same eventId
    exact consistent.repair_repeated found request stored identity same eventId
  · intro row stored moment published later
    exact published_run published later stored

end Database

end ImposbroSearch.Publishing
