import ImposbroSearch.Publishing.StoreTransactions

/-!
# What one statement does

A statement belongs to one transaction. It leaves the uncommitted rows of the others
alone; it changes the tables only at the end of its transaction, by adding the row that
the transaction inserted, by updating rows, or by adding a head; and an insertion is
checked against every row that is committed or about to be.
-/

namespace ImposbroSearch.Publishing

open ImposbroSearch.Foundation

variable {Doc : Type}

/-- The transaction an action is about. -/
def StoreAction.transactionId : StoreAction Doc → ℕ
  | start id _ _ => id
  | advance id _ => id
  | abort id => id

namespace Database

/-- The tables after a statement of a transaction. -/
def TablesEffect (db : Database Doc) (id : ℕ) (tables : EventTables Doc) : Prop :=
  tables = db.tables ∨
  (∃ row, db.uncommittedRow id = some row ∧ tables = db.tables.insertEvent row) ∨
  (∃ (request : StoreRequest Doc) (now : ℕ), tables = db.tables.updateRows (request.update now)) ∨
  ∃ identity, tables = db.tables.ensureHead identity

/-- No row has the event's id, be it committed or not. -/
structure FreshId (db : Database Doc) (row : EventRow Doc) : Prop where
  committed : ∀ other ∈ db.tables.outbox, other.eventId ≠ row.eventId
  pending : ∀ writer ∈ db.rowExclusive, ∀ other, db.uncommittedRow writer = some other →
    other.eventId ≠ row.eventId

/-- The transaction is a repair that finds no source for its identity. -/
def LacksSource (db : Database Doc) (id : ℕ) : Prop :=
  ∃ transaction repair plain, db.transactions id = some transaction ∧
    transaction.request = .prepareLatestRepair repair plain ∧ transaction.next = .selectSource ∧
    EventTables.newestRow (db.tables.rowsOf repair.identityKey) = none

structure Effect (id : ℕ) (before after : Database Doc) : Prop where
  tables : before.TablesEffect id after.tables
  others : ∀ other ≠ id, after.uncommittedRow other = before.uncommittedRow other
  own : ∀ row, after.uncommittedRow id = some row →
    after.tables = before.tables ∧ (before.uncommittedRow id = some row ∨ before.FreshId row)
  answers : ∀ request, (request, .refused .headWithoutEvent) ∈ after.outcomes →
    (request, .refused .headWithoutEvent) ∈ before.outcomes ∨ before.LacksSource id

variable {canonical : Doc → String} {db : Database Doc} {id : ℕ} {transaction : Transaction Doc}

theorem uncommittedRow_eq {row : EventRow Doc} (found : db.transactions id = some transaction)
    (next : transaction.next = .commitEvent row) : db.uncommittedRow id = some row := by
  cases transaction
  cases next
  unfold uncommittedRow
  rw [found]

theorem exists_of_uncommittedRow {row : EventRow Doc} (pending : db.uncommittedRow id = some row) :
    ∃ transaction, db.transactions id = some transaction ∧
      transaction.next = .commitEvent row := by
  unfold uncommittedRow at pending
  split at pending
  next found =>
    obtain rfl := Option.some.inj pending
    exact ⟨_, found, rfl⟩
  next => cases pending

theorem uncommittedRow_congr {after : Database Doc} {other : ℕ}
    (same : after.transactions other = db.transactions other) :
    after.uncommittedRow other = db.uncommittedRow other := by
  unfold uncommittedRow
  rw [same]

/-- Another statement than the commit of an event. -/
theorem uncommittedRow_eq_none {next : Statement Doc}
    (found : db.transactions id = some { transaction with next })
    (reads : ∀ row, next ≠ .commitEvent row) : db.uncommittedRow id = none := by
  unfold uncommittedRow
  rw [found]
  cases next with
  | commitEvent row => exact absurd rfl (reads row)
  | existingForKey => rfl
  | ensureHead => rfl
  | selectHead => rfl
  | existingForKeyAgain => rfl
  | selectSource => rfl
  | insertEvent => rfl
  | updateRow => rfl
  | commitRow => rfl
  | lockTable => rfl
  | selectMax => rfl

theorem Effect.refl (id : ℕ) (db : Database Doc) : Effect id db db where
  tables := Or.inl rfl
  others _ _ := rfl
  own _ pending := ⟨rfl, Or.inl pending⟩
  answers _ answered := Or.inl answered

/-- A transaction that goes on, with whatever locks it took. -/
theorem Effect.next {after : Database Doc} {next : Statement Doc} (tables : after.tables = db.tables)
    (transactions : after.transactions = (db.goOn id transaction next).transactions)
    (outcomes : after.outcomes = db.outcomes) (reads : ∀ row, next ≠ .commitEvent row) :
    Effect id db after where
  tables := Or.inl tables
  others other differs := uncommittedRow_congr (by rw [transactions]; exact if_neg differs)
  own row pending := by
    have here : after.transactions id = some { transaction with next } := by
      rw [transactions]
      exact if_pos rfl
    rw [uncommittedRow_eq_none here reads] at pending
    cases pending
  answers request answered := Or.inl (outcomes ▸ answered)

/-- A transaction that ends. -/
theorem Effect.ends {after : Database Doc} {outcome : StoreOutcome Doc}
    (effect : db.TablesEffect id after.tables) (gone : after.transactions id = none)
    (others : ∀ other ≠ id, after.transactions other = db.transactions other)
    (outcomes : after.outcomes = db.outcomes ++ [(transaction.request, outcome)])
    (blame : outcome = .refused .headWithoutEvent → db.LacksSource id) : Effect id db after where
  tables := effect
  others other differs := uncommittedRow_congr (others other differs)
  own row pending := by
    unfold uncommittedRow at pending
    rw [gone] at pending
    cases pending
  answers request answered := by
    rw [outcomes] at answered
    rcases List.mem_append.mp answered with before | here
    · exact Or.inl before
    · obtain ⟨-, same⟩ := Prod.mk.inj (List.mem_singleton.mp here)
      exact Or.inr (blame same.symm)

theorem Effect.finish {outcome : StoreOutcome Doc} {tables : EventTables Doc}
    (effect : db.TablesEffect id tables)
    (blame : outcome = .refused .headWithoutEvent → db.LacksSource id) :
    Effect id db (db.finish id transaction outcome tables) :=
  Effect.ends effect (if_pos rfl) (fun _ differs => if_neg differs) rfl blame

theorem verified_ne_headWithoutEvent (row : EventRow Doc) (draft : TracedDraft Doc) :
    verified canonical row draft ≠ .refused .headWithoutEvent := by
  unfold verified EventTables.verifyExisting
  split_ifs
  · simp
  · simp

/-- **The insertion statement** uses an event id that no row has. -/
theorem Effect.insertEvent (draft : TracedDraft Doc) (eventId : String) :
    Effect id db (db.insertEvent canonical id transaction draft eventId) := by
  unfold Database.insertEvent
  split
  · exact Effect.refl id db
  · split
    · exact Effect.refl id db
    next unclashed =>
      simp only
      split
      · exact Effect.ends (Or.inl rfl) (if_pos rfl) (fun _ differs => if_neg differs) rfl nofun
      next absent =>
        split
        · exact Effect.ends (Or.inl rfl) (if_pos rfl) (fun _ differs => if_neg differs) rfl nofun
        · constructor
          case tables => exact Or.inl rfl
          case others => exact fun other differs => uncommittedRow_congr (if_neg differs)
          case own =>
            intro row pending
            rw [uncommittedRow_eq (if_pos rfl) rfl] at pending
            obtain rfl := Option.some.inj pending
            refine ⟨rfl, Or.inr ⟨?_, ?_⟩⟩
            · intro other stored same
              apply absent
              refine List.any_eq_true.mpr ⟨other, stored, decide_eq_true (Or.inr same)⟩
            · intro writer writes other pending same
              apply unclashed
              refine List.any_eq_true.mpr ⟨writer, writes, ?_⟩
              rw [pending]
              exact decide_eq_true (Or.inr same)
          case answers => exact fun _ answered => Or.inl answered

/-- **One statement**, whatever transaction it belongs to. -/
theorem effect_advance (canonical : Doc → String) (db : Database Doc) (id : ℕ) (eventId : String) :
    Effect id db (db.advance canonical id eventId) := by
  unfold Database.advance
  split
  · exact Effect.refl id db
  next transaction found =>
    have commits : ∀ {row}, transaction.next = .commitEvent row →
        db.TablesEffect id (db.tables.insertEvent row) := fun next =>
      Or.inr (Or.inl ⟨_, uncommittedRow_eq found next, rfl⟩)
    have updates : ∀ key, Effect id db (db.advanceUpdate id transaction key) := by
      intro key
      unfold Database.advanceUpdate
      split
      · split
        · exact Effect.refl id db
        · split
          · split
            · exact Effect.refl id db
            · exact Effect.next rfl rfl rfl (by simp)
          · exact Effect.finish (Or.inl rfl) nofun
      · exact Effect.finish (Or.inr (Or.inr (Or.inl ⟨_, _, rfl⟩))) nofun
      · exact Effect.refl id db
    split
    next draft plain request =>
      have verifies : ∀ {row}, verified canonical row draft = .refused .headWithoutEvent →
          db.LacksSource id := fun answered =>
        absurd answered (verified_ne_headWithoutEvent _ draft)
      unfold Database.advancePrepare
      split
      · split
        · exact Effect.finish (Or.inl rfl) verifies
        · exact Effect.next rfl rfl rfl (by simp)
      · split
        · exact Effect.next rfl rfl rfl (by simp)
        · split
          · exact Effect.refl id db
          · exact Effect.next rfl rfl rfl (by simp)
      · split
        · exact Effect.finish (Or.inl rfl) nofun
        · split
          · exact Effect.refl id db
          · exact Effect.next rfl rfl rfl (by simp)
      · split
        · split
          · exact Effect.finish (Or.inr (Or.inr (Or.inr ⟨_, rfl⟩))) verifies
          · exact Effect.finish (Or.inl rfl) verifies
        · exact Effect.next rfl rfl rfl (by simp)
      · exact Effect.insertEvent _ _
      next row next => exact Effect.finish (commits next) nofun
      · exact Effect.refl id db
    next repair plain request =>
      unfold Database.advanceRepair
      split
      · split
        · exact Effect.finish (Or.inl rfl) nofun
        · split
          · exact Effect.refl id db
          · exact Effect.next rfl rfl rfl (by simp)
      · split
        · exact Effect.finish (Or.inl rfl) nofun
        · split
          · exact Effect.finish (Or.inl rfl) nofun
          · exact Effect.next rfl rfl rfl (by simp)
      next here =>
        split
        next absent =>
          exact Effect.finish (Or.inl rfl) fun _ =>
            ⟨transaction, repair, plain, found, request, here, absent⟩
        · exact Effect.next rfl rfl rfl (by simp)
      · exact Effect.insertEvent _ _
      next row next => exact Effect.finish (commits next) nofun
      · exact Effect.refl id db
    · exact updates _
    · exact updates _
    · unfold Database.advanceMark
      split
      · split
        · exact Effect.refl id db
        · exact Effect.next rfl rfl rfl (by simp)
      · exact Effect.finish (Or.inl rfl) nofun
      · exact Effect.refl id db

/-- **One action.** -/
theorem effect_step (canonical : Doc → String) (db : Database Doc) (action : StoreAction Doc) :
    Effect action.transactionId db (Database.step canonical db action) := by
  cases action with
  | start id request now =>
      show Effect id db (db.start id request now)
      unfold Database.start
      split
      · exact Effect.refl id db
      · refine Effect.next rfl rfl rfl ?_
        cases request with
        | prepare => exact fun _ => nofun
        | prepareLatestRepair => exact fun _ => nofun
        | markPublished => exact fun _ => nofun
        | recordFailure => exact fun _ => nofun
        | highWaterMark => exact fun _ => nofun
  | advance id eventId => exact effect_advance canonical db id eventId
  | abort id =>
      show Effect id db (db.abort id)
      unfold Database.abort
      split
      · exact Effect.refl id db
      · exact Effect.finish (Or.inl rfl) nofun

end Database

end ImposbroSearch.Publishing
