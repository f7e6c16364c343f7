import ImposbroSearch.Publishing.StoreEffects
import ImposbroSearch.Publishing.StoreSequencing

/-!
# The contents of the outbox

Every row was inserted for a draft, and what was stored then stays: a row is only marked as
published or as failed. Only the insertion statement makes a row; it is committed as it was
made, or lost with its transaction.
-/

namespace ImposbroSearch.Publishing

open ImposbroSearch.Foundation ImposbroSearch.Indexing

variable {Doc : Type}

/-- The row was inserted for the draft. -/
def EventRow.PreparedFrom (row : EventRow Doc) (draft : TracedDraft Doc) : Prop :=
  ∃ last, row.sequence = last + 1 ∧ row.identityHash = draft.identity.logicalKey ∧
    row.payload = buildEventPayload draft row.eventId last row.createdAt

/-- The row was inserted for some draft. -/
def EventRow.Prepared (row : EventRow Doc) : Prop := ∃ draft, row.PreparedFrom draft

theorem prepared_insertedRow (canonical : Doc → String) (draft : TracedDraft Doc)
    (eventId : String) (last now position : ℕ) :
    (insertedRow canonical draft eventId last now position).Prepared :=
  ⟨draft, last, rfl, rfl, rfl⟩

namespace Database

variable {canonical : Doc → String} {db : Database Doc} {id : ℕ} {transaction : Transaction Doc}

/-- After a statement of a transaction its row is the one it had, or a new one. -/
def Makes (db : Database Doc) (id : ℕ) (after : Database Doc) : Prop :=
  ∀ row, after.uncommittedRow id = some row → db.uncommittedRow id = some row ∨ row.Prepared

theorem Makes.refl (db : Database Doc) (id : ℕ) : Makes db id db := fun _ pending => Or.inl pending

theorem Makes.next {after : Database Doc} {next : Statement Doc}
    (transactions : after.transactions = (db.goOn id transaction next).transactions)
    (reads : ∀ row, next ≠ .commitEvent row) : Makes db id after := by
  intro row pending
  have here : after.transactions id = some { transaction with next } := by
    rw [transactions]
    exact if_pos rfl
  rw [uncommittedRow_eq_none here reads] at pending
  cases pending

theorem Makes.ends {after : Database Doc} (gone : after.transactions id = none) :
    Makes db id after := by
  intro row pending
  unfold uncommittedRow at pending
  rw [gone] at pending
  cases pending

theorem Makes.finish {outcome : StoreOutcome Doc} {tables : EventTables Doc} :
    Makes db id (db.finish id transaction outcome tables) := Makes.ends (if_pos rfl)

theorem makes_insertEvent (draft : TracedDraft Doc) (eventId : String) :
    Makes db id (db.insertEvent canonical id transaction draft eventId) := by
  unfold Database.insertEvent
  split
  · exact Makes.refl db id
  · split
    · exact Makes.refl db id
    · simp only
      split
      · exact Makes.ends (if_pos rfl)
      · split
        · exact Makes.ends (if_pos rfl)
        · intro row pending
          rw [uncommittedRow_eq (if_pos rfl) rfl] at pending
          rw [← Option.some.inj pending]
          exact Or.inr (prepared_insertedRow canonical draft eventId _ _ _)

theorem makes_advance (canonical : Doc → String) (db : Database Doc) (id : ℕ) (eventId : String) :
    Makes db id (db.advance canonical id eventId) := by
  unfold Database.advance
  split
  · exact Makes.refl db id
  next transaction found =>
    have updates : ∀ key, Makes db id (db.advanceUpdate id transaction key) := by
      intro key
      unfold Database.advanceUpdate
      split
      · split
        · exact Makes.refl db id
        · split
          · split
            · exact Makes.refl db id
            · exact Makes.next rfl (by simp)
          · exact Makes.finish
      · exact Makes.finish
      · exact Makes.refl db id
    split
    · unfold Database.advancePrepare
      split
      · split
        · exact Makes.finish
        · exact Makes.next rfl (by simp)
      · split
        · exact Makes.next rfl (by simp)
        · split
          · exact Makes.refl db id
          · exact Makes.next rfl (by simp)
      · split
        · exact Makes.finish
        · split
          · exact Makes.refl db id
          · exact Makes.next rfl (by simp)
      · split
        · exact Makes.finish
        · exact Makes.next rfl (by simp)
      · exact makes_insertEvent _ _
      · exact Makes.finish
      · exact Makes.refl db id
    · unfold Database.advanceRepair
      split
      · split
        · exact Makes.finish
        · split
          · exact Makes.refl db id
          · exact Makes.next rfl (by simp)
      · split
        · exact Makes.finish
        · split
          · exact Makes.finish
          · exact Makes.next rfl (by simp)
      · split
        · exact Makes.finish
        · exact Makes.next rfl (by simp)
      · exact makes_insertEvent _ _
      · exact Makes.finish
      · exact Makes.refl db id
    · exact updates _
    · exact updates _
    · unfold Database.advanceMark
      split
      · split
        · exact Makes.refl db id
        · exact Makes.next rfl (by simp)
      · exact Makes.finish
      · exact Makes.refl db id

theorem makes_step (canonical : Doc → String) (db : Database Doc) (action : StoreAction Doc) :
    Makes db action.transactionId (Database.step canonical db action) := by
  cases action with
  | start id request now =>
      show Makes db id (db.start id request now)
      unfold Database.start
      split
      · exact Makes.refl db id
      · refine Makes.next rfl fun row => ?_
        cases request with
        | prepare => exact nofun
        | prepareLatestRepair => exact nofun
        | markPublished => exact nofun
        | recordFailure => exact nofun
        | highWaterMark => exact nofun
  | advance id eventId => exact makes_advance canonical db id eventId
  | abort id =>
      show Makes db id (db.abort id)
      unfold Database.abort
      split
      · exact Makes.refl db id
      · exact Makes.finish

theorem createdAt_update (request : StoreRequest Doc) (now : ℕ) (row : EventRow Doc) :
    (request.update now row).createdAt = row.createdAt := by
  cases request with
  | markPublished eventId =>
      show (EventRow.markPublished eventId now row).createdAt = row.createdAt
      unfold EventRow.markPublished
      split_ifs
      · rfl
      · rfl
  | recordFailure eventId error =>
      show (EventRow.recordFailure eventId error row).createdAt = row.createdAt
      unfold EventRow.recordFailure
      split_ifs
      · rfl
      · rfl
  | prepare => rfl
  | prepareLatestRepair => rfl
  | highWaterMark => rfl

theorem prepared_update {row : EventRow Doc} (request : StoreRequest Doc) (now : ℕ)
    (prepared : row.Prepared) : (request.update now row).Prepared := by
  obtain ⟨draft, last, sequence, identity, payload⟩ := prepared
  have same := update_same request now row
  refine ⟨draft, last, same.sequence.trans sequence, same.identityHash.trans identity, ?_⟩
  rw [same.payload, same.eventId, createdAt_update]
  exact payload

/-- Every row, committed or not, was inserted for a draft. -/
structure AllPrepared (db : Database Doc) : Prop where
  committed : ∀ row ∈ db.tables.outbox, row.Prepared
  pending : ∀ other row, db.uncommittedRow other = some row → row.Prepared

theorem AllPrepared.step (prepared : db.AllPrepared) (action : StoreAction Doc) :
    (Database.step canonical db action).AllPrepared := by
  have effect := effect_step canonical db action
  constructor
  case committed =>
    intro row member
    rcases effect.tables with same | ⟨new, pending, same⟩ | ⟨request, now, same⟩ | ⟨identity, same⟩
    · rw [same] at member
      exact prepared.committed row member
    · rw [same] at member
      rcases List.mem_append.mp member with before | here
      · exact prepared.committed row before
      · rw [List.mem_singleton.mp here]
        exact prepared.pending _ new pending
    · rw [same] at member
      obtain ⟨before, stored, rfl⟩ := List.mem_map.mp member
      exact prepared_update request now (prepared.committed before stored)
    · rw [same] at member
      exact prepared.committed row member
  case pending =>
    intro other row pending
    by_cases own : other = action.transactionId
    · subst own
      rcases makes_step canonical db action row pending with before | made
      · exact prepared.pending _ row before
      · exact made
    · rw [effect.others other own] at pending
      exact prepared.pending other row pending

end Database

end ImposbroSearch.Publishing
