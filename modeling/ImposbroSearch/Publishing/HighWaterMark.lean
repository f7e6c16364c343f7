import ImposbroSearch.Publishing.StoreIdempotency

/-!
# The high-water mark

Positions are drawn when rows are inserted and rows become visible in the order of
their commits, so a larger position may be visible before a smaller one. While a
transaction holds the `SHARE` lock of the outbox nobody holds its `ROW EXCLUSIVE`
lock, so no row is inserted and not committed: every position drawn so far is visible
or lost, and the largest visible one is a barrier.
-/

namespace ImposbroSearch.Publishing

open ImposbroSearch.Foundation

variable {Doc : Type}

namespace Database

/-- Every row that is inserted and not committed lies above the position. -/
def PendingAbove (db : Database Doc) (mark : ℕ) : Prop :=
  ∀ id transaction row, db.transactions id = some transaction →
    transaction.next = .commitEvent row → mark < row.globalPosition

/-- A position below which nothing can become visible any more. -/
structure Barrier (db : Database Doc) (mark : ℕ) : Prop where
  drawn : mark < db.nextPosition
  pending : db.PendingAbove mark

/-- The marks to respect: some given ones and those that were returned. -/
def Marked (kept : Set ℕ) (db : Database Doc) (mark : ℕ) : Prop :=
  mark ∈ kept ∨ ∃ request, (request, .mark mark) ∈ db.outcomes

/-- A transaction that reads the largest position holds its lock, and every mark is a
barrier. -/
structure Barred (kept : Set ℕ) (db : Database Doc) : Prop where
  started : 0 < db.nextPosition
  locked : ∀ id transaction, db.transactions id = some transaction →
    transaction.next = .selectMax → id ∈ db.share
  barrier : ∀ mark, Marked kept db mark → db.Barrier mark

variable {db : Database Doc} {id : ℕ} {transaction : Transaction Doc} {canonical : Doc → String}
  {mark : ℕ} {kept : Set ℕ}

theorem barred_empty : (empty : Database Doc).Barred ∅ where
  started := Nat.one_pos
  locked _ _ found := by cases found
  barrier mark marked := by
    rcases marked with kept | ⟨request, returned⟩
    · cases kept
    · cases returned

/-! ## What one statement does to a barrier -/

theorem Barrier.finish (barrier : db.Barrier mark) (outcome : StoreOutcome Doc)
    (tables : EventTables Doc) : (db.finish id transaction outcome tables).Barrier mark where
  drawn := barrier.drawn
  pending other left row found next := by
    unfold Database.finish at found
    simp only at found
    split_ifs at found
    exact barrier.pending other left row found next

/-- A statement other than an insertion adds no pending row. -/
theorem Barrier.goOn (barrier : db.Barrier mark) {next : Statement Doc}
    (reads : ∀ row, next ≠ .commitEvent row) : (db.goOn id transaction next).Barrier mark where
  drawn := barrier.drawn
  pending other left row found here := by
    unfold Database.goOn at found
    simp only at found
    split_ifs at found
    · obtain rfl := Option.some.inj found
      exact absurd here (reads row)
    · exact barrier.pending other left row found here

theorem Barred.goOn (barred : db.Barred kept) {next : Statement Doc}
    (reads : ∀ row, next ≠ .commitEvent row) (unmarked : next ≠ .selectMax) :
    (db.goOn id transaction next).Barred kept where
  started := barred.started
  locked other left found here := by
    unfold Database.goOn at found
    simp only at found
    split_ifs at found
    · obtain rfl := Option.some.inj found
      exact absurd here unmarked
    · exact barred.locked other left found here
  barrier mark marked := (barred.barrier mark marked).goOn reads

theorem Barred.lockHead (barred : db.Barred kept) (identityHash : String) :
    (db.lockHead id identityHash).Barred kept where
  started := barred.started
  locked := barred.locked
  barrier mark marked :=
    ⟨(barred.barrier mark marked).drawn, (barred.barrier mark marked).pending⟩

theorem Barred.draw (barred : db.Barred kept) :
    { db with nextPosition := db.nextPosition + 1 }.Barred kept where
  started := Nat.succ_pos _
  locked := barred.locked
  barrier mark marked :=
    ⟨Nat.lt_succ_of_lt (barred.barrier mark marked).drawn, (barred.barrier mark marked).pending⟩

/-- The end of a transaction, whose mark is a barrier if it returns one. -/
theorem Barred.finish (barred : db.Barred kept) {outcome : StoreOutcome Doc}
    (barrier : ∀ mark, outcome = .mark mark → db.Barrier mark) (tables : EventTables Doc) :
    (db.finish id transaction outcome tables).Barred kept where
  started := barred.started
  locked other left found next := by
    unfold Database.finish at found
    simp only at found
    split_ifs at found with differs
    exact List.mem_filter.mpr ⟨barred.locked other left found next, by simpa using differs⟩
  barrier mark marked := by
    rcases marked with member | ⟨request, returned⟩
    · exact (barred.barrier mark (Or.inl member)).finish outcome tables
    · rcases List.mem_append.mp returned with before | here
      · exact (barred.barrier mark (Or.inr ⟨request, before⟩)).finish outcome tables
      · have same := (Prod.mk.inj (List.mem_singleton.mp here)).2
        exact (barrier mark same.symm).finish outcome tables

/-- The end of a transaction that returns no mark. -/
theorem Barred.finish_unmarked (barred : db.Barred kept) {outcome : StoreOutcome Doc}
    (unmarked : ∀ mark, outcome ≠ .mark mark) (tables : EventTables Doc) :
    (db.finish id transaction outcome tables).Barred kept :=
  barred.finish (fun mark same => absurd same (unmarked mark)) tables

/-- **The insertion statement** draws a position above every mark. -/
theorem Barred.insertEvent (barred : db.Barred kept) (draft : TracedDraft Doc) (eventId : String) :
    (db.insertEvent canonical id transaction draft eventId).Barred kept := by
  unfold Database.insertEvent
  split
  · exact barred
  · split
    · exact barred
    · simp only
      split
      · exact barred.draw.finish_unmarked (by simp) _
      · split
        · exact barred.draw.finish_unmarked (by simp) _
        · constructor
          case started => exact Nat.succ_pos _
          case locked =>
            intro other left found next
            unfold Database.goOn at found
            simp only at found
            split_ifs at found
            · obtain rfl := Option.some.inj found
              cases next
            · exact barred.locked other left found next
          case barrier =>
            intro mark marked
            have barrier := barred.barrier mark marked
            refine ⟨Nat.lt_succ_of_lt barrier.drawn, ?_⟩
            intro other left row found next
            unfold Database.goOn at found
            simp only at found
            split_ifs at found
            · obtain rfl := Option.some.inj found
              obtain rfl := Statement.commitEvent.inj next
              exact barrier.drawn
            · exact barrier.pending other left row found next

/-- The largest position is one of the rows, if there is any. -/
theorem maxPosition_lt {tables : EventTables Doc} {bound : ℕ} (positive : 0 < bound)
    (below : ∀ row ∈ tables.outbox, row.globalPosition < bound) : tables.maxPosition < bound := by
  unfold EventTables.maxPosition
  revert below
  induction tables.outbox with
  | nil => exact fun _ => positive
  | cons row rows ih =>
      intro below
      exact max_lt (below row List.mem_cons_self)
        (ih fun other member => below other (List.mem_cons_of_mem _ member))

/-- **Under the lock** the largest visible position is a barrier: a transaction with a
pending row holds the `ROW EXCLUSIVE` lock, and nobody does. -/
theorem Consistent.barrier_maxPosition (consistent : db.Consistent) (barred : db.Barred kept)
    (unwritten : db.rowExclusive = []) : db.Barrier db.tables.maxPosition where
  drawn := maxPosition_lt barred.started consistent.drawn
  pending other left row found next := by
    have writer := ((consistent.transactions other left found).commit row next).2.2.1
    rw [unwritten] at writer
    cases writer

theorem verified_ne_mark (row : EventRow Doc) (draft : TracedDraft Doc) (mark : ℕ) :
    verified canonical row draft ≠ .mark mark := by
  unfold verified
  split
  · simp
  · simp

theorem Barred.advanceUpdate (barred : db.Barred kept) (eventId : String) :
    (db.advanceUpdate id transaction eventId).Barred kept := by
  unfold Database.advanceUpdate
  split
  · split
    · exact barred
    · split
      · split
        · exact barred
        · have next : (db.goOn id transaction .commitRow).Barred kept :=
            barred.goOn (by simp) (by simp)
          exact ⟨next.started, next.locked, fun mark marked =>
            ⟨(next.barrier mark marked).drawn, (next.barrier mark marked).pending⟩⟩
      · exact barred.finish_unmarked (by simp) _
  · exact barred.finish_unmarked (by simp) _
  · exact barred

/-- **Every statement** keeps the marks barriers. -/
theorem Barred.advance (barred : db.Barred kept) (consistent : db.Consistent) (id : ℕ)
    (eventId : String) : (db.advance canonical id eventId).Barred kept := by
  unfold Database.advance
  split
  · exact barred
  next transaction found =>
    split
    next draft plain request =>
      unfold Database.advancePrepare
      split
      · split
        · exact barred.finish_unmarked (verified_ne_mark _ _) _
        · exact barred.goOn (by simp) (by simp)
      · split
        · exact barred.goOn (by simp) (by simp)
        · split
          · exact barred
          · exact (barred.lockHead _).goOn (by simp) (by simp)
      · split
        · exact barred.finish_unmarked (by simp) _
        · split
          · exact barred
          · exact (barred.lockHead _).goOn (by simp) (by simp)
      · split
        · exact barred.finish_unmarked (verified_ne_mark _ _) _
        · exact barred.goOn (by simp) (by simp)
      · exact barred.insertEvent _ _
      · exact barred.finish_unmarked (by simp) _
      · exact barred
    next repair plain request =>
      unfold Database.advanceRepair
      split
      · split
        · exact barred.finish_unmarked (by simp) _
        · split
          · exact barred
          · exact (barred.lockHead _).goOn (by simp) (by simp)
      · split
        · exact barred.finish_unmarked (by simp) _
        · split
          · exact barred.finish_unmarked (by simp) _
          · exact barred.goOn (by simp) (by simp)
      · split
        · exact barred.finish_unmarked (by simp) _
        · exact barred.goOn (by simp) (by simp)
      · exact barred.insertEvent _ _
      · exact barred.finish_unmarked (by simp) _
      · exact barred
    next eventId request => exact barred.advanceUpdate _
    next eventId error request => exact barred.advanceUpdate _
    next request =>
      unfold Database.advanceMark
      split
      · split
        · exact barred
        · -- The lock is taken together with the step to the reading statement.
          refine ⟨barred.started, ?_, fun mark marked => ?_⟩
          · intro other left stored next
            unfold Database.goOn at stored
            simp only at stored
            split_ifs at stored with same
            · exact List.mem_cons.mpr (Or.inl same)
            · exact List.mem_cons_of_mem _ (barred.locked other left stored next)
          · have barrier : (db.goOn id transaction .selectMax).Barrier mark :=
              (barred.barrier mark marked).goOn (by simp)
            exact ⟨barrier.drawn, barrier.pending⟩
      next here =>
        have holds := barred.locked id transaction found here
        have unwritten : db.rowExclusive = [] := by
          rcases consistent.exclusive with unshared | unwritten
          · rw [unshared] at holds
            cases holds
          · exact unwritten
        refine barred.finish (fun mark same => ?_) _
        obtain rfl := StoreOutcome.mark.inj same
        exact consistent.barrier_maxPosition barred unwritten
      · exact barred

theorem Barred.step (barred : db.Barred kept) (consistent : db.Consistent)
    (action : StoreAction Doc) : (Database.step canonical db action).Barred kept := by
  cases action with
  | start id request now =>
      show (db.start id request now).Barred kept
      unfold Database.start
      split
      · exact barred
      · exact barred.goOn (by cases request <;> simp [StoreRequest.first])
          (by cases request <;> simp [StoreRequest.first])
  | advance id eventId => exact barred.advance consistent id eventId
  | abort id =>
      show (db.abort id).Barred kept
      unfold Database.abort
      split
      · exact barred
      · exact barred.finish_unmarked (by simp) _

/-! ## Runs -/

theorem Barred.run (canonical : Doc → String) (actions : List (StoreAction Doc)) :
    ∀ {db : Database Doc}, db.Barred kept → db.Consistent →
      (Foundation.run (Database.step canonical) db actions).Barred kept := by
  induction actions with
  | nil => exact fun barred _ => barred
  | cons action actions ih =>
      intro db barred consistent
      exact ih (barred.step consistent action) (consistent.step action)

/-- A row that becomes visible while a mark is a barrier lies above it. -/
theorem Barrier.visible_step (barrier : db.Barrier mark) (action : StoreAction Doc)
    {row : EventRow Doc} (shown : row ∈ (Database.step canonical db action).tables.outbox)
    (below : row.globalPosition ≤ mark) : ∃ visible ∈ db.tables.outbox,
      visible.eventId = row.eventId ∧ visible.globalPosition = row.globalPosition := by
  rcases outbox_step canonical db action with same |
    ⟨id, transaction, new, found, next, same⟩ | ⟨request, now, same⟩
  · exact ⟨row, same ▸ shown, rfl, rfl⟩
  · rw [same] at shown
    rcases List.mem_append.mp shown with stored | here
    · exact ⟨row, stored, rfl, rfl⟩
    · obtain rfl := List.mem_singleton.mp here
      exact absurd (barrier.pending id transaction row found next) (not_lt.mpr below)
  · rw [same] at shown
    obtain ⟨visible, stored, rfl⟩ := List.mem_map.mp shown
    exact ⟨visible, stored, (update_same request now visible).eventId.symm,
      (update_same request now visible).globalPosition.symm⟩

/-- **The high-water mark is a barrier.** In every database that interleaved
transactions reach, for every mark that was returned: a row at or below the mark that
is visible after any further actions is visible already. -/
theorem high_water_mark_barrier (canonical : Doc → String) (actions : List (StoreAction Doc)) :
    let db := run (Database.step canonical) Database.empty actions
    ∀ request mark, (request, .mark mark) ∈ db.outcomes → ∀ later,
      ∀ row ∈ (run (Database.step canonical) db later).tables.outbox,
        row.globalPosition ≤ mark → ∃ visible ∈ db.tables.outbox,
          visible.eventId = row.eventId ∧ visible.globalPosition = row.globalPosition := by
  intro db request mark returned later
  have consistent : db.Consistent := consistent_run canonical actions
  have reached : db.Barred ∅ := barred_empty.run canonical actions Consistent.empty
  have barred : db.Barred {mark} := ⟨reached.started, reached.locked, fun other marked => by
    refine reached.barrier other ?_
    rcases marked with rfl | given
    · exact Or.inr ⟨request, returned⟩
    · exact Or.inr given⟩
  induction later using List.reverseRecOn with
  | nil => exact fun row shown _ => ⟨row, shown, rfl, rfl⟩
  | append_singleton later action ih =>
      intro row shown below
      rw [run_snoc] at shown
      have barrier := (barred.run canonical later consistent).barrier mark (Or.inl rfl)
      obtain ⟨before, member, eventId, position⟩ := barrier.visible_step action shown below
      obtain ⟨visible, stored, same, place⟩ := ih before member (position ▸ below)
      exact ⟨visible, stored, same.trans eventId, place.trans position⟩

/-- The mark waits for the transaction that has inserted the first row. -/
def drainedActions : List (StoreAction String) :=
  let draft : TracedDraft String :=
    { identity := ⟨"acme", "notes", "n1"⟩
      mutation := .upsert "v1"
      targetClusters := ["primary"]
      routingRevision := 1
      rolloutId := none
      idempotencyKey := "k1" }
  .start 0 (.prepare draft (by unfold PlainKey; decide)) 0 :: List.replicate 5 (.advance 0 "evt:1") ++
    [.start 1 .highWaterMark 1, .advance 1 "", .advance 0 "", .advance 1 "", .advance 1 ""]

theorem high_water_mark_barrier_drained :
    let db := run (Database.step fun text => text) Database.empty drainedActions
    ∀ later, ∀ row ∈ (run (Database.step fun text => text) db later).tables.outbox,
      row.globalPosition ≤ 1 → ∃ visible ∈ db.tables.outbox,
        visible.eventId = row.eventId ∧ visible.globalPosition = row.globalPosition :=
  high_water_mark_barrier (fun text => text) drainedActions .highWaterMark 1
    (List.mem_of_getElem? (i := 1) rfl)

end Database

end ImposbroSearch.Publishing
