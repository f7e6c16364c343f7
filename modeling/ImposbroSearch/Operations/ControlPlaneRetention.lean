import ImposbroSearch.ControlPlane.StoreEffects
import ImposbroSearch.Foundation.Retention

/-!
# Retention of the control-plane outbox

The rows of this outbox are one series, by their revisions: each announces a committed state
to the replicas. Batches of the retention job delete the announcements that were published
and are old, while the transactions of the store go on. The newest one stays, and what was
not published stays, so that no revision goes unannounced.
-/

namespace ImposbroSearch.Operations

open Foundation ControlPlane ControlPlane.AuditStore

/-- The place of a time among all times. -/
def timestampRank (t : Timestamp) : ℕ :=
  (((((t.year * 13 + t.month) * 32 + t.day) * 24 + t.hour) * 60 + t.minute) * 60 + t.second) *
    1000000 + t.microsecond

/-- `control_plane_outbox` as `CONTROL_DELETE_SQL` reads it: one series of revisions. -/
def controlPlaneOutbox : RowSchema OutboxRow Text ℤ Unit ℤ where
  id := OutboxRow.id
  publishedAt row := row.publishedAt.map timestampRank
  hold := OutboxRow.revision
  series _ := ()
  rank := OutboxRow.revision

variable {F : Type}

/-- The outbox in the control-plane store, with the rows that its transactions have locked. -/
def controlPlaneStoreOutbox : RowStore (AuditStore.Database F) OutboxRow Text where
  rows db := db.outbox
  withRows db left := { db with outbox := left }
  locked db eventId := (db.rowLocks eventId).isSome
  rows_withRows _ _ := rfl
  withRows_rows _ := rfl

/-- The control-plane store, with the batches whose transactions are open. -/
abbrev RetainedControlPlane (F : Type) := RetainedStore (AuditStore.Database F) OutboxRow ℤ

variable [PyFloat F] (hash : List ℕ → Text)

namespace RetainedControlPlane

def empty : RetainedControlPlane F := ⟨.empty, []⟩

/-- One action. A batch skips the rows that transactions have locked. -/
def step : RetainedControlPlane F → RetainedAction (StoreAction F) ℤ → RetainedControlPlane F :=
  RetainedStore.step controlPlaneOutbox controlPlaneStoreOutbox (AuditStore.Database.step hash)

end RetainedControlPlane

/-! ## What the store keeps -/

/-- The announcements end with the one of the committed state. -/
structure SparesLatest (db : AuditStore.Database F) : Prop where
  sound : db.Sound hash
  latest : ∀ state, db.state = some state → ∃ row ∈ db.outbox, row.revision = state.revision
  within : ∀ row ∈ db.outbox, ∃ state, db.state = some state ∧ row.revision ≤ state.revision

variable {hash} {db after : AuditStore.Database F}

omit [PyFloat F] in
/-- A published row is not updated. -/
theorem updateOutboxRow_published (request : StoreRequest F) {row : OutboxRow}
    (published : row.publishedAt ≠ none) :
    AuditStore.Database.updateOutboxRow request row = row := by
  unfold AuditStore.Database.updateOutboxRow
  rw [if_pos published]

/-- The rows of before are there after a step, perhaps with other marks. -/
theorem kept_of_outbox_effect (effect : AuditStore.Effect hash db after) {row : OutboxRow}
    (stored : row ∈ db.outbox) : ∃ kept ∈ after.outbox, kept.id = row.id ∧
      kept.revision = row.revision ∧ (row.publishedAt ≠ none → kept = row) := by
  cases effect with
  | quiet state head audit history outbox =>
      rcases outbox with same | ⟨request, same⟩
      · exact ⟨row, same ▸ stored, rfl, rfl, fun _ => rfl⟩
      · refine ⟨AuditStore.Database.updateOutboxRow request row, ?_,
          (updateOutboxRow_same request row).1, (updateOutboxRow_same request row).2,
          updateOutboxRow_published request⟩
        rw [same]
        exact List.mem_map_of_mem stored
  | appended audit revision now new entry records state outbox =>
      exact ⟨row, outbox ▸ stored, rfl, rfl, fun _ => rfl⟩
  | committed request prepared now stateRow new entry announced eventId ready current builtState
      records built fresh state outbox =>
      exact ⟨row, outbox ▸ List.mem_append_left _ stored, rfl, rfl, fun _ => rfl⟩

theorem outbox_grows (effect : AuditStore.Effect hash db after) :
    controlPlaneOutbox.Grows db.outbox after.outbox where
  kept row stored := by
    obtain ⟨kept, there, same, -⟩ := kept_of_outbox_effect effect stored
    exact ⟨kept, there, same⟩
  published row stored published := by
    obtain ⟨kept, there, -, -, same⟩ := kept_of_outbox_effect effect stored
    refine same (fun absent => published ?_) ▸ there
    show row.publishedAt.map timestampRank = none
    rw [absent]
    rfl
  covers row stored := by
    obtain ⟨kept, there, -, same, -⟩ := kept_of_outbox_effect effect stored
    exact ⟨kept, there, rfl, same.ge⟩

theorem outbox_unique (before : controlPlaneOutbox.UniqueIds db.outbox)
    (effect : AuditStore.Effect hash db after) : controlPlaneOutbox.UniqueIds after.outbox := by
  cases effect with
  | quiet state head audit history outbox =>
      rcases outbox with same | ⟨request, same⟩
      · rw [same]
        exact before
      · rw [same]
        refine List.pairwise_map.mpr (before.imp fun apart => ?_)
        show (AuditStore.Database.updateOutboxRow request _).id ≠
          (AuditStore.Database.updateOutboxRow request _).id
        rw [(updateOutboxRow_same request _).1, (updateOutboxRow_same request _).1]
        exact apart
  | appended audit revision now new entry records state outbox =>
      rw [outbox]
      exact before
  | committed request prepared now stateRow new entry announced eventId ready current builtState
      records built fresh state outbox =>
      rw [outbox]
      refine List.pairwise_append.mpr ⟨before, List.pairwise_singleton _ _, ?_⟩
      intro other stored last here
      rw [List.mem_singleton.mp here]
      exact (fresh other stored).1

omit [PyFloat F] in
theorem revision_of_nextOutboxRow [PyFloat F] {request : CommitRequest F}
    {prepared : PreparedCommit F} {now : Timestamp} {eventId : EventId} {row : OutboxRow}
    (built : nextOutboxRow request prepared now eventId = some row) :
    row.revision = request.expectedRevision + 1 := by
  unfold nextOutboxRow at built
  split at built
  · obtain rfl := Option.some.inj built
    rfl
  · cases built

omit [PyFloat F] in
theorem revision_of_nextStateRow [PyFloat F] {request : CommitRequest F}
    {prepared : PreparedCommit F} {now : Timestamp} {row : StateRow}
    (built : nextStateRow request prepared now = some row) :
    row.revision = request.expectedRevision + 1 := by
  unfold nextStateRow at built
  split_ifs at built
  obtain ⟨stateJson, -, rfl⟩ := Option.map_eq_some_iff.mp built
  rfl

/-- **A step of the store** announces what it commits. -/
theorem SparesLatest.effect (spares : SparesLatest hash db) (sound : after.Sound hash)
    (effect : AuditStore.Effect hash db after) : SparesLatest hash after where
  sound := sound
  latest state found := by
    have remains : ∀ row ∈ db.outbox, ∃ kept ∈ after.outbox, kept.id = row.id ∧
        kept.revision = row.revision ∧ (row.publishedAt ≠ none → kept = row) :=
      fun _ stored => kept_of_outbox_effect effect stored
    cases effect with
    | quiet same head audit history outbox =>
        obtain ⟨row, stored, revision⟩ := spares.latest state (same ▸ found)
        obtain ⟨kept, there, -, again, -⟩ := remains row stored
        exact ⟨kept, there, again.trans revision⟩
    | appended audit revision now new entry records same outbox =>
        rw [outbox]
        exact spares.latest state (same ▸ found)
    | committed request prepared now stateRow new entry announced eventId ready current builtState
        records built fresh same outbox =>
        obtain rfl := Option.some.inj (same.symm.trans found)
        refine ⟨announced, outbox ▸ List.mem_append_right _ (List.mem_singleton_self _), ?_⟩
        rw [revision_of_nextOutboxRow built, revision_of_nextStateRow builtState]
  within row stored := by
    cases effect with
    | quiet same head audit history outbox =>
        rcases outbox with unchanged | ⟨request, updated⟩
        · rw [same]
          exact spares.within row (unchanged ▸ stored)
        · rw [updated] at stored
          obtain ⟨old, before, rfl⟩ := List.mem_map.mp stored
          rw [same, (updateOutboxRow_same request old).2]
          exact spares.within old before
    | appended audit revision now new entry records same outbox =>
        rw [same]
        exact spares.within row (outbox ▸ stored)
    | committed request prepared now stateRow new entry announced eventId ready current builtState
        records built fresh same outbox =>
        refine ⟨stateRow, same, ?_⟩
        rw [revision_of_nextStateRow builtState]
        rw [outbox] at stored
        rcases List.mem_append.mp stored with before | here
        · obtain ⟨state, found, below⟩ := spares.within row before
          have revision : state.revision = request.expectedRevision := by
            unfold AuditStore.Database.latestRevision at current
            rw [found] at current
            exact current
          omega
        · rw [List.mem_singleton.mp here, revision_of_nextOutboxRow built]

/-- Transactions know nothing of rows that are gone. -/
theorem sound_delete (sound : db.Sound hash) {left : List OutboxRow}
    (stored : ∀ row ∈ left, row ∈ db.outbox) :
    AuditStore.Database.Sound hash { db with outbox := left } := by
  intro id transaction found
  refine (sound id transaction found).leaves ⟨fun locked => ⟨locked, rfl, ?_⟩,
    fun locked => ⟨locked, rfl⟩⟩
  exact fun row member => ⟨row, stored row member, rfl, rfl⟩

/-- **Transactions and batches** keep the newest announcement. -/
theorem keeps_sparesLatest (hash : List ℕ → Text) : RetainedStore.Keeps controlPlaneOutbox
    controlPlaneStoreOutbox (AuditStore.Database.step hash) (@SparesLatest F _ hash) where
  write db action spares unique := by
    have effect := effect_step spares.sound action
    exact ⟨spares.effect (spares.sound.step action) effect, outbox_grows effect,
      outbox_unique unique effect⟩
  delete db left spares stored covers :=
    { sound := sound_delete spares.sound stored
      latest := fun state found => by
        obtain ⟨row, before, revision⟩ := spares.latest state found
        obtain ⟨kept, there, -, above⟩ := covers row before
        obtain ⟨other, same, below⟩ := spares.within kept (stored kept there)
        obtain rfl : state = other := Option.some.inj (found.symm.trans same)
        have above : row.revision ≤ kept.revision := above
        exact ⟨kept, there, by omega⟩
      within := fun row member => spares.within row (stored row member) }

theorem sparesLatest_empty :
    SparesLatest hash (AuditStore.Database.empty : AuditStore.Database F) where
  sound := sound_empty
  latest _ found := by cases found
  within _ stored := absurd stored List.not_mem_nil

/-! ## Runs -/

/-- The announcement of a revision was published, and a batch has deleted it. -/
def DeletedPublished (actions : List (RetainedAction (StoreAction F) ℤ)) (revision : ℤ) : Prop :=
  ∃ id batch, .commit id ∈ actions ∧ .select id batch ∈ actions ∧ revision ∉ batch.held ∧
    ∃ row, row.revision = revision ∧ controlPlaneOutbox.PublishedBefore batch.cutoff row

omit [PyFloat F] in
theorem DeletedPublished.mono {actions : List (RetainedAction (StoreAction F) ℤ)} {revision : ℤ}
    (deleted : DeletedPublished actions revision) (action : RetainedAction (StoreAction F) ℤ) :
    DeletedPublished (actions ++ [action]) revision := by
  obtain ⟨id, batch, committed, selected, unheld, row⟩ := deleted
  exact ⟨id, batch, List.mem_append_left _ committed, List.mem_append_left _ selected, unheld, row⟩

/-- What a step keeps of an announcement: a row of its revision, or that it was published. -/
theorem announcement_step (hash : List ℕ → Text) (actions : List (RetainedAction (StoreAction F) ℤ))
    (action : RetainedAction (StoreAction F) ℤ) {row : OutboxRow}
    (stored : row ∈ (run (RetainedControlPlane.step hash) .empty actions).world.outbox) :
    (∃ kept ∈ (run (RetainedControlPlane.step hash) .empty (actions ++ [action])).world.outbox,
      kept.revision = row.revision) ∨ DeletedPublished (actions ++ [action]) row.revision := by
  obtain ⟨spares, safe⟩ := (keeps_sparesLatest hash).run sparesLatest_empty rfl actions
  by_cases gone : ∀ kept ∈
      (run (RetainedControlPlane.step hash) .empty (actions ++ [action])).world.outbox,
        kept.id ≠ row.id
  · -- the row is gone, so a batch had selected it
    obtain ⟨id, batch, rfl, selected, published, unheld, -⟩ :=
      (keeps_sparesLatest hash).spares sparesLatest_empty rfl actions action stored gone
    exact Or.inr ⟨id, batch, List.mem_append_right _ (List.mem_singleton_self _),
      List.mem_append_left _ selected, unheld, row, rfl, published⟩
  · obtain ⟨kept, there, same⟩ : ∃ kept ∈
        (run (RetainedControlPlane.step hash) .empty (actions ++ [action])).world.outbox,
          kept.id = row.id := by
      push Not at gone
      exact gone
    rw [run_snoc] at there ⊢
    -- only the store's own steps write rows
    have unwritten : kept ∈
        (run (RetainedControlPlane.step hash) .empty actions).world.outbox →
          kept.revision = row.revision := fun before =>
      congrArg OutboxRow.revision (safe.unique.eq before stored same)
    refine Or.inl ?_
    cases action with
    | write action =>
        obtain ⟨other, member, -, revision, -⟩ :=
          kept_of_outbox_effect (effect_step spares.sound action) stored
        exact ⟨other, member, revision⟩
    | select id batch =>
        refine ⟨kept, there, unwritten ?_⟩
        change kept ∈ (controlPlaneOutbox.selectBatch batch _ _ id).rows at there
        unfold RowSchema.selectBatch at there
        split_ifs at there
        · exact there
        · exact there
    | commit id => exact ⟨kept, there, unwritten (RowSchema.mem_of_commitBatch there)⟩
    | abort id => exact ⟨kept, there, unwritten there⟩

/-- What a step of the store answers with a committed revision, it announces. -/
theorem announced_of_answer (effect : AuditStore.Effect hash db after)
    {request : AuditStore.StoreRequest F} {record : ControlPlaneRecord F}
    (answered : (request, .committed record) ∈ after.outcomes) :
    (request, .committed record) ∈ db.outcomes ∨
      ∃ row ∈ after.outbox, row.revision = record.revision := by
  cases effect with
  | quiet state head audit history outbox outcomes kept =>
      exact Or.inl ((outcomes _ answered).resolve_right (not_not.mpr trivial))
  | appended audit revision now new entry records state outbox outcomes =>
      rw [outcomes] at answered
      rcases List.mem_append.mp answered with before | here
      · exact Or.inl before
      · cases List.mem_singleton.mp here
  | committed request' prepared now stateRow new entry announced eventId ready current builtState
      records built fresh state outbox outcomes =>
      rw [outcomes] at answered
      rcases List.mem_append.mp answered with before | here
      · exact Or.inl before
      · obtain ⟨-, same⟩ := Prod.mk.inj (List.mem_singleton.mp here)
        obtain rfl := StoreOutcome.committed.inj same
        exact Or.inr ⟨announced, outbox ▸ List.mem_append_right _ (List.mem_singleton_self _),
          revision_of_nextOutboxRow built⟩

variable (db) in
/-- The row that announces a committed revision is in the outbox, until it was published and
a batch has deleted it. -/
def CommitsAnnounced (actions : List (RetainedAction (StoreAction F) ℤ)) : Prop :=
  ∀ request record, (request, StoreOutcome.committed record) ∈ db.outcomes →
    (∃ row ∈ db.outbox, row.revision = record.revision) ∨ DeletedPublished actions record.revision

/-- **Every commit is announced**, over every run of transactions and batches. -/
theorem commitsAnnounced (hash : List ℕ → Text)
    (actions : List (RetainedAction (StoreAction F) ℤ)) :
    CommitsAnnounced (run (RetainedControlPlane.step hash) .empty actions).world actions := by
  intro request record answered
  induction actions using List.reverseRecOn with
  | nil => exact absurd answered List.not_mem_nil
  | append_singleton actions action ih =>
      have known : (request, .committed record) ∈
            (run (RetainedControlPlane.step hash) .empty actions).world.outcomes ∨
          ∃ row ∈ (run (RetainedControlPlane.step hash) .empty (actions ++ [action])).world.outbox,
            row.revision = record.revision := by
        have spares := ((keeps_sparesLatest hash).run sparesLatest_empty rfl actions).1
        change (request, _) ∈ (run (RetainedControlPlane.step hash) .empty
          (actions ++ [action])).world.outcomes at answered
        rw [run_snoc] at answered ⊢
        cases action with
        | write action => exact announced_of_answer (effect_step spares.sound action) answered
        | select id batch => exact Or.inl answered
        | commit id => exact Or.inl answered
        | abort id => exact Or.inl answered
      rcases known with before | announced
      · rcases ih before with ⟨row, stored, revision⟩ | deleted
        · rw [← revision]
          exact announcement_step hash actions action stored
        · exact Or.inr (deleted.mono action)
      · exact Or.inl announced

/-- **Retention spares the newest announcement.** Over every run of transactions and batches:
a row that a step takes from the outbox was selected by a batch that commits, so it was
published before the cutoff and its revision was not held, and a newer one stays; the
committed state is announced by the newest row; and every revision that was ever committed
is announced by a row until that row was published and deleted. -/
theorem control_plane_retention_spares (hash : List ℕ → Text)
    (actions : List (RetainedAction (StoreAction F) ℤ))
    (action : RetainedAction (StoreAction F) ℤ) :
    let before := (run (RetainedControlPlane.step hash) .empty actions).world
    let after := (run (RetainedControlPlane.step hash) .empty (actions ++ [action])).world
    (∀ row ∈ before.outbox, (∀ kept ∈ after.outbox, kept.id ≠ row.id) →
      ∃ id batch, action = .commit id ∧ .select id batch ∈ actions ∧
        controlPlaneOutbox.Candidate batch after.outbox row) ∧
      (∀ state, after.state = some state → ∃ row ∈ after.outbox, row.revision = state.revision ∧
        ∀ other ∈ after.outbox, other.revision ≤ row.revision) ∧
      CommitsAnnounced after (actions ++ [action]) := by
  intro before after
  refine ⟨fun row stored gone => ?_, fun state found => ?_, commitsAnnounced hash _⟩
  · exact (keeps_sparesLatest hash).spares sparesLatest_empty rfl actions action stored gone
  · have spares : SparesLatest hash after :=
      ((keeps_sparesLatest hash).run sparesLatest_empty rfl (actions ++ [action])).1
    obtain ⟨row, stored, revision⟩ := spares.latest state found
    refine ⟨row, stored, revision, fun other member => ?_⟩
    obtain ⟨same, again, below⟩ := spares.within other member
    obtain rfl : state = same := Option.some.inj (found.symm.trans again)
    rw [revision]
    exact below

end ImposbroSearch.Operations
