import Mathlib.Data.Finset.Max
import Mathlib.Data.List.Pairwise
import Mathlib.Data.List.Sort
import Mathlib.Tactic.Common
import ImposbroSearch.Foundation.Runs

/-!
# Retention of published rows

A table of rows that are published once and grow old in series: a row of a series is
outdated when a row of a higher rank is there. A batch chooses published rows that are
outdated and not held, skips the ones that are locked, and deletes its choice when it
commits. Other writers add rows and publish rows in between.

The newest row of a series is never chosen, and it cannot become outdated by a deletion.
-/

set_option linter.unusedSectionVars false

namespace ImposbroSearch.Foundation

/-- How the rows of a table are read. -/
structure RowSchema (Row Key Hold Series Rank : Type) where
  id : Row → Key
  publishedAt : Row → Option ℕ
  hold : Row → Hold
  series : Row → Series
  rank : Row → Rank

/-- What a batch is asked to delete: old rows, up to some number of them, that are not held. -/
structure RetentionBatch (Hold : Type) where
  cutoff : ℕ
  held : List Hold
  batchSize : ℕ

/-- A batch that has chosen its rows, and locks them until it ends. -/
structure PendingDeletion (Row Hold : Type) where
  id : ℕ
  batch : RetentionBatch Hold
  victims : List Row

/-- The committed rows, and the batches that have not ended. -/
structure RetainedTable (Row Hold : Type) where
  rows : List Row
  pending : List (PendingDeletion Row Hold)

namespace RowSchema

variable {Row Key Hold Series Rank : Type} [LinearOrder Key] [DecidableEq Hold] [DecidableEq Series]
  [LinearOrder Rank]
  (schema : RowSchema Row Key Hold Series Rank)

/-- A newer row of the same series. -/
def Outdates (newer row : Row) : Prop :=
  schema.series newer = schema.series row ∧ schema.rank row < schema.rank newer

instance (newer row : Row) : Decidable (schema.Outdates newer row) :=
  inferInstanceAs (Decidable (_ ∧ _))

def Outdated (rows : List Row) (row : Row) : Prop := ∃ newer ∈ rows, schema.Outdates newer row

instance (rows : List Row) (row : Row) : Decidable (schema.Outdated rows row) :=
  inferInstanceAs (Decidable (∃ newer ∈ rows, _))

def PublishedBefore (cutoff : ℕ) (row : Row) : Prop :=
  ∃ published ∈ schema.publishedAt row, published < cutoff

instance (cutoff : ℕ) (row : Row) : Decidable (schema.PublishedBefore cutoff row) :=
  inferInstanceAs (Decidable (∃ published ∈ schema.publishedAt row, _))

variable (batch : RetentionBatch Hold) (locked : Key → Bool) (rows : List Row)

/-- The rows that the statement selects. -/
def Candidate (row : Row) : Prop :=
  schema.PublishedBefore batch.cutoff row ∧ schema.hold row ∉ batch.held ∧ schema.Outdated rows row

instance (row : Row) : Decidable (schema.Candidate batch rows row) :=
  inferInstanceAs (Decidable (_ ∧ _))

/-- `ORDER BY published_at, id` -/
def Precedes (first second : Row) : Prop :=
  (schema.publishedAt first).getD 0 < (schema.publishedAt second).getD 0 ∨
    (schema.publishedAt first).getD 0 = (schema.publishedAt second).getD 0 ∧
      schema.id first ≤ schema.id second

instance : DecidableRel schema.Precedes := fun _ _ => inferInstanceAs (Decidable (_ ∨ _))

/-- `LIMIT … FOR UPDATE SKIP LOCKED` -/
def candidates : List Row :=
  ((rows.filter fun row => schema.Candidate batch rows row ∧ locked (schema.id row) = false)
    |>.insertionSort schema.Precedes).take batch.batchSize

/-- `DELETE … USING candidates`, which looks at publication and newer rows once more. -/
def victims : List Row :=
  rows.filter fun row =>
    schema.id row ∈ (schema.candidates batch locked rows).map schema.id ∧
      schema.publishedAt row ≠ none ∧ schema.Outdated rows row

/-- The rows that are left when the victims are deleted. -/
def remove (victims : List Row) : List Row :=
  rows.filter fun row => schema.id row ∉ victims.map schema.id

variable (table : RetainedTable Row Hold) (id : ℕ)

/-- The statement of a batch, which skips the rows of the others. -/
def selectBatch : RetainedTable Row Hold :=
  if table.pending.any fun pending => pending.id = id then table
  else
    let taken := fun row => locked row ||
      table.pending.any fun pending => row ∈ pending.victims.map schema.id
    { table with pending := ⟨id, batch, schema.victims batch taken table.rows⟩ :: table.pending }

/-- The end of a batch without an effect. -/
def abortBatch : RetainedTable Row Hold :=
  { table with pending := table.pending.filter fun pending => pending.id ≠ id }

/-- The end of a batch, whose rows are gone. -/
def commitBatch : RetainedTable Row Hold :=
  match table.pending.find? fun pending => pending.id = id with
  | none => table
  | some pending =>
    { rows := schema.remove table.rows pending.victims
      pending := (abortBatch table id).pending }

/-- The primary key. -/
def UniqueIds : Prop := rows.Pairwise fun first second => schema.id first ≠ schema.id second

/-! ## What a batch may delete -/

variable {schema batch locked rows}

theorem UniqueIds.eq {row other : Row} (unique : schema.UniqueIds rows) (stored : row ∈ rows)
    (member : other ∈ rows) (same : schema.id row = schema.id other) : row = other := by
  by_contra differs
  have symm : Std.Symm fun first second : Row => schema.id first ≠ schema.id second :=
    ⟨fun _ _ apart => apart.symm⟩
  exact unique.forall stored member differs same

theorem UniqueIds.remove (unique : schema.UniqueIds rows) (victims : List Row) :
    schema.UniqueIds (schema.remove rows victims) :=
  unique.filter _

theorem candidate_of_mem {row : Row} (chosen : row ∈ schema.candidates batch locked rows) :
    row ∈ rows ∧ schema.Candidate batch rows row ∧ locked (schema.id row) = false := by
  have sorted := List.mem_of_mem_take chosen
  rw [List.mem_insertionSort] at sorted
  obtain ⟨stored, fits⟩ := List.mem_filter.mp sorted
  exact ⟨stored, of_decide_eq_true fits⟩

/-- The join on the primary key finds the candidates themselves. -/
theorem victim_of_mem {row : Row} (unique : schema.UniqueIds rows)
    (chosen : row ∈ schema.victims batch locked rows) :
    row ∈ rows ∧ schema.Candidate batch rows row ∧ locked (schema.id row) = false := by
  obtain ⟨stored, fits⟩ := List.mem_filter.mp chosen
  obtain ⟨named, -, -⟩ := of_decide_eq_true fits
  obtain ⟨candidate, listed, same⟩ := List.mem_map.mp named
  have selected := candidate_of_mem listed
  rwa [unique.eq selected.1 stored same] at selected

/-- The rows a pending batch holds: still there, still to be deleted. -/
def Guarded (schema : RowSchema Row Key Hold Series Rank) (rows : List Row)
    (pending : PendingDeletion Row Hold) : Prop :=
  ∀ victim ∈ pending.victims, victim ∈ rows ∧ schema.Candidate pending.batch rows victim

theorem guarded_victims (unique : schema.UniqueIds rows) (id : ℕ) :
    schema.Guarded rows ⟨id, batch, schema.victims batch locked rows⟩ :=
  fun _ chosen => ⟨(victim_of_mem unique chosen).1, (victim_of_mem unique chosen).2.1⟩

/-- Two batches that hold no row in common. -/
def Apart (schema : RowSchema Row Key Hold Series Rank)
    (first second : PendingDeletion Row Hold) : Prop :=
  ∀ victim ∈ first.victims, schema.id victim ∉ second.victims.map schema.id

theorem Apart.symm {first second : PendingDeletion Row Hold} (apart : schema.Apart first second) :
    schema.Apart second first := by
  intro victim held named
  obtain ⟨other, listed, same⟩ := List.mem_map.mp named
  exact apart other listed (List.mem_map.mpr ⟨victim, held, same.symm⟩)

/-- Every row has a row of its series left that is at least as new. -/
def Covers (schema : RowSchema Row Key Hold Series Rank) (before after : List Row) : Prop :=
  ∀ row ∈ before, ∃ kept ∈ after,
    schema.series kept = schema.series row ∧ schema.rank row ≤ schema.rank kept

theorem Covers.trans {first second third : List Row} (covers : schema.Covers first second)
    (next : schema.Covers second third) : schema.Covers first third := by
  intro row stored
  obtain ⟨kept, there, series, rank⟩ := covers row stored
  obtain ⟨last, after, same, higher⟩ := next kept there
  exact ⟨last, after, same.trans series, rank.trans higher⟩

theorem covers_of_subset {before after : List Row} (kept : ∀ row ∈ before, row ∈ after) :
    schema.Covers before after :=
  fun row stored => ⟨row, kept row stored, rfl, le_rfl⟩

theorem Covers.outdated {before after : List Row} {row : Row} (covers : schema.Covers before after)
    (outdated : schema.Outdated before row) : schema.Outdated after row := by
  obtain ⟨newer, stored, series, rank⟩ := outdated
  obtain ⟨kept, there, same, higher⟩ := covers newer stored
  exact ⟨kept, there, same.trans series, rank.trans_le higher⟩

/-- What the other writers may do: every row stays, the published ones as they are, and no
series loses its newest row. -/
structure Grows (schema : RowSchema Row Key Hold Series Rank) (before after : List Row) : Prop where
  kept : ∀ row ∈ before, ∃ same ∈ after, schema.id same = schema.id row
  published : ∀ row ∈ before, schema.publishedAt row ≠ none → row ∈ after
  covers : schema.Covers before after

/-- A pending batch keeps its rows while others write. -/
theorem Guarded.grows {before after : List Row} {pending : PendingDeletion Row Hold}
    (guarded : schema.Guarded before pending) (grows : schema.Grows before after) :
    schema.Guarded after pending := by
  intro victim chosen
  obtain ⟨stored, old, unheld, outdated⟩ := guarded victim chosen
  refine ⟨grows.published victim stored ?_, old, unheld, grows.covers.outdated outdated⟩
  obtain ⟨published, since, -⟩ := old
  rw [Option.mem_def.mp since]
  exact Option.some_ne_none _

/-- A series has a newest row. -/
theorem exists_newest (schema : RowSchema Row Key Hold Series Rank) {row : Row}
    (stored : row ∈ rows) : ∃ newest ∈ rows,
    schema.series newest = schema.series row ∧ schema.rank row ≤ schema.rank newest ∧
      ¬schema.Outdated rows newest := by
  classical
  let series := rows.filter fun other => schema.series other = schema.series row
  have here : row ∈ series := List.mem_filter.mpr ⟨stored, decide_eq_true rfl⟩
  obtain ⟨newest, member, highest⟩ := series.toFinset.exists_max_image schema.rank
    ⟨row, List.mem_toFinset.mpr here⟩
  obtain ⟨there, same⟩ := List.mem_filter.mp (List.mem_toFinset.mp member)
  refine ⟨newest, there, of_decide_eq_true same, highest row (List.mem_toFinset.mpr here), ?_⟩
  rintro ⟨newer, after, series, higher⟩
  have within : newer ∈ rows.filter fun other => schema.series other = schema.series row :=
    List.mem_filter.mpr ⟨after, decide_eq_true (series.trans (of_decide_eq_true same))⟩
  exact absurd (highest newer (List.mem_toFinset.mpr within)) (not_le.mpr higher)

/-- **A deletion** takes from the table what its batch holds, and no newest row. -/
theorem Guarded.covers_remove {pending : PendingDeletion Row Hold}
    (guarded : schema.Guarded rows pending) (unique : schema.UniqueIds rows) :
    schema.Covers rows (schema.remove rows pending.victims) := by
  intro row stored
  obtain ⟨newest, there, series, higher, last⟩ := schema.exists_newest stored
  refine ⟨newest, List.mem_filter.mpr ⟨there, decide_eq_true ?_⟩, series, higher⟩
  intro named
  obtain ⟨victim, chosen, same⟩ := List.mem_map.mp named
  obtain ⟨held, -, -, outdated⟩ := guarded victim chosen
  rw [unique.eq held there same] at outdated
  exact last outdated

/-- Another batch keeps its rows when one deletes its own. -/
theorem Guarded.remove {pending other : PendingDeletion Row Hold}
    (guarded : schema.Guarded rows pending) (kept : schema.Guarded rows other)
    (unique : schema.UniqueIds rows) (apart : schema.Apart other pending) :
    schema.Guarded (schema.remove rows pending.victims) other := by
  intro victim chosen
  obtain ⟨stored, old, unheld, outdated⟩ := kept victim chosen
  exact ⟨List.mem_filter.mpr ⟨stored, decide_eq_true (apart victim chosen)⟩, old, unheld,
    (guarded.covers_remove unique).outdated outdated⟩

/-- **A deleted row** was published before the cutoff and not held, and a newer row of
its series is left. -/
theorem Guarded.of_removed {pending : PendingDeletion Row Hold} {row : Row}
    (guarded : schema.Guarded rows pending) (unique : schema.UniqueIds rows) (stored : row ∈ rows)
    (gone : row ∉ schema.remove rows pending.victims) :
    schema.Candidate pending.batch (schema.remove rows pending.victims) row := by
  have named : schema.id row ∈ pending.victims.map schema.id := by
    by_contra unnamed
    exact gone (List.mem_filter.mpr ⟨stored, decide_eq_true unnamed⟩)
  obtain ⟨victim, chosen, same⟩ := List.mem_map.mp named
  obtain ⟨held, old, unheld, outdated⟩ := guarded victim chosen
  obtain rfl := unique.eq held stored same
  exact ⟨old, unheld, (guarded.covers_remove unique).outdated outdated⟩

/-! ## Batches that interleave -/

/-- Every pending batch holds its rows, and no two hold the same. -/
structure Safe (schema : RowSchema Row Key Hold Series Rank)
    (table : RetainedTable Row Hold) : Prop where
  unique : schema.UniqueIds table.rows
  guarded : ∀ pending ∈ table.pending, schema.Guarded table.rows pending
  disjoint : table.pending.Pairwise schema.Apart

variable {table : RetainedTable Row Hold} {id : ℕ}

/-- Other writers. -/
theorem Safe.write (safe : schema.Safe table) {rows : List Row}
    (grows : schema.Grows table.rows rows) (unique : schema.UniqueIds rows) :
    schema.Safe { table with rows } where
  unique := unique
  guarded pending held := (safe.guarded pending held).grows grows
  disjoint := safe.disjoint

theorem Safe.selectBatch (safe : schema.Safe table) :
    schema.Safe (schema.selectBatch batch locked table id) := by
  unfold RowSchema.selectBatch
  split_ifs
  · exact safe
  · constructor
    case unique => exact safe.unique
    case guarded =>
      intro pending held
      rcases List.mem_cons.mp held with rfl | before
      · exact guarded_victims safe.unique id
      · exact safe.guarded pending before
    case disjoint =>
      refine List.pairwise_cons.mpr ⟨?_, safe.disjoint⟩
      intro other held victim chosen named
      obtain ⟨-, -, free⟩ := victim_of_mem safe.unique chosen
      obtain ⟨-, untaken⟩ := Bool.or_eq_false_iff.mp free
      exact absurd (decide_eq_true named) (List.any_eq_false.mp untaken other held)

theorem Safe.abortBatch (safe : schema.Safe table) : schema.Safe (abortBatch table id) where
  unique := safe.unique
  guarded pending held := safe.guarded pending (List.mem_of_mem_filter held)
  disjoint := safe.disjoint.filter _

/-- The batch that a commit ends, if there is one. -/
theorem commitBatch_cases (schema : RowSchema Row Key Hold Series Rank)
    (table : RetainedTable Row Hold) (id : ℕ) :
    schema.commitBatch table id = table ∨ ∃ pending ∈ table.pending, pending.id = id ∧
      schema.commitBatch table id =
        ⟨schema.remove table.rows pending.victims, (RowSchema.abortBatch table id).pending⟩ := by
  unfold RowSchema.commitBatch
  split
  · exact Or.inl rfl
  next pending found =>
    refine Or.inr ⟨pending, List.mem_of_find?_eq_some found, ?_, rfl⟩
    simpa using List.find?_some found

theorem Safe.commitBatch (safe : schema.Safe table) :
    schema.Safe (schema.commitBatch table id) := by
  rcases commitBatch_cases schema table id with same | ⟨pending, held, named, same⟩
  · rw [same]
    exact safe
  · rw [same]
    constructor
    case unique => exact safe.unique.remove _
    case guarded =>
      intro other left
      obtain ⟨kept, apart⟩ := List.mem_filter.mp left
      have symm : Std.Symm schema.Apart := ⟨fun _ _ apart => apart.symm⟩
      have differs : other ≠ pending := by
        rintro rfl
        exact of_decide_eq_true apart named
      exact (safe.guarded pending held).remove (safe.guarded other kept) safe.unique
        (safe.disjoint.forall kept held differs)
    case disjoint => exact safe.disjoint.filter _

/-- **A commit** leaves the newest row of every series. -/
theorem Safe.covers_commitBatch (safe : schema.Safe table) :
    schema.Covers table.rows (schema.commitBatch table id).rows := by
  rcases commitBatch_cases schema table id with same | ⟨pending, held, named, same⟩
  · rw [same]
    exact covers_of_subset fun _ stored => stored
  · rw [same]
    exact (safe.guarded pending held).covers_remove safe.unique

theorem mem_of_commitBatch {row : Row} (left : row ∈ (schema.commitBatch table id).rows) :
    row ∈ table.rows := by
  rcases commitBatch_cases schema table id with same | ⟨pending, held, named, same⟩
  · rwa [same] at left
  · rw [same] at left
    exact List.mem_of_mem_filter left

/-- **What a commit deletes** was asked for by its batch. -/
theorem Safe.of_deleted (safe : schema.Safe table) {row : Row} (stored : row ∈ table.rows)
    (gone : row ∉ (schema.commitBatch table id).rows) : ∃ pending ∈ table.pending,
      pending.id = id ∧ schema.Candidate pending.batch (schema.commitBatch table id).rows row := by
  rcases commitBatch_cases schema table id with same | ⟨pending, held, named, same⟩
  · rw [same] at gone
    exact absurd stored gone
  · rw [same] at gone ⊢
    exact ⟨pending, held, named, (safe.guarded pending held).of_removed safe.unique stored gone⟩

end RowSchema

/-! ## Beside other writers -/

section Writers

variable {World Action Row Key Hold Series Rank : Type} [LinearOrder Key] [DecidableEq Hold]
  [DecidableEq Series] [LinearOrder Rank]

/-- A store with a table, and what is locked in it. -/
structure RowStore (World Row Key : Type) where
  rows : World → List Row
  withRows : World → List Row → World
  locked : World → Key → Bool
  rows_withRows : ∀ world left, rows (withRows world left) = left
  withRows_rows : ∀ world, withRows world (rows world) = world

/-- A store, with the batches whose transactions are open. -/
structure RetainedStore (World Row Hold : Type) where
  world : World
  pending : List (PendingDeletion Row Hold)

inductive RetainedAction (Action Hold : Type) where
  | write (action : Action)
  | select (id : ℕ) (batch : RetentionBatch Hold)
  | commit (id : ℕ)
  | abort (id : ℕ)

namespace RetainedStore

variable (schema : RowSchema Row Key Hold Series Rank) (store : RowStore World Row Key)
  (write : World → Action → World) (db : RetainedStore World Row Hold)

/-- The table as its batches see it. -/
def table : RetainedTable Row Hold := ⟨store.rows db.world, db.pending⟩

/-- What a batch does to the table. -/
def withTable (table : RetainedTable Row Hold) : RetainedStore World Row Hold :=
  ⟨store.withRows db.world table.rows, table.pending⟩

/-- One action. A batch skips the rows that writers have locked. -/
def step (db : RetainedStore World Row Hold) :
    RetainedAction Action Hold → RetainedStore World Row Hold
  | .write action => { db with world := write db.world action }
  | .select id batch =>
    db.withTable store (schema.selectBatch batch (store.locked db.world) (db.table store) id)
  | .commit id => db.withTable store (schema.commitBatch (db.table store) id)
  | .abort id => db.withTable store (RowSchema.abortBatch (db.table store) id)

@[simp] theorem table_withTable (table : RetainedTable Row Hold) :
    (db.withTable store table).table store = table := by
  unfold RetainedStore.table withTable
  rw [store.rows_withRows]

/-- What the writers keep, and what a deletion keeps that leaves the newest rows. -/
structure Keeps (I : World → Prop) : Prop where
  write : ∀ world action, I world → schema.UniqueIds (store.rows world) →
    I (write world action) ∧ schema.Grows (store.rows world) (store.rows (write world action)) ∧
      schema.UniqueIds (store.rows (write world action))
  delete : ∀ world left, I world → (∀ row ∈ left, row ∈ store.rows world) →
    schema.Covers (store.rows world) left → I (store.withRows world left)

variable {schema store write db} {I : World → Prop}

/-- **One action** keeps the batches safe, whatever the writers keep. -/
theorem Keeps.step (keeps : Keeps schema store write I) (holds : I db.world)
    (safe : schema.Safe (db.table store)) (action : RetainedAction Action Hold) :
    I (RetainedStore.step schema store write db action).world ∧
      schema.Safe ((RetainedStore.step schema store write db action).table store) := by
  cases action with
  | write action =>
      obtain ⟨kept, grows, unique⟩ := keeps.write db.world action holds safe.unique
      exact ⟨kept, safe.write grows unique⟩
  | select id batch =>
      have rows : (schema.selectBatch batch (store.locked db.world) (db.table store) id).rows =
          store.rows db.world := by
        unfold RowSchema.selectBatch
        split_ifs
        · rfl
        · rfl
      refine ⟨?_, ?_⟩
      · show I (store.withRows db.world _)
        rw [rows, store.withRows_rows]
        exact holds
      · show schema.Safe ((db.withTable store _).table store)
        rw [table_withTable]
        exact safe.selectBatch
  | commit id =>
      refine ⟨keeps.delete db.world _ holds (fun _ => RowSchema.mem_of_commitBatch)
        safe.covers_commitBatch, ?_⟩
      show schema.Safe ((db.withTable store _).table store)
      rw [table_withTable]
      exact safe.commitBatch
  | abort id =>
      refine ⟨?_, ?_⟩
      · show I (store.withRows db.world (store.rows db.world))
        rw [store.withRows_rows]
        exact holds
      · show schema.Safe ((db.withTable store _).table store)
        rw [table_withTable]
        exact safe.abortBatch

variable {world : World}

/-- **Every run** of writers and batches keeps the batches safe. -/
theorem Keeps.run (keeps : Keeps schema store write I) (initial : I world)
    (empty : store.rows world = []) (actions : List (RetainedAction Action Hold)) :
    I (run (RetainedStore.step schema store write) ⟨world, []⟩ actions).world ∧
      schema.Safe ((run (RetainedStore.step schema store write) ⟨world, []⟩ actions).table store) :=
  run_invariant_always (I := fun db : RetainedStore World Row Hold =>
      I db.world ∧ schema.Safe (db.table store))
    (fun _ action holds => keeps.step holds.1 holds.2 action)
    ⟨initial, by
      refine ⟨?_, fun _ open_ => absurd open_ List.not_mem_nil, List.Pairwise.nil⟩
      show schema.UniqueIds (store.rows world)
      rw [empty]
      exact List.Pairwise.nil⟩

/-- A batch that is open was selected. -/
theorem selected_of_pending {actions : List (RetainedAction Action Hold)}
    {pending : PendingDeletion Row Hold}
    (held : pending ∈ (run (RetainedStore.step schema store write) ⟨world, []⟩ actions).pending) :
    RetainedAction.select pending.id pending.batch ∈ actions := by
  induction actions using List.reverseRecOn with
  | nil => exact absurd held List.not_mem_nil
  | append_singleton actions action ih =>
      rw [run_snoc] at held
      set db := Foundation.run (RetainedStore.step schema store write) ⟨world, []⟩ actions
      rw [List.mem_append, List.mem_singleton]
      cases action with
      | write action => exact Or.inl (ih held)
      | select id batch =>
          change pending ∈ (schema.selectBatch batch _ (db.table store) id).pending at held
          unfold RowSchema.selectBatch at held
          split_ifs at held with known
          · exact Or.inl (ih held)
          · rcases List.mem_cons.mp held with rfl | before
            · exact Or.inr rfl
            · exact Or.inl (ih before)
      | commit id =>
          change pending ∈ (schema.commitBatch (db.table store) id).pending at held
          rcases RowSchema.commitBatch_cases schema (db.table store) id with same | ⟨_, -, -, same⟩
          · rw [same] at held
            exact Or.inl (ih held)
          · rw [same] at held
            exact Or.inl (ih (List.mem_of_mem_filter held))
      | abort id => exact Or.inl (ih (List.mem_of_mem_filter held))

/-- **What a step takes from the table** was selected by a batch that commits: it is a
candidate of the batch among the rows that are left. -/
theorem Keeps.spares (keeps : Keeps schema store write I) (initial : I world)
    (empty : store.rows world = []) (actions : List (RetainedAction Action Hold))
    (action : RetainedAction Action Hold) {row : Row}
    (stored : row ∈ store.rows
      (Foundation.run (RetainedStore.step schema store write) ⟨world, []⟩ actions).world)
    (gone : ∀ kept ∈ store.rows
      (Foundation.run (RetainedStore.step schema store write) ⟨world, []⟩ (actions ++ [action])).world,
        schema.id kept ≠ schema.id row) :
    ∃ id batch, action = .commit id ∧ .select id batch ∈ actions ∧
      schema.Candidate batch (store.rows (Foundation.run (RetainedStore.step schema store write)
        ⟨world, []⟩ (actions ++ [action])).world) row := by
  obtain ⟨holds, safe⟩ := keeps.run initial empty actions
  have selected : ∀ pending ∈ (Foundation.run (RetainedStore.step schema store write) ⟨world, []⟩
      actions).pending, .select pending.id pending.batch ∈ actions :=
    fun _ held => selected_of_pending held
  rw [run_snoc] at gone ⊢
  set db := Foundation.run (RetainedStore.step schema store write) ⟨world, []⟩ actions
  -- a batch that has not committed leaves the table
  have same : ∀ table : RetainedTable Row Hold, table.rows = store.rows db.world →
      row ∈ store.rows (db.withTable store table).world := by
    intro table unchanged
    show row ∈ store.rows (store.withRows db.world table.rows)
    rw [unchanged, store.withRows_rows]
    exact stored
  cases action with
  | write action =>
      obtain ⟨-, grows, -⟩ := keeps.write db.world action holds safe.unique
      obtain ⟨kept, there, same⟩ := grows.kept row stored
      exact absurd same (gone kept there)
  | select id batch =>
      refine absurd rfl (gone row (same _ ?_))
      unfold RowSchema.selectBatch
      split_ifs
      · rfl
      · rfl
  | commit id =>
      have left : store.rows (RetainedStore.step schema store write db (.commit id)).world =
          (schema.commitBatch (db.table store) id).rows := store.rows_withRows _ _
      rw [left] at gone ⊢
      obtain ⟨pending, held, rfl, candidate⟩ :=
        safe.of_deleted stored fun kept => gone row kept rfl
      exact ⟨pending.id, pending.batch, rfl, selected pending held, candidate⟩
  | abort id => exact absurd rfl (gone row (same _ rfl))

end RetainedStore

end Writers

end ImposbroSearch.Foundation
