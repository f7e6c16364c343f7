import ImposbroSearch.Foundation.Delivery
import ImposbroSearch.Foundation.PartitionedLog
import ImposbroSearch.Foundation.Runs
import ImposbroSearch.Indexing.Consumer

/-!
# From the outbox to the worker and the dead-letter queue

An accepted mutation waits in the outbox, is published to the topic of its
collection, and is consumed by the worker, which commits the group's offset after
each record it has processed or published to the dead-letter topic. A dead-letter
record is resolved one at a time by `scripts/ops/dlq_resolver.py`: its envelope is
replayed to the source topic and the resolver's offset is committed after the
acknowledgement, or the offset is committed without a replay after an approved
disposition.

All topics share one broker log. Each step below is one thing a client or the
broker does; a step whose own checks refuse it changes nothing. What the worker
does with a record and when it polls again is the subject of the consumer model;
here it may process, quarantine, and commit in any order in which a commit follows
the handling of the record it names.
-/

namespace ImposbroSearch.Operations

open ImposbroSearch.Foundation ImposbroSearch.Indexing

structure PipelineConfig where
  topicPrefix : String
  partitionCount : String → ℕ

namespace PipelineConfig

variable (config : PipelineConfig)

def topicName (collection : String) : String := config.topicPrefix ++ "_" ++ collection

def dlqTopic : String := config.topicPrefix ++ "_dlq"

end PipelineConfig

/-- What a record carries. The envelope of an event is published from the outbox,
or replayed with the `imposbro-dlq-partition` and `imposbro-dlq-offset` headers of
the dead letter it recovers. -/
inductive RecordValue where
  | envelope (eventId : String) (recovers : Option (TopicPartition × ℕ))
  | deadLetter (eventId : String) (source : TopicPartition) (sourceOffset : ℕ)
  deriving DecidableEq, Repr

/-- A row of `indexing_event_outbox`, of any collection. -/
structure PipelineRow where
  eventId : String
  collection : String
  published : Bool
  deriving DecidableEq, Repr

structure Pipeline where
  outbox : List PipelineRow
  /-- the rows for which a `send(); flush()` has returned -/
  returned : List String
  log : PartitionedLog TopicPartition RecordValue
  /-- the commits of the worker's consumer group, newest first -/
  workerCommits : List (TopicPartition × ℕ)
  /-- the committed offsets of the resolver's group -/
  resolverCommitted : TopicPartition → Option ℕ
  processed : List (TopicPartition × ℕ)
  /-- the records for which `publish_to_dlq` has returned -/
  quarantined : List (TopicPartition × ℕ)
  /-- the dead letters passed by an approved disposition -/
  disposed : List (TopicPartition × ℕ)

/-- Nothing has been accepted. The resolver commits only where its group has an
offset already, so an operator may have started some partitions at zero. -/
def Pipeline.initial (started : TopicPartition → Bool) : Pipeline where
  outbox := []
  returned := []
  log := .empty
  workerCommits := []
  resolverCommitted := fun partition => if started partition then some 0 else none
  processed := []
  quarantined := []
  disposed := []

inductive PipelineAction where
  /-- A mutation is accepted. -/
  | prepare (eventId collection : String)
  /-- `_send_with_trace` for an outbox row. -/
  | send (eventId : String) (partition : ℕ) (delivery : Delivery)
  | markPublished (eventId : String)
  /-- `process_message` returns. -/
  | process (source : TopicPartition) (offset : ℕ)
  /-- `publish_to_dlq` is called for a record. -/
  | quarantine (source : TopicPartition) (offset partition : ℕ) (delivery : Delivery)
  /-- `commit_message_offset` -/
  | commit (source : TopicPartition) (offset : ℕ)
  /-- The resolver's `send().get(); flush()` for a dead letter. -/
  | replay (partition offset target : ℕ)
  /-- `_commit_exact` after a replay. -/
  | commitReplayed (partition offset : ℕ)
  /-- `_commit_exact` of a disposition. -/
  | dispose (partition offset : ℕ)

namespace Pipeline

variable (config : PipelineConfig) (pipeline : Pipeline)

def isPrepared (eventId : String) : Bool :=
  pipeline.outbox.any (·.eventId = eventId)

/-- Some record was replayed from this dead letter. -/
def isReplayed (deadLetter : TopicPartition × ℕ) : Bool :=
  pipeline.log.records.any fun record =>
    match record.value with
    | .envelope _ recovers => recovers = some deadLetter
    | .deadLetter .. => false

def append (partition : TopicPartition) (value : RecordValue) : Pipeline :=
  { pipeline with log := pipeline.log.append partition value }

def send (eventId : String) (partition : ℕ) (delivery : Delivery) : Pipeline :=
  match pipeline.outbox.find? (·.eventId = eventId) with
  | some row =>
    let topic := config.topicName row.collection
    if partition < config.partitionCount topic then
      let pipeline :=
        if delivery.accepted then pipeline.append ⟨topic, partition⟩ (.envelope eventId none)
        else pipeline
      if delivery.returns then { pipeline with returned := eventId :: pipeline.returned }
      else pipeline
    else pipeline
  | none => pipeline

/-- `mark_published`, once the publication has gone through without an exception. -/
def markPublished (eventId : String) : Pipeline :=
  if eventId ∈ pipeline.returned then
    { pipeline with
      outbox := pipeline.outbox.map fun row =>
        if row.eventId = eventId then { row with published := true } else row }
  else pipeline

def process (source : TopicPartition) (offset : ℕ) : Pipeline :=
  match pipeline.log.read source offset with
  | some (.envelope ..) => { pipeline with processed := (source, offset) :: pipeline.processed }
  | _ => pipeline

def quarantine (source : TopicPartition) (offset partition : ℕ) (delivery : Delivery) :
    Pipeline :=
  match pipeline.log.read source offset with
  | some (.envelope eventId _) =>
    if partition < config.partitionCount config.dlqTopic then
      let pipeline :=
        if delivery.accepted then
          pipeline.append ⟨config.dlqTopic, partition⟩ (.deadLetter eventId source offset)
        else pipeline
      if delivery.returns then
        { pipeline with quarantined := (source, offset) :: pipeline.quarantined }
      else pipeline
    else pipeline
  | _ => pipeline

/-- The record loop goes on to commit. -/
def isHandled (source : TopicPartition) (offset : ℕ) : Bool :=
  (source, offset) ∈ pipeline.processed ∨ (source, offset) ∈ pipeline.quarantined

def commit (source : TopicPartition) (offset : ℕ) : Pipeline :=
  if pipeline.isHandled source offset then
    { pipeline with workerCommits := (source, offset + 1) :: pipeline.workerCommits }
  else pipeline

/-- The group's committed offset is the one committed last. -/
def workerCommitted (partition : TopicPartition) : Option ℕ :=
  (pipeline.workerCommits.find? fun commit => commit.1 = partition).map Prod.snd

/-- `expected_next_offset`, where the broker still has every record. -/
def expectedNext (partition : TopicPartition) : ℕ :=
  (pipeline.resolverCommitted partition).getD 0

/-- The envelope goes back to a partition of its source topic. -/
def replay (partition offset target : ℕ) : Pipeline :=
  let place : TopicPartition := ⟨config.dlqTopic, partition⟩
  match pipeline.log.read place offset with
  | some (.deadLetter eventId source _) =>
    if offset = pipeline.expectedNext place ∧ target < config.partitionCount source.topic then
      pipeline.append ⟨source.topic, target⟩ (.envelope eventId (some (place, offset)))
    else pipeline
  | _ => pipeline

/-- `_commit_exact`: only from exactly the offset of the resolved record. -/
def commitExact (place : TopicPartition) (offset : ℕ) : Pipeline :=
  { pipeline with
    resolverCommitted := Function.update pipeline.resolverCommitted place (some (offset + 1)) }

def commitReplayed (partition offset : ℕ) : Pipeline :=
  let place : TopicPartition := ⟨config.dlqTopic, partition⟩
  if pipeline.isReplayed (place, offset) ∧ pipeline.resolverCommitted place = some offset then
    pipeline.commitExact place offset
  else pipeline

def dispose (partition offset : ℕ) : Pipeline :=
  let place : TopicPartition := ⟨config.dlqTopic, partition⟩
  match pipeline.log.read place offset with
  | some (.deadLetter ..) =>
    if pipeline.resolverCommitted place = some offset then
      { pipeline.commitExact place offset with disposed := (place, offset) :: pipeline.disposed }
    else pipeline
  | _ => pipeline

/-- One step of a client or the broker. -/
def step (pipeline : Pipeline) : PipelineAction → Pipeline
  | .prepare eventId collection =>
    if pipeline.isPrepared eventId then pipeline
    else { pipeline with outbox := pipeline.outbox ++ [⟨eventId, collection, false⟩] }
  | .send eventId partition delivery => pipeline.send config eventId partition delivery
  | .markPublished eventId => pipeline.markPublished eventId
  | .process source offset => pipeline.process source offset
  | .quarantine source offset partition delivery =>
    pipeline.quarantine config source offset partition delivery
  | .commit source offset => pipeline.commit source offset
  | .replay partition offset target => pipeline.replay config partition offset target
  | .commitReplayed partition offset => pipeline.commitReplayed config partition offset
  | .dispose partition offset => pipeline.dispose config partition offset

/-! ## What a step can do -/

/-- What the broker is given a record for. -/
inductive Caused : TopicPartition → RecordValue → Prop
  | published {row : PipelineRow} {partition : ℕ} (prepared : row ∈ pipeline.outbox)
      (inRange : partition < config.partitionCount (config.topicName row.collection)) :
      Caused ⟨config.topicName row.collection, partition⟩ (.envelope row.eventId none)
  | quarantined {source : TopicPartition} {offset partition : ℕ} {eventId : String}
      {recovers : Option (TopicPartition × ℕ)}
      (consumed : ⟨source, offset, .envelope eventId recovers⟩ ∈ pipeline.log.records)
      (inRange : partition < config.partitionCount config.dlqTopic) :
      Caused ⟨config.dlqTopic, partition⟩ (.deadLetter eventId source offset)
  | replayed {place source : TopicPartition} {offset sourceOffset target : ℕ} {eventId : String}
      (resolved : ⟨place, offset, .deadLetter eventId source sourceOffset⟩ ∈ pipeline.log.records)
      (inRange : target < config.partitionCount source.topic) :
      Caused ⟨source.topic, target⟩ (.envelope eventId (some (place, offset)))

/-- What one step did, field by field. -/
structure Move (action : PipelineAction) (after : Pipeline) : Prop where
  log : after.log = pipeline.log ∨ ∃ partition value,
    Caused config pipeline partition value ∧ after.log = pipeline.log.append partition value
  kept : ∀ row ∈ pipeline.outbox, ∃ later ∈ after.outbox,
    later.eventId = row.eventId ∧ later.collection = row.collection
  rows : ∀ row ∈ after.outbox,
    (action = .prepare row.eventId row.collection ∧ row.published = false ∧
      pipeline.isPrepared row.eventId = false) ∨
      ∃ old ∈ pipeline.outbox, old.eventId = row.eventId ∧ old.collection = row.collection ∧
        (row.published = true → old.published = true ∨
          (action = .markPublished row.eventId ∧ row.eventId ∈ pipeline.returned))
  commits : after.workerCommits = pipeline.workerCommits ∨ ∃ source offset,
    action = .commit source offset ∧ pipeline.isHandled source offset = true ∧
      after.workerCommits = (source, offset + 1) :: pipeline.workerCommits
  resolutions : ∀ place, after.resolverCommitted place = pipeline.resolverCommitted place ∨
    ∃ offset, pipeline.resolverCommitted place = some offset ∧
      after.resolverCommitted place = some (offset + 1) ∧
      ((∃ value, ⟨place, offset, value⟩ ∈ pipeline.log.records ∧ (place, offset) ∈ after.disposed) ∨
        (action = .commitReplayed place.partition offset ∧
          place = ⟨config.dlqTopic, place.partition⟩ ∧
          pipeline.isReplayed (place, offset) = true))
  handled : ∀ source offset, after.isHandled source offset = true →
    pipeline.isHandled source offset = true ∨
      ∃ value, ⟨source, offset, value⟩ ∈ pipeline.log.records
  processed : pipeline.processed ⊆ after.processed
  disposed : pipeline.disposed ⊆ after.disposed

variable {config pipeline} {action : PipelineAction}

theorem Move.refl : Move config pipeline action pipeline where
  log := .inl rfl
  kept row member := ⟨row, member, rfl, rfl⟩
  rows row member := .inr ⟨row, member, rfl, rfl, .inl⟩
  commits := .inl rfl
  resolutions _ := .inl rfl
  handled _ _ := .inl
  processed := List.Subset.refl _
  disposed := List.Subset.refl _

theorem isReplayed_iff {deadLetter : TopicPartition × ℕ} :
    pipeline.isReplayed deadLetter = true ↔
      ∃ record ∈ pipeline.log.records, ∃ eventId,
        record.value = .envelope eventId (some deadLetter) := by
  simp only [isReplayed, List.any_eq_true]
  refine exists_congr fun record => and_congr_right fun _ => ?_
  cases record.value <;> simp

theorem move_send (eventId : String) (partition : ℕ) (delivery : Delivery) :
    Move config pipeline action (pipeline.send config eventId partition delivery) := by
  unfold send
  split
  · rename_i row found
    have same := List.find?_some found
    rw [decide_eq_true_eq] at same
    subst same
    have cause (inRange : partition < config.partitionCount (config.topicName row.collection)) :
        Caused config pipeline ⟨config.topicName row.collection, partition⟩
          (.envelope row.eventId none) := .published (List.mem_of_find?_eq_some found) inRange
    dsimp only
    split
    · rename_i inRange
      split <;> split
      · exact { Move.refl with log := .inr ⟨_, _, cause inRange, rfl⟩ }
      · exact { Move.refl with }
      · exact { Move.refl with log := .inr ⟨_, _, cause inRange, rfl⟩ }
      · exact Move.refl
    · exact Move.refl
  · exact Move.refl

theorem move_markPublished (eventId : String) :
    Move config pipeline (.markPublished eventId) (pipeline.markPublished eventId) := by
  unfold markPublished
  split
  · rename_i returned
    have still : Move config pipeline (.markPublished eventId) pipeline := .refl
    refine { still with kept := fun row member => ?_, rows := fun row member => ?_ }
    · refine ⟨_, List.mem_map.mpr ⟨row, member, rfl⟩, ?_⟩
      split <;> exact ⟨rfl, rfl⟩
    · obtain ⟨old, inOutbox, rfl⟩ := List.mem_map.mp member
      right
      refine ⟨old, inOutbox, ?_⟩
      split
      · rename_i same
        exact ⟨rfl, rfl, fun _ => .inr ⟨by rw [← same], same ▸ returned⟩⟩
      · exact ⟨rfl, rfl, .inl⟩
  · exact Move.refl

theorem move_process (source : TopicPartition) (offset : ℕ) :
    Move config pipeline action (pipeline.process source offset) := by
  unfold process
  split
  · rename_i found
    have still : Move config pipeline action pipeline := .refl
    refine { still with
      handled := fun other place handled => ?_, processed := List.subset_cons_self _ _ }
    simp only [isHandled, List.mem_cons, Prod.mk.injEq, decide_eq_true_eq] at handled ⊢
    rcases handled with (⟨rfl, rfl⟩ | old) | old
    · exact .inr ⟨_, PartitionedLog.read_eq_some.mp found⟩
    · exact .inl (.inl old)
    · exact .inl (.inr old)
  · exact Move.refl

theorem isHandled_quarantined {before : Pipeline} {source other : TopicPartition}
    {offset place : ℕ} (same : before.processed = pipeline.processed)
    (added : before.quarantined = (source, offset) :: pipeline.quarantined)
    (handled : before.isHandled other place = true) :
    pipeline.isHandled other place = true ∨ (other = source ∧ place = offset) := by
  simp only [isHandled, same, added, List.mem_cons, Prod.mk.injEq, decide_eq_true_eq] at handled ⊢
  tauto

theorem move_quarantine (source : TopicPartition) (offset partition : ℕ) (delivery : Delivery) :
    Move config pipeline action (pipeline.quarantine config source offset partition delivery) := by
  unfold quarantine
  split
  · rename_i eventId recovers found
    have consumed := PartitionedLog.read_eq_some.mp found
    have settles {after : Pipeline} (same : after.processed = pipeline.processed)
        (added : after.quarantined = (source, offset) :: pipeline.quarantined)
        (other : TopicPartition) (place : ℕ) (handled : after.isHandled other place = true) :
        pipeline.isHandled other place = true ∨
          ∃ value, ⟨other, place, value⟩ ∈ pipeline.log.records := by
      rcases isHandled_quarantined same added handled with old | ⟨rfl, rfl⟩
      · exact .inl old
      · exact .inr ⟨_, consumed⟩
    have still : Move config pipeline action pipeline := .refl
    split
    · rename_i inRange
      have cause : Caused config pipeline ⟨config.dlqTopic, partition⟩
          (.deadLetter eventId source offset) := .quarantined consumed inRange
      dsimp only
      split <;> split
      · exact { still with log := .inr ⟨_, _, cause, rfl⟩, handled := settles rfl rfl }
      · exact { still with handled := settles rfl rfl }
      · exact { still with log := .inr ⟨_, _, cause, rfl⟩ }
      · exact Move.refl
    · exact Move.refl
  · exact Move.refl

theorem move_commit (source : TopicPartition) (offset : ℕ) :
    Move config pipeline (.commit source offset) (pipeline.commit source offset) := by
  unfold commit
  split
  · rename_i handled
    exact { Move.refl with commits := .inr ⟨source, offset, rfl, handled, rfl⟩ }
  · exact Move.refl

theorem move_replay (partition offset target : ℕ) :
    Move config pipeline action (pipeline.replay config partition offset target) := by
  unfold replay
  dsimp only
  split
  · rename_i eventId source sourceOffset found
    split
    · rename_i inOrder
      exact { Move.refl with
        log := .inr ⟨_, _, .replayed (PartitionedLog.read_eq_some.mp found) inOrder.2, rfl⟩ }
    · exact Move.refl
  · exact Move.refl

theorem resolverCommitted_commitExact {place other : TopicPartition} {offset : ℕ} :
    (pipeline.commitExact place offset).resolverCommitted other =
      if other = place then some (offset + 1) else pipeline.resolverCommitted other := by
  simp [commitExact, Function.update_apply]

theorem move_dispose (partition offset : ℕ) :
    Move config pipeline action (pipeline.dispose config partition offset) := by
  unfold dispose
  dsimp only
  split
  · rename_i eventId source sourceOffset found
    split
    · rename_i exact
      refine { Move.refl with
        resolutions := fun place => ?_, disposed := List.subset_cons_self _ _ }
      have updated : (pipeline.commitExact ⟨config.dlqTopic, partition⟩ offset).resolverCommitted
          place = _ := resolverCommitted_commitExact
      by_cases here : place = ⟨config.dlqTopic, partition⟩
      · rw [if_pos here] at updated
        subst here
        exact .inr ⟨offset, exact, updated,
          .inl ⟨_, PartitionedLog.read_eq_some.mp found, List.mem_cons_self⟩⟩
      · rw [if_neg here] at updated
        exact .inl updated
    · exact Move.refl
  · exact Move.refl

theorem move_commitReplayed (partition offset : ℕ) :
    Move config pipeline (.commitReplayed partition offset)
      (pipeline.commitReplayed config partition offset) := by
  unfold commitReplayed
  dsimp only
  split
  · rename_i guarded
    obtain ⟨replayed, exact⟩ := guarded
    have still : Move config pipeline (.commitReplayed partition offset) pipeline := .refl
    refine { still with resolutions := fun place => ?_ }
    rw [resolverCommitted_commitExact]
    by_cases here : place = ⟨config.dlqTopic, partition⟩
    · subst here
      rw [if_pos rfl]
      exact .inr ⟨offset, exact, rfl, .inr ⟨rfl, rfl, replayed⟩⟩
    · rw [if_neg here]
      exact .inl rfl
  · exact Move.refl

variable (config pipeline) in
/-- **Every step is a move.** -/
theorem step_move (action : PipelineAction) :
    Move config pipeline action (pipeline.step config action) := by
  cases action with
  | prepare eventId collection =>
      unfold step
      dsimp only
      split
      · exact Move.refl
      · rename_i fresh
        have still : Move config pipeline (.prepare eventId collection) pipeline := .refl
        refine { still with kept := fun row member => ?_, rows := fun row member => ?_ }
        · exact ⟨row, List.mem_append_left _ member, rfl, rfl⟩
        · rcases List.mem_append.mp member with member | member
          · exact still.rows row member
          · obtain rfl := List.mem_singleton.mp member
            exact .inl ⟨rfl, rfl, Bool.not_eq_true _ ▸ fresh⟩
  | send eventId partition delivery => exact move_send eventId partition delivery
  | markPublished eventId => exact move_markPublished eventId
  | process source offset => exact move_process source offset
  | quarantine source offset partition delivery =>
      exact move_quarantine source offset partition delivery
  | commit source offset => exact move_commit source offset
  | replay partition offset target => exact move_replay partition offset target
  | commitReplayed partition offset => exact move_commitReplayed partition offset
  | dispose partition offset => exact move_dispose partition offset

namespace Move

variable {after : Pipeline} {record : PlacedRecord TopicPartition RecordValue}

theorem mem_log (move : Move config pipeline action after)
    (member : record ∈ pipeline.log.records) : record ∈ after.log.records := by
  rcases move.log with same | ⟨_, _, _, appended⟩
  · rwa [same]
  · rw [appended]
    exact PartitionedLog.mem_append.mpr (.inl member)

theorem position_eq (move : Move config pipeline action after)
    (member : record ∈ pipeline.log.records) :
    after.log.position record = pipeline.log.position record := by
  rcases move.log with same | ⟨_, _, _, appended⟩
  · rw [same]
  · rw [appended]
    exact PartitionedLog.position_append member

theorem endOffset_le (move : Move config pipeline action after) (partition : TopicPartition) :
    pipeline.log.endOffset partition ≤ after.log.endOffset partition := by
  rcases move.log with same | ⟨_, _, _, appended⟩
  · rw [same]
  · rw [appended]
    exact PartitionedLog.endOffset_le_append partition

/-- A record that was not there before has a cause and comes after everything. -/
theorem record_cases (move : Move config pipeline action after)
    (member : record ∈ after.log.records) :
    record ∈ pipeline.log.records ∨
      Caused config pipeline record.partition record.value ∧
        record.offset = pipeline.log.endOffset record.partition ∧
        ∀ old ∈ pipeline.log.records, after.log.position old < after.log.position record := by
  rcases move.log with same | ⟨partition, value, cause, appended⟩
  · exact .inl (same ▸ member)
  · rw [appended] at member
    rcases PartitionedLog.mem_append.mp member with old | rfl
    · exact .inl old
    · refine .inr ⟨cause, rfl, fun old inLog => ?_⟩
      rw [appended]
      exact PartitionedLog.position_lt_append inLog

end Move

/-! ## What holds in every reachable state -/

/-- No record or commit is without its cause. -/
structure Sound (config : PipelineConfig) (pipeline : Pipeline) : Prop where
  row_unique : ∀ row ∈ pipeline.outbox, ∀ other ∈ pipeline.outbox,
    row.eventId = other.eventId → row.collection = other.collection
  envelope : ∀ record ∈ pipeline.log.records, ∀ eventId recovers,
    record.value = .envelope eventId recovers →
      record.partition.partition < config.partitionCount record.partition.topic ∧
        ∃ row ∈ pipeline.outbox, row.eventId = eventId ∧
          record.partition.topic = config.topicName row.collection
  deadLetter : ∀ letter ∈ pipeline.log.records, ∀ eventId source offset,
    letter.value = .deadLetter eventId source offset →
      letter.partition.topic = config.dlqTopic ∧
        letter.partition.partition < config.partitionCount config.dlqTopic ∧
        ∃ recovers, ⟨source, offset, .envelope eventId recovers⟩ ∈ pipeline.log.records ∧
          pipeline.log.position ⟨source, offset, .envelope eventId recovers⟩ <
            pipeline.log.position letter
  replayed : ∀ record ∈ pipeline.log.records, ∀ eventId place offset,
    record.value = .envelope eventId (some (place, offset)) →
      ∃ source sourceOffset,
        ⟨place, offset, .deadLetter eventId source sourceOffset⟩ ∈ pipeline.log.records ∧
          pipeline.log.position ⟨place, offset, .deadLetter eventId source sourceOffset⟩ <
            pipeline.log.position record
  handled : ∀ source offset, pipeline.isHandled source offset = true →
    offset < pipeline.log.endOffset source
  resolved : ∀ place next, pipeline.resolverCommitted place = some next →
    next ≤ pipeline.log.endOffset place

theorem sound_initial (started : TopicPartition → Bool) : Sound config (initial started) where
  row_unique := by simp [initial]
  envelope := by simp [initial]
  deadLetter := by simp [initial]
  replayed := by simp [initial]
  handled := by simp [initial, isHandled]
  resolved place next := by
    simp only [initial]
    split
    · rintro ⟨⟩
      exact Nat.zero_le _
    · rintro ⟨⟩

theorem isPrepared_of_mem {row : PipelineRow} (member : row ∈ pipeline.outbox) :
    pipeline.isPrepared row.eventId = true :=
  List.any_eq_true.mpr ⟨row, member, decide_eq_true rfl⟩

/-- The resolver commits past records that were there before the step. -/
theorem Sound.next_le (sound : Sound config pipeline) {after : Pipeline}
    (move : Move config pipeline action after) {place : TopicPartition} {next : ℕ}
    (committed : after.resolverCommitted place = some next) :
    next ≤ pipeline.log.endOffset place := by
  rcases move.resolutions place with same | ⟨offset, exact, updated, passed⟩
  · exact sound.resolved place next (same ▸ committed)
  · have found : ∃ value, ⟨place, offset, value⟩ ∈ pipeline.log.records := by
      rcases passed with ⟨value, found, -⟩ | ⟨-, -, replayed⟩
      · exact ⟨value, found⟩
      · obtain ⟨record, inLog, eventId, value⟩ := isReplayed_iff.mp replayed
        obtain ⟨_, _, found, -⟩ := sound.replayed record inLog eventId place offset value
        exact ⟨_, found⟩
    obtain ⟨value, found⟩ := found
    rw [updated] at committed
    obtain rfl := Option.some.inj committed
    exact Nat.succ_le_of_lt (PartitionedLog.offset_lt_endOffset found)

theorem Sound.step (sound : Sound config pipeline) {after : Pipeline}
    (move : Move config pipeline action after) : Sound config after where
  row_unique row member other otherMember sameId := by
    rcases move.rows row member with ⟨prepared, -, fresh⟩ | ⟨old, inOutbox, id, collection, -⟩
    · rcases move.rows other otherMember with ⟨prepared', -, -⟩ | ⟨old, inOutbox, id, -, -⟩
      · rw [prepared] at prepared'
        injection prepared'
      · rw [sameId, ← id, isPrepared_of_mem inOutbox] at fresh
        cases fresh
    · rcases move.rows other otherMember with ⟨-, -, fresh⟩ | ⟨old', inOutbox', id', collection', -⟩
      · rw [← sameId, ← id, isPrepared_of_mem inOutbox] at fresh
        cases fresh
      · rw [← collection, ← collection']
        exact sound.row_unique old inOutbox old' inOutbox' (by rw [id, id', sameId])
  envelope record member eventId recovers value := by
    -- the row that an envelope in the log belongs to is still there
    have known : record.partition.partition < config.partitionCount record.partition.topic ∧
        ∃ row ∈ pipeline.outbox, row.eventId = eventId ∧
          record.partition.topic = config.topicName row.collection := by
      rcases move.record_cases member with old | ⟨cause, -, -⟩
      · exact sound.envelope record old eventId recovers value
      · rw [value] at cause
        generalize record.partition = place at cause
        cases cause with
        | published prepared inRange => exact ⟨inRange, _, prepared, rfl, rfl⟩
        | replayed resolved inRange =>
            obtain ⟨-, -, _, source, -⟩ := sound.deadLetter _ resolved _ _ _ rfl
            obtain ⟨-, row, inOutbox, id, topic⟩ := sound.envelope _ source _ _ rfl
            exact ⟨inRange, row, inOutbox, id, topic⟩
    obtain ⟨inRange, row, inOutbox, id, topic⟩ := known
    obtain ⟨later, kept, sameId, sameCollection⟩ := move.kept row inOutbox
    exact ⟨inRange, later, kept, sameId.trans id, sameCollection ▸ topic⟩
  deadLetter letter member eventId source offset value := by
    rcases move.record_cases member with old | ⟨cause, -, latest⟩
    · obtain ⟨topic, inRange, recovers, consumed, earlier⟩ :=
        sound.deadLetter letter old eventId source offset value
      refine ⟨topic, inRange, recovers, move.mem_log consumed, ?_⟩
      rwa [move.position_eq consumed, move.position_eq old]
    · rw [value] at cause
      generalize record : letter.partition = place at cause
      cases cause with
      | quarantined consumed inRange =>
          exact ⟨rfl, inRange, _, move.mem_log consumed, latest _ consumed⟩
  replayed record member eventId place offset value := by
    rcases move.record_cases member with old | ⟨cause, -, latest⟩
    · obtain ⟨source, sourceOffset, resolved, earlier⟩ :=
        sound.replayed record old eventId place offset value
      refine ⟨source, sourceOffset, move.mem_log resolved, ?_⟩
      rwa [move.position_eq resolved, move.position_eq old]
    · rw [value] at cause
      generalize record.partition = here at cause
      cases cause with
      | replayed resolved inRange =>
          exact ⟨_, _, move.mem_log resolved, latest _ resolved⟩
  handled source offset handled := by
    rcases move.handled source offset handled with old | ⟨_, found⟩
    · exact (sound.handled source offset old).trans_le (move.endOffset_le source)
    · exact (PartitionedLog.offset_lt_endOffset found).trans_le (move.endOffset_le source)
  resolved place next committed :=
    (sound.next_le move committed).trans (move.endOffset_le place)

/-- **Soundness of every reachable state.** -/
theorem sound_run (started : TopicPartition → Bool) (actions : List PipelineAction) :
    Sound config (run (step config) (initial started) actions) :=
  run_invariant_always (fun _ _ sound => sound.step (step_move _ _ _)) (sound_initial started)

/-- What a later state still has of an earlier one. -/
structure Extends (later earlier : Pipeline) : Prop where
  log : ∀ record ∈ earlier.log.records, record ∈ later.log.records
  endOffset : ∀ partition, earlier.log.endOffset partition ≤ later.log.endOffset partition
  outbox : ∀ row ∈ earlier.outbox, ∃ kept ∈ later.outbox,
    kept.eventId = row.eventId ∧ kept.collection = row.collection
  commits : earlier.workerCommits ⊆ later.workerCommits
  processed : earlier.processed ⊆ later.processed
  disposed : earlier.disposed ⊆ later.disposed

theorem Extends.refl (pipeline : Pipeline) : pipeline.Extends pipeline where
  log _ := id
  endOffset _ := le_refl _
  outbox row member := ⟨row, member, rfl, rfl⟩
  commits := List.Subset.refl _
  processed := List.Subset.refl _
  disposed := List.Subset.refl _

theorem Extends.trans {first second third : Pipeline} (next : second.Extends first)
    (last : third.Extends second) : third.Extends first where
  log record member := last.log record (next.log record member)
  endOffset partition := (next.endOffset partition).trans (last.endOffset partition)
  outbox row member := by
    obtain ⟨kept, inSecond, id, collection⟩ := next.outbox row member
    obtain ⟨kept', inThird, id', collection'⟩ := last.outbox kept inSecond
    exact ⟨kept', inThird, id'.trans id, collection'.trans collection⟩
  commits := List.Subset.trans next.commits last.commits
  processed := List.Subset.trans next.processed last.processed
  disposed := List.Subset.trans next.disposed last.disposed

theorem Move.extends {after : Pipeline} (move : Move config pipeline action after) :
    after.Extends pipeline where
  log _ := move.mem_log
  endOffset := move.endOffset_le
  outbox := move.kept
  commits := by
    rcases move.commits with same | ⟨_, _, -, -, added⟩
    · exact same ▸ List.Subset.refl _
    · exact added ▸ List.subset_cons_self _ _
  processed := move.processed
  disposed := move.disposed

theorem run_extends (actions : List PipelineAction) :
    (run (step config) pipeline actions).Extends pipeline :=
  run_related (R := fun earlier later => later.Extends earlier) Extends.refl
    (fun next last => next.trans last) (fun _ _ => (step_move _ _ _).extends) pipeline actions

end Pipeline

end ImposbroSearch.Operations
