import ImposbroSearch.Operations.EventPipeline
import ImposbroSearch.Routing.Rollout

/-!
# The lag evidence of a cutover

Before a rollout enters `cutover` or `completed`, the gateway measures what is
still on its way to the clusters: the worker's lag on the topic of the collection,
the resolver's lag on the dead-letter topic, and the rows the outbox has yet to
publish. Each is read at its own moment, in that order, while everything goes on.

A queue that is read before the one it is fed from cannot see what moves between
the two reads. An event that leaves the outbox after the end offsets of its topic
were read, or that is replayed after them, is in none of the numbers.
-/

namespace ImposbroSearch.Operations

open ImposbroSearch.Foundation ImposbroSearch.Indexing ImposbroSearch.Routing

structure KafkaOperationalEvidence where
  consumerLag : ℕ
  unresolvedDlq : ℕ
  topicPartitions : ℕ
  dlqPartitions : ℕ
  deriving DecidableEq, Repr

/-- A missing or negative commit counts as offset zero. -/
def committedOffset : Option ℤ → ℤ
  | some offset => if offset < 0 then 0 else offset
  | none => 0

def calculateLag (endOffsets : List (TopicPartition × ℕ))
    (committedOffsets : TopicPartition → Option ℤ) : ℕ :=
  (endOffsets.map fun entry =>
    (max 0 ((entry.2 : ℤ) - committedOffset (committedOffsets entry.1))).toNat).sum

/-- The admin client answers `-1` for a partition without a commit. -/
def listConsumerGroupOffsets (committed : TopicPartition → Option ℕ) (partition : TopicPartition) :
    Option ℤ :=
  some (match committed partition with
    | some offset => offset
    | none => -1)

def partitionsForTopic (config : PipelineConfig) (topic : String) : List TopicPartition :=
  (List.range (config.partitionCount topic)).map fun partition => ⟨topic, partition⟩

/-- `_topic_lag`: the end offsets are read in one state and the commits in another. -/
def topicLag (config : PipelineConfig) (topic : String) (ends : Pipeline)
    (committed : TopicPartition → Option ℕ) : ℕ × ℕ :=
  match partitionsForTopic config topic with
  | [] => (0, 0)
  | partitions =>
    (calculateLag (partitions.map fun partition => (partition, ends.log.endOffset partition))
      (listConsumerGroupOffsets committed), partitions.length)

/-- The states in which the successive reads are made. -/
structure Reads where
  topicEnds : Pipeline
  topicCommits : Pipeline
  dlqEnds : Pipeline
  dlqCommits : Pipeline
  outbox : Pipeline

namespace Reads

variable (config : PipelineConfig) (reads : Reads) (collection : String)

def measure : KafkaOperationalEvidence :=
  let (consumerLag, topicPartitions) :=
    topicLag config (config.topicName collection) reads.topicEnds reads.topicCommits.workerCommitted
  let (unresolvedDlq, dlqPartitions) :=
    topicLag config config.dlqTopic reads.dlqEnds reads.dlqCommits.resolverCommitted
  { consumerLag := consumerLag
    unresolvedDlq := unresolvedDlq
    topicPartitions := topicPartitions
    dlqPartitions := dlqPartitions }

/-- The rows of every collection that are not yet published. -/
def pendingCount : ℕ := reads.outbox.outbox.countP fun row => !row.published

/-- What `transition_routing_rollout` records before cutover and completion. -/
def operationalEvidence : OperationalEvidence where
  unresolvedDlq := (reads.measure config collection).unresolvedDlq
  consumerLag := (reads.measure config collection).consumerLag
  pendingCount := reads.pendingCount

end Reads

/-- What happens before the first read, and between one read and the next. -/
structure MeasuredRun where
  toTopicEnds : List PipelineAction
  toTopicCommits : List PipelineAction
  toDlqEnds : List PipelineAction
  toDlqCommits : List PipelineAction
  toOutbox : List PipelineAction

def MeasuredRun.reads (config : PipelineConfig) (started : TopicPartition → Bool)
    (measured : MeasuredRun) : Reads :=
  let topicEnds := run (Pipeline.step config) (.initial started) measured.toTopicEnds
  let topicCommits := run (Pipeline.step config) topicEnds measured.toTopicCommits
  let dlqEnds := run (Pipeline.step config) topicCommits measured.toDlqEnds
  let dlqCommits := run (Pipeline.step config) dlqEnds measured.toDlqCommits
  { topicEnds := topicEnds
    topicCommits := topicCommits
    dlqEnds := dlqEnds
    dlqCommits := dlqCommits
    outbox := run (Pipeline.step config) dlqCommits measured.toOutbox }

namespace Pipeline

variable (config : PipelineConfig) (pipeline start : Pipeline)

/-- The event has left the pipeline: a record of it was processed and its offset
committed, or a dead letter of it was passed by a disposition. -/
inductive Done (collection eventId : String) : Prop
  | processed {record : PlacedRecord TopicPartition RecordValue}
      {recovers : Option (TopicPartition × ℕ)} {next : ℕ}
      (inLog : record ∈ pipeline.log.records) (value : record.value = .envelope eventId recovers)
      (topic : record.partition.topic = config.topicName collection)
      (processed : (record.partition, record.offset) ∈ pipeline.processed)
      (committed : (record.partition, next) ∈ pipeline.workerCommits)
      (covered : record.offset < next)
  | disposed {letter : PlacedRecord TopicPartition RecordValue} {source : TopicPartition}
      {offset : ℕ} (inLog : letter ∈ pipeline.log.records)
      (value : letter.value = .deadLetter eventId source offset)
      (topic : source.topic = config.topicName collection)
      (disposed : (letter.partition, letter.offset) ∈ pipeline.disposed)

def InTopic (eventId : String) : Prop :=
  ∃ record ∈ pipeline.log.records, ∃ recovers, record.value = .envelope eventId recovers

/-- The record was processed, or the dead-letter topic has it. -/
def Settled (place : TopicPartition × ℕ) : Prop :=
  place ∈ pipeline.processed ∨ ∃ letter ∈ pipeline.log.records, ∃ eventId,
    letter.value = .deadLetter eventId place.1 place.2

/-- The event was accepted for this collection. -/
def Accepted (collection eventId : String) : Prop :=
  ∃ row ∈ pipeline.outbox, row.eventId = eventId ∧ row.collection = collection

/-- A commit on the collection's topic covers settled records only. -/
def CommitsSettled (collection : String) : PipelineAction → Prop
  | .commit source offset =>
      source.topic = config.topicName collection → pipeline.isHandled source offset = true →
        ∀ record ∈ pipeline.log.records, record.partition = source → record.offset ≤ offset →
          pipeline.Settled (source, record.offset)
  | _ => True

/-- A row of the collection is marked published only if the broker had its
envelope at `start`. -/
def MarksKnown (collection : String) : PipelineAction → Prop
  | .markPublished eventId =>
      eventId ∈ pipeline.returned → start.Accepted collection eventId → start.InTopic eventId
  | _ => True

/-- A dead letter of the collection is passed as replayed only if its replay was
there at `start`. -/
def ReplaysKnown (collection : String) : PipelineAction → Prop
  | .commitReplayed partition offset =>
      let place : TopicPartition := ⟨config.dlqTopic, partition⟩
      pipeline.isReplayed (place, offset) = true → pipeline.resolverCommitted place = some offset →
        ∀ eventId source sourceOffset,
          ⟨place, offset, .deadLetter eventId source sourceOffset⟩ ∈ pipeline.log.records →
            start.Accepted collection eventId → start.isReplayed (place, offset) = true
  | _ => True

end Pipeline

/-- Commits and publications mean what they say, and no publication or replay
crosses the first read: what leaves the outbox or the dead-letter queue before that
queue is read had arrived in the topic when the topic was read. -/
structure MeasuredRun.Undisturbed (config : PipelineConfig) (started : TopicPartition → Bool)
    (measured : MeasuredRun) (collection : String) : Prop where
  commits : Along (Pipeline.step config)
    (fun pipeline => pipeline.CommitsSettled config collection) (.initial started)
    (measured.toTopicEnds ++ measured.toTopicCommits)
  published : Along (Pipeline.step config)
    (fun pipeline => pipeline.MarksKnown pipeline collection) (.initial started)
    measured.toTopicEnds
  marks : Along (Pipeline.step config)
    (fun pipeline => pipeline.MarksKnown (measured.reads config started).topicEnds collection)
    (measured.reads config started).topicEnds
    (measured.toTopicCommits ++ measured.toDlqEnds ++ measured.toDlqCommits ++ measured.toOutbox)
  replays : Along (Pipeline.step config)
    (fun pipeline =>
      pipeline.ReplaysKnown config (measured.reads config started).topicEnds collection)
    (measured.reads config started).topicEnds
    (measured.toTopicCommits ++ measured.toDlqEnds ++ measured.toDlqCommits)

/-! ## What a lag of zero says -/

theorem calculateLag_eq_zero {endOffsets : List (TopicPartition × ℕ)}
    {committedOffsets : TopicPartition → Option ℤ} :
    calculateLag endOffsets committedOffsets = 0 ↔
      ∀ entry ∈ endOffsets, (entry.2 : ℤ) ≤ committedOffset (committedOffsets entry.1) := by
  rw [calculateLag, List.sum_eq_zero_iff]
  simp only [List.mem_map, forall_exists_index, and_imp, forall_apply_eq_imp_iff₂]
  refine forall₂_congr fun entry _ => ?_
  omega

/-- With no lag, every record below an end offset that was read is below the
commit that was read. -/
theorem exists_commit_of_no_lag {config : PipelineConfig} {topic : String} {ends : Pipeline}
    {committed : TopicPartition → Option ℕ} (noLag : (topicLag config topic ends committed).1 = 0)
    {partition : TopicPartition} (here : partition.topic = topic)
    (inRange : partition.partition < config.partitionCount topic) {offset : ℕ}
    (below : offset < ends.log.endOffset partition) :
    ∃ next, committed partition = some next ∧ offset < next := by
  have listed : partition ∈ partitionsForTopic config topic :=
    List.mem_map.mpr ⟨partition.partition, List.mem_range.mpr inRange, by rw [← here]⟩
  unfold topicLag at noLag
  split at noLag
  · rename_i none
    rw [none] at listed
    exact absurd listed List.not_mem_nil
  · have bound := calculateLag_eq_zero.mp noLag _ (List.mem_map.mpr ⟨partition, listed, rfl⟩)
    cases found : committed partition with
    | none => simp [listConsumerGroupOffsets, found, committedOffset] at bound; omega
    | some next =>
        refine ⟨next, rfl, ?_⟩
        simp only [listConsumerGroupOffsets, found, committedOffset] at bound
        split at bound <;> omega

/-! ## What the condition keeps true -/

namespace Pipeline

variable {config : PipelineConfig} {pipeline start after : Pipeline} {action : PipelineAction}
  {collection : String}

theorem Settled.extend {place : TopicPartition × ℕ} (settled : pipeline.Settled place)
    (grown : after.Extends pipeline) : after.Settled place := by
  rcases settled with processed | ⟨letter, inLog, value⟩
  · exact .inl (grown.processed processed)
  · exact .inr ⟨letter, grown.log letter inLog, value⟩

/-- Below a commit every record is settled. -/
def CommitsCovered (config : PipelineConfig) (collection : String) (pipeline : Pipeline) : Prop :=
  ∀ source next, (source, next) ∈ pipeline.workerCommits →
    source.topic = config.topicName collection →
      next ≤ pipeline.log.endOffset source ∧
        ∀ record ∈ pipeline.log.records, record.partition = source → record.offset < next →
          pipeline.Settled (source, record.offset)

theorem CommitsCovered.step (covered : CommitsCovered config collection pipeline)
    (sound : Sound config pipeline) (settled : pipeline.CommitsSettled config collection action)
    (move : Move config pipeline action after) : CommitsCovered config collection after := by
  intro source next committed here
  have before : next ≤ pipeline.log.endOffset source ∧
      ∀ record ∈ pipeline.log.records, record.partition = source → record.offset < next →
        pipeline.Settled (source, record.offset) := by
    rcases move.commits with same | ⟨source', offset, rfl, handled, added⟩
    · exact covered source next (same ▸ committed) here
    · rw [added] at committed
      rcases List.mem_cons.mp committed with new | old
      · obtain ⟨rfl, rfl⟩ := Prod.mk.injEq .. ▸ new
        exact ⟨sound.handled source offset handled, fun record inLog place below =>
          settled here handled record inLog place (Nat.lt_succ_iff.mp below)⟩
      · exact covered source next old here
  refine ⟨before.1.trans (move.endOffset_le source), fun record inLog place below => ?_⟩
  rcases move.record_cases inLog with old | ⟨-, offset, -⟩
  · exact (before.2 record old place below).extend move.extends
  · -- a record appended now lies above every commit
    rw [offset, place] at below
    exact absurd before.1 (not_le_of_gt below)

/-- Of every row marked published something is known. -/
def PublishedBy (known : PipelineRow → Prop) (pipeline : Pipeline) : Prop :=
  ∀ row ∈ pipeline.outbox, row.published = true → known { row with published := false }

theorem PublishedBy.step {known : PipelineRow → Prop} (published : PublishedBy known pipeline)
    (marks : ∀ row ∈ pipeline.outbox, action = .markPublished row.eventId →
      row.eventId ∈ pipeline.returned → known { row with published := false })
    (move : Move config pipeline action after) : PublishedBy known after := by
  intro row member marked
  rcases move.rows row member with ⟨-, pending, -⟩ | ⟨old, inOutbox, id, collection, changed⟩
  · rw [pending] at marked
    cases marked
  · rw [← id, ← collection]
    rcases changed marked with before | ⟨same, returned⟩
    · exact published old inOutbox before
    · rw [← id] at same returned
      exact marks old inOutbox same returned

/-- Of every dead letter that the resolver has passed and that was not disposed of
something is known. -/
def ResolvedBy (known : PlacedRecord TopicPartition RecordValue → Prop) (pipeline : Pipeline) :
    Prop :=
  ∀ letter ∈ pipeline.log.records, ∀ next,
    pipeline.resolverCommitted letter.partition = some next → letter.offset < next →
      (letter.partition, letter.offset) ∈ pipeline.disposed ∨ known letter

theorem ResolvedBy.step {known : PlacedRecord TopicPartition RecordValue → Prop}
    (resolved : ResolvedBy known pipeline) (sound : Sound config pipeline)
    (passes : ∀ letter ∈ pipeline.log.records,
      action = .commitReplayed letter.partition.partition letter.offset →
      letter.partition = ⟨config.dlqTopic, letter.partition.partition⟩ →
      pipeline.isReplayed (letter.partition, letter.offset) = true →
      pipeline.resolverCommitted letter.partition = some letter.offset → known letter)
    (move : Move config pipeline action after) : ResolvedBy known after := by
  intro letter inLog next committed below
  rcases move.record_cases inLog with old | ⟨-, offset, -⟩
  · rcases move.resolutions letter.partition with same | ⟨offset, exact, updated, passed⟩
    · rw [same] at committed
      exact (resolved letter old next committed below).imp_left (@move.disposed _)
    · rw [updated] at committed
      obtain rfl := Option.some.inj committed
      rcases Nat.lt_succ_iff_lt_or_eq.mp below with earlier | rfl
      · exact (resolved letter old offset exact earlier).imp_left (@move.disposed _)
      · rcases passed with ⟨-, -, disposed⟩ | ⟨same, place, replayed⟩
        · exact .inl disposed
        · exact .inr (passes letter old same place replayed exact)
  · -- a dead letter appended now lies above the resolver's commit
    rw [offset] at below
    exact absurd (sound.next_le move committed) (not_le_of_gt below)

theorem isReplayed_extend {place : TopicPartition × ℕ} (grown : after.Extends pipeline)
    (replayed : pipeline.isReplayed place = true) : after.isReplayed place = true := by
  obtain ⟨record, inLog, value⟩ := isReplayed_iff.mp replayed
  exact isReplayed_iff.mpr ⟨record, grown.log record inLog, value⟩

theorem InTopic.extend {eventId : String} (inTopic : pipeline.InTopic eventId)
    (grown : after.Extends pipeline) : after.InTopic eventId := by
  obtain ⟨record, inLog, value⟩ := inTopic
  exact ⟨record, grown.log record inLog, value⟩

/-- What has been resolved without a disposition has been replayed. -/
theorem resolvedBy_replayed (started : TopicPartition → Bool) (actions : List PipelineAction) :
    let pipeline := run (step config) (initial started) actions
    ResolvedBy (fun letter => pipeline.isReplayed (letter.partition, letter.offset) = true)
      pipeline := by
  intro pipeline
  refine (run_invariant_always (I := fun pipeline => Sound config pipeline ∧
    ResolvedBy (fun letter => pipeline.isReplayed (letter.partition, letter.offset) = true)
      pipeline) ?_ ⟨sound_initial started, fun letter inLog => ?_⟩).2
  · rintro pipeline action ⟨sound, resolved⟩
    have move := step_move config pipeline action
    refine ⟨sound.step move, ResolvedBy.step ?_ sound ?_ move⟩
    · intro letter inLog next committed below
      exact (resolved letter inLog next committed below).imp_right
        (isReplayed_extend move.extends)
    · exact fun letter _ _ _ replayed _ => isReplayed_extend move.extends replayed
  · exact absurd inLog (PartitionedLog.not_mem_empty letter)

/-- Where marks are honest, every published row of the collection is in its topic. -/
theorem publishedBy_inTopic (started : TopicPartition → Bool) (actions : List PipelineAction)
    (along : Along (step config) (fun pipeline => pipeline.MarksKnown pipeline collection)
      (initial started) actions) :
    let pipeline := run (step config) (initial started) actions
    PublishedBy (fun row => row.collection = collection → pipeline.InTopic row.eventId)
      pipeline := by
  intro pipeline
  refine run_invariant (I := fun pipeline => PublishedBy
    (fun row => row.collection = collection → pipeline.InTopic row.eventId) pipeline) ?_ ?_ along
  · intro pipeline action published known
    have move := step_move config pipeline action
    refine PublishedBy.step ?_ ?_ move
    · exact fun row member marked here => (published row member marked here).extend move.extends
    · rintro row member rfl returned here
      exact (known returned ⟨row, member, rfl, here⟩).extend move.extends
  · exact fun row member => absurd member List.not_mem_nil

/-- Below the worker's commits on the collection's topic everything is settled. -/
theorem commitsCovered_run (started : TopicPartition → Bool) (actions : List PipelineAction)
    (along : Along (step config) (fun pipeline => pipeline.CommitsSettled config collection)
      (initial started) actions) :
    CommitsCovered config collection (run (step config) (initial started) actions) := by
  refine (run_invariant (I := fun pipeline =>
    Sound config pipeline ∧ CommitsCovered config collection pipeline) ?_
    ⟨sound_initial started, fun _ _ member => absurd member List.not_mem_nil⟩ along).2
  rintro pipeline action ⟨sound, covered⟩ settled
  exact ⟨sound.step (step_move config pipeline action),
    covered.step sound settled (step_move config pipeline action)⟩

/-- In a reachable state a record is replayed from a dead letter of its own event,
which came from an earlier record of the event in the same topic. -/
theorem Sound.replayed_after (sound : Sound config pipeline)
    {letter record last : PlacedRecord TopicPartition RecordValue} {eventId : String}
    {recovers : Option (TopicPartition × ℕ)} (lastInLog : last ∈ pipeline.log.records)
    (lastValue : last.value = .envelope eventId recovers)
    (letterValue : letter.value = .deadLetter eventId last.partition last.offset)
    (inLog : record ∈ pipeline.log.records) (letterInLog : letter ∈ pipeline.log.records)
    {event : String}
    (value : record.value = .envelope event (some (letter.partition, letter.offset))) :
    event = eventId ∧ pipeline.log.position last < pipeline.log.position record := by
  obtain ⟨source, sourceOffset, resolved, later⟩ :=
    sound.replayed record inLog event letter.partition letter.offset value
  have same := PartitionedLog.eq_of_place resolved letterInLog rfl rfl
  rw [← same] at letterValue
  obtain ⟨rfl, -, -⟩ := RecordValue.deadLetter.injEq .. ▸ letterValue
  refine ⟨rfl, ?_⟩
  rw [same] at later
  obtain ⟨-, -, recovers', consumed, earlier⟩ := sound.deadLetter letter letterInLog event
    last.partition last.offset (by rw [← same]; exact letterValue)
  rw [PartitionedLog.eq_of_place consumed lastInLog rfl rfl] at earlier
  exact earlier.trans later

end Pipeline

/-! ## The evidence -/

section Evidence

open Pipeline

variable {config : PipelineConfig} {started : TopicPartition → Bool} {measured : MeasuredRun}
  {collection : String}

/-- The gates of a measured transition carry what was measured. -/
theorem recorded_gates {rollout : RoutingRollout} {maxKafkaLag : ℕ} {target : RolloutPhase}
    {evidence : OperationalEvidence} {gates : RoutingRolloutGates}
    (recorded : rollout.transitionGates maxKafkaLag target none evidence = .ok (some gates)) :
    gates.unresolvedDlq = evidence.unresolvedDlq ∧
      gates.kafkaLag = evidence.consumerLag + evidence.pendingCount := by
  unfold RoutingRollout.transitionGates at recorded
  dsimp only at recorded
  split at recorded
  · cases recorded
    exact ⟨rfl, rfl⟩
  · cases recorded

variable (config started measured) in
theorem reads_extends : let reads := measured.reads config started
    reads.topicCommits.Extends reads.topicEnds ∧ reads.dlqEnds.Extends reads.topicCommits ∧
      reads.dlqCommits.Extends reads.dlqEnds ∧ reads.outbox.Extends reads.dlqCommits :=
  ⟨run_extends _, run_extends _, run_extends _, run_extends _⟩

/-- With nothing pending, an event accepted before the measurement was in its topic
when the topic was read. -/
theorem MeasuredRun.Undisturbed.inTopic (undisturbed : measured.Undisturbed config started collection)
    (drained : (measured.reads config started).pendingCount = 0) {row : PipelineRow}
    (accepted : row ∈ (measured.reads config started).topicEnds.outbox)
    (here : row.collection = collection) :
    (measured.reads config started).topicEnds.InTopic row.eventId := by
  have published := publishedBy_inTopic started measured.toTopicEnds undisturbed.published
  have final : PublishedBy (fun row => row.collection = collection →
      (measured.reads config started).topicEnds.Accepted collection row.eventId →
        (measured.reads config started).topicEnds.InTopic row.eventId)
      (measured.reads config started).outbox := by
    have whole := run_invariant (I := PublishedBy fun row => row.collection = collection →
      (measured.reads config started).topicEnds.Accepted collection row.eventId →
        (measured.reads config started).topicEnds.InTopic row.eventId)
      (fun pipeline action holds known => PublishedBy.step holds
        (by rintro row - rfl returned - known'; exact known returned known')
        (step_move config pipeline action))
      (fun row member marked here _ => published row member marked here) undisturbed.marks
    rw [run_append, run_append, run_append] at whole
    exact whole
  obtain ⟨ends, commits, dlqEnds, dlqCommits⟩ := reads_extends config started measured
  obtain ⟨kept, inOutbox, id, sameCollection⟩ :=
    (((ends.trans commits).trans dlqEnds).trans dlqCommits).outbox row accepted
  have marked : kept.published = true := by
    by_contra pending
    have positive := List.countP_eq_zero.mp drained kept inOutbox
    simp [pending] at positive
  rw [← id]
  exact final kept inOutbox marked (sameCollection.trans here)
    ⟨row, accepted, id.symm, here⟩

/-- What the resolver has passed when its commits are read was disposed of, or had
been replayed when the topic was read. -/
theorem MeasuredRun.Undisturbed.resolved
    (undisturbed : measured.Undisturbed config started collection) :
    let start := (measured.reads config started).topicEnds
    ResolvedBy (fun letter => ∀ eventId source offset,
      letter.value = .deadLetter eventId source offset → start.Accepted collection eventId →
        start.isReplayed (letter.partition, letter.offset) = true)
      (measured.reads config started).dlqCommits := by
  intro start
  have whole := run_invariant (I := fun pipeline => Sound config pipeline ∧
      ResolvedBy (fun letter => ∀ eventId source offset,
        letter.value = .deadLetter eventId source offset → start.Accepted collection eventId →
          start.isReplayed (letter.partition, letter.offset) = true) pipeline)
    ?_ ⟨sound_run started measured.toTopicEnds, ?_⟩ undisturbed.replays
  · rw [run_append, run_append] at whole
    exact whole.2
  · rintro pipeline action ⟨sound, resolved⟩ known
    refine ⟨sound.step (step_move config pipeline action),
      resolved.step sound ?_ (step_move config pipeline action)⟩
    rintro letter inLog rfl place replayed exact eventId source offset value accepted
    rw [place] at replayed exact ⊢
    refine known replayed exact eventId source offset ?_ accepted
    rw [← place, ← value]
    exact inLog
  · intro letter inLog next committed below
    exact (resolvedBy_replayed started measured.toTopicEnds letter inLog next committed
      below).imp_right fun replayed _ _ _ _ _ => replayed

/-- **Evidence of zero lag.** When the commits and marks are honest and nothing
crosses the first read, a recorded lag and dead-letter count of zero mean that every
event of the collection accepted before the measurement began is done. -/
theorem cutover_lag_evidence (config : PipelineConfig) (started : TopicPartition → Bool)
    (measured : MeasuredRun) (collection : String)
    (undisturbed : measured.Undisturbed config started collection) (rollout : RoutingRollout)
    (maxKafkaLag : ℕ) (target : RolloutPhase) (gates : RoutingRolloutGates)
    (recorded : rollout.transitionGates maxKafkaLag target none
      ((measured.reads config started).operationalEvidence config collection) = .ok (some gates))
    (noLag : gates.kafkaLag = 0) (noDlq : gates.unresolvedDlq = 0) :
    ∀ row ∈ (measured.reads config started).topicEnds.outbox, row.collection = collection →
      (measured.reads config started).outbox.Done config collection row.eventId := by
  intro row accepted here
  obtain ⟨dlqGate, lagGate⟩ := recorded_gates recorded
  rw [lagGate] at noLag
  rw [dlqGate] at noDlq
  obtain ⟨noConsumerLag, drained⟩ := Nat.add_eq_zero_iff.mp noLag
  obtain ⟨ends, dlqEnds, toDlqCommits, dlqCommits⟩ := reads_extends config started measured
  have soundEnds : Sound config (measured.reads config started).topicEnds :=
    sound_run started measured.toTopicEnds
  have commitRun : (measured.reads config started).topicCommits =
      run (step config) (initial started) (measured.toTopicEnds ++ measured.toTopicCommits) :=
    (run_append ..).symm
  have soundCommits : Sound config (measured.reads config started).topicCommits := by
    rw [commitRun]
    exact sound_run started _
  -- the last record of the event that the first read could see
  obtain ⟨last, lastInLog, ⟨recovers, lastValue⟩, greatest⟩ :=
    PartitionedLog.exists_last (undisturbed.inTopic drained accepted here)
  obtain ⟨inRange, owner, ownerInOutbox, ownerId, topic⟩ :=
    soundEnds.envelope last lastInLog row.eventId recovers lastValue
  rw [soundEnds.row_unique owner ownerInOutbox row accepted ownerId, here] at topic
  obtain ⟨next, committed, below⟩ := exists_commit_of_no_lag noConsumerLag topic
    (topic ▸ inRange) (PartitionedLog.offset_lt_endOffset lastInLog)
  have inCommits : (last.partition, next) ∈
      (measured.reads config started).topicCommits.workerCommits := by
    obtain ⟨entry, found, rfl⟩ := Option.map_eq_some_iff.mp committed
    have same := List.find?_some found
    rw [decide_eq_true_eq] at same
    rw [← same]
    exact List.mem_of_find?_eq_some found
  have covered := commitsCovered_run started _ undisturbed.commits
  rw [← commitRun] at covered
  have toOutbox := (dlqEnds.trans toDlqCommits).trans dlqCommits
  rcases (covered last.partition next inCommits topic).2 last (ends.log last lastInLog) rfl below
    with processed | ⟨letter, letterInLog, eventId, letterValue⟩
  · exact .processed (toOutbox.log last (ends.log last lastInLog)) lastValue topic
      (toOutbox.processed processed) (toOutbox.commits inCommits) below
  · -- a dead letter of the event, which the resolver has passed
    obtain ⟨dlqTopic, dlqInRange, _, consumed, -⟩ :=
      soundCommits.deadLetter letter letterInLog eventId _ _ letterValue
    have same := PartitionedLog.eq_of_place consumed (ends.log last lastInLog) rfl rfl
    rw [← same] at lastValue
    obtain ⟨rfl, -⟩ := RecordValue.envelope.injEq .. ▸ lastValue
    rw [same] at lastValue
    obtain ⟨passed, resolved, below'⟩ := exists_commit_of_no_lag noDlq dlqTopic
      dlqInRange ((PartitionedLog.offset_lt_endOffset letterInLog).trans_le
        (dlqEnds.endOffset letter.partition))
    rcases undisturbed.resolved letter (toDlqCommits.log _ (dlqEnds.log letter letterInLog)) passed
      resolved below' with disposed | replayed
    · exact .disposed (toOutbox.log letter letterInLog) letterValue topic
        (dlqCommits.disposed disposed)
    · -- its replay is a later record of the event, and was there at the first read
      obtain ⟨record, inLog, event, value⟩ := isReplayed_iff.mp
        (replayed _ _ _ letterValue ⟨row, accepted, rfl, here⟩)
      obtain ⟨_, _, resolved, -⟩ := soundEnds.replayed record inLog event _ _ value
      have sameLetter := PartitionedLog.eq_of_place (ends.log _ resolved) letterInLog rfl rfl
      rw [sameLetter] at resolved
      obtain ⟨rfl, later⟩ := soundEnds.replayed_after lastInLog lastValue letterValue inLog
        resolved value
      exact absurd (greatest record inLog ⟨_, value⟩) (not_le_of_gt later)

/-- An outbox that has nothing pending for the collection at the first read has
nothing to publish behind it. -/
theorem marks_of_drained
    (published : Along (step config) (fun pipeline => pipeline.MarksKnown pipeline collection)
      (initial started) measured.toTopicEnds)
    (drained : ∀ row ∈ (measured.reads config started).topicEnds.outbox,
      row.collection = collection → row.published = true) (actions : List PipelineAction) :
    Along (step config)
      (fun pipeline => pipeline.MarksKnown (measured.reads config started).topicEnds collection)
      (measured.reads config started).topicEnds actions := by
  have every : Along (step config) (fun _ _ => True) (measured.reads config started).topicEnds
      actions := along_of_forall fun _ _ => trivial
  refine every.mono fun pipeline action _ => ?_
  cases action with
  | markPublished eventId =>
      rintro - ⟨row, accepted, rfl, here⟩
      exact publishedBy_inTopic started measured.toTopicEnds published row accepted
        (drained row accepted here) here
  | _ => trivial

end Evidence

/-! ## A disposition in time, and a publication that crosses the first read -/

section Examples

def singlePartition : PipelineConfig := ⟨"imposbro", fun _ => 1⟩

/-- The record is quarantined before the measurement and disposed of during it. -/
def disposedInTime : MeasuredRun where
  toTopicEnds :=
    [.prepare "evt:2" "notes", .send "evt:2" 0 {}, .markPublished "evt:2",
      .quarantine ⟨"imposbro_notes", 0⟩ 0 0 {}, .commit ⟨"imposbro_notes", 0⟩ 0]
  toTopicCommits := []
  toDlqEnds := []
  toDlqCommits := [.dispose 0 0]
  toOutbox := []

theorem cutover_lag_evidence_disposed :
    (disposedInTime.reads singlePartition fun _ => true).outbox.Done singlePartition "notes"
      "evt:2" := by
  refine cutover_lag_evidence singlePartition (fun _ => true) disposedInTime "notes" ?_
    { phase := .verifying } 0 .cutover {} rfl rfl rfl ⟨"evt:2", "notes", true⟩ (by decide) rfl
  constructor
  · refine ⟨trivial, trivial, trivial, trivial, fun _ _ record _ _ below => ?_, trivial⟩
    rw [Nat.le_zero.mp below]
    refine .inr ⟨⟨⟨"imposbro_dlq", 0⟩, 0, .deadLetter "evt:2" ⟨"imposbro_notes", 0⟩ 0⟩, ?_, _, rfl⟩
    decide
  · refine ⟨trivial, trivial, fun _ _ => ?_, trivial, trivial, trivial⟩
    exact ⟨⟨⟨"imposbro_notes", 0⟩, 0, .envelope "evt:2" none⟩, by decide, none, rfl⟩
  · exact ⟨trivial, trivial⟩
  · exact ⟨trivial, trivial⟩

/-- The event is published after the end offsets of its topic were read. -/
def crossingPublication : MeasuredRun where
  toTopicEnds := [.prepare "evt:1" "books"]
  toTopicCommits := [.send "evt:1" 0 {}]
  toDlqEnds := []
  toDlqCommits := []
  toOutbox := [.markPublished "evt:1"]

/-- No lag is recorded, and the event has not been processed. -/
theorem publication_crosses_measurement :
    ¬∀ (measured : MeasuredRun) (gates : RoutingRolloutGates),
      ({ phase := .verifying } : RoutingRollout).transitionGates 0 .cutover none
          ((measured.reads singlePartition fun _ => false).operationalEvidence singlePartition
            "books") = .ok (some gates) →
        gates.kafkaLag = 0 → gates.unresolvedDlq = 0 →
          ∀ row ∈ (measured.reads singlePartition fun _ => false).topicEnds.outbox,
            row.collection = "books" →
              (measured.reads singlePartition fun _ => false).outbox.Done singlePartition "books"
                row.eventId := by
  intro sound
  have done := sound crossingPublication {} rfl rfl rfl ⟨"evt:1", "books", false⟩ (by decide) rfl
  cases done with
  | processed _ _ _ processed => exact absurd processed List.not_mem_nil
  | disposed _ _ _ disposed => exact absurd disposed List.not_mem_nil

end Examples

end ImposbroSearch.Operations
