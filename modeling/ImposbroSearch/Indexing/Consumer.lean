import ImposbroSearch.Foundation.Delivery
import ImposbroSearch.Foundation.OffsetLog
import ImposbroSearch.Foundation.Runs

/-!
# The consumer loop

`run_consumer` polls, handles the returned records partition by partition, and
commits the offset after each handled record. A record that cannot be handled
ends its partition's inner loop; an exception that escapes the decoder ends the
whole poll. Neither moves the client's in-memory position back, so the records
that were returned and not handled are not returned again by the next poll.

Everything outside the worker is an input. A `RecordFate` says what happens while
one record is handled: whether shutdown is requested first, how decoding ends,
how each processing attempt ends, whether a client refresh raises, what becomes
of the record sent to the dead-letter topic, and whether the commit succeeds.
-/

namespace ImposbroSearch.Indexing

open ImposbroSearch.Foundation

structure TopicPartition where
  topic : String
  partition : ℕ
  deriving DecidableEq, Repr

/-- `decode_kafka_value` returns, raises `InvalidKafkaMessageError`, or lets
another exception through. -/
inductive Decoding where
  | decoded
  | invalidPayload
  | otherException
  deriving DecidableEq, Repr

/-- How one call of `process_message` ends. -/
inductive AttemptOutcome where
  | processed
  | rejected
  | missingTarget
  | failed
  deriving DecidableEq, Repr

structure RecordFate where
  shutdownRequested : Bool := false
  decoding : Decoding := .decoded
  /-- indexed by the attempt number, from 1 -/
  attempts : ℕ → AttemptOutcome := fun _ => .processed
  refreshRaises : ℕ → Bool := fun _ => false
  deadLetter : Delivery := {}
  commitSucceeds : Bool := true

structure ConsumerConfig where
  maxAttempts : Int
  refreshClients : Bool
  dlqProducer : Bool
  deriving DecidableEq, Repr

/-- How the record loop body gets on with one record before committing it. -/
inductive Handling where
  | fullyProcessed
  | quarantined
  | notHandled
  | escaped
  deriving DecidableEq, Repr

/-- Where the retry loop of `process_message_with_retries` leaves off. -/
inductive RetryExit where
  | returned
  | refreshRaised
  | gaveUp (lastError : AttemptOutcome)
  deriving DecidableEq, Repr

/-- The retry loop from `attempt` on, with `later` more attempts in range. -/
def retryLoop (config : ConsumerConfig) (fate : RecordFate) : (later attempt : ℕ) → RetryExit
  | later, attempt =>
    match fate.attempts attempt with
    | .processed => .returned
    | .rejected => .gaveUp .rejected
    | .missingTarget =>
      if config.refreshClients then
        if fate.refreshRaises attempt then .refreshRaised
        else
          match later with
          | 0 => .gaveUp .missingTarget
          | later + 1 => retryLoop config fate later (attempt + 1)
      else .gaveUp .missingTarget
    | .failed =>
      match later with
      | 0 => .gaveUp .failed
      | later + 1 => retryLoop config fate later (attempt + 1)

/-- The retry loop over `range(1, max(1, max_attempts) + 1)`. -/
def retries (config : ConsumerConfig) (fate : RecordFate) : RetryExit :=
  retryLoop config fate ((max 1 config.maxAttempts).toNat - 1) 1

/-- `publish_to_dlq`, when there is a producer: whether the caller goes on to
commit depends on nothing but an exception. -/
def publishToDlq (config : ConsumerConfig) (fate : RecordFate) : Handling :=
  if config.dlqProducer ∧ fate.deadLetter.returns then .quarantined else .notHandled

/-- `process_message_with_retries` -/
def processMessageWithRetries (config : ConsumerConfig) (fate : RecordFate) : Handling :=
  match retries config fate with
  | .returned => .fullyProcessed
  | .refreshRaised => .notHandled
  | .gaveUp _ => publishToDlq config fate

/-- The record loop body of `run_consumer`, up to the commit. -/
def handleRecord (config : ConsumerConfig) (fate : RecordFate) : Handling :=
  match fate.decoding with
  | .otherException => .escaped
  | .invalidPayload => publishToDlq config fate
  | .decoded => processMessageWithRetries config fate

/-- Whether handling the record calls `publish_to_dlq`. -/
def sendsToDlq (config : ConsumerConfig) (fate : RecordFate) : Bool :=
  config.dlqProducer &&
    match fate.decoding with
    | .otherException => false
    | .invalidPayload => true
    | .decoded =>
      match retries config fate with
      | .gaveUp _ => true
      | _ => false

/-- The record ends up fully processed, or accepted by the dead-letter topic. -/
def settles (config : ConsumerConfig) (fate : RecordFate) : Bool :=
  handleRecord config fate = .fullyProcessed ∨
    (sendsToDlq config fate = true ∧ fate.deadLetter.accepted = true)

/-- The dead-letter delivery on whose strength the record is committed. -/
def quarantineOf (config : ConsumerConfig) (fate : RecordFate) : Option Delivery :=
  if handleRecord config fate = .quarantined then some fate.deadLetter else none

/-- One successful `commit_message_offset`, with what was settled by then and the
dead-letter delivery when the record had been quarantined. -/
structure CommitEvent where
  partition : TopicPartition
  offset : ℕ
  quarantine : Option Delivery
  settledThen : TopicPartition → ℕ → Bool

/-- The state shared by the consumer group, the client, and the loop. -/
structure ConsumerState where
  position : TopicPartition → ℕ
  committed : TopicPartition → ℕ
  settled : TopicPartition → ℕ → Bool
  shutdownRequested : Bool
  commits : List CommitEvent

/-- The record was settled while being handled. -/
def ConsumerState.settle (state : ConsumerState) (partition : TopicPartition) (offset : ℕ) :
    ConsumerState :=
  { state with
    settled := fun other record =>
      if other = partition ∧ record = offset then true else state.settled other record }

/-- `commit_message_offset` sets the absolute group offset. -/
def ConsumerState.commit (state : ConsumerState) (partition : TopicPartition) (offset : ℕ)
    (quarantine : Option Delivery) : ConsumerState :=
  { state with
    committed := Function.update state.committed partition (offset + 1)
    commits := state.commits ++ [⟨partition, offset + 1, quarantine, state.settled⟩] }

/-- Whether the poll goes on with the next partition. -/
inductive PollFlow where
  | nextPartition
  | abandoned
  deriving DecidableEq, Repr

/-- The inner `for message in msgs` loop. -/
def handlePartition (config : ConsumerConfig) (partition : TopicPartition) :
    ConsumerState → List (ℕ × RecordFate) → ConsumerState × PollFlow
  | state, [] => (state, .nextPartition)
  | state, (offset, fate) :: records =>
    let state :=
      { state with shutdownRequested := state.shutdownRequested || fate.shutdownRequested }
    if state.shutdownRequested then (state, .nextPartition)
    else
      let state := if settles config fate then state.settle partition offset else state
      match handleRecord config fate with
      | .escaped => (state, .abandoned)
      | .notHandled => (state, .nextPartition)
      | .fullyProcessed | .quarantined =>
        if fate.commitSucceeds then
          handlePartition config partition
            (state.commit partition offset (quarantineOf config fate)) records
        else (state, .nextPartition)

/-- The `for topic_partition, msgs in messages.items()` loop. -/
def handlePartitions (config : ConsumerConfig) :
    ConsumerState → List (TopicPartition × List (ℕ × RecordFate)) → ConsumerState
  | state, [] => state
  | state, (partition, records) :: batches =>
    match handlePartition config partition state records with
    | (state, .abandoned) => state
    | (state, .nextPartition) => handlePartitions config state batches

/-- One poll: for each partition it returns records from, the fates of those
records in offset order. A partition appears at most once. -/
structure Poll where
  fates : List (TopicPartition × List RecordFate)
  nodup : (fates.map Prod.fst).Nodup

/-- The records a poll returns, read from the logs at the current positions. -/
def polledBatches (logs : TopicPartition → PartitionLog) (position : TopicPartition → ℕ)
    (poll : Poll) : List (TopicPartition × List (ℕ × RecordFate)) :=
  poll.fates.map fun entry => (entry.1, ((logs entry.1).fetch (position entry.1)).zip entry.2)

/-- `poll()` moves the in-memory position past every record it returned. -/
def advancePosition (batches : List (TopicPartition × List (ℕ × RecordFate)))
    (position : TopicPartition → ℕ) : TopicPartition → ℕ :=
  fun partition =>
    match batches.find? fun batch => batch.1 = partition with
    | some (_, records) =>
      match records.getLast? with
      | some (offset, _) => offset + 1
      | none => position partition
    | none => position partition

inductive ConsumerAction where
  | poll (poll : Poll)
  | pollRaises
  | rebalance (partitions : List TopicPartition)
  | restart

/-- One turn of the main loop, or one thing that happens to the client between
two turns. -/
def consumerStep (config : ConsumerConfig) (logs : TopicPartition → PartitionLog)
    (state : ConsumerState) : ConsumerAction → ConsumerState
  | .poll poll =>
    if state.shutdownRequested then state
    else
      let batches := polledBatches logs state.position poll
      handlePartitions config { state with position := advancePosition batches state.position }
        batches
  | .pollRaises => state
  | .rebalance partitions =>
    { state with
      position := fun partition =>
        if partition ∈ partitions then state.committed partition else state.position partition }
  | .restart => { state with position := state.committed, shutdownRequested := false }

/-- A fresh consumer group: nothing committed, `auto_offset_reset="earliest"`. -/
def ConsumerState.initial : ConsumerState :=
  ⟨fun _ => 0, fun _ => 0, fun _ _ => false, false, []⟩

end ImposbroSearch.Indexing
