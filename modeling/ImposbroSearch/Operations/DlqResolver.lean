import Mathlib
import ImposbroSearch.Foundation.Runs

/-!
# The DLQ resolver

An operator resolves one record of a DLQ partition: replays it to its source topic or
disposes of it, and then moves the committed offset of the resolver group past it. An
invocation reads the partition, decides, acts, reads the committed offset once more,
and commits, with nothing that keeps other invocations out. Every call of Kafka may
fail, and a commit may take effect though its answer is lost.

The wrapper and the replay payload are read by `parse` and `validateReplay`; nothing
below depends on what they accept.
-/

namespace ImposbroSearch.Operations

open ImposbroSearch.Foundation

/-- A DLQ topic and one of its partitions. -/
abbrev DlqPartition := String × ℕ

/-- `Selection`. The parser has refused negative numbers. -/
structure Selection where
  dlqTopic : String
  partition : ℕ
  offset : ℕ
  expectedSourceTopic : String
  deriving DecidableEq, Repr

inductive ResolverAction where
  | inspect
  | dryRun
  | replay
  | disposition
  deriving DecidableEq, Repr

/-- The arguments of an invocation. -/
structure Invocation where
  action : ResolverAction
  selection : Selection
  operationId : String
  commit : Bool := false
  confirm : String := ""
  reason : String := ""
  approver : String := ""
  deriving DecidableEq, Repr

structure ResolverError where
  code : String
  message : String
  deriving DecidableEq, Repr

inductive ResolverOutcome where
  | inspected
  | dryRun
  | replayedUncommitted
  | replayedAndCommitted
  | dispositionCommitted
  deriving DecidableEq, Repr

/-- Between one and `maximum` characters of a class. -/
def FullMatch (allowed : Char → Bool) (maximum : ℕ) (text : String) : Prop :=
  1 ≤ text.length ∧ text.length ≤ maximum ∧ text.toList.all allowed = true

instance (allowed : Char → Bool) (maximum : ℕ) (text : String) :
    Decidable (FullMatch allowed maximum text) :=
  inferInstanceAs (Decidable (_ ∧ _))

/-- `TOPIC_PATTERN` -/
def IsTopic : String → Prop :=
  FullMatch (fun c => c.isAlphanum || c = '.' || c = '_' || c = '-') 249

/-- `IDENTIFIER_PATTERN` -/
def IsIdentifier : String → Prop :=
  FullMatch (fun c => c.isAlphanum || c = '.' || c = '_' || c = ':' || c = '@' || c = '-') 128

instance (text : String) : Decidable (IsTopic text) := inferInstanceAs (Decidable (FullMatch _ _ _))

instance (text : String) : Decidable (IsIdentifier text) :=
  inferInstanceAs (Decidable (FullMatch _ _ _))

namespace Selection

variable (selection : Selection)

def dlqPartition : DlqPartition := (selection.dlqTopic, selection.partition)

/-- `token` -/
def token : String :=
  selection.dlqTopic ++ ":" ++ toString selection.partition ++ ":" ++ toString selection.offset

/-- `validate` -/
def validate : Option ResolverError :=
  if ¬IsTopic selection.dlqTopic then
    some ⟨"invalid_selector", "--dlq-topic is not a valid Kafka topic"⟩
  else if ¬IsTopic selection.expectedSourceTopic then
    some ⟨"invalid_selector", "--expected-source-topic is not a valid Kafka topic"⟩
  else if selection.dlqTopic = selection.expectedSourceTopic then
    some ⟨"invalid_selector", "DLQ and source topics must be different"⟩
  else none

end Selection

/-- `FetchResult`, without its consumer. -/
structure FetchResult (Record : Type) where
  offset : ℕ
  record : Record
  beginningOffset : ℕ
  endOffset : ℕ
  committedOffset : Option ℕ

namespace FetchResult

variable {Record : Type} (fetch : FetchResult Record)

/-- `expected_next_offset` -/
def expectedNextOffset : ℕ := fetch.committedOffset.getD fetch.beginningOffset

/-- `_require_resolution_order` -/
def requireResolutionOrder : Option ResolverError :=
  if fetch.committedOffset.any (· < fetch.beginningOffset) then
    some ⟨"committed_offset_expired", "Resolver-group commit is behind retained data; do not " ++
      "skip expired evidence with this tool"⟩
  else if fetch.offset ≠ fetch.expectedNextOffset then
    some ⟨"partition_order_violation",
      "Selected offset is not the next unresolved offset for this partition"⟩
  else none

end FetchResult

/-- How far an invocation has come. -/
inductive ResolverStage (Record Envelope : Type) where
  | fetching
  | bounded (beginningOffset endOffset : ℕ)
  | positioned (beginningOffset endOffset : ℕ) (committedOffset : Option ℕ)
  | fetched (fetch : FetchResult Record)
  | sending (fetch : FetchResult Record) (envelope : Envelope)
  | flushing (fetch : FetchResult Record)
  | rechecking (fetch : FetchResult Record)
  | committing (fetch : FetchResult Record)
  | verifying (fetch : FetchResult Record)

/-- A replay that the broker has acknowledged. -/
structure AcknowledgedReplay (Envelope : Type) where
  invocation : Invocation
  envelope : Envelope

/-- The DLQ partitions with the group's offsets, the invocations under way, and what
has been resolved. The records of a partition are all that it ever had; those below its
beginning have expired. -/
structure DlqResolver (Record Envelope : Type) where
  records : DlqPartition → List Record
  beginning : DlqPartition → ℕ
  committed : DlqPartition → Option ℕ
  invocations : ℕ → Option (Invocation × ResolverStage Record Envelope) := fun _ => none
  replays : List (AcknowledgedReplay Envelope) := []
  dispositions : List Invocation := []
  results : List (Invocation × Except ResolverError ResolverOutcome) := []

/-- How a call of Kafka ends: with its answer, without an effect, or with its effect but
without its answer. -/
inductive KafkaOutcome where
  | answered
  | failed
  | lost
  deriving DecidableEq, Repr

inductive ResolverStep (Record : Type) where
  | produce (partition : DlqPartition) (record : Record)
  | expire (partition : DlqPartition) (beginning : ℕ)
  | start (id : ℕ) (invocation : Invocation)
  | advance (id : ℕ) (outcome : KafkaOutcome)
  | crash (id : ℕ)

namespace DlqResolver

variable {Record Envelope : Type}
  (parse : Record → String → Except ResolverError Envelope)
  (validateReplay : Envelope → String → Except String Unit)
  (state : DlqResolver Record Envelope)

/-- The invocation ends. -/
def finish (id : ℕ) (invocation : Invocation) (result : Except ResolverError ResolverOutcome) :
    DlqResolver Record Envelope :=
  { state with
    invocations := fun other => if other = id then none else state.invocations other
    results := state.results ++ [(invocation, result)] }

/-- The invocation goes on. -/
def goOn (id : ℕ) (invocation : Invocation) (stage : ResolverStage Record Envelope) :
    DlqResolver Record Envelope :=
  { state with
    invocations := fun other =>
      if other = id then some (invocation, stage) else state.invocations other }

def fetchFailed : ResolverError :=
  ⟨"kafka_fetch_failed", "Kafka failed while fetching the explicit DLQ record; " ++
    "inspect restricted platform logs"⟩

def commitFailed : ResolverError :=
  ⟨"offset_commit_failed", "Kafka did not confirm the exact resolver-group offset commit"⟩

/-- The bounds of the partition, as one call reads them. -/
def readBounds (id : ℕ) (invocation : Invocation) : DlqResolver Record Envelope :=
  let partition := invocation.selection.dlqPartition
  let endOffset := (state.records partition).length
  if invocation.selection.offset < state.beginning partition then
    state.finish id invocation (.error ⟨"offset_expired",
      "Selected DLQ offset is below the retained partition beginning"⟩)
  else if endOffset ≤ invocation.selection.offset then
    state.finish id invocation (.error ⟨"offset_not_available",
      "Selected DLQ offset is not present below the partition end"⟩)
  else state.goOn id invocation (.bounded (state.beginning partition) endOffset)

/-- The selected record, if it is still retained. -/
def poll (id : ℕ) (invocation : Invocation) (beginningOffset endOffset : ℕ)
    (committedOffset : Option ℕ) : DlqResolver Record Envelope :=
  let partition := invocation.selection.dlqPartition
  let offset := invocation.selection.offset
  match (state.records partition)[offset]? with
  | none => state.finish id invocation (.error ⟨"exact_record_not_returned",
      "Kafka did not return exactly one record for the explicit selector"⟩)
  | some record =>
    if offset < state.beginning partition then state.finish id invocation (.error fetchFailed)
    else state.goOn id invocation
      (.fetched { offset, record, beginningOffset, endOffset, committedOffset })

/-- `dry-run` and `replay` up to the check of the confirmation. -/
def refuseReplay (fetch : FetchResult Record) (envelope : Envelope) (dlqTopic : String) :
    Option ResolverError :=
  match fetch.requireResolutionOrder with
  | some error => some error
  | none =>
    match validateReplay envelope dlqTopic with
    | .error code => some ⟨code, "Selected DLQ record is not eligible for replay"⟩
    | .ok _ => none

/-- What the operator types to confirm. -/
def expectedConfirmation (invocation : Invocation) : String :=
  match invocation.action with
  | .replay => (if invocation.commit then "REPLAY-AND-COMMIT" else "REPLAY") ++ ":" ++
      invocation.selection.token
  | _ => "DISPOSITION-AND-COMMIT:" ++ invocation.selection.token

/-- `disposition` up to its commit. -/
def refuseDisposition (fetch : FetchResult Record) (invocation : Invocation) :
    Option ResolverError :=
  match fetch.requireResolutionOrder with
  | some error => some error
  | none =>
    if invocation.commit = false then
      some ⟨"explicit_commit_required", "disposition requires --commit; no offset was changed"⟩
    else if ¬IsIdentifier invocation.reason then
      some ⟨"invalid_disposition",
        "Disposition reason must be a 1-128 character audit-safe code"⟩
    else if ¬IsIdentifier invocation.approver then
      some ⟨"invalid_disposition",
        "Disposition approver must be a 1-128 character audit-safe identity"⟩
    else if invocation.confirm ≠ expectedConfirmation invocation then
      some ⟨"confirmation_mismatch", "Disposition confirmation must equal " ++
        "DISPOSITION-AND-COMMIT:<dlq-topic>:<partition>:<offset>"⟩
    else none

/-- What follows the fetch, up to the next call of Kafka. -/
def decide (id : ℕ) (invocation : Invocation) (fetch : FetchResult Record) :
    DlqResolver Record Envelope :=
  match parse fetch.record invocation.selection.expectedSourceTopic with
  | .error error => state.finish id invocation (.error error)
  | .ok envelope =>
    match invocation.action with
    | .inspect =>
      if invocation.commit then
        state.finish id invocation (.error ⟨"commit_not_allowed",
          "inspect never accepts a commit request"⟩)
      else state.finish id invocation (.ok .inspected)
    | .dryRun =>
      if invocation.commit then
        state.finish id invocation (.error ⟨"commit_not_allowed",
          "dry-run never accepts a commit request"⟩)
      else
        match refuseReplay validateReplay fetch envelope invocation.selection.dlqTopic with
        | some error => state.finish id invocation (.error error)
        | none => state.finish id invocation (.ok .dryRun)
    | .replay =>
      match refuseReplay validateReplay fetch envelope invocation.selection.dlqTopic with
      | some error => state.finish id invocation (.error error)
      | none =>
        if invocation.confirm ≠ expectedConfirmation invocation then
          state.finish id invocation (.error ⟨"confirmation_mismatch",
            "Replay confirmation must equal " ++
              (if invocation.commit then "REPLAY-AND-COMMIT" else "REPLAY") ++
              ":<dlq-topic>:<partition>:<offset>"⟩)
        else state.goOn id invocation (.sending fetch envelope)
    | .disposition =>
      match refuseDisposition fetch invocation with
      | some error => state.finish id invocation (.error error)
      | none =>
        { state.goOn id invocation (.rechecking fetch) with
          dispositions := state.dispositions ++ [invocation] }

def replayFailed : ResolverError :=
  ⟨"replay_ack_failed",
    "Kafka did not acknowledge and flush the replay; offset was not committed"⟩

/-- The second read of `_commit_exact`. -/
def recheck (id : ℕ) (invocation : Invocation) (fetch : FetchResult Record) :
    DlqResolver Record Envelope :=
  if state.committed invocation.selection.dlqPartition ≠ some fetch.offset then
    state.finish id invocation (.error ⟨"concurrent_offset_change",
      "Resolver-group offset changed after fetch; refusing a stale commit"⟩)
  else state.goOn id invocation (.committing fetch)

/-- The group's offset is moved past the record. -/
def moveOffset (invocation : Invocation) (fetch : FetchResult Record) :
    DlqResolver Record Envelope :=
  { state with
    committed := fun partition =>
      if partition = invocation.selection.dlqPartition then some (fetch.offset + 1)
      else state.committed partition }

/-- The last read of `_commit_exact`. -/
def verify (id : ℕ) (invocation : Invocation) (fetch : FetchResult Record) :
    DlqResolver Record Envelope :=
  match state.committed invocation.selection.dlqPartition with
  | none => state.finish id invocation (.error commitFailed)
  | some committed =>
    if committed ≠ fetch.offset + 1 then
      state.finish id invocation (.error ⟨"offset_commit_mismatch",
        "Kafka committed offset does not equal selected offset plus one"⟩)
    else state.finish id invocation
      (.ok (if invocation.action = .replay then .replayedAndCommitted else .dispositionCommitted))

/-- `resolve`, from one call of Kafka to the next. -/
def advance (id : ℕ) (outcome : KafkaOutcome) : DlqResolver Record Envelope :=
  match state.invocations id with
  | none => state
  | some (invocation, stage) =>
    match stage with
    | .fetching =>
      if outcome = .answered then state.readBounds id invocation
      else state.finish id invocation (.error fetchFailed)
    | .bounded beginningOffset endOffset =>
      if outcome = .answered then
        state.goOn id invocation (.positioned beginningOffset endOffset
          (state.committed invocation.selection.dlqPartition))
      else state.finish id invocation (.error fetchFailed)
    | .positioned beginningOffset endOffset committedOffset =>
      if outcome = .answered then
        state.poll id invocation beginningOffset endOffset committedOffset
      else state.finish id invocation (.error fetchFailed)
    | .fetched fetch => state.decide parse validateReplay id invocation fetch
    | .sending fetch envelope =>
      if outcome = .answered then
        { state.goOn id invocation (.flushing fetch) with
          replays := state.replays ++ [⟨invocation, envelope⟩] }
      else state.finish id invocation (.error replayFailed)
    | .flushing fetch =>
      if outcome ≠ .answered then state.finish id invocation (.error replayFailed)
      else if invocation.commit then state.goOn id invocation (.rechecking fetch)
      else state.finish id invocation (.ok .replayedUncommitted)
    | .rechecking fetch =>
      if outcome = .answered then state.recheck id invocation fetch
      else state.finish id invocation (.error commitFailed)
    | .committing fetch =>
      match outcome with
      | .answered => (state.moveOffset invocation fetch).goOn id invocation (.verifying fetch)
      | .failed => state.finish id invocation (.error commitFailed)
      | .lost => (state.moveOffset invocation fetch).finish id invocation (.error commitFailed)
    | .verifying fetch =>
      if outcome = .answered then state.verify id invocation fetch
      else state.finish id invocation (.error commitFailed)

/-- An invocation starts once its selector and its operation id are valid. -/
def start (id : ℕ) (invocation : Invocation) : DlqResolver Record Envelope :=
  match invocation.selection.validate with
  | some error => { state with results := state.results ++ [(invocation, .error error)] }
  | none =>
    if ¬IsIdentifier invocation.operationId then
      { state with
        results := state.results ++ [(invocation, .error ⟨"invalid_operation_id",
          "Operation ID is invalid"⟩)] }
    else if (state.invocations id).isSome then state
    else state.goOn id invocation .fetching

def step : ResolverStep Record → DlqResolver Record Envelope
  | .produce partition record =>
    { state with
      records := fun other =>
        if other = partition then state.records other ++ [record] else state.records other }
  | .expire partition beginning =>
    { state with
      beginning := fun other =>
        if other = partition then max (state.beginning other) beginning
        else state.beginning other }
  | .start id invocation => state.start id invocation
  | .advance id outcome => state.advance parse validateReplay id outcome
  | .crash id =>
    { state with
      invocations := fun other => if other = id then none else state.invocations other }

end DlqResolver

end ImposbroSearch.Operations
