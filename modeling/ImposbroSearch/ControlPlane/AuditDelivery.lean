import ImposbroSearch.ControlPlane.AuditChain
import ImposbroSearch.Foundation.Texts

/-!
# Delivery of the audit chain

Coordinators deliver the chain to sinks: each reads its checkpoint and a page of the
chain behind it, hands the page to the sink, and moves the checkpoint to the boundary that
the sink has acknowledged. These are transactions of their own, statement by statement
here, without a lease: coordinators of one destination overlap, and the chain grows in
between. A row that is locked is waited for. An update and the end of its transaction are
one step, since the row is locked.

What a sink answers is an input: it may fail, or acknowledge anything.
-/

namespace ImposbroSearch.ControlPlane.AuditDelivery

open ImposbroSearch.Foundation
open ImposbroSearch.ControlPlane.AuditStore

/-- Microseconds since 1970. -/
abbrev Instant := ℤ

/-- `datetime.max` -/
def latestInstant : Instant := 253402300799999999

/-! ## Identifiers -/

def isLowercase (c : ℕ) : Bool := 97 ≤ c && c ≤ 122

/-- `^[a-z][…]{0,63}$` -/
def isIdentifier (others : ℕ → Bool) : Text → Bool
  | [] => false
  | c :: rest => isLowercase c && rest.length ≤ 63 && rest.all others

/-- `validate_destination_id` -/
def validateDestinationId (value : Text) : Option Text :=
  let candidate := stripText value
  if isIdentifier (fun c => isLowercase c || isDigit c || c = 46 || c = 95 || c = 45) candidate then
    some candidate
  else none

/-- `validate_error_code` -/
def validateErrorCode (value : Text) : Option Text :=
  let candidate := stripText value
  if isIdentifier (fun c => isLowercase c || isDigit c || c = 95) candidate then some candidate
  else none

/-- `[a-f0-9]{64}` -/
def isEventHash (text : Text) : Bool :=
  text.length = 64 && text.all fun c => isDigit c || 97 ≤ c && c ≤ 102

/-! ## Records of a delivery -/

/-- `AuditDeliveryCheckpoint` -/
structure AuditDeliveryCheckpoint where
  destinationId : Text
  lastSequence : ℕ
  lastEventHash : Text
  lastSuccessAt : Option Instant
  failureAttempts : ℕ
  lastErrorCode : Option Text
  nextRetryAt : Option Instant

/-- `AuditDeliveryBatch` -/
structure AuditDeliveryBatch (F : Type) where
  destinationId : Text
  afterSequence : ℕ
  previousHash : Text
  records : List (AuditRecord F)
  headSequence : ℕ
  headHash : Text
  deferredUntil : Option Instant

namespace AuditDeliveryBatch

variable {F : Type} (batch : AuditDeliveryBatch F)

def lastSequence : ℕ :=
  match batch.records.getLast? with
  | some record => record.sequence
  | none => batch.afterSequence

def lastEventHash : Text :=
  match batch.records.getLast? with
  | some record => record.eventHash
  | none => batch.previousHash

end AuditDeliveryBatch

/-- `AuditDeliveryAck` -/
structure AuditDeliveryAck where
  destinationId : Text
  lastSequence : ℤ
  lastEventHash : Text

/-- What `deliver` of a sink does: it returns, raises an `AuditSinkError`, or raises
something else. -/
inductive SinkAnswer where
  | ack (ack : AuditDeliveryAck)
  | error (code : Text)
  | unexpected

inductive DeliveryError where
  | invalidDestination
  | invalidLimit
  | notRegistered
  | integrity
  | retryNotInFuture
  | overflow
  | database
  deriving DecidableEq

/-- The retry budget of a coordinator. -/
structure RetryBudget where
  baseRetrySeconds : ℕ
  maxRetrySeconds : ℕ
  valid : 1 ≤ baseRetrySeconds ∧ baseRetrySeconds ≤ maxRetrySeconds

/-! ## The machine -/

/-- The next statement of `deliver_once`. -/
inductive DeliveryStatement (F : Type) where
  | ensureDestination
  | readRegistered
  | readCheckpoint
  | selectHead (checkpoint : AuditDeliveryCheckpoint)
  | selectBoundary (checkpoint : AuditDeliveryCheckpoint) (head : ChainPoint Text)
  | selectPage (checkpoint : AuditDeliveryCheckpoint) (head : ChainPoint Text)
  | deliver (batch : AuditDeliveryBatch F)
  | lockCheckpoint (destination : Text) (batch : AuditDeliveryBatch F) (ack : AuditDeliveryAck)
  | selectAcknowledged (destination : Text) (batch : AuditDeliveryBatch F)
    (ack : AuditDeliveryAck) (current : ℕ)
  | updateCheckpoint (destination : Text) (batch : AuditDeliveryBatch F) (ack : AuditDeliveryAck)
    (current : ℕ)
  | readAttempts (code : Text)
  | recordFailure (code : Text) (retryAt : Instant)
  | readResult

/-- A call of `deliver_once`. -/
structure Delivery (F : Type) where
  destinationId : Text
  limit : ℤ
  now : Instant
  next : DeliveryStatement F

/-- The control-plane store, the checkpoints, the calls in flight with their row locks, what
the sinks were given and answered, and what the finished calls returned. -/
structure DeliveryWorld (F : Type) where
  store : Database F
  checkpoints : Text → Option AuditDeliveryCheckpoint
  locks : Text → Option ℕ
  deliveries : ℕ → Option (Delivery F)
  delivered : List (AuditDeliveryBatch F × SinkAnswer)
  outcomes : List (Text × Except DeliveryError AuditDeliveryCheckpoint)

inductive DeliveryAction (F : Type) where
  | transact (action : StoreAction F)
  | deliverOnce (id : ℕ) (destinationId : Text) (limit : ℤ) (now : Instant)
  | advance (id : ℕ) (answer : SinkAnswer)
  | crash (id : ℕ)

section Pages

variable {F : Type} [PyFloat F] (hash : List ℕ → Text)

/-- `_verify_page` -/
def verifyPage (previousHash : Text) (expectedSequence : ℕ) : List (AuditRecord F) → Bool
  | [] => true
  | record :: records =>
    record.sequence = expectedSequence && record.previousHash = previousHash &&
      record.calculatedHash hash = some record.eventHash &&
      verifyPage record.eventHash (expectedSequence + 1) records

/-- The rows behind a checkpoint. -/
def pageAfter (checkpoint : AuditDeliveryCheckpoint) (limit : ℤ) (audit : List AuditRow) :
    List AuditRow :=
  ((audit.filter fun row => checkpoint.lastSequence < row.sequence).insertionSort
    fun first second => first.sequence ≤ second.sequence).take limit.toNat

/-- `_verify_checkpoint_boundary` -/
def verifyCheckpointBoundary (audit : List AuditRow) (checkpoint : AuditDeliveryCheckpoint) :
    Bool :=
  if checkpoint.lastSequence = 0 then checkpoint.lastEventHash = zeroAuditHash
  else
    match audit.find? fun row => row.sequence = checkpoint.lastSequence with
    | none => false
    | some row => row.eventHash = checkpoint.lastEventHash

/-- The batch of a checkpoint that is to be retried later. -/
def deferredBatch (checkpoint : AuditDeliveryCheckpoint) (head : ChainPoint Text) :
    AuditDeliveryBatch F where
  destinationId := checkpoint.destinationId
  afterSequence := checkpoint.lastSequence
  previousHash := checkpoint.lastEventHash
  records := []
  headSequence := head.sequence
  headHash := head.hash
  deferredUntil := checkpoint.nextRetryAt

/-- The end of `next_batch`. -/
def buildBatch (checkpoint : AuditDeliveryCheckpoint) (head : ChainPoint Text)
    (rows : List AuditRow) : Except DeliveryError (AuditDeliveryBatch F) :=
  match rows.mapM AuditRow.read with
  | .error _ => .error .integrity
  | .ok records =>
    if checkpoint.lastSequence < head.sequence ∧ records.isEmpty then .error .integrity
    else if ¬verifyPage hash checkpoint.lastEventHash (checkpoint.lastSequence + 1) records then
      .error .integrity
    else if ∃ record ∈ records.getLast?, record.sequence = head.sequence ∧
        record.eventHash ≠ head.hash then .error .integrity
    else if head.sequence < checkpoint.lastSequence then .error .integrity
    else
      .ok
        { destinationId := checkpoint.destinationId
          afterSequence := checkpoint.lastSequence
          previousHash := checkpoint.lastEventHash
          records
          headSequence := head.sequence
          headHash := head.hash
          deferredUntil := none }

/-- `not batch.records or batch.deferred_until` -/
def afterBatch (batch : AuditDeliveryBatch F) : DeliveryStatement F :=
  if batch.records.isEmpty || batch.deferredUntil.isSome then .readResult else .deliver batch

/-- The acknowledgement of exactly this batch. -/
def AuditDeliveryAck.Matches (ack : AuditDeliveryAck) (batch : AuditDeliveryBatch F) : Prop :=
  ack.destinationId = batch.destinationId ∧ ack.lastSequence = batch.lastSequence ∧
    ack.lastEventHash = batch.lastEventHash

instance (ack : AuditDeliveryAck) (batch : AuditDeliveryBatch F) : Decidable (ack.Matches batch) :=
  inferInstanceAs (Decidable (_ ∧ _))

def sinkUnexpectedError : Text := chars "sink_unexpected_error"

/-- What follows an answer, up to the transaction of `advance`. -/
def afterAnswer (batch : AuditDeliveryBatch F) : SinkAnswer → DeliveryStatement F
  | .unexpected => .readAttempts sinkUnexpectedError
  | .error code => .readAttempts ((validateErrorCode code).getD sinkUnexpectedError)
  | .ack ack =>
    if ¬ack.Matches batch then .readAttempts (chars "sink_ack_mismatch")
    else
      match validateDestinationId ack.destinationId with
      | none => .readAttempts sinkUnexpectedError
      | some destination =>
        if ack.lastSequence < 1 ∨ ¬isEventHash ack.lastEventHash then
          .readAttempts sinkUnexpectedError
        else .lockCheckpoint destination batch ack

/-- The delay before the next attempt. -/
def RetryBudget.delaySeconds (budget : RetryBudget) (failureAttempts : ℕ) : ℕ :=
  min budget.maxRetrySeconds (budget.baseRetrySeconds * 2 ^ min failureAttempts 10)

/-- `timestamp + timedelta(seconds=…)` -/
def addSeconds (now : Instant) (seconds : ℕ) : Option Instant :=
  if now + 1000000 * seconds ≤ latestInstant then some (now + 1000000 * seconds) else none

end Pages

namespace DeliveryWorld

variable {F : Type}

def empty : DeliveryWorld F where
  store := .empty
  checkpoints := fun _ => none
  locks := fun _ => none
  deliveries := fun _ => none
  delivered := []
  outcomes := []

variable (w : DeliveryWorld F) (id : ℕ) (delivery : Delivery F)

/-- The row locks of a call are free. -/
def unlock : DeliveryWorld F :=
  { w with locks := fun row => if w.locks row = some id then none else w.locks row }

def goOn (next : DeliveryStatement F) : DeliveryWorld F :=
  { w with
    deliveries := fun other =>
      if other = id then some { delivery with next } else w.deliveries other }

def finish (outcome : Except DeliveryError AuditDeliveryCheckpoint) : DeliveryWorld F :=
  { w with
    deliveries := fun other => if other = id then none else w.deliveries other
    outcomes := w.outcomes ++ [(delivery.destinationId, outcome)] }

def setCheckpoint (destination : Text) (checkpoint : AuditDeliveryCheckpoint) : DeliveryWorld F :=
  { w with
    checkpoints := fun other => if other = destination then some checkpoint else w.checkpoints other }

/-- `ensure_destination`: an insert that leaves a registered destination alone. -/
def ensureDestination : DeliveryWorld F :=
  match w.checkpoints delivery.destinationId with
  | some _ => w.goOn id delivery .readRegistered
  | none =>
    (w.setCheckpoint delivery.destinationId
      { destinationId := delivery.destinationId
        lastSequence := 0
        lastEventHash := zeroAuditHash
        lastSuccessAt := none
        failureAttempts := 0
        lastErrorCode := none
        nextRetryAt := none }).goOn id delivery .readRegistered

/-- `get_checkpoint` -/
def getCheckpoint (behind : AuditDeliveryCheckpoint → DeliveryWorld F) : DeliveryWorld F :=
  match w.checkpoints delivery.destinationId with
  | none => w.finish id delivery (.error .notRegistered)
  | some checkpoint => behind checkpoint

/-- A failure of `advance`, whose transaction is rolled back. -/
def failAdvance : DeliveryWorld F :=
  (w.unlock id).goOn id delivery (.readAttempts sinkUnexpectedError)

/-- `SELECT … FOR UPDATE` of `advance`. -/
def lockCheckpoint (destination : Text) (batch : AuditDeliveryBatch F) (ack : AuditDeliveryAck) :
    DeliveryWorld F :=
  match w.checkpoints destination with
  | none => w.failAdvance id delivery
  | some checkpoint =>
    if LockedByOther (w.locks destination) id then w
    else if ack.lastSequence ≤ checkpoint.lastSequence then w.goOn id delivery .readResult
    else
      { w with locks := fun row => if row = destination then some id else w.locks row }.goOn id
        delivery (.selectAcknowledged destination batch ack checkpoint.lastSequence)

/-- The boundary must be a record of the chain. -/
def selectAcknowledged (destination : Text) (batch : AuditDeliveryBatch F) (ack : AuditDeliveryAck)
    (current : ℕ) : DeliveryWorld F :=
  match w.store.audit.find? fun row => (row.sequence : ℤ) = ack.lastSequence with
  | none => w.failAdvance id delivery
  | some row =>
    if row.eventHash ≠ ack.lastEventHash then w.failAdvance id delivery
    else w.goOn id delivery (.updateCheckpoint destination batch ack current)

/-- The update of `advance`. -/
def updateCheckpoint (destination : Text) (ack : AuditDeliveryAck) (current : ℕ) :
    DeliveryWorld F :=
  match w.checkpoints destination with
  | none => (w.unlock id).goOn id delivery .readResult
  | some checkpoint =>
    if checkpoint.lastSequence ≠ current then (w.unlock id).goOn id delivery .readResult
    else
      ((w.setCheckpoint destination
        { checkpoint with
          lastSequence := ack.lastSequence.toNat
          lastEventHash := ack.lastEventHash
          lastSuccessAt := some delivery.now
          failureAttempts := 0
          lastErrorCode := none
          nextRetryAt := none }).unlock id).goOn id delivery .readResult

/-- The checkpoint is read, and the checks of `record_failure` before its transaction. -/
def readAttempts (budget : RetryBudget) (code : Text) : DeliveryWorld F :=
  w.getCheckpoint id delivery fun checkpoint =>
    match addSeconds delivery.now (budget.delaySeconds checkpoint.failureAttempts) with
    | none => w.finish id delivery (.error .overflow)
    | some retryAt =>
      if retryAt ≤ delivery.now then w.finish id delivery (.error .retryNotInFuture)
      else w.goOn id delivery (.recordFailure code retryAt)

/-- The update of `record_failure`. -/
def recordFailure (code : Text) (retryAt : Instant) : DeliveryWorld F :=
  match w.checkpoints delivery.destinationId with
  | none => w.finish id delivery (.error .notRegistered)
  | some checkpoint =>
    if LockedByOther (w.locks delivery.destinationId) id then w
    else if 2147483647 ≤ checkpoint.failureAttempts then w.finish id delivery (.error .database)
    else
      (w.setCheckpoint delivery.destinationId
        { checkpoint with
          failureAttempts := checkpoint.failureAttempts + 1
          lastErrorCode := some code
          nextRetryAt := some retryAt }).goOn id delivery .readResult

variable [PyFloat F] (hash : List ℕ → Text) (budget : RetryBudget)

/-- One statement of a call. -/
def advanceDelivery (answer : SinkAnswer) : DeliveryWorld F :=
  match delivery.next with
  | .ensureDestination => w.ensureDestination id delivery
  | .readRegistered => w.getCheckpoint id delivery fun _ => w.goOn id delivery .readCheckpoint
  | .readCheckpoint =>
    if delivery.limit < 1 ∨ 5000 < delivery.limit then w.finish id delivery (.error .invalidLimit)
    else w.getCheckpoint id delivery fun checkpoint => w.goOn id delivery (.selectHead checkpoint)
  | .selectHead checkpoint => w.goOn id delivery (.selectBoundary checkpoint w.store.head)
  | .selectBoundary checkpoint head =>
    if ¬verifyCheckpointBoundary w.store.audit checkpoint then
      w.finish id delivery (.error .integrity)
    else if ∃ retryAt ∈ checkpoint.nextRetryAt, delivery.now < retryAt then
      w.goOn id delivery (afterBatch (deferredBatch checkpoint head))
    else w.goOn id delivery (.selectPage checkpoint head)
  | .selectPage checkpoint head =>
    match buildBatch hash checkpoint head (pageAfter checkpoint delivery.limit w.store.audit) with
    | .error error => w.finish id delivery (.error error)
    | .ok batch => w.goOn id delivery (afterBatch batch)
  | .deliver batch =>
    { w with delivered := w.delivered ++ [(batch, answer)] }.goOn id delivery
      (afterAnswer batch answer)
  | .lockCheckpoint destination batch ack => w.lockCheckpoint id delivery destination batch ack
  | .selectAcknowledged destination batch ack current =>
    w.selectAcknowledged id delivery destination batch ack current
  | .updateCheckpoint destination _ ack current =>
    w.updateCheckpoint id delivery destination ack current
  | .readAttempts code => w.readAttempts id delivery budget code
  | .recordFailure code retryAt => w.recordFailure id delivery code retryAt
  | .readResult => w.getCheckpoint id delivery fun checkpoint => w.finish id delivery (.ok checkpoint)

/-- A new call of `deliver_once`. -/
def deliverOnce (destinationId : Text) (limit : ℤ) (now : Instant) : DeliveryWorld F :=
  if (w.deliveries id).isSome then w
  else
    match validateDestinationId destinationId with
    | none => { w with outcomes := w.outcomes ++ [(destinationId, .error .invalidDestination)] }
    | some destinationId =>
      w.goOn id { destinationId, limit, now, next := .ensureDestination } .ensureDestination

def step (w : DeliveryWorld F) : DeliveryAction F → DeliveryWorld F
  | .transact action => { w with store := w.store.step hash action }
  | .deliverOnce id destinationId limit now => w.deliverOnce id destinationId limit now
  | .advance id answer =>
    match w.deliveries id with
    | none => w
    | some delivery => w.advanceDelivery id delivery hash budget answer
  | .crash id =>
    { w.unlock id with
      deliveries := fun other => if other = id then none else w.deliveries other }

end DeliveryWorld

end ImposbroSearch.ControlPlane.AuditDelivery
