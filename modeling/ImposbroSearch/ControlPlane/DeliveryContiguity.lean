import ImposbroSearch.ControlPlane.AuditDelivery

/-!
# Delivery is contiguous

A checkpoint is moved by the holder of its row lock only, and only forward. A page begins
behind a checkpoint that the destination has had, so when its boundary is reached every
record up to there was acknowledged before or is in the page.
-/

namespace ImposbroSearch.ControlPlane.AuditDelivery

open ImposbroSearch.Foundation
open ImposbroSearch.ControlPlane.AuditStore

variable {F : Type} [PyFloat F] {hash : List ℕ → Text} {budget : RetryBudget}

/-! ## Identifiers -/

/-- A validated id is validated as itself. -/
theorem validateDestinationId_idem {value destination : Text}
    (valid : validateDestinationId value = some destination) :
    validateDestinationId destination = some destination := by
  unfold validateDestinationId at valid
  simp only at valid
  split_ifs at valid with identifier
  obtain rfl := Option.some.inj valid
  have solid : ∀ c ∈ stripText value, isPySpace c = false := by
    intro c member
    cases candidate : stripText value with
    | nil => rw [candidate] at member; cases member
    | cons first rest =>
        rw [candidate] at identifier member
        unfold isIdentifier at identifier
        simp only [Bool.and_eq_true, decide_eq_true_eq, List.all_eq_true, Bool.or_eq_true] at identifier
        rcases List.mem_cons.mp member with rfl | later
        · have lower := identifier.1.1
          unfold isLowercase at lower
          unfold isPySpace
          simp at lower ⊢
          omega
        · have allowed := identifier.2 c later
          unfold isLowercase isDigit at allowed
          unfold isPySpace
          simp at allowed ⊢
          omega
  unfold validateDestinationId
  simp only
  rw [stripText_solid solid, if_pos identifier]

/-! ## Pages -/

/-- The record of that number is among the records. -/
def Contains (audit : List AuditRow) (records : List (AuditRecord F)) (sequence : ℕ) : Prop :=
  ∃ row ∈ audit, row.sequence = sequence ∧ ∃ record ∈ records, row.read = .ok record

theorem mem_pageAfter {checkpoint : AuditDeliveryCheckpoint} {limit : ℤ} {audit : List AuditRow}
    {row : AuditRow} (member : row ∈ pageAfter checkpoint limit audit) : row ∈ audit := by
  have sorted := List.mem_of_mem_take member
  rw [List.mem_insertionSort] at sorted
  exact List.mem_of_mem_filter sorted

/-- **A verified page** has every number from the expected one to its end. -/
theorem verifyPage_contains {previousHash : Text} {expected : ℕ} {records : List (AuditRecord F)}
    (verified : verifyPage hash previousHash expected records = true) {last : AuditRecord F}
    (ends : records.getLast? = some last) {sequence : ℕ} (from_ : expected ≤ sequence)
    (upto : sequence ≤ last.sequence) : ∃ record ∈ records, record.sequence = sequence := by
  induction records generalizing previousHash expected with
  | nil => cases ends
  | cons first rest ih =>
      unfold verifyPage at verified
      simp only [Bool.and_eq_true, decide_eq_true_eq] at verified
      obtain ⟨⟨⟨number, -⟩, -⟩, others⟩ := verified
      by_cases here : sequence = expected
      · exact ⟨first, List.mem_cons_self, number.trans here.symm⟩
      · cases rest with
        | nil =>
            obtain rfl := Option.some.inj ends
            exact absurd (le_antisymm (upto.trans number.le) from_) here
        | cons second rest =>
            rw [List.getLast?_cons_cons] at ends
            obtain ⟨record, member, same⟩ := ih others ends (by omega)
            exact ⟨record, List.mem_cons_of_mem _ member, same⟩

theorem mapM_read {rows : List AuditRow} {records : List (AuditRecord F)}
    (read : rows.mapM AuditRow.read = .ok records) {record : AuditRecord F}
    (member : record ∈ records) : ∃ row ∈ rows, row.read = .ok record := by
  induction rows generalizing records with
  | nil =>
      obtain rfl := (Except.ok.inj read).symm
      cases member
  | cons row rows ih =>
      rw [List.mapM_cons] at read
      cases first : AuditRow.read (F := F) row with
      | error error => rw [first] at read; cases read
      | ok own =>
          cases others : rows.mapM (AuditRow.read (F := F)) with
          | error error => rw [first, others] at read; cases read
          | ok rest =>
              rw [first, others] at read
              obtain rfl := (Except.ok.inj read).symm
              rcases List.mem_cons.mp member with rfl | later
              · exact ⟨row, List.mem_cons_self, first⟩
              · obtain ⟨source, listed, same⟩ := ih others later
                exact ⟨source, List.mem_cons_of_mem _ listed, same⟩

/-- **A batch** has every record behind its checkpoint up to its boundary. -/
theorem buildBatch_contains {checkpoint : AuditDeliveryCheckpoint} {head : ChainPoint Text}
    {limit : ℤ} {audit : List AuditRow} {batch : AuditDeliveryBatch F}
    (built : buildBatch hash checkpoint head (pageAfter checkpoint limit audit) = .ok batch) :
    batch.destinationId = checkpoint.destinationId ∧
      batch.afterSequence = checkpoint.lastSequence ∧
      ∀ sequence, batch.afterSequence < sequence → sequence ≤ batch.lastSequence →
        Contains audit batch.records sequence := by
  unfold buildBatch at built
  split at built
  · cases built
  next records read =>
    split_ifs at built with _ verified
    obtain rfl := Except.ok.inj built
    refine ⟨rfl, rfl, fun sequence behind upto => ?_⟩
    unfold AuditDeliveryBatch.lastSequence at upto
    split at upto
    next last ends =>
      obtain ⟨record, member, number⟩ := verifyPage_contains verified ends behind upto
      obtain ⟨row, listed, same⟩ := mapM_read read member
      obtain ⟨-, sequences, -⟩ := AuditRow.read_ok same
      exact ⟨row, mem_pageAfter listed, sequences ▸ number, record, member, same⟩
    · exact absurd upto (by simp only at behind ⊢; omega)

/-! ## What the world keeps -/

namespace DeliveryWorld

/-- The point of a checkpoint is the beginning of the chain or one of its records. -/
def OnChain (audit : List AuditRow) (checkpoint : AuditDeliveryCheckpoint) : Prop :=
  checkpoint.lastSequence = 0 ∧ checkpoint.lastEventHash = zeroAuditHash ∨
    ∃ row ∈ audit, row.sequence = checkpoint.lastSequence ∧
      row.eventHash = checkpoint.lastEventHash

/-- The record was in a batch whose exact boundary the sink has acknowledged. -/
def Acknowledged (w : DeliveryWorld F) (destination : Text) (sequence : ℕ) : Prop :=
  ∃ batch ack, (batch, .ack ack) ∈ w.delivered ∧ batch.destinationId = destination ∧
    ack.Matches batch ∧ Contains w.store.audit batch.records sequence

structure CheckpointSound (w : DeliveryWorld F) (destination : Text)
    (checkpoint : AuditDeliveryCheckpoint) : Prop where
  named : checkpoint.destinationId = destination
  onChain : OnChain w.store.audit checkpoint
  acknowledged : ∀ sequence, 1 ≤ sequence → sequence ≤ checkpoint.lastSequence →
    w.Acknowledged destination sequence

/-- The destination has come at least that far. -/
def Reached (w : DeliveryWorld F) (destination : Text) (sequence : ℕ) : Prop :=
  ∃ current, w.checkpoints destination = some current ∧ sequence ≤ current.lastSequence

structure BatchSound (w : DeliveryWorld F) (destination : Text) (batch : AuditDeliveryBatch F) :
    Prop where
  named : batch.destinationId = destination
  reached : w.Reached destination batch.afterSequence
  records : ∀ sequence, batch.afterSequence < sequence → sequence ≤ batch.lastSequence →
    Contains w.store.audit batch.records sequence

structure AckSound (w : DeliveryWorld F) (destination target : Text) (batch : AuditDeliveryBatch F)
    (ack : AuditDeliveryAck) : Prop where
  target : target = destination
  page : w.BatchSound destination batch
  matches_ : ack.Matches batch
  delivered : (batch, .ack ack) ∈ w.delivered

/-- The row lock of a checkpoint, which stands still. -/
structure HoldsCheckpoint (w : DeliveryWorld F) (id : ℕ) (destination : Text)
    (ack : AuditDeliveryAck) (current : ℕ) : Prop where
  locked : w.locks destination = some id
  still : ∃ checkpoint, w.checkpoints destination = some checkpoint ∧
    checkpoint.lastSequence = current
  ahead : (current : ℤ) < ack.lastSequence

/-- What a call knows before its next statement. -/
def StatementSound (w : DeliveryWorld F) (id : ℕ) (destination : Text) :
    DeliveryStatement F → Prop
  | .selectHead checkpoint =>
    checkpoint.destinationId = destination ∧ w.Reached destination checkpoint.lastSequence
  | .selectBoundary checkpoint _ =>
    checkpoint.destinationId = destination ∧ w.Reached destination checkpoint.lastSequence
  | .selectPage checkpoint _ =>
    checkpoint.destinationId = destination ∧ w.Reached destination checkpoint.lastSequence
  | .deliver batch => w.BatchSound destination batch
  | .lockCheckpoint target batch ack => w.AckSound destination target batch ack
  | .selectAcknowledged target batch ack current =>
    w.AckSound destination target batch ack ∧ w.HoldsCheckpoint id destination ack current
  | .updateCheckpoint target batch ack current =>
    w.AckSound destination target batch ack ∧ w.HoldsCheckpoint id destination ack current ∧
      ∃ row ∈ w.store.audit, (row.sequence : ℤ) = ack.lastSequence ∧
        row.eventHash = ack.lastEventHash
  | _ => True

structure DeliverySound (w : DeliveryWorld F) (id : ℕ) (delivery : Delivery F) : Prop where
  valid : validateDestinationId delivery.destinationId = some delivery.destinationId
  next : w.StatementSound id delivery.destinationId delivery.next

structure Sound (hash : List ℕ → Text) (w : DeliveryWorld F) : Prop where
  store : w.store.Sound hash
  numbered : Numbered w.store
  checkpoints : ∀ destination checkpoint, w.checkpoints destination = some checkpoint →
    w.CheckpointSound destination checkpoint
  deliveries : ∀ id delivery, w.deliveries id = some delivery → w.DeliverySound id delivery

/-! ## What a step leaves alone -/

/-- Records, answers and checkpoints only grow. -/
structure Grows (w after : DeliveryWorld F) : Prop where
  audit : ∀ row ∈ w.store.audit, row ∈ after.store.audit
  delivered : ∀ answer ∈ w.delivered, answer ∈ after.delivered
  checkpoints : ∀ destination checkpoint, w.checkpoints destination = some checkpoint →
    after.Reached destination checkpoint.lastSequence

/-- A call keeps the row that it has locked, and the row its place. -/
def Respects (w after : DeliveryWorld F) (id : ℕ) : Prop :=
  ∀ destination, w.locks destination = some id → after.locks destination = some id ∧
    ∀ checkpoint, w.checkpoints destination = some checkpoint →
      ∃ later, after.checkpoints destination = some later ∧
        later.lastSequence = checkpoint.lastSequence

variable {w after : DeliveryWorld F} {id : ℕ} {destination : Text}

omit [PyFloat F] in
theorem Reached.grows {sequence : ℕ} (reached : w.Reached destination sequence)
    (grows : w.Grows after) : after.Reached destination sequence := by
  obtain ⟨current, found, le⟩ := reached
  obtain ⟨later, there, further⟩ := grows.checkpoints destination current found
  exact ⟨later, there, le.trans further⟩

omit [PyFloat F] in
theorem Grows.refl : w.Grows w where
  audit _ member := member
  delivered _ member := member
  checkpoints _ checkpoint found := ⟨checkpoint, found, le_rfl⟩

omit [PyFloat F] in
theorem Grows.trans {last : DeliveryWorld F} (first : w.Grows after) (second : after.Grows last) :
    w.Grows last where
  audit row member := second.audit row (first.audit row member)
  delivered answer member := second.delivered answer (first.delivered answer member)
  checkpoints destination checkpoint found :=
    (first.checkpoints destination checkpoint found).grows second

end DeliveryWorld

theorem Contains.mono {audit later : List AuditRow} {records : List (AuditRecord F)} {sequence : ℕ}
    (contains : Contains audit records sequence) (kept : ∀ row ∈ audit, row ∈ later) :
    Contains later records sequence := by
  obtain ⟨row, stored, number, read⟩ := contains
  exact ⟨row, kept row stored, number, read⟩

namespace DeliveryWorld

variable {w after : DeliveryWorld F} {id : ℕ} {destination : Text}

theorem Acknowledged.grows {sequence : ℕ} (acknowledged : w.Acknowledged destination sequence)
    (grows : w.Grows after) : after.Acknowledged destination sequence := by
  obtain ⟨batch, ack, delivered, named, same, contains⟩ := acknowledged
  exact ⟨batch, ack, grows.delivered _ delivered, named, same, contains.mono grows.audit⟩

theorem CheckpointSound.grows {checkpoint : AuditDeliveryCheckpoint}
    (sound : w.CheckpointSound destination checkpoint) (grows : w.Grows after) :
    after.CheckpointSound destination checkpoint where
  named := sound.named
  onChain := sound.onChain.imp_right fun ⟨row, stored, same⟩ => ⟨row, grows.audit row stored, same⟩
  acknowledged sequence positive upto := (sound.acknowledged sequence positive upto).grows grows

theorem BatchSound.grows {batch : AuditDeliveryBatch F} (sound : w.BatchSound destination batch)
    (grows : w.Grows after) : after.BatchSound destination batch where
  named := sound.named
  reached := sound.reached.grows grows
  records sequence behind upto := (sound.records sequence behind upto).mono grows.audit

theorem AckSound.grows {target : Text} {batch : AuditDeliveryBatch F} {ack : AuditDeliveryAck}
    (sound : w.AckSound destination target batch ack) (grows : w.Grows after) :
    after.AckSound destination target batch ack where
  target := sound.target
  page := sound.page.grows grows
  matches_ := sound.matches_
  delivered := grows.delivered _ sound.delivered

omit [PyFloat F] in
theorem HoldsCheckpoint.respects {ack : AuditDeliveryAck} {current : ℕ}
    (holds : w.HoldsCheckpoint id destination ack current) (respects : w.Respects after id) :
    after.HoldsCheckpoint id destination ack current := by
  obtain ⟨locked, kept⟩ := respects destination holds.locked
  obtain ⟨checkpoint, found, same⟩ := holds.still
  obtain ⟨later, there, equal⟩ := kept checkpoint found
  exact ⟨locked, ⟨later, there, equal.trans same⟩, holds.ahead⟩

/-- **What a call knows** stays true while others make their steps. -/
theorem StatementSound.keep {statement : DeliveryStatement F}
    (sound : w.StatementSound id destination statement) (grows : w.Grows after)
    (respects : w.Respects after id) : after.StatementSound id destination statement := by
  cases statement with
  | selectHead checkpoint => exact ⟨sound.1, sound.2.grows grows⟩
  | selectBoundary checkpoint head => exact ⟨sound.1, sound.2.grows grows⟩
  | selectPage checkpoint head => exact ⟨sound.1, sound.2.grows grows⟩
  | deliver batch =>
      have page : w.BatchSound destination batch := sound
      exact page.grows grows
  | lockCheckpoint target batch ack =>
      have acknowledged : w.AckSound destination target batch ack := sound
      exact acknowledged.grows grows
  | selectAcknowledged target batch ack current =>
      exact ⟨sound.1.grows grows, sound.2.respects respects⟩
  | updateCheckpoint target batch ack current =>
      obtain ⟨acknowledged, holds, row, stored, same⟩ := sound
      exact ⟨acknowledged.grows grows, holds.respects respects, row, grows.audit row stored, same⟩
  | _ => trivial

/-! ## Steps of a call -/

/-- The step keeps what is known, and takes nothing back. -/
structure Keeps (hash : List ℕ → Text) (w after : DeliveryWorld F) : Prop where
  sound : after.Sound hash
  grows : w.Grows after

theorem Sound.wait (sound : w.Sound hash) : w.Keeps hash w := ⟨sound, .refl⟩

/-- A step of one call, which changes no checkpoint. -/
theorem Sound.quiet (id : ℕ) (sound : w.Sound hash) (store : after.store = w.store)
    (checkpoints : after.checkpoints = w.checkpoints)
    (delivered : ∀ answer ∈ w.delivered, answer ∈ after.delivered)
    (locks : ∀ destination other, other ≠ id → w.locks destination = some other →
      after.locks destination = some other)
    (others : ∀ other, other ≠ id → after.deliveries other = w.deliveries other)
    (own : ∀ delivery, after.deliveries id = some delivery → after.DeliverySound id delivery) :
    w.Keeps hash after := by
  have grows : w.Grows after :=
    ⟨fun row stored => store ▸ stored, delivered, fun destination checkpoint found =>
      ⟨checkpoint, checkpoints ▸ found, le_rfl⟩⟩
  refine ⟨?_, grows⟩
  constructor
  case store => exact store ▸ sound.store
  case numbered => exact store ▸ sound.numbered
  case checkpoints =>
    intro destination checkpoint found
    rw [checkpoints] at found
    exact (sound.checkpoints destination checkpoint found).grows grows
  case deliveries =>
    intro other delivery found
    by_cases same : other = id
    · subst same
      exact own delivery found
    · rw [others other same] at found
      have known := sound.deliveries other delivery found
      refine ⟨known.valid, known.next.keep grows fun destination held => ?_⟩
      exact ⟨locks destination other same held, fun checkpoint there =>
        ⟨checkpoint, checkpoints ▸ there, rfl⟩⟩

variable {delivery : Delivery F}

omit [PyFloat F] in
/-- A call that has ended is not there, and one that goes on goes on with the given statement. -/
theorem deliveries_goOn {next : DeliveryStatement F} {own : Delivery F}
    (found : (w.goOn id delivery next).deliveries id = some own) : own = { delivery with next } :=
  (Option.some.inj ((if_pos rfl).symm.trans found)).symm

theorem Sound.finish (sound : w.Sound hash)
    (outcome : Except DeliveryError AuditDeliveryCheckpoint) :
    w.Keeps hash (w.finish id delivery outcome) := by
  refine sound.quiet id rfl rfl (fun _ member => member) (fun _ _ _ held => held)
    (fun other differs => if_neg differs) fun own found => ?_
  have gone : (w.finish id delivery outcome).deliveries id = none := if_pos rfl
  rw [gone] at found
  cases found

/-- A step that changes at most the locks of the call, before it goes on. -/
theorem Sound.goOn (base : DeliveryWorld F) (next : DeliveryStatement F) (sound : w.Sound hash)
    (found : w.deliveries id = some delivery)
    (store : base.store = w.store) (checkpoints : base.checkpoints = w.checkpoints)
    (deliveries : base.deliveries = w.deliveries)
    (delivered : ∀ answer ∈ w.delivered, answer ∈ base.delivered)
    (locks : ∀ destination other, other ≠ id → w.locks destination = some other →
      base.locks destination = some other)
    (own : base.StatementSound id delivery.destinationId next) :
    w.Keeps hash (base.goOn id delivery next) := by
  refine sound.quiet id store checkpoints delivered locks (fun other differs => ?_) fun delivery' here => ?_
  · rw [← deliveries]
    exact if_neg differs
  · obtain rfl := deliveries_goOn here
    refine ⟨(sound.deliveries id delivery found).valid, own.keep ?_ ?_⟩
    · exact ⟨fun _ member => member, fun _ member => member,
        fun destination checkpoint found => ⟨checkpoint, found, le_rfl⟩⟩
    · exact fun destination held => ⟨held, fun checkpoint there => ⟨checkpoint, there, rfl⟩⟩

/-- The next statement of a step that changes nothing. -/
theorem Sound.onward (sound : w.Sound hash) (found : w.deliveries id = some delivery)
    {next : DeliveryStatement F} (own : w.StatementSound id delivery.destinationId next) :
    w.Keeps hash (w.goOn id delivery next) :=
  sound.goOn w next found rfl rfl rfl (fun _ member => member) (fun _ _ _ held => held) own

omit [PyFloat F] in
theorem unlock_locks {destination : Text} {other : ℕ} (differs : other ≠ id)
    (held : w.locks destination = some other) : (w.unlock id).locks destination = some other := by
  unfold unlock
  simp only
  rw [if_neg]
  · exact held
  · rw [held]
    exact fun same => differs (Option.some.inj same)

theorem Sound.failAdvance (sound : w.Sound hash) (found : w.deliveries id = some delivery) :
    w.Keeps hash (w.failAdvance id delivery) :=
  sound.goOn (w.unlock id) _ found rfl rfl rfl (fun _ member => member)
    (fun _ _ differs held => unlock_locks differs held) trivial

theorem Sound.getCheckpoint (sound : w.Sound hash)
    {behind : AuditDeliveryCheckpoint → DeliveryWorld F}
    (next : ∀ checkpoint, w.checkpoints delivery.destinationId = some checkpoint →
      w.Keeps hash (behind checkpoint)) : w.Keeps hash (w.getCheckpoint id delivery behind) := by
  unfold DeliveryWorld.getCheckpoint
  split
  · exact sound.finish _
  next checkpoint here => exact next checkpoint here

/-- A checkpoint is written: it may only move forward, and not under the lock of another. -/
theorem Sound.setCheckpoint (base : DeliveryWorld F) (destination : Text)
    (checkpoint : AuditDeliveryCheckpoint) (next : DeliveryStatement F) (sound : w.Sound hash)
    (found : w.deliveries id = some delivery)
    (store : base.store = w.store)
    (checkpoints : base.checkpoints = (w.setCheckpoint destination checkpoint).checkpoints)
    (deliveries : base.deliveries = w.deliveries) (delivered : base.delivered = w.delivered)
    (locks : ∀ destination other, other ≠ id → w.locks destination = some other →
      base.locks destination = some other)
    (forward : ∀ before, w.checkpoints destination = some before →
      before.lastSequence ≤ checkpoint.lastSequence)
    (alone : ∀ before, w.checkpoints destination = some before →
      before.lastSequence = checkpoint.lastSequence ∨ w.locks destination = some id)
    (own : w.CheckpointSound destination checkpoint)
    (trivial_ : ∀ w : DeliveryWorld F, w.StatementSound id delivery.destinationId next) :
    w.Keeps hash (base.goOn id delivery next) := by
  have written : ∀ other, (base.goOn id delivery next).checkpoints other =
      if other = destination then some checkpoint else w.checkpoints other :=
    fun other => congrFun checkpoints other
  have grows : w.Grows (base.goOn id delivery next) := by
    refine ⟨fun row stored => ?_, fun answer member => ?_, fun other before there => ?_⟩
    · exact (congrArg Database.audit store).symm ▸ stored
    · exact delivered.symm ▸ member
    · unfold Reached
      rw [written]
      split_ifs with same
      · subst same
        exact ⟨checkpoint, rfl, forward before there⟩
      · exact ⟨before, there, le_rfl⟩
  refine ⟨?_, grows⟩
  constructor
  case store => exact store.symm ▸ sound.store
  case numbered => exact store.symm ▸ sound.numbered
  case checkpoints =>
    intro other current there
    rw [written] at there
    split_ifs at there with same
    · subst same
      obtain rfl := Option.some.inj there
      exact own.grows grows
    · exact (sound.checkpoints other current there).grows grows
  case deliveries =>
    intro other delivery' here
    by_cases same : other = id
    · subst same
      obtain rfl := deliveries_goOn here
      exact ⟨(sound.deliveries other delivery found).valid, trivial_ _⟩
    · have kept : (base.goOn id delivery next).deliveries other = w.deliveries other :=
        (if_neg same).trans (congrFun deliveries other)
      rw [kept] at here
      have known := sound.deliveries other delivery' here
      refine ⟨known.valid, known.next.keep grows fun target held => ?_⟩
      refine ⟨locks target other same held, fun before there => ?_⟩
      rw [written]
      split_ifs with this
      · subst this
        refine ⟨checkpoint, rfl, ?_⟩
        rcases alone before there with equal | mine
        · exact equal.symm
        · exact absurd (Option.some.inj (held.symm.trans mine)) same
      · exact ⟨before, there, rfl⟩

/-! ## The statements -/

theorem Sound.ensureDestination (sound : w.Sound hash) (found : w.deliveries id = some delivery) :
    w.Keeps hash (w.ensureDestination id delivery) := by
  unfold DeliveryWorld.ensureDestination
  split
  · exact sound.onward found trivial
  next none =>
    refine sound.setCheckpoint (w.setCheckpoint _ _) _ _ _ found rfl rfl rfl rfl
      (fun _ _ _ held => held) ?_ ?_ ?_ fun _ => trivial
    · intro before there
      rw [none] at there
      cases there
    · intro before there
      rw [none] at there
      cases there
    · refine ⟨rfl, Or.inl ⟨rfl, rfl⟩, fun sequence positive upto => ?_⟩
      exact absurd (positive.trans upto) (Nat.not_succ_le_zero 0)

/-- What is known behind an answer. -/
theorem statementSound_afterAnswer {batch : AuditDeliveryBatch F} {answer : SinkAnswer}
    (page : w.BatchSound destination batch) (delivered : (batch, answer) ∈ w.delivered)
    (valid : validateDestinationId destination = some destination) :
    w.StatementSound id destination (afterAnswer batch answer) := by
  cases answer with
  | error code => trivial
  | unexpected => trivial
  | ack ack =>
      unfold afterAnswer
      simp only
      split
      · trivial
      next same =>
        split
        · trivial
        next target validated =>
          split
          · trivial
          · rw [(not_not.mp same).1, page.named, valid] at validated
            exact ⟨(Option.some.inj validated).symm, page, not_not.mp same, delivered⟩

theorem Sound.lockCheckpoint {target : Text} {batch : AuditDeliveryBatch F} {ack : AuditDeliveryAck}
    (sound : w.Sound hash) (found : w.deliveries id = some delivery)
    (knows : w.AckSound delivery.destinationId target batch ack) :
    w.Keeps hash (w.lockCheckpoint id delivery target batch ack) := by
  obtain rfl := knows.target
  unfold DeliveryWorld.lockCheckpoint
  split
  · exact sound.failAdvance found
  next checkpoint here =>
    split_ifs with locked behind
    · exact sound.wait
    · exact sound.onward found trivial
    · refine sound.goOn { w with locks := _ } _ found rfl rfl rfl (fun _ member => member) ?_
        ⟨knows.grows ⟨fun _ member => member, fun _ member => member, fun _ found there =>
          ⟨found, there, le_rfl⟩⟩, if_pos rfl, ⟨checkpoint, here, rfl⟩, by omega⟩
      intro row other differs held
      show (if row = delivery.destinationId then some id else w.locks row) = some other
      rw [if_neg]
      · exact held
      · rintro rfl
        exact locked ⟨by rw [held]; exact Option.some_ne_none _,
          fun mine => differs (Option.some.inj (held.symm.trans mine))⟩

theorem Sound.selectAcknowledged {target : Text} {batch : AuditDeliveryBatch F}
    {ack : AuditDeliveryAck} {current : ℕ} (sound : w.Sound hash)
    (found : w.deliveries id = some delivery)
    (knows : w.AckSound delivery.destinationId target batch ack)
    (holds : w.HoldsCheckpoint id delivery.destinationId ack current) :
    w.Keeps hash (w.selectAcknowledged id delivery target batch ack current) := by
  unfold DeliveryWorld.selectAcknowledged
  split
  · exact sound.failAdvance found
  next row here =>
    split_ifs with differs
    · exact sound.failAdvance found
    · refine sound.onward found ⟨knows, holds, row, List.mem_of_find?_eq_some here, ?_,
        not_not.mp differs⟩
      simpa using List.find?_some here

/-- **The checkpoint moves** to a boundary up to which every record was acknowledged. -/
theorem Sound.updateCheckpoint {target : Text} {batch : AuditDeliveryBatch F}
    {ack : AuditDeliveryAck} {current : ℕ} (sound : w.Sound hash)
    (found : w.deliveries id = some delivery)
    (knows : w.AckSound delivery.destinationId target batch ack)
    (holds : w.HoldsCheckpoint id delivery.destinationId ack current)
    (boundary : ∃ row ∈ w.store.audit, (row.sequence : ℤ) = ack.lastSequence ∧
      row.eventHash = ack.lastEventHash) :
    w.Keeps hash (w.updateCheckpoint id delivery target ack current) := by
  have released : w.Keeps hash ((w.unlock id).goOn id delivery .readResult) :=
    sound.goOn (w.unlock id) _ found rfl rfl rfl (fun _ member => member)
      (fun _ _ differs held => unlock_locks differs held) trivial
  obtain rfl := knows.target
  obtain ⟨still, here, at_⟩ := holds.still
  have ahead := holds.ahead
  have last := knows.matches_.2.1
  unfold DeliveryWorld.updateCheckpoint
  rw [here]
  simp only
  rw [if_neg (not_not.mpr at_)]
  refine sound.setCheckpoint ((w.setCheckpoint _ _).unlock id) _ _ _ found rfl rfl rfl rfl ?_ ?_ ?_ ?_
    fun _ => trivial
  · exact fun _ _ differs held => unlock_locks differs held
  · intro before there
    obtain rfl := Option.some.inj (here.symm.trans there)
    simp only
    omega
  · exact fun _ _ => Or.inr holds.locked
  · have before := sound.checkpoints _ still here
    refine ⟨before.named, Or.inr ?_, fun sequence positive upto => ?_⟩
    · obtain ⟨row, stored, number, event⟩ := boundary
      exact ⟨row, stored, by simp only; omega, event⟩
    · -- up to the old place it was acknowledged before, and the page reaches back to there
      by_cases old : sequence ≤ still.lastSequence
      · exact before.acknowledged sequence positive old
      · obtain ⟨reached, there, behind⟩ := knows.page.reached
        obtain rfl := Option.some.inj (here.symm.trans there)
        refine ⟨batch, ack, knows.delivered, knows.page.named, knows.matches_,
          knows.page.records sequence (by omega) ?_⟩
        simp only at upto
        omega

theorem Sound.recordFailure {code : Text} {retryAt : Instant} (sound : w.Sound hash)
    (found : w.deliveries id = some delivery) :
    w.Keeps hash (w.recordFailure id delivery code retryAt) := by
  unfold DeliveryWorld.recordFailure
  split
  · exact sound.finish _
  next checkpoint here =>
    split_ifs
    · exact sound.wait
    · exact sound.finish _
    · have before := sound.checkpoints _ checkpoint here
      refine sound.setCheckpoint (w.setCheckpoint _ _) _ _ _ found rfl rfl rfl rfl
        (fun _ _ _ held => held) ?_ ?_
        ⟨before.named, before.onChain, before.acknowledged⟩ fun _ => trivial
      · intro other there
        obtain rfl := Option.some.inj (here.symm.trans there)
        exact le_rfl
      · intro other there
        obtain rfl := Option.some.inj (here.symm.trans there)
        exact Or.inl rfl

/-- **Every statement** of a call keeps what the world knows. -/
theorem Sound.advanceDelivery (sound : w.Sound hash) (found : w.deliveries id = some delivery)
    (answer : SinkAnswer) : w.Keeps hash (w.advanceDelivery id delivery hash budget answer) := by
  obtain ⟨valid, knows⟩ := sound.deliveries id delivery found
  unfold DeliveryWorld.advanceDelivery
  cases next : delivery.next with
  | ensureDestination => exact sound.ensureDestination found
  | readRegistered => exact sound.getCheckpoint fun _ _ => sound.onward found trivial
  | readCheckpoint =>
      simp only
      split_ifs
      · exact sound.finish _
      · refine sound.getCheckpoint fun checkpoint here => sound.onward found ?_
        exact ⟨(sound.checkpoints _ checkpoint here).named, checkpoint, here, le_rfl⟩
  | selectHead checkpoint =>
      rw [next] at knows
      exact sound.onward found knows
  | selectBoundary checkpoint head =>
      rw [next] at knows
      simp only
      split_ifs
      · exact sound.onward found trivial
      · exact sound.onward found knows
      · exact sound.finish _
  | selectPage checkpoint head =>
      rw [next] at knows
      simp only
      split
      · exact sound.finish _
      next batch built =>
        obtain ⟨named, after, records⟩ := buildBatch_contains built
        refine sound.onward found ?_
        unfold afterBatch
        split_ifs
        · trivial
        · exact ⟨named.trans knows.1, after ▸ knows.2, records⟩
  | deliver batch =>
      rw [next] at knows
      have page : w.BatchSound delivery.destinationId batch := knows
      have grows : w.Grows { w with delivered := w.delivered ++ [(batch, answer)] } :=
        ⟨fun _ member => member, fun _ member => List.mem_append_left _ member,
          fun _ checkpoint there => ⟨checkpoint, there, le_rfl⟩⟩
      refine sound.goOn { w with delivered := _ } _ found rfl rfl rfl (fun _ member => List.mem_append_left _ member)
        (fun _ _ _ held => held) (statementSound_afterAnswer (page.grows grows) ?_ valid)
      exact List.mem_append_right _ (List.mem_singleton.mpr rfl)
  | lockCheckpoint target batch ack =>
      rw [next] at knows
      exact sound.lockCheckpoint found knows
  | selectAcknowledged target batch ack current =>
      rw [next] at knows
      exact sound.selectAcknowledged found knows.1 knows.2
  | updateCheckpoint target batch ack current =>
      rw [next] at knows
      exact sound.updateCheckpoint found knows.1 knows.2.1 knows.2.2
  | readAttempts code =>
      refine sound.getCheckpoint fun checkpoint here => ?_
      split
      · exact sound.finish _
      · split_ifs
        · exact sound.finish _
        · exact sound.onward found trivial
  | recordFailure code retryAt => exact sound.recordFailure found
  | readResult => exact sound.getCheckpoint fun checkpoint _ => sound.finish _

/-! ## Runs -/

theorem Sound.transact (sound : w.Sound hash) (action : StoreAction F) :
    w.Keeps hash { w with store := w.store.step hash action } := by
  have effect := effect_step sound.store action
  have grows : w.Grows { w with store := w.store.step hash action } :=
    ⟨fun _ stored => effect.audit_prefix.subset stored, fun _ member => member,
      fun _ checkpoint there => ⟨checkpoint, there, le_rfl⟩⟩
  refine ⟨?_, grows⟩
  exact ⟨sound.store.step action, sound.numbered.effect effect,
    fun destination checkpoint there => (sound.checkpoints destination checkpoint there).grows grows,
    fun id delivery here =>
      ⟨(sound.deliveries id delivery here).valid, (sound.deliveries id delivery here).next.keep grows
        fun _ held => ⟨held, fun checkpoint there => ⟨checkpoint, there, rfl⟩⟩⟩⟩

theorem Sound.deliverOnce (sound : w.Sound hash) (destinationId : Text) (limit : ℤ)
    (now : Instant) : w.Keeps hash (w.deliverOnce id destinationId limit now) := by
  unfold DeliveryWorld.deliverOnce
  split
  · exact sound.wait
  · split
    · refine sound.quiet id rfl rfl (fun _ member => member) (fun _ _ _ held => held)
        (fun _ _ => rfl) fun own here => ?_
      have known := sound.deliveries id own here
      exact ⟨known.valid, known.next.keep ⟨fun _ member => member, fun _ member => member,
        fun _ checkpoint there => ⟨checkpoint, there, le_rfl⟩⟩ fun _ held =>
          ⟨held, fun checkpoint there => ⟨checkpoint, there, rfl⟩⟩⟩
    next destination valid =>
      refine sound.quiet id rfl rfl (fun _ member => member) (fun _ _ _ held => held)
        (fun other differs => if_neg differs) fun own here => ?_
      obtain rfl := deliveries_goOn here
      exact ⟨validateDestinationId_idem valid, trivial⟩

theorem Sound.step (sound : w.Sound hash) (action : DeliveryAction F) :
    w.Keeps hash (w.step hash budget action) := by
  cases action with
  | transact action => exact sound.transact action
  | deliverOnce id destinationId limit now => exact sound.deliverOnce destinationId limit now
  | advance id answer =>
      unfold DeliveryWorld.step
      simp only
      split
      · exact sound.wait
      next delivery found => exact sound.advanceDelivery found answer
  | crash id =>
      refine sound.quiet id rfl rfl (fun _ member => member)
        (fun _ _ differs held => unlock_locks differs held) (fun other differs => if_neg differs) ?_
      intro own here
      have gone : (w.step hash budget (.crash id)).deliveries id = none := if_pos rfl
      exact absurd (gone.symm.trans here) (Option.some_ne_none own).symm

theorem sound_empty : (empty : DeliveryWorld F).Sound hash :=
  ⟨AuditStore.sound_empty, numbered_empty, fun _ _ there => (nomatch there),
    fun _ _ there => (nomatch there)⟩

theorem sound_run (hash : List ℕ → Text) (budget : RetryBudget)
    (actions : List (DeliveryAction F)) : (run (step hash budget) empty actions).Sound hash :=
  run_invariant_always (I := fun w : DeliveryWorld F => w.Sound hash)
    (fun _ action sound => (sound.step action).sound) sound_empty

/-- Nothing is taken back in a run. -/
theorem Sound.grows_run (sound : w.Sound hash) (actions : List (DeliveryAction F)) :
    w.Grows (run (DeliveryWorld.step hash budget) w actions) := by
  induction actions generalizing w with
  | nil => exact .refl
  | cons action actions ih =>
      have keeps : w.Keeps hash (w.step hash budget action) := sound.step action
      rw [run_cons]
      exact keeps.grows.trans (ih keeps.sound)

/-- **Delivery is contiguous.** However coordinators and sinks behave, the checkpoint of a
destination never goes back, it is always a point of the chain, and every record up to it
was in a batch whose exact boundary the sink has acknowledged. -/
theorem delivery_contiguous (hash : List ℕ → Text) (budget : RetryBudget)
    (actions : List (DeliveryAction F)) (destination : Text)
    (checkpoint : AuditDeliveryCheckpoint)
    (registered : (run (step hash budget) empty actions).checkpoints destination = some checkpoint) :
    let w := run (step hash budget) empty actions
    (∀ more, ∃ later, (run (step hash budget) w more).checkpoints destination = some later ∧
      checkpoint.lastSequence ≤ later.lastSequence) ∧
      OnChain w.store.audit checkpoint ∧
      ∀ sequence, 1 ≤ sequence → sequence ≤ checkpoint.lastSequence →
        ∃ row ∈ w.store.audit, row.sequence = sequence ∧
          (∀ other ∈ w.store.audit, other.sequence = sequence → other = row) ∧
          ∃ batch ack, (batch, .ack ack) ∈ w.delivered ∧ batch.destinationId = destination ∧
            ack.Matches batch ∧ ∃ record ∈ batch.records, row.read = .ok record := by
  intro w
  have sound : w.Sound hash := sound_run hash budget actions
  have known := sound.checkpoints destination checkpoint registered
  refine ⟨fun more => ?_, known.onChain, fun sequence positive upto => ?_⟩
  · exact (sound.grows_run more).checkpoints destination checkpoint registered
  · obtain ⟨batch, ack, delivered, named, same, row, stored, number, contained⟩ :=
      known.acknowledged sequence positive upto
    refine ⟨row, stored, number, fun other member equal => ?_, batch, ack, delivered, named, same,
      contained⟩
    exact sound.numbered.unique member stored (equal.trans number.symm)

/-- One record is appended, and delivered to a sink that acknowledges it. -/
def deliveredRun : List (DeliveryAction SampleFloat) :=
  let append : List (DeliveryAction SampleFloat) :=
    .transact (.start 0 (.appendAudit routingEvent none) firstMidnight) ::
      List.replicate 5 (.transact (.advance 0 firstId))
  append ++ .deliverOnce 1 (chars "siem") 500 0 ::
    List.replicate 10 (.advance 1 (.ack ⟨chars "siem", 1, List.replicate 64 97⟩))

theorem delivered_once : ∃ checkpoint,
    (run (step (fun _ => List.replicate 64 97) ⟨5, 300, by decide⟩) empty deliveredRun).checkpoints
      (chars "siem") = some checkpoint ∧ checkpoint.lastSequence = 1 ∧
    ∃ batch ack, (batch, .ack ack) ∈ (run (step (fun _ => List.replicate 64 97)
      ⟨5, 300, by decide⟩) empty deliveredRun).delivered ∧ ack.Matches batch := by
  have reached : ((run (step (fun _ => List.replicate 64 97) ⟨5, 300, by decide⟩) empty
      deliveredRun).checkpoints (chars "siem")).map AuditDeliveryCheckpoint.lastSequence =
        some 1 := by decide +kernel
  obtain ⟨checkpoint, registered, one⟩ := Option.map_eq_some_iff.mp reached
  obtain ⟨-, -, acknowledged⟩ := delivery_contiguous _ _ deliveredRun _ checkpoint registered
  obtain ⟨-, -, -, -, batch, ack, delivered, -, same, -⟩ := acknowledged 1 le_rfl one.ge
  exact ⟨checkpoint, registered, one, batch, ack, delivered, same⟩

end DeliveryWorld

end ImposbroSearch.ControlPlane.AuditDelivery
