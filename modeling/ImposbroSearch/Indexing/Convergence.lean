import ImposbroSearch.Foundation.VersionedCell
import ImposbroSearch.Indexing.Worker

/-!
# The worker converges on one identity

Fix the events of one document identity. They may be delivered in any order and
any number of times, and an attempt may end after any prefix of its side effects
with or without its checkpoints. One target's document and checkpoint then form a
versioned cell: the document is ahead of the checkpoint by orphaned side effects
and never behind it. When the newest event has completed once, its checkpoint is
on every target, and there is nothing left to be ahead by.
-/

namespace ImposbroSearch.Indexing

open ImposbroSearch.Foundation

variable {Doc : Type}

/-- The events of one identity: pairwise distinct sequences and event ids, the
document version equal to the sequence, and one common target set. -/
structure EventFamily (events : Set (IndexingEventV2 Doc)) (identity : EventIdentity)
    (targets : List ClusterName) : Prop where
  identity_eq : ∀ event ∈ events, event.identity = identity
  targets_iff : ∀ event ∈ events, ∀ target, target ∈ event.targetClusters ↔ target ∈ targets
  version_eq : ∀ event ∈ events, event.documentVersion = event.sequence
  sequence_inj : ∀ event ∈ events, ∀ other ∈ events,
    event.sequence = other.sequence → event = other
  eventId_inj : ∀ event ∈ events, ∀ other ∈ events, event.eventId = other.eventId → event = other

/-- The document of the identity is only ever an initial one or one of the
family's upserts. -/
def KnownDocument (events : Set (IndexingEventV2 Doc)) (initial : Storage Doc)
    (identity : EventIdentity) (target : ClusterName) (document : Doc) : Prop :=
  initial.documents target identity.address = some document ∨
    ∃ event ∈ events, event.mutation = .upsert document

/-- The step of the worker: one attempt, its outcome forgotten. -/
def workerStep (satisfies : String → Doc → Bool) (digest : Digest Doc) (storage : Storage Doc)
    (attempt : Attempt Doc) : Storage Doc :=
  (eventScope satisfies digest storage attempt).1

/-- The sequence a checkpoint records, `⊥` when there is none. -/
def recordedSequence : Option TargetCheckpoint → WithBot ℕ
  | none => ⊥
  | some row => WithBot.some row.sequence

def checkpointSequence (storage : Storage Doc) (identity : EventIdentity) (target : ClusterName) :
    WithBot ℕ :=
  recordedSequence (storage.checkpoints identity.logicalKey target)

/-- One target seen as a versioned cell. -/
def targetCell (storage : Storage Doc) (identity : EventIdentity) (target : ClusterName) :
    Cell ℕ (Option Doc) :=
  ⟨storage.documents target identity.address, checkpointSequence storage identity target⟩

/-- The writes of a family: each event leaves its outcome at its sequence. -/
def FamilyWrites (events : Set (IndexingEventV2 Doc)) (sequence : ℕ) (value : Option Doc) : Prop :=
  ∃ event ∈ events, event.sequence = sequence ∧ event.mutation.outcome = value

/-- Each target's checkpoint names an event of the family, its document is known,
and its cell is never behind. -/
structure Converging (events : Set (IndexingEventV2 Doc)) (digest : Digest Doc)
    (identity : EventIdentity) (targets : List ClusterName) (initial storage : Storage Doc) :
    Prop where
  named : ∀ target ∈ targets, ∀ row, storage.checkpoints identity.logicalKey target = some row →
    ∃ event ∈ events, checkpointFromEvent digest event target = some row
  known : ∀ target ∈ targets, ∀ document,
    storage.documents target identity.address = some document →
      KnownDocument events initial identity target document
  ahead : ∀ target ∈ targets,
    (targetCell storage identity target).Ahead (FamilyWrites events)

section Family

variable {events : Set (IndexingEventV2 Doc)} {identity : EventIdentity}
  {targets : List ClusterName} {satisfies : String → Doc → Bool} {digest : Digest Doc}
  {initial storage : Storage Doc} {attempt : Attempt Doc}

/-- Against a checkpoint of its own family, an event never conflicts: it is
either the checkpoint's event, or strictly older, or strictly newer. -/
theorem EventFamily.classify_not_ordering (family : EventFamily events identity targets)
    {event : IndexingEventV2 Doc} (member : event ∈ events) (target : ClusterName)
    {checkpoint : Option TargetCheckpoint}
    (named : ∀ row, checkpoint = some row →
      ∃ writer ∈ events, checkpointFromEvent digest writer target = some row)
    {error : WorkerError} (raised : classifyEvent digest event checkpoint = .error error) :
    ¬error.IsOrdering := by
  cases checkpoint with
  | none => cases raised
  | some row =>
      obtain ⟨writer, writerMember, written⟩ := named row rfl
      obtain ⟨-, -, sequence, version, operation, eventId, eventDigest⟩ :=
        checkpointFromEvent_some written
      by_cases same : event.eventId = row.eventId
      · obtain rfl : event = writer :=
          family.eventId_inj event member writer writerMember (same.trans eventId)
        rw [classifyEvent_same same, if_pos ⟨⟨sequence.symm, version.symm⟩, operation.symm⟩,
          eventDigest] at raised
        simp at raised
      · have distinct : event.sequence ≠ writer.sequence := by
          intro equal
          obtain rfl := family.sequence_inj event member writer writerMember equal
          exact same eventId.symm
        have eventVersion := family.version_eq event member
        have writerVersion := family.version_eq writer writerMember
        rw [classifyEvent_other same, if_neg (by omega)] at raised
        by_cases older : event.sequence < row.sequence
        · rw [if_pos (by omega)] at raised
          cases raised
        · rw [if_neg (by omega), if_neg (by omega)] at raised
          cases raised

/-- **One attempt moves the versioned cell of every target.** -/
theorem Converging.cell_move (family : EventFamily events identity targets)
    (removes : ∀ event ∈ events, ∀ target ∈ targets, ∀ document,
      KnownDocument events initial identity target document →
        event.mutation.Removes satisfies document)
    (inv : Converging events digest identity targets initial storage)
    (member : attempt.event ∈ events) {target : ClusterName} (targeted : target ∈ targets) :
    (targetCell storage identity target).Move (FamilyWrites events)
        (targetCell (workerStep satisfies digest storage attempt) identity target) ∧
      (∀ row, (workerStep satisfies digest storage attempt).checkpoints identity.logicalKey
          target = some row →
        ∃ event ∈ events, checkpointFromEvent digest event target = some row) ∧
      ∀ document, (workerStep satisfies digest storage attempt).documents target
          identity.address = some document →
        KnownDocument events initial identity target document := by
  obtain rfl := family.identity_eq attempt.event member
  have move : TargetMove satisfies digest attempt.event target
      (storage.cell attempt.event target)
      ((workerStep satisfies digest storage attempt).cell attempt.event target) :=
    eventScope_move ((family.targets_iff _ member target).mpr targeted)
  have settles : attempt.event.mutation.effect satisfies
      (storage.cell attempt.event target).1 = attempt.event.mutation.outcome :=
    Mutation.effect_eq_outcome fun document stored =>
      removes _ member target targeted document (inv.known target targeted document stored)
  have written : FamilyWrites events attempt.event.sequence attempt.event.mutation.outcome :=
    ⟨attempt.event, member, rfl, rfl⟩
  have known : ∀ document, attempt.event.mutation.outcome = some document →
      KnownDocument events initial attempt.event.identity target document := by
    intro document outcome
    refine Or.inr ⟨attempt.event, member, ?_⟩
    cases mutation : attempt.event.mutation with
    | upsert stored =>
        rw [mutation] at outcome
        rw [show stored = document from Option.some.inj outcome]
    | delete filterBy => simp [mutation, Mutation.outcome, Mutation.document] at outcome
    | tombstone filterBy => simp [mutation, Mutation.outcome, Mutation.document] at outcome
  have newer : classifyEvent digest attempt.event (storage.cell attempt.event target).2 =
      .ok .apply →
        (targetCell storage attempt.event.identity target).version < attempt.event.sequence := by
    intro applies
    show recordedSequence (storage.checkpoints _ target) < _
    cases found : storage.checkpoints attempt.event.identity.logicalKey target with
    | none => exact WithBot.bot_lt_coe _
    | some row =>
        exact WithBot.coe_lt_coe.mpr (classifyEvent_apply_iff.mp applies row found).2.1
  have after : targetCell (workerStep satisfies digest storage attempt)
      attempt.event.identity target =
      ⟨((workerStep satisfies digest storage attempt).cell attempt.event target).1,
        recordedSequence
          ((workerStep satisfies digest storage attempt).cell attempt.event target).2⟩ := rfl
  show Cell.Move _ _ _ ∧
    (∀ row, ((workerStep satisfies digest storage attempt).cell attempt.event target).2 = some row →
      _) ∧
    ∀ document, ((workerStep satisfies digest storage attempt).cell attempt.event target).1 =
      some document → _
  rw [after]
  generalize (workerStep satisfies digest storage attempt).cell attempt.event target =
    reached at move ⊢
  cases move with
  | keep => exact ⟨.keep, inv.named target targeted, inv.known target targeted⟩
  | orphan applies =>
      rw [settles]
      exact ⟨.orphan _ _ written (newer applies), inv.named target targeted, known⟩
  | record applies row named =>
      obtain ⟨-, -, sequence, -⟩ := checkpointFromEvent_some named
      rw [settles]
      refine ⟨?_, ?_, known⟩
      · show Cell.Move _ _ ⟨_, WithBot.some row.sequence⟩
        rw [sequence]
        exact .record _ _ written (newer applies)
      · intro other same
        obtain rfl : row = other := Option.some.inj same
        exact ⟨attempt.event, member, named⟩

/-- The invariant survives every attempt on an event of the family. -/
theorem Converging.step (family : EventFamily events identity targets)
    (removes : ∀ event ∈ events, ∀ target ∈ targets, ∀ document,
      KnownDocument events initial identity target document →
        event.mutation.Removes satisfies document)
    (inv : Converging events digest identity targets initial storage)
    (member : attempt.event ∈ events) :
    Converging events digest identity targets initial
      (workerStep satisfies digest storage attempt) where
  named _ targeted := (inv.cell_move family removes member targeted).2.1
  known _ targeted := (inv.cell_move family removes member targeted).2.2
  ahead target targeted :=
    (inv.ahead target targeted).move (inv.cell_move family removes member targeted).1

theorem converging_fresh
    (fresh : ∀ target ∈ targets, initial.checkpoints identity.logicalKey target = none) :
    Converging events digest identity targets initial initial where
  named target targeted row found := by
    rw [fresh target targeted] at found
    cases found
  known _ _ _ stored := Or.inl stored
  ahead target targeted := Cell.ahead_of_unversioned (by
    show recordedSequence (initial.checkpoints _ target) = ⊥
    rw [fresh target targeted]
    rfl)

/-- The invariant holds after every delivery of events of the family. -/
theorem Converging.after_run (family : EventFamily events identity targets)
    (removes : ∀ event ∈ events, ∀ target ∈ targets, ∀ document,
      KnownDocument events initial identity target document →
        event.mutation.Removes satisfies document)
    {attempts : List (Attempt Doc)} (delivered : ∀ attempt ∈ attempts, attempt.event ∈ events)
    (inv : Converging events digest identity targets initial storage) :
    Converging events digest identity targets initial
      (run (workerStep satisfies digest) storage attempts) := by
  induction attempts generalizing storage with
  | nil => exact inv
  | cons attempt attempts ih =>
      rw [run_cons]
      apply ih (fun other member => delivered other (List.mem_cons_of_mem _ member))
      exact inv.step family removes (delivered attempt List.mem_cons_self)

theorem Converging.sequence_le (family : EventFamily events identity targets)
    (removes : ∀ event ∈ events, ∀ target ∈ targets, ∀ document,
      KnownDocument events initial identity target document →
        event.mutation.Removes satisfies document)
    {attempts : List (Attempt Doc)} (delivered : ∀ attempt ∈ attempts, attempt.event ∈ events)
    (inv : Converging events digest identity targets initial storage)
    {target : ClusterName} (targeted : target ∈ targets) :
    checkpointSequence storage identity target ≤
      checkpointSequence (run (workerStep satisfies digest) storage attempts)
        identity target := by
  induction attempts generalizing storage with
  | nil => exact le_refl _
  | cons attempt attempts ih =>
      have here := delivered attempt List.mem_cons_self
      have rest : ∀ other ∈ attempts, other.event ∈ events :=
        fun other member => delivered other (List.mem_cons_of_mem _ member)
      exact le_trans (inv.cell_move family removes here targeted).1.version_le
        (ih rest (inv.step family removes here))

/-- When the newest event of the family completes, its checkpoint is in place on
every target. -/
theorem Converging.newest_recorded (family : EventFamily events identity targets)
    (inv : Converging events digest identity targets initial storage)
    (member : attempt.event ∈ events)
    (newest : ∀ event ∈ events, event.sequence ≤ attempt.event.sequence)
    {result : ProcessingResult}
    (completed : (eventScope satisfies digest storage attempt).2 = .ok result)
    {target : ClusterName} (targeted : target ∈ targets) :
    checkpointSequence (workerStep satisfies digest storage attempt) identity target =
      WithBot.some attempt.event.sequence := by
  obtain rfl := family.identity_eq attempt.event member
  have eventTarget : ∀ {other}, other ∈ targets ↔ other ∈ attempt.event.targetClusters :=
    fun {other} => (family.targets_iff _ member other).symm
  rcases eventScope_completed completed with ⟨⟨other, planned, stale⟩, -⟩ | settled
  · -- no target can have advanced past the newest event
    cases found : (storage.cell attempt.event other).2 with
    | none =>
        rw [found] at stale
        cases stale
    | some row =>
        rw [found] at stale
        obtain ⟨writer, writerMember, written⟩ :=
          inv.named other (eventTarget.mpr planned) row found
        have sequence := (checkpointFromEvent_some written).2.2.1
        have older := (classifyEvent_stale stale).1
        have bound := newest writer writerMember
        omega
  · rcases settled target (eventTarget.mp targeted) with
      ⟨duplicate, kept⟩ | ⟨-, row, named, recorded⟩
    · cases found : (storage.cell attempt.event target).2 with
      | none =>
          rw [found] at duplicate
          cases duplicate
      | some row =>
          rw [found] at duplicate
          have same := (classifyEvent_duplicate duplicate).2.1.1
          have cell := congrArg Prod.snd kept
          rw [found] at cell
          show recordedSequence ((eventScope satisfies digest storage attempt).1.cell
            attempt.event target).2 = _
          rw [cell, same]
          rfl
    · have sequence := (checkpointFromEvent_some named).2.2.1
      show recordedSequence ((eventScope satisfies digest storage attempt).1.cell
        attempt.event target).2 = _
      rw [recorded, ← sequence]
      rfl

/-- A cell that records the newest event holds exactly its effect. -/
theorem Converging.newest_settled (family : EventFamily events identity targets)
    (inv : Converging events digest identity targets initial storage)
    {newest : IndexingEventV2 Doc} (member : newest ∈ events)
    (greatest : ∀ event ∈ events, event.sequence ≤ newest.sequence)
    {target : ClusterName} (targeted : target ∈ targets)
    (recorded : checkpointSequence storage identity target = WithBot.some newest.sequence) :
    storage.documents target identity.address = newest.mutation.outcome ∧
      ∃ row, checkpointFromEvent digest newest target = some row ∧
        storage.checkpoints identity.logicalKey target = some row := by
  constructor
  · obtain ⟨event, eventMember, sequence, outcome⟩ :=
      (inv.ahead target targeted).settled recorded (by
        rintro m v ⟨event, eventMember, rfl, -⟩
        exact greatest event eventMember)
    obtain rfl := family.sequence_inj event eventMember newest member sequence
    exact outcome.symm
  · unfold checkpointSequence at recorded
    cases found : storage.checkpoints identity.logicalKey target with
    | none =>
        rw [found] at recorded
        exact absurd recorded.symm WithBot.coe_ne_bot
    | some row =>
        rw [found] at recorded
        obtain ⟨writer, writerMember, written⟩ := inv.named target targeted row found
        have sequence : row.sequence = newest.sequence := WithBot.coe_inj.mp recorded
        rw [(checkpointFromEvent_some written).2.2.1] at sequence
        obtain rfl := family.sequence_inj writer writerMember newest member sequence
        exact ⟨row, written, rfl⟩

end Family

/-- Some attempt of the run processed `event` to completion. -/
def Completed (satisfies : String → Doc → Bool) (digest : Digest Doc) (initial : Storage Doc)
    (attempts : List (Attempt Doc)) (event : IndexingEventV2 Doc) : Prop :=
  ∃ pre attempt post, attempts = pre ++ attempt :: post ∧ attempt.event = event ∧
    ∃ result, (eventScope satisfies digest (run (workerStep satisfies digest) initial pre)
      attempt).2 = .ok result

/-- **Worker convergence.** For the events of one identity, under every delivery
order with duplicates, every per-target failure, and every scope that fails to
commit after its side effects: no target's checkpoint sequence ever decreases, no
attempt raises an ordering error, and once every event has completed at least
once each target holds exactly the effect of the newest event, with the newest
event's checkpoint. -/
theorem worker_convergence (satisfies : String → Doc → Bool) (digest : Digest Doc)
    (events : Set (IndexingEventV2 Doc)) (identity : EventIdentity) (targets : List ClusterName)
    (family : EventFamily events identity targets) (initial : Storage Doc)
    (fresh : ∀ target ∈ targets, initial.checkpoints identity.logicalKey target = none)
    (removes : ∀ event ∈ events, ∀ target ∈ targets, ∀ document,
      KnownDocument events initial identity target document →
        event.mutation.Removes satisfies document)
    (attempts : List (Attempt Doc)) (delivered : ∀ attempt ∈ attempts, attempt.event ∈ events) :
    (∀ pre post, attempts = pre ++ post → ∀ target ∈ targets,
      checkpointSequence (run (workerStep satisfies digest) initial pre) identity target ≤
        checkpointSequence (run (workerStep satisfies digest) initial attempts)
          identity target) ∧
    (∀ pre attempt post, attempts = pre ++ attempt :: post → ∀ error,
      (eventScope satisfies digest (run (workerStep satisfies digest) initial pre) attempt).2 =
        .error error → ¬error.IsOrdering) ∧
    ((∀ event ∈ events, Completed satisfies digest initial attempts event) →
      ∀ newest ∈ events, (∀ event ∈ events, event.sequence ≤ newest.sequence) →
        ∀ target ∈ targets,
          (run (workerStep satisfies digest) initial attempts).documents target
              identity.address = newest.mutation.outcome ∧
            ∃ row, checkpointFromEvent digest newest target = some row ∧
              (run (workerStep satisfies digest) initial attempts).checkpoints
                identity.logicalKey target = some row) := by
  have start : Converging events digest identity targets initial initial :=
    converging_fresh fresh
  have reached : ∀ pre post, attempts = pre ++ post →
      Converging events digest identity targets initial
        (run (workerStep satisfies digest) initial pre) := by
    rintro pre post rfl
    exact start.after_run family removes fun attempt member =>
      delivered attempt (List.mem_append_left _ member)
  refine ⟨?_, ?_, ?_⟩
  · rintro pre post rfl target targeted
    rw [run_append]
    exact (reached pre post rfl).sequence_le family removes
      (fun attempt member => delivered attempt (List.mem_append_right _ member)) targeted
  · rintro pre attempt post rfl error raised ordering
    have member : attempt.event ∈ events := delivered attempt (by simp)
    obtain ⟨target, planned, conflict⟩ := eventScope_ordering raised ordering
    refine family.classify_not_ordering member target (fun row found => ?_) conflict ordering
    refine (reached pre _ rfl).named target ((family.targets_iff _ member target).mp planned)
      row ?_
    rw [← family.identity_eq _ member]
    exact found
  · intro completed newest member greatest target targeted
    obtain ⟨pre, attempt, post, rfl, rfl, result, done⟩ := completed newest member
    have before := reached pre _ rfl
    have after : Converging events digest identity targets initial
        (workerStep satisfies digest (run (workerStep satisfies digest) initial pre) attempt) :=
      before.step family removes member
    have recorded := before.newest_recorded family member greatest done targeted
    have final : Converging events digest identity targets initial
        (run (workerStep satisfies digest) initial (pre ++ attempt :: post)) :=
      start.after_run family removes delivered
    refine final.newest_settled family member greatest targeted (le_antisymm ?_ ?_)
    · -- every recorded sequence is that of some event of the family
      unfold checkpointSequence
      cases found : (run (workerStep satisfies digest) initial
          (pre ++ attempt :: post)).checkpoints identity.logicalKey target with
      | none => exact bot_le
      | some row =>
          obtain ⟨writer, writerMember, written⟩ := final.named target targeted row found
          refine WithBot.coe_le_coe.mpr ?_
          rw [(checkpointFromEvent_some written).2.2.1]
          exact greatest writer writerMember
    · rw [← recorded, run_append, run_cons]
      exact after.sequence_le family removes
        (fun other otherMember => delivered other (by simp [otherMember])) targeted

/-! ## A crash, a duplicate, and a late redelivery -/

section Redelivery

private def article : EventIdentity := ⟨"acme", "articles", "a1"⟩

private def created : IndexingEventV2 ℕ where
  eventId := "event-0001"
  identity := article
  documentVersion := 1
  sequence := 1
  mutation := .upsert 7
  routingRevision := 1
  rolloutId := none
  targetClusters := ["blue", "green"]

private def removed : IndexingEventV2 ℕ where
  eventId := "event-0002"
  identity := article
  documentVersion := 2
  sequence := 2
  mutation := .delete none
  routingRevision := 1
  rolloutId := none
  targetClusters := ["blue", "green"]

private def emptyStorage : Storage ℕ := ⟨fun _ _ => none, fun _ _ => none⟩

private def noFilter : String → ℕ → Bool := fun _ _ => false

private def eventIdDigest : Digest ℕ := fun event => some event.eventId

/-- The upsert crashes after reaching `blue`, the delete completes, and only then
is the upsert redelivered, twice. -/
private def redelivery : List (Attempt ℕ) :=
  [{ event := created,
     faults := fun target => if target = "blue" then { sideEffect := .failsAfter } else {},
     commits := false },
   { event := removed }, { event := created }, { event := created }]

private theorem article_family :
    EventFamily {event | event ∈ [created, removed]} article ["blue", "green"] where
  identity_eq := by simp [created, removed]
  targets_iff := by simp [created, removed]
  version_eq := by simp [created, removed]
  sequence_inj := by simp [created, removed]
  eventId_inj := by simp [created, removed]

theorem worker_convergence_redelivery :
    (run (workerStep noFilter eventIdDigest) emptyStorage redelivery).documents "blue"
        article.address = none ∧
      ∃ row, checkpointFromEvent eventIdDigest removed "blue" = some row ∧
        (run (workerStep noFilter eventIdDigest) emptyStorage redelivery).checkpoints
          article.logicalKey "blue" = some row := by
  refine (worker_convergence noFilter eventIdDigest {event | event ∈ [created, removed]} article
    ["blue", "green"] article_family emptyStorage (fun _ _ => rfl) ?_ redelivery ?_).2.2 ?_
    removed (by simp) (by simp [created, removed]) "blue" (by simp)
  · simp [created, removed, Mutation.Removes, Mutation.deleteDocument]
  · simp [redelivery]
  · intro event member
    have member : event ∈ [created, removed] := member
    simp only [List.mem_cons, List.not_mem_nil, or_false] at member
    rcases member with rfl | rfl
    · exact ⟨redelivery.take 2, _, _, rfl, rfl, .stale, rfl⟩
    · exact ⟨redelivery.take 1, _, _, rfl, rfl, .applied, rfl⟩

end Redelivery

end ImposbroSearch.Indexing
