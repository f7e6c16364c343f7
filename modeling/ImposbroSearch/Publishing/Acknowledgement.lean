import ImposbroSearch.Indexing.OffsetSafety
import ImposbroSearch.Publishing.Outbox

/-!
# Acknowledgement before every durable mark

Two components make a delivery durable: the Query API marks an outbox row
published, and the worker commits the offset of a quarantined record. Both do so
because `send(); flush()` returned, and neither looks at the future. The mark is
therefore justified exactly when the delivery behind it was not silently lost.
-/

namespace ImposbroSearch.Publishing

open ImposbroSearch.Foundation ImposbroSearch.Indexing

/-! ## The Query API -/

/-- No row was marked published before the broker had its envelope. -/
def MarksAcknowledged (state : PublisherState) : Prop :=
  ∀ mark ∈ state.marks, mark.acceptedThen = true

/-- A publication about to mark a row that is still pending was acknowledged, or
another publication of the same event was. -/
def CloseSound (state : PublisherState) : PublisherAction → Prop
  | .close ticket false =>
    ∀ publication, state.publications ticket = some publication →
      publication.phase = .returned →
      (∃ row, state.outbox publication.eventId = some row ∧ row.published = false) →
        publication.delivery.acknowledged = true ∨
          ∃ other found, other ≠ ticket ∧ state.publications other = some found ∧
            found.AcknowledgedFor publication.eventId
  | _ => True

variable {state : PublisherState}

variable (state) in
theorem marksAcknowledged_markPublished_iff (eventId : String) :
    MarksAcknowledged (state.markPublished eventId) ↔
      MarksAcknowledged state ∧
        ((∃ row, state.outbox eventId = some row ∧ row.published = false) →
          state.accepted eventId = true) := by
  by_cases pending : ∃ row, state.outbox eventId = some row ∧ row.published = false
  · obtain ⟨row, stored, unpublished⟩ := pending
    simp only [MarksAcknowledged, markPublished_pending stored unpublished, List.mem_append,
      List.mem_singleton]
    constructor
    · intro safe
      exact ⟨fun mark member => safe mark (Or.inl member), fun _ => safe _ (Or.inr rfl)⟩
    · rintro ⟨safe, here⟩ mark (member | rfl)
      · exact safe mark member
      · exact here ⟨row, stored, unpublished⟩
  · simp only [MarksAcknowledged, markPublished_settled pending, pending, false_imp_iff, and_true]

/-- A returned publication's envelope is at the broker exactly when it was
acknowledged itself or through another copy. -/
theorem accepted_of_returned_iff (inv : PublisherInv state) {ticket : ℕ}
    {publication : Publication} (stored : state.publications ticket = some publication)
    (returned : publication.phase = .returned) :
    state.accepted publication.eventId = true ↔
      publication.delivery.acknowledged = true ∨
        ∃ other found, other ≠ ticket ∧ state.publications other = some found ∧
          found.AcknowledgedFor publication.eventId := by
  have completed := inv.returned ticket publication stored returned
  rw [inv.accepted_iff]
  constructor
  · rintro ⟨other, found, kept, acknowledged⟩
    by_cases same : other = ticket
    · rw [same, stored] at kept
      cases kept
      exact Or.inl acknowledged.2.2
    · exact Or.inr ⟨other, found, same, kept, acknowledged⟩
  · rintro (own | ⟨other, found, -, kept, acknowledged⟩)
    · exact ⟨ticket, publication, stored, rfl, completed, own⟩
    · exact ⟨other, found, kept, acknowledged⟩

/-- **One publisher step** marks only acknowledged rows exactly when it is sound. -/
theorem publisherStep_marks_iff (inv : PublisherInv state) (action : PublisherAction) :
    MarksAcknowledged (publisherStep state action) ↔
      MarksAcknowledged state ∧ CloseSound state action := by
  cases action with
  | prepare eventId =>
      simp only [publisherStep, CloseSound, and_true]
      split
      · exact Iff.rfl
      · exact Iff.rfl
  | send ticket eventId delivery =>
      simp only [publisherStep, CloseSound, and_true]
      split
      · exact Iff.rfl
      · exact Iff.rfl
  | complete ticket =>
      simp only [publisherStep, CloseSound, and_true]
      split
      · split_ifs
        · exact Iff.rfl
        · exact Iff.rfl
      · exact Iff.rfl
  | flush ticket =>
      simp only [publisherStep, CloseSound, and_true]
      split
      · split_ifs
        · exact Iff.rfl
        · exact Iff.rfl
        · exact Iff.rfl
        · exact Iff.rfl
      · exact Iff.rfl
  | close ticket storeRaises =>
      cases stored : state.publications ticket with
      | none => cases storeRaises <;> simp [publisherStep, CloseSound, stored]
      | some publication =>
          cases phase : publication.phase with
          | returned =>
              cases storeRaises with
              | true => simp [publisherStep, CloseSound, MarksAcknowledged, stored, phase]
              | false =>
                  have sound : CloseSound state (.close ticket false) ↔
                      ((∃ row, state.outbox publication.eventId = some row ∧
                        row.published = false) → state.accepted publication.eventId = true) := by
                    simp only [CloseSound, stored, Option.some.injEq, forall_eq', phase,
                      true_imp_iff, accepted_of_returned_iff inv stored phase]
                  have marked := marksAcknowledged_markPublished_iff
                    (state.setPublication ticket { publication with phase := .closed })
                    publication.eventId
                  rw [sound]
                  simp only [publisherStep, stored, phase]
                  exact marked
          | raised =>
              have sound : CloseSound state (.close ticket storeRaises) := by
                cases storeRaises with
                | true => trivial
                | false => simp [CloseSound, stored, phase]
              simp only [publisherStep, stored, phase, sound, and_true, MarksAcknowledged]
              split_ifs
              · exact Iff.rfl
              · rw [(recordFailure_frame _).2.2]
                exact Iff.rfl
          | awaitingFlush => cases storeRaises <;> simp [publisherStep, CloseSound, stored, phase]
          | closed => cases storeRaises <;> simp [publisherStep, CloseSound, stored, phase]

/-- **The Query API over a run.** -/
theorem run_marksAcknowledged_iff (actions : List PublisherAction) :
    MarksAcknowledged (run publisherStep .initial actions) ↔
      Along publisherStep CloseSound .initial actions := by
  rw [run_iff_along_of_invariant (fun _ action inv => publisherStep_marks_iff inv action)
    (fun _ action inv => inv.step action) PublisherInv.initial]
  simp [MarksAcknowledged, PublisherState.initial]

/-! ## The worker -/

/-- No offset was committed on the strength of a dead-letter record that the
broker does not have. -/
def QuarantinesAcknowledged (state : ConsumerState) : Prop :=
  ∀ commit ∈ state.commits, ∀ delivery, commit.quarantine = some delivery →
    delivery.accepted = true

/-- No quarantined record that the poll carries to a commit is silently lost. -/
def QuarantineSound (config : ConsumerConfig) (logs : TopicPartition → PartitionLog)
    (state : ConsumerState) : ConsumerAction → Prop
  | .poll poll =>
    state.shutdownRequested = false →
      ∀ record ∈ carriedRecords config (polledBatches logs state.position poll),
        handleRecord config record.2.2 = .quarantined →
          record.2.2.deadLetter.silentlyLost = false
  | _ => True

variable {config : ConsumerConfig} {logs : TopicPartition → PartitionLog}

theorem publishToDlq_quarantined {fate : RecordFate}
    (quarantined : publishToDlq config fate = .quarantined) :
    fate.deadLetter.returns = true := by
  unfold publishToDlq at quarantined
  split_ifs at quarantined with sent
  exact sent.2

/-- A quarantined record is one whose `publish_to_dlq` returned. -/
theorem handleRecord_quarantined {fate : RecordFate}
    (quarantined : handleRecord config fate = .quarantined) :
    fate.deadLetter.returns = true := by
  unfold handleRecord at quarantined
  split at quarantined
  · cases quarantined
  · exact publishToDlq_quarantined quarantined
  · unfold processMessageWithRetries at quarantined
    split at quarantined
    · cases quarantined
    · cases quarantined
    · exact publishToDlq_quarantined quarantined

variable (config) in
/-- The inner loop commits its carried records, in order, each with its own
dead-letter delivery. -/
theorem handlePartition_quarantines (partition : TopicPartition) :
    ∀ (records : List (ℕ × RecordFate)) (state : ConsumerState),
      state.shutdownRequested = false →
      (handlePartition config partition state records).1.commits.map CommitEvent.quarantine =
        state.commits.map CommitEvent.quarantine ++
          (records.takeWhile fun record => commits config record.2).map
            fun record => quarantineOf config record.2 := by
  intro records
  induction records with
  | nil =>
      intro state _
      simp [handlePartition]
  | cons head records ih =>
      intro state running
      obtain ⟨offset, fate⟩ := head
      rcases handlePartition_cons config running partition offset fate records with
        ⟨committed, next⟩ | ⟨skipped, flow, reached, next, sameCommits, -, -, -⟩
      · obtain ⟨sameCommits, -, sameShutdown, -⟩ :=
          afterHandling_frame config state partition offset fate
        have tail := ih ((afterHandling config state partition offset fate).commit partition
          offset (quarantineOf config fate)) (sameShutdown.trans running)
        rw [next, tail, List.takeWhile_cons, if_pos committed]
        simp [ConsumerState.commit, sameCommits]
      · rw [next, List.takeWhile_cons, if_neg (by simp [skipped]), sameCommits]
        simp

variable (config) in
theorem handlePartitions_quarantines :
    ∀ (batches : List (TopicPartition × List (ℕ × RecordFate))) (state : ConsumerState),
      state.shutdownRequested = false →
      (handlePartitions config state batches).commits.map CommitEvent.quarantine =
        state.commits.map CommitEvent.quarantine ++
          (carriedRecords config batches).map fun record => quarantineOf config record.2.2 := by
  intro batches
  induction batches with
  | nil =>
      intro state _
      simp [handlePartitions, carriedRecords]
  | cons batch batches ih =>
      intro state running
      obtain ⟨partition, records⟩ := batch
      have inner := handlePartition_quarantines config partition records state running
      rcases handlePartitions_cons running partition records batches with
        ⟨halts, next⟩ | ⟨continues, stillRunning, next⟩
      · rw [next, inner, carriedRecords, if_pos halts]
        simp
      · rw [next, ih _ stillRunning, inner, carriedRecords, if_neg (by simp [continues])]
        simp

/-- **One turn of the worker loop.** -/
theorem consumerStep_quarantines_iff (state : ConsumerState) (action : ConsumerAction) :
    QuarantinesAcknowledged (consumerStep config logs state action) ↔
      QuarantinesAcknowledged state ∧ QuarantineSound config logs state action := by
  have overList : ∀ state : ConsumerState, QuarantinesAcknowledged state ↔
      ∀ quarantine ∈ state.commits.map CommitEvent.quarantine, ∀ delivery,
        quarantine = some delivery → delivery.accepted = true := by
    intro state
    rw [List.forall_mem_map]
    rfl
  cases action with
  | poll poll =>
      cases running : state.shutdownRequested with
      | true => simp [consumerStep, QuarantineSound, running]
      | false =>
          have loop := handlePartitions_quarantines config
            (polledBatches logs state.position poll)
            { state with
              position := advancePosition (polledBatches logs state.position poll)
                state.position } running
          rw [consumerStep, if_neg (by simp [running]), overList, loop, List.forall_mem_append,
            ← overList]
          refine and_congr Iff.rfl ?_
          simp only [QuarantineSound, running, true_imp_iff, List.forall_mem_map, quarantineOf]
          refine forall₂_congr fun record carried => ?_
          constructor
          · intro accepted quarantined
            exact (Delivery.accepted_iff_of_returns (handleRecord_quarantined quarantined)).mp
              (accepted _ (if_pos quarantined))
          · intro sound delivery named
            split_ifs at named with quarantined
            cases named
            exact (Delivery.accepted_iff_of_returns (handleRecord_quarantined quarantined)).mpr
              (sound quarantined)
  | pollRaises => simp [consumerStep, QuarantineSound]
  | rebalance partitions => simp [consumerStep, QuarantineSound, QuarantinesAcknowledged]
  | restart => simp [consumerStep, QuarantineSound, QuarantinesAcknowledged]

/-- **Acknowledgement precedes every durable mark, exactly when nothing is
silently lost.** Over every run of the publisher and every run of the worker: the
rows marked published and the quarantined offsets committed are all backed by an
acknowledgement exactly when every publication that marks a pending row, and
every quarantine that is committed, was acknowledged. -/
theorem acknowledged_before_done_iff (actions : List PublisherAction) (config : ConsumerConfig)
    (logs : TopicPartition → PartitionLog) (turns : List ConsumerAction) :
    (MarksAcknowledged (run publisherStep .initial actions) ∧
        QuarantinesAcknowledged (run (consumerStep config logs) .initial turns)) ↔
      (Along publisherStep CloseSound .initial actions ∧
        Along (consumerStep config logs) (QuarantineSound config logs) .initial turns) := by
  have worker : QuarantinesAcknowledged (run (consumerStep config logs) .initial turns) ↔
      Along (consumerStep config logs) (QuarantineSound config logs) .initial turns := by
    rw [run_iff_along consumerStep_quarantines_iff]
    simp [QuarantinesAcknowledged, ConsumerState.initial]
  rw [run_marksAcknowledged_iff, worker]

/-! ## One lost record on each side -/

section SilentLoss

private def lost : Delivery := { acknowledged := false }

private def inbound : TopicPartition := ⟨"documents_articles", 0⟩

private def lostToDlq : ConsumerAction :=
  .poll ⟨[(inbound, [{ attempts := fun _ => .rejected, deadLetter := lost }])], by simp⟩

/-- A future that completes with an error closes the outbox row, and commits the
offset of a quarantined record, all the same. -/
theorem lost_delivery_is_marked_done :
    ¬MarksAcknowledged (run publisherStep .initial
        [.prepare "event-0001", .send 0 "event-0001" lost, .complete 0, .flush 0,
          .close 0 false]) ∧
      ¬QuarantinesAcknowledged
        (run (consumerStep ⟨3, false, true⟩ fun _ => { offsets := [0] }) .initial [lostToDlq]) := by
  constructor
  · intro safe
    exact absurd (safe _ (List.mem_singleton.mpr rfl)) (by decide)
  · intro safe
    exact absurd (safe _ (List.mem_singleton.mpr rfl) lost rfl) (by decide)

end SilentLoss

end ImposbroSearch.Publishing
