import ImposbroSearch.Indexing.Consumer

/-!
# When the worker's commits skip a record

A commit is safe when every record below the committed offset is settled: fully
processed, or accepted by the dead-letter topic. The loop decides to commit from
the handling of one record alone, so two things can go wrong.

* A record returned by an earlier poll was left unsettled. The position has moved
  past it, and the next record of that partition to be handled is committed above
  it. Such a record is *stranded*.
* The record itself was quarantined by a `send(); flush()` that returned, while
  the broker did not accept it.

`PollSound` excludes exactly these two, in terms of the fates of the polled
records and the state before the poll, and `no_record_skipped_iff` shows that a
run of any length is safe exactly when all its polls are sound.
-/

namespace ImposbroSearch.Indexing

open ImposbroSearch.Foundation

variable (config : ConsumerConfig) (logs : TopicPartition → PartitionLog)

/-- No record below the committed offset was unsettled at the commit. -/
def CommitSafe (commit : CommitEvent) : Prop :=
  ∀ record ∈ (logs commit.partition).offsets,
    record < commit.offset → commit.settledThen commit.partition record = true

def NoRecordSkipped (state : ConsumerState) : Prop :=
  ∀ commit ∈ state.commits, CommitSafe logs commit

/-- Every record of the partition below `bound` is settled. -/
def SettledBelow (state : ConsumerState) (partition : TopicPartition) (bound : ℕ) : Prop :=
  ∀ record ∈ (logs partition).offsets, record < bound → state.settled partition record = true

/-- A record the client will not return again, yet never settled. -/
def Stranded (state : ConsumerState) (partition : TopicPartition) : Prop :=
  ∃ record ∈ (logs partition).offsets,
    record < state.position partition ∧ state.settled partition record = false

/-- The record is handled and its commit succeeds. -/
def commits (fate : RecordFate) : Bool :=
  !fate.shutdownRequested && fate.commitSucceeds &&
    (handleRecord config fate = .fullyProcessed ∨ handleRecord config fate = .quarantined)

/-- The first record that is not committed ends the whole poll, not only its
partition. -/
def haltsPoll (records : List (ℕ × RecordFate)) : Bool :=
  match (records.dropWhile fun record => commits config record.2).head? with
  | some (_, fate) => fate.shutdownRequested || handleRecord config fate = .escaped
  | none => false

/-- The records of a poll that are carried to a commit, read off their fates. -/
def carriedRecords :
    List (TopicPartition × List (ℕ × RecordFate)) → List (TopicPartition × ℕ × RecordFate)
  | [] => []
  | (partition, records) :: batches =>
    (records.takeWhile fun record => commits config record.2).map (partition, ·) ++
      if haltsPoll config records then [] else carriedRecords batches

/-- Every record carried to a commit is settled, by this handling or an earlier
one, and nothing is stranded below it. -/
def PollSound (state : ConsumerState) (poll : Poll) : Prop :=
  ∀ record ∈ carriedRecords config (polledBatches logs state.position poll),
    (settles config record.2.2 = true ∨ state.settled record.1 record.2.1 = true) ∧
      ¬Stranded logs state record.1

/-- The condition on one action of the loop. -/
def StepSound (state : ConsumerState) : ConsumerAction → Prop
  | .poll poll => state.shutdownRequested = false → PollSound config logs state poll
  | _ => True

variable {config logs}

theorem not_stranded_iff {state : ConsumerState} {partition : TopicPartition} :
    ¬Stranded logs state partition ↔
      SettledBelow logs state partition (state.position partition) := by
  simp only [Stranded, SettledBelow, not_exists, not_and, Bool.not_eq_false]

/-! ## The inner loop -/

/-- The state in which a record's commit is attempted. -/
def afterHandling (config : ConsumerConfig) (state : ConsumerState) (partition : TopicPartition)
    (offset : ℕ) (fate : RecordFate) : ConsumerState :=
  if settles config fate then state.settle partition offset else state

theorem afterHandling_frame (config : ConsumerConfig) (state : ConsumerState)
    (partition : TopicPartition) (offset : ℕ) (fate : RecordFate) :
    let handled := afterHandling config state partition offset fate
    handled.commits = state.commits ∧ handled.position = state.position ∧
      handled.shutdownRequested = state.shutdownRequested ∧
      ∀ other record, (other = partition → record ≠ offset) →
        handled.settled other record = state.settled other record := by
  unfold afterHandling
  split_ifs
  · refine ⟨rfl, rfl, rfl, fun other record distinct => if_neg ?_⟩
    rintro ⟨sameOther, sameRecord⟩
    exact distinct sameOther sameRecord
  · exact ⟨rfl, rfl, rfl, fun _ _ _ => rfl⟩

theorem afterHandling_settled_self (config : ConsumerConfig) (state : ConsumerState)
    (partition : TopicPartition) (offset : ℕ) (fate : RecordFate) :
    (afterHandling config state partition offset fate).settled partition offset = true ↔
      settles config fate = true ∨ state.settled partition offset = true := by
  unfold afterHandling
  split_ifs with settling
  · simp [ConsumerState.settle, settling]
  · simp [settling]

variable (config) in
/-- What one record does to the loop: it is not committed and ends its partition,
or it is committed and the loop goes on. -/
theorem handlePartition_cons {state : ConsumerState} (running : state.shutdownRequested = false)
    (partition : TopicPartition) (offset : ℕ) (fate : RecordFate)
    (records : List (ℕ × RecordFate)) :
    let handled := afterHandling config state partition offset fate
    (commits config fate = true ∧
        handlePartition config partition state ((offset, fate) :: records) =
          handlePartition config partition
            (handled.commit partition offset (quarantineOf config fate)) records) ∨
      (commits config fate = false ∧
        ∃ flow reached,
          handlePartition config partition state ((offset, fate) :: records) = (reached, flow) ∧
          reached.commits = state.commits ∧ reached.position = state.position ∧
          (∀ other record, (other = partition → record ≠ offset) →
            reached.settled other record = state.settled other record) ∧
          ((flow = .abandoned ∨ reached.shutdownRequested = true) ↔
            (fate.shutdownRequested = true ∨ handleRecord config fate = .escaped))) := by
  intro handled
  have same : { state with shutdownRequested := false } = state := by
    rw [← running]
  obtain ⟨sameCommits, samePosition, sameShutdown, sameSettled⟩ :=
    afterHandling_frame config state partition offset fate
  rw [handlePartition]
  simp only [running, Bool.false_or]
  cases shutdown : fate.shutdownRequested with
  | true =>
      right
      refine ⟨by simp [commits, shutdown], .nextPartition, _, rfl, rfl, rfl, fun _ _ _ => rfl, ?_⟩
      simp
  | false =>
      simp only [Bool.false_eq_true, if_false, same, false_or]
      cases outcome : handleRecord config fate with
      | escaped =>
          right
          refine ⟨by simp [commits, outcome], .abandoned, handled, rfl, sameCommits, samePosition,
            sameSettled, ?_⟩
          simp
      | notHandled =>
          right
          refine ⟨by simp [commits, outcome], .nextPartition, handled, rfl, sameCommits,
            samePosition, sameSettled, ?_⟩
          simp [handled, sameShutdown, running]
      | fullyProcessed =>
          cases committed : fate.commitSucceeds with
          | true => exact Or.inl ⟨by simp [commits, shutdown, committed, outcome], by simp; rfl⟩
          | false =>
              right
              refine ⟨by simp [commits, committed], .nextPartition, handled, by simp; rfl,
                sameCommits, samePosition, sameSettled, ?_⟩
              simp [handled, sameShutdown, running]
      | quarantined =>
          cases committed : fate.commitSucceeds with
          | true => exact Or.inl ⟨by simp [commits, shutdown, committed, outcome], by simp; rfl⟩
          | false =>
              right
              refine ⟨by simp [commits, committed], .nextPartition, handled, by simp; rfl,
                sameCommits, samePosition, sameSettled, ?_⟩
              simp [handled, sameShutdown, running]

@[simp] theorem haltsPoll_nil : haltsPoll config [] = false := rfl

theorem haltsPoll_committed {offset : ℕ} {fate : RecordFate} (records : List (ℕ × RecordFate))
    (committed : commits config fate = true) :
    haltsPoll config ((offset, fate) :: records) = haltsPoll config records := by
  simp [haltsPoll, committed]

theorem haltsPoll_first {offset : ℕ} {fate : RecordFate} (records : List (ℕ × RecordFate))
    (skipped : commits config fate = false) :
    haltsPoll config ((offset, fate) :: records) =
      (fate.shutdownRequested || handleRecord config fate = .escaped) := by
  simp [haltsPoll, skipped]

variable (config) in
/-- The inner loop leaves positions and other partitions alone, and it stops the
poll exactly when its first uncommitted record does. -/
theorem handlePartition_frame (partition : TopicPartition) :
    ∀ (records : List (ℕ × RecordFate)) (state : ConsumerState),
      state.shutdownRequested = false →
      let result := handlePartition config partition state records
      result.1.position = state.position ∧
        (∀ other, other ≠ partition → ∀ record,
          result.1.settled other record = state.settled other record) ∧
        ((result.2 = .abandoned ∨ result.1.shutdownRequested = true) ↔
          haltsPoll config records = true) := by
  intro records
  induction records with
  | nil =>
      intro state running
      refine ⟨rfl, fun _ _ _ => rfl, ?_⟩
      simp [handlePartition, running]
  | cons head records ih =>
      intro state running
      obtain ⟨offset, fate⟩ := head
      rcases handlePartition_cons config running partition offset fate records with
        ⟨committed, next⟩ | ⟨skipped, flow, reached, next, -, position, settled, halts⟩
      · obtain ⟨-, samePosition, sameShutdown, sameSettled⟩ :=
          afterHandling_frame config state partition offset fate
        obtain ⟨position, settled, halts⟩ :=
          ih ((afterHandling config state partition offset fate).commit partition offset
            (quarantineOf config fate)) (sameShutdown.trans running)
        rw [next, haltsPoll_committed records committed]
        refine ⟨position.trans samePosition, fun other distinct record => ?_, halts⟩
        rw [settled other distinct record]
        exact sameSettled other record fun same => absurd same distinct
      · rw [next, haltsPoll_first records skipped]
        refine ⟨position, fun other distinct record => ?_, ?_⟩
        · exact settled other record fun same => absurd same distinct
        · rw [halts]
          simp

/-- A contiguous record is committed safely exactly when it is settled and so is
everything below the cursor. -/
theorem settledBelow_handled_iff {state : ConsumerState} {partition : TopicPartition}
    {cursor offset : ℕ} {fate : RecordFate} (member : offset ∈ (logs partition).offsets)
    (le : cursor ≤ offset)
    (gap : ∀ other ∈ (logs partition).offsets, other < offset → other < cursor) :
    SettledBelow logs (afterHandling config state partition offset fate) partition (offset + 1) ↔
      (settles config fate = true ∨ state.settled partition offset = true) ∧
        SettledBelow logs state partition cursor := by
  have elsewhere : ∀ record, record ≠ offset →
      (afterHandling config state partition offset fate).settled partition record =
        state.settled partition record :=
    fun record distinct =>
      (afterHandling_frame config state partition offset fate).2.2.2 _ record fun _ => distinct
  constructor
  · intro below
    refine ⟨?_, fun record inLog lower => ?_⟩
    · exact (afterHandling_settled_self config state partition offset fate).mp
        (below offset member (Nat.lt_succ_self offset))
    · rw [← elsewhere record (by omega)]
      exact below record inLog (by omega)
  · rintro ⟨here, below⟩ record inLog lower
    by_cases same : record = offset
    · rw [same]
      exact (afterHandling_settled_self config state partition offset fate).mpr here
    · rw [elsewhere record same]
      exact below record inLog (gap record inLog (by omega))

theorem noRecordSkipped_commit_iff {state : ConsumerState} {partition : TopicPartition}
    {offset : ℕ} {quarantine : Option Delivery} :
    NoRecordSkipped logs (state.commit partition offset quarantine) ↔
      NoRecordSkipped logs state ∧ SettledBelow logs state partition (offset + 1) := by
  simp only [NoRecordSkipped, ConsumerState.commit, List.mem_append, List.mem_singleton]
  constructor
  · intro safe
    exact ⟨fun commit member => safe commit (Or.inl member), safe _ (Or.inr rfl)⟩
  · rintro ⟨safe, below⟩ commit (member | rfl)
    · exact safe commit member
    · exact below

variable (config) in
/-- **Inner loop.** Its commits are safe exactly when every committed record is
settled and nothing below the cursor is unsettled. -/
theorem handlePartition_safe_iff {partition : TopicPartition} :
    ∀ {records : List (ℕ × RecordFate)} (state : ConsumerState) {cursor : ℕ},
      state.shutdownRequested = false →
      Contiguous (logs partition).offsets cursor (records.map Prod.fst) →
      (NoRecordSkipped logs (handlePartition config partition state records).1 ↔
        NoRecordSkipped logs state ∧
          ∀ record ∈ records.takeWhile fun record => commits config record.2,
            (settles config record.2 = true ∨ state.settled partition record.1 = true) ∧
              SettledBelow logs state partition cursor) := by
  intro records
  induction records with
  | nil =>
      intro state cursor _ _
      simp [handlePartition]
  | cons head records ih =>
      intro state cursor running contiguous
      obtain ⟨offset, fate⟩ := head
      simp only [List.map_cons] at contiguous
      obtain ⟨member, le, gap, rest⟩ := contiguous
      rcases handlePartition_cons config running partition offset fate records with
        ⟨committed, next⟩ | ⟨skipped, flow, reached, next, sameCommits, -, -, -⟩
      · obtain ⟨sameCommits, -, sameShutdown, sameSettled⟩ :=
          afterHandling_frame config state partition offset fate
        have later : ∀ record ∈ records.takeWhile fun record => commits config record.2,
            (afterHandling config state partition offset fate).settled partition record.1 =
              state.settled partition record.1 := by
          intro record taken
          have inRecords := (List.takeWhile_prefix _).subset taken
          have above := rest.le_of_mem record.1 (List.mem_map_of_mem inRecords)
          exact sameSettled _ _ fun _ => by omega
        have before : NoRecordSkipped logs (afterHandling config state partition offset fate) ↔
            NoRecordSkipped logs state := by
          simp only [NoRecordSkipped, sameCommits]
        have tail := ih ((afterHandling config state partition offset fate).commit partition
          offset (quarantineOf config fate)) (sameShutdown.trans running) rest
        rw [next, tail, noRecordSkipped_commit_iff, before,
          settledBelow_handled_iff member le gap, List.takeWhile_cons, if_pos committed,
          List.forall_mem_cons, and_assoc]
        refine and_congr_right fun _ => and_congr_right fun here => ?_
        refine forall₂_congr fun record taken => ?_
        have below : SettledBelow logs ((afterHandling config state partition offset fate).commit
            partition offset (quarantineOf config fate)) partition (offset + 1) :=
          (settledBelow_handled_iff member le gap).mpr here
        show (_ ∨ (afterHandling config state partition offset fate).settled partition
          record.1 = true) ∧ _ ↔ _
        rw [later record taken]
        simp only [below, here.2, and_true]
      · rw [next, List.takeWhile_cons, if_neg (by simp [skipped])]
        simp only [NoRecordSkipped, sameCommits, List.not_mem_nil, false_imp_iff, implies_true,
          and_true]

/-! ## The outer loop -/

theorem handlePartition_shutdown {state : ConsumerState} (stopped : state.shutdownRequested = true)
    (partition : TopicPartition) (records : List (ℕ × RecordFate)) :
    handlePartition config partition state records = (state, .nextPartition) := by
  cases records with
  | nil => rfl
  | cons head records =>
      obtain ⟨offset, fate⟩ := head
      rw [handlePartition]
      simp only [stopped, Bool.true_or, if_true, Prod.mk.injEq, and_true]
      rw [← stopped]

/-- Once shutdown is requested, the remaining partitions are only skipped. -/
theorem handlePartitions_shutdown {state : ConsumerState}
    (stopped : state.shutdownRequested = true) :
    ∀ batches : List (TopicPartition × List (ℕ × RecordFate)),
      handlePartitions config state batches = state
  | [] => rfl
  | (partition, records) :: batches => by
      rw [handlePartitions, handlePartition_shutdown stopped]
      exact handlePartitions_shutdown stopped batches

/-- The rest of the poll runs exactly when the first partition does not halt it. -/
theorem handlePartitions_cons {state : ConsumerState} (running : state.shutdownRequested = false)
    (partition : TopicPartition) (records : List (ℕ × RecordFate))
    (batches : List (TopicPartition × List (ℕ × RecordFate))) :
    let reached := (handlePartition config partition state records).1
    (haltsPoll config records = true ∧
        handlePartitions config state ((partition, records) :: batches) = reached) ∨
      (haltsPoll config records = false ∧ reached.shutdownRequested = false ∧
        handlePartitions config state ((partition, records) :: batches) =
          handlePartitions config reached batches) := by
  intro reached
  obtain ⟨-, -, halts⟩ := handlePartition_frame config partition records state running
  rw [handlePartitions]
  cases flow : (handlePartition config partition state records).2 with
  | abandoned =>
      left
      refine ⟨halts.mp (Or.inl flow), ?_⟩
      rw [show handlePartition config partition state records = (reached, .abandoned) from
        Prod.ext rfl flow]
  | nextPartition =>
      rw [show handlePartition config partition state records = (reached, .nextPartition) from
        Prod.ext rfl flow]
      cases stopped : reached.shutdownRequested with
      | true => exact Or.inl ⟨halts.mp (Or.inr stopped), handlePartitions_shutdown stopped batches⟩
      | false =>
          refine Or.inr ⟨?_, rfl, rfl⟩
          rw [← Bool.not_eq_true, ← halts, flow]
          rintro (other | other)
          · cases other
          · rw [stopped] at other
            cases other

theorem carriedRecords_partition :
    ∀ {batches : List (TopicPartition × List (ℕ × RecordFate))},
      ∀ record ∈ carriedRecords config batches, record.1 ∈ batches.map Prod.fst := by
  intro batches
  induction batches with
  | nil =>
      intro record carried
      simp [carriedRecords] at carried
  | cons batch batches ih =>
      intro record carried
      obtain ⟨partition, records⟩ := batch
      rw [carriedRecords, List.mem_append] at carried
      rcases carried with here | later
      · obtain ⟨taken, -, rfl⟩ := List.mem_map.mp here
        exact List.mem_cons_self
      · split_ifs at later
        · simp at later
        · exact List.mem_cons_of_mem _ (ih record later)

variable (config) in
/-- **Outer loop.** The commits of a whole poll are safe exactly when every
carried record is settled and nothing below its partition's cursor is unsettled. -/
theorem handlePartitions_safe_iff {cursor : TopicPartition → ℕ} :
    ∀ {batches : List (TopicPartition × List (ℕ × RecordFate))} (state : ConsumerState),
      state.shutdownRequested = false →
      (batches.map Prod.fst).Nodup →
      (∀ batch ∈ batches,
        Contiguous (logs batch.1).offsets (cursor batch.1) (batch.2.map Prod.fst)) →
      (NoRecordSkipped logs (handlePartitions config state batches) ↔
        NoRecordSkipped logs state ∧
          ∀ record ∈ carriedRecords config batches,
            (settles config record.2.2 = true ∨ state.settled record.1 record.2.1 = true) ∧
              SettledBelow logs state record.1 (cursor record.1)) := by
  intro batches
  induction batches with
  | nil =>
      intro state _ _ _
      simp [handlePartitions, carriedRecords]
  | cons batch batches ih =>
      intro state running nodup contiguous
      obtain ⟨partition, records⟩ := batch
      simp only [List.map_cons, List.nodup_cons] at nodup
      obtain ⟨fresh, nodup⟩ := nodup
      have inner := handlePartition_safe_iff config state running
        (contiguous (partition, records) List.mem_cons_self)
      have here : (∀ record ∈ (records.takeWhile fun record => commits config record.2).map
            fun record => (partition, record),
            (settles config record.2.2 = true ∨ state.settled record.1 record.2.1 = true) ∧
              SettledBelow logs state record.1 (cursor record.1)) ↔
          ∀ record ∈ records.takeWhile fun record => commits config record.2,
            (settles config record.2 = true ∨ state.settled partition record.1 = true) ∧
              SettledBelow logs state partition (cursor partition) := by
        rw [List.forall_mem_map]
      rw [carriedRecords, List.forall_mem_append, here, ← and_assoc, ← inner]
      rcases handlePartitions_cons running partition records batches with
        ⟨halts, next⟩ | ⟨continues, stillRunning, next⟩
      · rw [next, if_pos halts]
        simp
      · obtain ⟨-, sameSettled, -⟩ := handlePartition_frame config partition records state running
        rw [next, if_neg (by simp [continues]), ih _ stillRunning nodup fun other member =>
          contiguous other (List.mem_cons_of_mem _ member)]
        refine and_congr_right fun _ => forall₂_congr fun record carried => ?_
        have distinct : record.1 ≠ partition := by
          intro same
          exact fresh (same ▸ carriedRecords_partition record carried)
        simp only [SettledBelow, sameSettled record.1 distinct]

/-! ## Whole runs -/

theorem polledBatches_nodup (logs : TopicPartition → PartitionLog)
    (position : TopicPartition → ℕ) (poll : Poll) :
    ((polledBatches logs position poll).map Prod.fst).Nodup := by
  rw [polledBatches, List.map_map]
  exact poll.nodup

theorem polledBatches_contiguous (logs : TopicPartition → PartitionLog)
    (position : TopicPartition → ℕ) (poll : Poll) :
    ∀ batch ∈ polledBatches logs position poll,
      Contiguous (logs batch.1).offsets (position batch.1) (batch.2.map Prod.fst) := by
  intro batch member
  obtain ⟨⟨partition, fates⟩, -, rfl⟩ := List.mem_map.mp member
  exact ((logs partition).contiguous_fetch (position partition)).zip fates

/-- **One turn of the loop.** It commits safely exactly when it is sound. -/
theorem consumerStep_safe_iff (state : ConsumerState) (action : ConsumerAction) :
    NoRecordSkipped logs (consumerStep config logs state action) ↔
      NoRecordSkipped logs state ∧ StepSound config logs state action := by
  cases action with
  | poll poll =>
      cases running : state.shutdownRequested with
      | true => simp [consumerStep, StepSound, running]
      | false =>
          have loop := handlePartitions_safe_iff config
            { state with
              position := advancePosition (polledBatches logs state.position poll) state.position }
            running (polledBatches_nodup logs state.position poll)
            (polledBatches_contiguous logs state.position poll)
          rw [consumerStep, if_neg (by simp [running]), loop]
          refine and_congr Iff.rfl ?_
          simp only [StepSound, running, true_imp_iff, PollSound, not_stranded_iff]
          rfl
  | pollRaises => simp [consumerStep, StepSound]
  | rebalance partitions => simp [consumerStep, StepSound, NoRecordSkipped]
  | restart => simp [consumerStep, StepSound, NoRecordSkipped]

/-- **When no commit skips a record.** Over every log, every assignment of
failures to records, and every run of the loop with any batching: all commits are
safe exactly when all polls are sound. -/
theorem no_record_skipped_iff (config : ConsumerConfig) (logs : TopicPartition → PartitionLog)
    (actions : List ConsumerAction) :
    NoRecordSkipped logs (run (consumerStep config logs) .initial actions) ↔
      Along (consumerStep config logs) (StepSound config logs) .initial actions := by
  rw [run_iff_along consumerStep_safe_iff]
  simp [NoRecordSkipped, ConsumerState.initial]

/-! ## Two polls that skip a record -/

section SkippedRecord

private def articles : TopicPartition := ⟨"documents_articles", 0⟩

private def twoRecords : TopicPartition → PartitionLog := fun _ => { offsets := [0, 1] }

private def worker : ConsumerConfig := ⟨3, false, true⟩

/-- One poll that returns the next record of the partition, with this fate. -/
private def pollNext (fate : RecordFate) : ConsumerAction :=
  .poll ⟨[(articles, [fate])], by simp⟩

/-- Every attempt fails and the dead-letter topic cannot be reached. -/
private def outage : RecordFate :=
  { attempts := fun _ => .failed, deadLetter := { flushRaises := true, acknowledged := false } }

/-- The JSON decoder raises something other than a decoding error. -/
private def undecodable : RecordFate := { decoding := .otherException }

/-- The record after a failed one is processed and committed, over the failed one. -/
theorem second_poll_skips_failed_record :
    ¬NoRecordSkipped twoRecords
        (run (consumerStep worker twoRecords) .initial [pollNext outage, pollNext {}]) ∧
      ¬NoRecordSkipped twoRecords
        (run (consumerStep worker twoRecords) .initial [pollNext undecodable, pollNext {}]) := by
  constructor
  · intro safe
    have skipped := safe _ (List.mem_singleton.mpr rfl) 0 List.mem_cons_self (by decide)
    exact absurd skipped (by decide)
  · intro safe
    have skipped := safe _ (List.mem_singleton.mpr rfl) 0 List.mem_cons_self (by decide)
    exact absurd skipped (by decide)

end SkippedRecord

end ImposbroSearch.Indexing
