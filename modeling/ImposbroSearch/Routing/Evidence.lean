import ImposbroSearch.Foundation.Runs
import ImposbroSearch.Routing.Rollout

/-!
# The evidence behind a cutover

Whether the evidence of a cutover is fresh depends on the history of the rollout,
not on its current gates, so a history carries what was recorded when. Every
record of backfill progress withdraws the parity evidence. A transition does not:
evidence recorded in one visit to `verifying` is still there in the next one, as
long as no progress was recorded in between.
-/

namespace ImposbroSearch.Routing

open ImposbroSearch.Foundation

/-- What held at the step that entered cutover. -/
structure CutoverEvidence where
  parityInVisit : Bool
  parityAfterProgress : Bool
  backfillComplete : Bool
  unresolvedDlq : ℕ
  kafkaLag : ℕ
  deriving DecidableEq, Repr

/-- Passing parity was the last evidence recorded after the last backfill progress,
the backfill was complete, nothing was quarantined, and the lag was within budget. -/
structure CutoverEvidence.Complete (maxKafkaLag : ℕ) (evidence : CutoverEvidence) : Prop where
  parity : evidence.parityAfterProgress = true
  backfill : evidence.backfillComplete = true
  dlq : evidence.unresolvedDlq = 0
  lag : evidence.kafkaLag ≤ maxKafkaLag

/-- A rollout with its past: whether the last parity evidence recorded since
`verifying` was last entered passed, whether the last one recorded since the last
backfill progress did, what held at the last cutover, and when it completed. -/
structure RolloutHistory where
  rollout : RoutingRollout := {}
  parityInVisit : Bool := false
  parityAfterProgress : Bool := false
  cutover : Option CutoverEvidence := none
  completedAt : Option ℕ := none
  deriving DecidableEq, Repr

namespace RolloutHistory

/-- The history after an accepted operation. -/
def record (history : RolloutHistory) (now : ℕ) (updated : RoutingRollout) :
    RolloutOperation → RolloutHistory
  | .transition target _ _ _ =>
    { history with
      rollout := updated
      parityInVisit := if target = .verifying then false else history.parityInVisit
      cutover :=
        if target = .cutover then some
          { parityInVisit := history.parityInVisit
            parityAfterProgress := history.parityAfterProgress
            backfillComplete := updated.gates.backfillComplete
            unresolvedDlq := updated.gates.unresolvedDlq
            kafkaLag := updated.gates.kafkaLag }
        else history.cutover
      completedAt := if target = .completed then some now else history.completedAt }
  | .recordBackfillProgress _ _ _ _ =>
    { history with
      rollout := updated
      parityAfterProgress := false }
  | .recordParityEvidence _ passed _ =>
    { history with
      rollout := updated
      parityInVisit := passed
      parityAfterProgress := passed }

/-- One operation at its time; a refused one changes nothing. -/
def step (rollbackWindowSeconds maxKafkaLag : ℕ) (history : RolloutHistory)
    (operation : RolloutOperation × ℕ) : RolloutHistory :=
  match history.rollout.perform rollbackWindowSeconds maxKafkaLag operation.2 operation.1 with
  | .error _ => history
  | .ok updated => history.record operation.2 updated operation.1

/-- The history of a draft. -/
def after (rollbackWindowSeconds maxKafkaLag : ℕ) (operations : List (RolloutOperation × ℕ)) :
    RolloutHistory :=
  run (step rollbackWindowSeconds maxKafkaLag) {} operations

/-- The phases that only a cutover leads to without a way back to dual reads. -/
def AfterCutover (history : RolloutHistory) : Prop :=
  history.rollout.phase = .cutover ∨ history.rollout.phase = .drain ∨
    history.rollout.phase = .completed

instance (history : RolloutHistory) : Decidable history.AfterCutover :=
  inferInstanceAs (Decidable (_ ∨ _))

/-- What every history satisfies. -/
structure Sound (rollbackWindowSeconds maxKafkaLag : ℕ) (history : RolloutHistory) : Prop where
  parity : history.rollout.gates.parityPassed = true → history.parityAfterProgress = true
  backfill : history.rollout.phase = .verifying →
    history.rollout.gates.backfillComplete = true
  cutover : history.AfterCutover →
    ∃ evidence, history.cutover = some evidence ∧ evidence.Complete maxKafkaLag
  deadline : history.rollout.rollbackDeadline =
    history.rollout.cutoverAt.map (· + rollbackWindowSeconds)
  completed : history.rollout.phase = .completed →
    ∃ cutoverAt completedAt, history.rollout.cutoverAt = some cutoverAt ∧
      history.completedAt = some completedAt ∧ cutoverAt + rollbackWindowSeconds ≤ completedAt

variable {rollbackWindowSeconds maxKafkaLag now : ℕ} {history : RolloutHistory}
  {updated : RoutingRollout}

theorem Sound.draft : Sound rollbackWindowSeconds maxKafkaLag {} where
  parity := by simp
  backfill := by simp
  cutover := by simp [AfterCutover]
  deadline := rfl
  completed := by simp

/-- Before a transition into one of these phases the rollout was in an earlier one. -/
theorem afterCutover_of_transition {target : RolloutPhase}
    (allowed : target ∈ history.rollout.phase.allowedTransitions)
    (entered : target = .drain ∨ target = .completed) : history.AfterCutover := by
  revert allowed
  unfold AfterCutover
  rcases entered with rfl | rfl
  · cases history.rollout.phase <;> simp [RolloutPhase.allowedTransitions]
  · cases history.rollout.phase <;> simp [RolloutPhase.allowedTransitions]

/-- Only `verifying` leads to a cutover. -/
theorem verifying_of_cutover {phase : RolloutPhase}
    (allowed : RolloutPhase.cutover ∈ phase.allowedTransitions) : phase = .verifying := by
  revert allowed
  cases phase <;> simp [RolloutPhase.allowedTransitions]

/-- **A transition keeps the evidence sound.** -/
theorem Sound.transition (sound : history.Sound rollbackWindowSeconds maxKafkaLag)
    {target : RolloutPhase} {expectedVersion : ℕ} {requested gates : Option RoutingRolloutGates}
    {evidence : OperationalEvidence}
    (given : history.rollout.transitionGates maxKafkaLag target requested evidence = .ok gates)
    (done : history.rollout.transition rollbackWindowSeconds target expectedVersion gates now =
      .ok updated) :
    (history.record now updated (.transition target expectedVersion requested evidence)).Sound
      rollbackWindowSeconds maxKafkaLag := by
  obtain ⟨allowed, passed, phase, -, kept, -, cutoverAt, deadline⟩ :=
    RoutingRollout.transition_ok done
  obtain ⟨complete, parity, budget⟩ := RoutingRollout.transitionGates_ok given
  constructor
  case parity =>
    intro passing
    refine sound.parity ?_
    rw [← parity, ← kept]
    exact passing
  case backfill =>
    intro verifying
    obtain rfl : target = .verifying := phase ▸ verifying
    show updated.gates.backfillComplete = true
    rw [kept]
    exact RoutingRollout.backfillComplete_of_verifying passed
  case cutover =>
    intro entered
    have here : target = .cutover ∨ target = .drain ∨ target = .completed := phase ▸ entered
    rcases here with rfl | later
    · obtain ⟨proved, dlq, lag⟩ := RoutingRollout.evidence_of_cutover passed
      refine ⟨⟨history.parityInVisit, history.parityAfterProgress, updated.gates.backfillComplete,
        updated.gates.unresolvedDlq, updated.gates.kafkaLag⟩, by simp [record], ?_⟩
      rw [kept]
      constructor
      case parity => exact sound.parity (parity ▸ proved)
      case backfill =>
        -- Verification was entered with a complete backfill, and stays so.
        exact complete.trans (sound.backfill (verifying_of_cutover allowed))
      case dlq => exact dlq
      case lag => exact lag.trans_eq (budget rfl)
    · have stays : target ≠ .cutover := by rcases later with rfl | rfl <;> simp
      obtain ⟨entry, recorded, holds⟩ := sound.cutover (afterCutover_of_transition allowed later)
      exact ⟨entry, (if_neg stays).trans recorded, holds⟩
  case deadline =>
    show updated.rollbackDeadline = updated.cutoverAt.map _
    rw [deadline, cutoverAt]
    split_ifs
    · rfl
    · exact sound.deadline
  case completed =>
    intro finished
    obtain rfl : target = .completed := phase ▸ finished
    obtain ⟨limit, set, elapsed⟩ := RoutingRollout.deadline_of_completed passed
    rw [sound.deadline, Option.map_eq_some_iff] at set
    obtain ⟨entered, at_, rfl⟩ := set
    refine ⟨entered, now, ?_, by simp [record], elapsed⟩
    show updated.cutoverAt = some entered
    rw [cutoverAt, if_neg (by simp), at_]

/-- **Backfill progress withdraws the parity evidence.** -/
theorem Sound.recordBackfillProgress (sound : history.Sound rollbackWindowSeconds maxKafkaLag)
    {expectedVersion : ℕ} {checkpoint : BackfillCheckpoint} {sourceBarrier : String}
    {complete : Bool}
    (done : history.rollout.recordBackfillProgress expectedVersion checkpoint sourceBarrier
      complete = .ok updated) :
    (history.record now updated
      (.recordBackfillProgress expectedVersion checkpoint sourceBarrier complete)).Sound
      rollbackWindowSeconds maxKafkaLag := by
  obtain ⟨-, phase, -, -, withdrawn, -⟩ := RoutingRollout.recordBackfillProgress_ok done
  obtain ⟨cutoverAt, deadline⟩ := RoutingRollout.recordBackfillProgress_deadline done
  constructor
  case parity => exact fun passing => absurd (withdrawn.symm.trans passing) (by simp)
  case backfill => exact fun verifying => absurd (phase.symm.trans verifying) (by simp)
  case cutover =>
    intro entered
    have here : updated.phase = .cutover ∨ updated.phase = .drain ∨ updated.phase = .completed :=
      entered
    simp [phase] at here
  case deadline =>
    show updated.rollbackDeadline = updated.cutoverAt.map _
    rw [deadline, cutoverAt]
    exact sound.deadline
  case completed => exact fun finished => absurd (phase.symm.trans finished) (by simp)

/-- **Parity evidence is recorded as measured.** -/
theorem Sound.recordParityEvidence (sound : history.Sound rollbackWindowSeconds maxKafkaLag)
    {expectedVersion : ℕ} {passed : Bool} {digest : String}
    (done : history.rollout.recordParityEvidence expectedVersion passed digest = .ok updated) :
    (history.record now updated (.recordParityEvidence expectedVersion passed digest)).Sound
      rollbackWindowSeconds maxKafkaLag := by
  obtain ⟨verifying, phase, -, complete, measured, -⟩ :=
    RoutingRollout.recordParityEvidence_ok done
  obtain ⟨cutoverAt, deadline⟩ := RoutingRollout.recordParityEvidence_deadline done
  constructor
  case parity => exact fun passing => measured.symm.trans passing
  case backfill =>
    intro _
    show updated.gates.backfillComplete = true
    rw [complete]
    exact sound.backfill verifying
  case cutover =>
    intro entered
    have here : updated.phase = .cutover ∨ updated.phase = .drain ∨ updated.phase = .completed :=
      entered
    simp [phase] at here
  case deadline =>
    show updated.rollbackDeadline = updated.cutoverAt.map _
    rw [deadline, cutoverAt]
    exact sound.deadline
  case completed => exact fun finished => absurd (phase.symm.trans finished) (by simp)

theorem Sound.step (sound : history.Sound rollbackWindowSeconds maxKafkaLag)
    (operation : RolloutOperation × ℕ) :
    (history.step rollbackWindowSeconds maxKafkaLag operation).Sound rollbackWindowSeconds
      maxKafkaLag := by
  obtain ⟨operation, now⟩ := operation
  unfold RolloutHistory.step
  split
  · exact sound
  next updated done =>
    cases operation with
    | transition target expectedVersion requested evidence =>
        unfold RoutingRollout.perform at done
        simp only at done
        split at done
        · cases done
        next gates given => exact sound.transition given done
    | recordBackfillProgress => exact sound.recordBackfillProgress done
    | recordParityEvidence => exact sound.recordParityEvidence done

/-- **Every history is sound.** -/
theorem sound_after (operations : List (RolloutOperation × ℕ)) :
    (after rollbackWindowSeconds maxKafkaLag operations).Sound rollbackWindowSeconds
      maxKafkaLag := by
  refine run_invariant_always (I := Sound rollbackWindowSeconds maxKafkaLag) ?_ Sound.draft
  exact fun _ operation sound => sound.step operation

/-- An accepted operation raises the version by one. -/
theorem version_of_perform {rollout : RoutingRollout} {operation : RolloutOperation}
    (done : rollout.perform rollbackWindowSeconds maxKafkaLag now operation = .ok updated) :
    updated.version = rollout.version + 1 := by
  cases operation with
  | transition target expectedVersion requested evidence =>
      unfold RoutingRollout.perform at done
      simp only at done
      split at done
      · cases done
      · exact (RoutingRollout.transition_ok done).2.2.2.1
  | recordBackfillProgress => exact (RoutingRollout.recordBackfillProgress_ok done).2.2.1
  | recordParityEvidence => exact (RoutingRollout.recordParityEvidence_ok done).2.2.1

/-- **Rollout evidence.** In every history of a draft, a rollout in or past cutover
entered it on complete evidence, with passing parity recorded after the last
backfill progress; it completed no earlier than its rollback window allows; and
every accepted operation raises its version. -/
theorem evidence_after (rollbackWindowSeconds maxKafkaLag : ℕ)
    (operations : List (RolloutOperation × ℕ)) :
    ((after rollbackWindowSeconds maxKafkaLag operations).AfterCutover →
      ∃ evidence, (after rollbackWindowSeconds maxKafkaLag operations).cutover = some evidence ∧
        evidence.Complete maxKafkaLag) ∧
    ((after rollbackWindowSeconds maxKafkaLag operations).rollout.phase = .completed →
      ∃ cutoverAt completedAt,
        (after rollbackWindowSeconds maxKafkaLag operations).rollout.cutoverAt = some cutoverAt ∧
        (after rollbackWindowSeconds maxKafkaLag operations).completedAt = some completedAt ∧
        cutoverAt + rollbackWindowSeconds ≤ completedAt) ∧
    ∀ now operation updated,
      (after rollbackWindowSeconds maxKafkaLag operations).rollout.perform rollbackWindowSeconds
        maxKafkaLag now operation = .ok updated →
      (after rollbackWindowSeconds maxKafkaLag operations).rollout.version < updated.version := by
  have sound : (after rollbackWindowSeconds maxKafkaLag operations).Sound rollbackWindowSeconds
      maxKafkaLag := sound_after operations
  refine ⟨sound.cutover, sound.completed, fun now operation updated done => ?_⟩
  rw [version_of_perform done]
  exact Nat.lt_succ_self _

/-- Attested dual-write, one complete backfill step, passing parity, and then a way
back to backfill and forth again before the cutover. -/
def staleVisit : List (RolloutOperation × ℕ) :=
  let measured : OperationalEvidence := ⟨0, 0, 0⟩
  [(.transition .validating 1 none measured, 1),
    (.transition .dualWrite 2 (some { validationPassed := true, capacityPassed := true }) measured,
      2),
    (.transition .backfill 3 none measured, 3),
    (.recordBackfillProgress 4 { sourceBarrierPosition := some 0, rawCopyComplete := true }
      "outbox:0" true, 4),
    (.transition .verifying 5 none measured, 5),
    (.recordParityEvidence 6 true "sha256:0", 6),
    (.transition .backfill 7 none measured, 7),
    (.transition .verifying 8 none measured, 8),
    (.transition .cutover 9 none measured, 9)]

/-- The parity evidence of a cutover may stem from an earlier visit to `verifying`. -/
theorem parity_of_earlier_visit :
    (after 60 0 staleVisit).AfterCutover ∧
      ∃ evidence, (after 60 0 staleVisit).cutover = some evidence ∧
        evidence.parityInVisit = false := by
  have entered : (after 60 0 staleVisit).cutover = some ⟨false, true, true, 0, 0⟩ := by decide
  exact ⟨by decide, _, entered, rfl⟩

end RolloutHistory

end ImposbroSearch.Routing
