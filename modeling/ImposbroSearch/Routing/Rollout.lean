import Mathlib.Tactic.Common
import ImposbroSearch.Routing.Federation

/-!
# The routing rollout state machine

A rollout moves a collection from its active policy to a candidate policy through
revisioned phases. Each transition needs the version it was computed from, must
be on the list of allowed ones, and must pass the gates of its target phase.
Backfill progress and parity evidence are recorded by the reconciler only.

The plan of a rollout holds what no transition changes. The other timestamps, the
author, and the counters of the checkpoint are reported and never read.
-/

namespace ImposbroSearch.Routing

inductive RolloutPhase where
  | draft
  | validating
  | dualWrite
  | backfill
  | verifying
  | cutover
  | drain
  | completed
  | failed
  | cancelled
  | rollingBack
  | rolledBack
  deriving DecidableEq, Repr

namespace RolloutPhase

def value : RolloutPhase → String
  | draft => "draft"
  | validating => "validating"
  | dualWrite => "dual_write"
  | backfill => "backfill"
  | verifying => "verifying"
  | cutover => "cutover"
  | drain => "drain"
  | completed => "completed"
  | failed => "failed"
  | cancelled => "cancelled"
  | rollingBack => "rolling_back"
  | rolledBack => "rolled_back"

/-- `_ALLOWED_TRANSITIONS` -/
def allowedTransitions : RolloutPhase → List RolloutPhase
  | draft => [validating, cancelled]
  | validating => [dualWrite, failed, cancelled]
  | dualWrite => [backfill, rollingBack, failed]
  | backfill => [verifying, rollingBack, failed]
  | verifying => [backfill, cutover, rollingBack, failed]
  | cutover => [drain, rollingBack, failed]
  | drain => [completed, rollingBack, failed]
  | failed => [rollingBack]
  | rollingBack => [rolledBack, failed]
  | completed => []
  | cancelled => []
  | rolledBack => []

end RolloutPhase

inductive PolicyMode where
  | active
  | candidate
  deriving DecidableEq, Repr

namespace RolloutPhase

/-- The read half of `policy_modes`. -/
def readModes : RolloutPhase → List PolicyMode
  | draft | validating | cancelled | rolledBack => [.active]
  | dualWrite | backfill | verifying | rollingBack | failed => [.active, .candidate]
  | cutover | drain | completed => [.candidate]

/-- The write half of `policy_modes`. -/
def writeModes : RolloutPhase → List PolicyMode
  | draft | validating | cancelled | rolledBack => [.active]
  | dualWrite | backfill | verifying | rollingBack | failed | cutover | drain =>
    [.active, .candidate]
  | completed => [.candidate]

/-- Before dual-write a rollout has no side effects. -/
def BeforeDualWrite (phase : RolloutPhase) : Prop :=
  phase = draft ∨ phase = validating ∨ phase = cancelled

/-- Only a completed rollout writes past the active policy. -/
theorem active_mem_writeModes {phase : RolloutPhase} (ongoing : phase ≠ completed) :
    .active ∈ phase.writeModes := by
  cases phase with
  | completed => exact absurd rfl ongoing
  | _ => exact List.mem_cons_self

theorem candidate_mem_writeModes {phase : RolloutPhase} (begun : ¬phase.BeforeDualWrite)
    (kept : phase ≠ rolledBack) : .candidate ∈ phase.writeModes := by
  cases phase with
  | draft => exact absurd (Or.inl rfl) begun
  | validating => exact absurd (Or.inr (Or.inl rfl)) begun
  | cancelled => exact absurd (Or.inr (Or.inr rfl)) begun
  | rolledBack => exact absurd rfl kept
  | _ => simp [writeModes]

end RolloutPhase

/-- `RoutingRolloutGates` -/
structure RoutingRolloutGates where
  validationPassed : Bool := false
  capacityPassed : Bool := false
  backfillComplete : Bool := false
  sourceBarrier : String := ""
  parityPassed : Bool := false
  parityDigest : String := ""
  unresolvedDlq : ℕ := 0
  kafkaLag : ℕ := 0
  maxKafkaLag : ℕ := 0
  deriving DecidableEq, Repr

/-- `backfill_checkpoint`, without its counters. -/
structure BackfillCheckpoint where
  sourceBarrierPosition : Option ℕ := none
  lastDocumentId : String := ""
  rawCopyComplete : Bool := false
  repairThroughPosition : Option ℕ := none
  repairCursorPosition : Option ℕ := none
  repairComplete : Bool := false
  deriving DecidableEq, Repr

/-- What no transition of a rollout changes. -/
structure RolloutPlan (Doc : Type) where
  rolloutId : String
  collection : String
  activePolicy : RoutingRules Doc
  candidatePolicy : RoutingRules Doc
  rollbackWindowSeconds : ℕ

/-- The policy a mode stands for, `_routing_policies`. -/
def RolloutPlan.policy {Doc : Type} (plan : RolloutPlan Doc) : PolicyMode → RoutingRules Doc
  | .active => plan.activePolicy
  | .candidate => plan.candidatePolicy

/-- `RoutingRollout`, as far as it changes. -/
@[ext] structure RoutingRollout where
  version : ℕ := 1
  phase : RolloutPhase := .draft
  gates : RoutingRolloutGates := {}
  backfillCheckpoint : BackfillCheckpoint := {}
  cutoverAt : Option ℕ := none
  rollbackDeadline : Option ℕ := none
  deriving DecidableEq, Repr

inductive RolloutError where
  | versionConflict (expectedVersion actualVersion : ℕ)
  | invalidTransition (message : String)
  | gate (message : String)
  | evidenceReadOnly (message : String)
  deriving DecidableEq, Repr

/-- What `transition_routing_rollout` measures before a cutover or a completion. -/
structure OperationalEvidence where
  unresolvedDlq : ℕ
  consumerLag : ℕ
  pendingCount : ℕ
  deriving DecidableEq, Repr

namespace RoutingRollout

/-- `_validate_transition_gates`: the first gate that refuses the target phase. -/
def refusedBy (rollbackDeadline : Option ℕ) (target : RolloutPhase) (gates : RoutingRolloutGates)
    (now : ℕ) : Option String :=
  match target with
  | .dualWrite =>
    if !gates.validationPassed || !gates.capacityPassed then
      some "Validation and capacity gates must pass before dual-write"
    else none
  | .verifying =>
    if !gates.backfillComplete || gates.sourceBarrier = "" then
      some "Backfill completion and a source barrier are required before verification"
    else none
  | .cutover =>
    if !gates.parityPassed || gates.parityDigest = "" then
      some "Exact parity evidence is required before cutover"
    else if gates.unresolvedDlq ≠ 0 then some "Unresolved DLQ messages block cutover"
    else if gates.kafkaLag > gates.maxKafkaLag then some "Kafka lag exceeds the cutover budget"
    else none
  | .completed =>
    if rollbackDeadline.elim true fun deadline => now < deadline then
      some "The configured rollback window must elapse before completion"
    else if gates.unresolvedDlq ≠ 0 || gates.kafkaLag > gates.maxKafkaLag then
      some "Lag and DLQ gates must pass before completion"
    else none
  | _ => none

/-- `transition`. No endpoint passes a checkpoint, so it stays. -/
def transition (rollout : RoutingRollout) (rollbackWindowSeconds : ℕ) (target : RolloutPhase)
    (expectedVersion : ℕ) (gates : Option RoutingRolloutGates) (now : ℕ) :
    Except RolloutError RoutingRollout :=
  if expectedVersion ≠ rollout.version then
    .error (.versionConflict expectedVersion rollout.version)
  else if target ∉ rollout.phase.allowedTransitions then
    .error (.invalidTransition ("Cannot transition routing rollout from " ++ rollout.phase.value ++
      " to " ++ target.value))
  else
    match refusedBy rollout.rollbackDeadline target (gates.getD rollout.gates) now with
    | some message => .error (.gate message)
    | none => .ok
      { rollout with
        phase := target
        version := rollout.version + 1
        gates := gates.getD rollout.gates
        cutoverAt := if target = .cutover then some now else rollout.cutoverAt
        rollbackDeadline :=
          if target = .cutover then some (now + rollbackWindowSeconds)
          else rollout.rollbackDeadline }

/-- `record_backfill_progress` -/
def recordBackfillProgress (rollout : RoutingRollout) (expectedVersion : ℕ)
    (checkpoint : BackfillCheckpoint) (sourceBarrier : String) (complete : Bool) :
    Except RolloutError RoutingRollout :=
  if expectedVersion ≠ rollout.version then
    .error (.versionConflict expectedVersion rollout.version)
  else if rollout.phase ≠ .backfill then
    .error (.invalidTransition "Backfill progress can only be recorded in the backfill phase")
  else if sourceBarrier = "" then
    .error (.gate "A durable source barrier is required for backfill")
  else .ok
    { rollout with
      version := rollout.version + 1
      gates :=
        { rollout.gates with
          backfillComplete := complete
          sourceBarrier := sourceBarrier
          parityPassed := false
          parityDigest := "" }
      backfillCheckpoint := checkpoint }

/-- `record_parity_evidence`. What it adds to the checkpoint is only reported. -/
def recordParityEvidence (rollout : RoutingRollout) (expectedVersion : ℕ) (passed : Bool)
    (digest : String) : Except RolloutError RoutingRollout :=
  if expectedVersion ≠ rollout.version then
    .error (.versionConflict expectedVersion rollout.version)
  else if rollout.phase ≠ .verifying then
    .error (.invalidTransition "Parity evidence can only be recorded in the verifying phase")
  else if passed ∧ (!rollout.gates.backfillComplete || rollout.gates.sourceBarrier = "") then
    .error (.gate "Backfill completion and a source barrier are required for parity")
  else if passed ∧ digest = "" then
    .error (.gate "Passing parity evidence requires a digest")
  else .ok
    { rollout with
      version := rollout.version + 1
      gates :=
        { rollout.gates with
          parityPassed := passed
          parityDigest := if passed then digest else "" } }

/-- The gates that `transition_routing_rollout` passes on: attestations for
dual-write, measured evidence for cutover and completion, and none otherwise. -/
def transitionGates (maxKafkaLag : ℕ) (rollout : RoutingRollout) (target : RolloutPhase)
    (requested : Option RoutingRolloutGates) (evidence : OperationalEvidence) :
    Except RolloutError (Option RoutingRolloutGates) :=
  match requested with
  | some requested =>
    if target ≠ .dualWrite then
      .error (.evidenceReadOnly "Backfill, parity, lag, and DLQ evidence are machine-owned.")
    else if requested.backfillComplete || requested.sourceBarrier ≠ "" || requested.parityPassed ||
        requested.parityDigest ≠ "" || requested.unresolvedDlq ≠ 0 || requested.kafkaLag ≠ 0 ||
        requested.maxKafkaLag ≠ 0 then
      .error (.evidenceReadOnly "Only validation and capacity attestations are operator input.")
    else .ok (some
      { rollout.gates with
        validationPassed := requested.validationPassed
        capacityPassed := requested.capacityPassed })
  | none =>
    if target = .cutover ∨ target = .completed then
      .ok (some
        { rollout.gates with
          unresolvedDlq := evidence.unresolvedDlq
          kafkaLag := evidence.consumerLag + evidence.pendingCount
          maxKafkaLag := maxKafkaLag })
    else .ok none

end RoutingRollout

/-- What changes a rollout: the transition endpoint and the reconciler. -/
inductive RolloutOperation where
  | transition (target : RolloutPhase) (expectedVersion : ℕ)
      (requested : Option RoutingRolloutGates) (evidence : OperationalEvidence)
  | recordBackfillProgress (expectedVersion : ℕ) (checkpoint : BackfillCheckpoint)
      (sourceBarrier : String) (complete : Bool)
  | recordParityEvidence (expectedVersion : ℕ) (passed : Bool) (digest : String)
  deriving DecidableEq, Repr

namespace RoutingRollout

/-- One operation at the time `now`. -/
def perform (rollout : RoutingRollout) (rollbackWindowSeconds maxKafkaLag now : ℕ) :
    RolloutOperation → Except RolloutError RoutingRollout
  | .transition target expectedVersion requested evidence =>
    match rollout.transitionGates maxKafkaLag target requested evidence with
    | .error error => .error error
    | .ok gates => rollout.transition rollbackWindowSeconds target expectedVersion gates now
  | .recordBackfillProgress expectedVersion checkpoint sourceBarrier complete =>
    rollout.recordBackfillProgress expectedVersion checkpoint sourceBarrier complete
  | .recordParityEvidence expectedVersion passed digest =>
    rollout.recordParityEvidence expectedVersion passed digest

variable {rollout updated : RoutingRollout}

/-- **What a transition did.** -/
theorem transition_ok {rollbackWindowSeconds expectedVersion now : ℕ} {target : RolloutPhase}
    {gates : Option RoutingRolloutGates}
    (done : rollout.transition rollbackWindowSeconds target expectedVersion gates now =
      .ok updated) :
    target ∈ rollout.phase.allowedTransitions ∧
      refusedBy rollout.rollbackDeadline target (gates.getD rollout.gates) now = none ∧
      updated.phase = target ∧ updated.version = rollout.version + 1 ∧
      updated.gates = gates.getD rollout.gates ∧
      updated.backfillCheckpoint = rollout.backfillCheckpoint ∧
      updated.cutoverAt = (if target = .cutover then some now else rollout.cutoverAt) ∧
      updated.rollbackDeadline =
        (if target = .cutover then some (now + rollbackWindowSeconds)
        else rollout.rollbackDeadline) := by
  unfold transition at done
  split at done
  · cases done
  · split at done
    · cases done
    next allowed =>
      split at done
      · cases done
      next passed =>
        cases done
        exact ⟨not_not.mp allowed, passed, rfl, rfl, rfl, rfl, rfl, rfl⟩

/-- The gates of a transition keep what only the reconciler records. -/
theorem transitionGates_ok {maxKafkaLag : ℕ} {target : RolloutPhase}
    {requested gates : Option RoutingRolloutGates} {evidence : OperationalEvidence}
    (given : rollout.transitionGates maxKafkaLag target requested evidence = .ok gates) :
    (gates.getD rollout.gates).backfillComplete = rollout.gates.backfillComplete ∧
      (gates.getD rollout.gates).parityPassed = rollout.gates.parityPassed ∧
      (target = .cutover → (gates.getD rollout.gates).maxKafkaLag = maxKafkaLag) := by
  unfold transitionGates at given
  split at given
  · split at given
    · cases given
    next allowed =>
      split at given
      · cases given
      · cases given
        refine ⟨rfl, rfl, fun cutover => ?_⟩
        rw [not_not.mp allowed] at cutover
        cases cutover
  · split_ifs at given with measured
    · cases given
      exact ⟨rfl, rfl, fun _ => rfl⟩
    · cases given
      exact ⟨rfl, rfl, fun cutover => absurd (Or.inl cutover) measured⟩

/-- **What recording backfill progress did.** -/
theorem recordBackfillProgress_ok {expectedVersion : ℕ} {checkpoint : BackfillCheckpoint}
    {sourceBarrier : String} {complete : Bool}
    (done : rollout.recordBackfillProgress expectedVersion checkpoint sourceBarrier complete =
      .ok updated) :
    rollout.phase = .backfill ∧ updated.phase = .backfill ∧
      updated.version = rollout.version + 1 ∧ updated.gates.backfillComplete = complete ∧
      updated.gates.parityPassed = false ∧ updated.backfillCheckpoint = checkpoint := by
  unfold recordBackfillProgress at done
  split_ifs at done with stale here unnamed
  cases done
  exact ⟨not_not.mp here, not_not.mp here, rfl, rfl, rfl, rfl⟩

/-- **What recording parity evidence did.** -/
theorem recordParityEvidence_ok {expectedVersion : ℕ} {passed : Bool} {digest : String}
    (done : rollout.recordParityEvidence expectedVersion passed digest = .ok updated) :
    rollout.phase = .verifying ∧ updated.phase = .verifying ∧
      updated.version = rollout.version + 1 ∧
      updated.gates.backfillComplete = rollout.gates.backfillComplete ∧
      updated.gates.parityPassed = passed ∧
      updated.backfillCheckpoint = rollout.backfillCheckpoint := by
  unfold recordParityEvidence at done
  split_ifs at done with stale here incomplete unnamed
  all_goals
    cases done
    exact ⟨not_not.mp here, not_not.mp here, rfl, rfl, rfl, rfl⟩

/-- What the reconciler records never moves the rollback deadline. -/
theorem recordBackfillProgress_deadline {expectedVersion : ℕ} {checkpoint : BackfillCheckpoint}
    {sourceBarrier : String} {complete : Bool}
    (done : rollout.recordBackfillProgress expectedVersion checkpoint sourceBarrier complete =
      .ok updated) :
    updated.cutoverAt = rollout.cutoverAt ∧ updated.rollbackDeadline = rollout.rollbackDeadline := by
  unfold recordBackfillProgress at done
  split_ifs at done
  cases done
  exact ⟨rfl, rfl⟩

theorem recordParityEvidence_deadline {expectedVersion : ℕ} {passed : Bool} {digest : String}
    (done : rollout.recordParityEvidence expectedVersion passed digest = .ok updated) :
    updated.cutoverAt = rollout.cutoverAt ∧ updated.rollbackDeadline = rollout.rollbackDeadline := by
  unfold recordParityEvidence at done
  split_ifs at done
  all_goals
    cases done
    exact ⟨rfl, rfl⟩

/-- Verification is entered only with a complete backfill. -/
theorem backfillComplete_of_verifying {rollbackDeadline : Option ℕ} {gates : RoutingRolloutGates}
    {now : ℕ} (passed : refusedBy rollbackDeadline .verifying gates now = none) :
    gates.backfillComplete = true := by
  by_contra incomplete
  simp [refusedBy, incomplete] at passed

/-- What the gates of a cutover have shown. -/
theorem evidence_of_cutover {rollbackDeadline : Option ℕ} {gates : RoutingRolloutGates}
    {now : ℕ} (passed : refusedBy rollbackDeadline .cutover gates now = none) :
    gates.parityPassed = true ∧ gates.unresolvedDlq = 0 ∧ gates.kafkaLag ≤ gates.maxKafkaLag := by
  unfold refusedBy at passed
  simp only at passed
  split_ifs at passed with unproved quarantined lagging
  simp only [Bool.or_eq_true, Bool.not_eq_true', not_or, Bool.not_eq_false] at unproved
  exact ⟨unproved.1, not_not.mp quarantined, not_lt.mp lagging⟩

/-- A rollout completes only after its rollback window. -/
theorem deadline_of_completed {rollbackDeadline : Option ℕ} {gates : RoutingRolloutGates}
    {now : ℕ} (passed : refusedBy rollbackDeadline .completed gates now = none) :
    ∃ deadline, rollbackDeadline = some deadline ∧ deadline ≤ now := by
  unfold refusedBy at passed
  simp only at passed
  split_ifs at passed with early lagging
  cases rollbackDeadline with
  | none => exact absurd rfl early
  | some deadline => exact ⟨deadline, rfl, by simpa using early⟩

end RoutingRollout

end ImposbroSearch.Routing
