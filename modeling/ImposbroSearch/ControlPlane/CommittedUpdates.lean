import ImposbroSearch.ControlPlane.Replica

/-!
# What a committed revision contains

The compare-and-set orders commits by revision, but what it commits is the
runtime of a replica. The update is exactly the request's mutation when that
runtime is the state committed at the expected revision with this mutation on it
and nothing else. The runtime's provenance says whether it is: it is true of every
reachable system, whatever the replicas do.
-/

namespace ImposbroSearch.ControlPlane

open ImposbroSearch.Foundation

variable {Config Rollout ι : Type} [DecidableEq ι] {system : System Config Rollout ι}

/-- The snapshot a request still holds. -/
def Stage.heldSnapshot : Stage Config Rollout → Option (Runtime Config Rollout)
  | .snapshotted snapshot => some snapshot
  | .mutated snapshot => some snapshot
  | .rejected snapshot => some snapshot
  | _ => none

/-- A replica's runtime, current or held as a snapshot, is what its provenance says. -/
def Sourced (system : System Config Rollout ι) (site : ι) (runtime : Runtime Config Rollout) :
    Prop :=
  match runtime.provenance with
  | .committed revision =>
    revision ≤ system.revision ∧ runtime.state = system.committed revision
  | .patched revision id =>
    revision ≤ system.revision ∧ ∃ request, (system.replicas site).requests id = some request ∧
      runtime.state = request.mutation (system.committed revision)
  | .unknown => True

/-- Requests of `replica` are still there in `next`, with their mutations. -/
def KeepsRequests (replica next : Replica Config Rollout) : Prop :=
  ∀ id request, replica.requests id = some request →
    ∃ later, next.requests id = some later ∧ later.mutation = request.mutation

/-- `next` has every revision of `system`, unchanged, and every request. -/
structure Extends (system next : System Config Rollout ι) : Prop where
  revision_le : system.revision ≤ next.revision
  committed_eq : ∀ revision ≤ system.revision, next.committed revision = system.committed revision
  requests : ∀ site, KeepsRequests (system.replicas site) (next.replicas site)

omit [DecidableEq ι] in
theorem Sourced.extend {next : System Config Rollout ι} (grows : Extends system next) {site : ι}
    {runtime : Runtime Config Rollout} (sourced : Sourced system site runtime) :
    Sourced next site runtime := by
  unfold Sourced at sourced ⊢
  split at sourced
  next revision _ =>
    obtain ⟨le, state⟩ := sourced
    exact ⟨Nat.le_trans le grows.revision_le, by rw [grows.committed_eq revision le, state]⟩
  next revision id _ =>
    obtain ⟨le, request, found, state⟩ := sourced
    obtain ⟨later, stays, mutation⟩ := grows.requests site id request found
    refine ⟨Nat.le_trans le grows.revision_le, later, stays, ?_⟩
    rw [grows.committed_eq revision le, state, mutation]
  · trivial

namespace Replica

variable {replica : Replica Config Rollout} {id : ℕ} {request : AdminRequest Config Rollout}

theorem keepsRequests_refl : KeepsRequests replica replica :=
  fun _ request found => ⟨request, found, rfl⟩

theorem setStage_keepsRequests {base : Replica Config Rollout}
    (same : base.requests = replica.requests) (found : replica.requests id = some request)
    (stage : Stage Config Rollout) : KeepsRequests replica (base.setStage id request stage) := by
  intro other otherRequest otherFound
  by_cases here : other = id
  · subst here
    rw [found] at otherFound
    cases otherFound
    exact ⟨_, setStage_self, rfl⟩
  · exact ⟨otherRequest, by rw [setStage_of_ne here, same, otherFound], rfl⟩

theorem markAppliedRevision_requests :
    replica.markAppliedRevision.requests = replica.requests := by
  unfold markAppliedRevision
  split_ifs
  · rfl
  · rfl

theorem start_keepsRequests (fresh : replica.requests id = none)
    (mutation : ControlPlaneState Config Rollout → ControlPlaneState Config Rollout) :
    KeepsRequests replica (replica.start id mutation) := by
  intro other otherRequest otherFound
  have distinct : other ≠ id := by
    rintro rfl
    rw [fresh] at otherFound
    cases otherFound
  exact ⟨otherRequest, by rw [start, setStage_of_ne distinct, otherFound], rfl⟩

/-- What is saved is the runtime, unless the cached rollouts leak into it. -/
theorem savedState_eq (keeps : replica.KeepsRollouts) :
    replica.savedState = replica.runtime.state := by
  unfold savedState
  ext1
  · rfl
  · show (if _ then _ else _) = _
    split_ifs with empty
    · rw [List.isEmpty_iff.mp (keeps empty), List.isEmpty_iff.mp empty]
    · rfl

end Replica

theorem setReplica_extends {site : ι} {replica : Replica Config Rollout}
    (keeps : KeepsRequests (system.replicas site) replica) :
    Extends system (system.setReplica site replica) where
  revision_le := Nat.le_refl _
  committed_eq _ _ := rfl
  requests other := by
    by_cases same : other = site
    · subst same
      rw [System.setReplica_self]
      exact keeps
    · rw [System.setReplica_of_ne same]
      exact Replica.keepsRequests_refl

theorem commit_extends {site : ι} {id : ℕ} {request : AdminRequest Config Rollout}
    (found : (system.replicas site).requests id = some request) :
    Extends system (system.commit site id request) where
  revision_le := Nat.le_succ _
  committed_eq _ le := System.commit_committed_of_le le
  requests other := by
    by_cases same : other = site
    · subst same
      rw [System.commit_self]
      exact Replica.setStage_keepsRequests rfl found .saved
    · rw [System.commit_of_ne same]
      exact Replica.keepsRequests_refl

/-- **Revisions and requests only accumulate.** -/
theorem transition_extends {site : ι} {action : ReplicaAction Config Rollout}
    {next : System Config Rollout ι} (moves : Transition system site action next) :
    Extends system next := by
  cases moves with
  | idle => exact ⟨Nat.le_refl _, fun _ _ => rfl, fun _ => Replica.keepsRequests_refl⟩
  | start id mutation ifMatch fresh =>
      exact setReplica_extends (Replica.start_keepsRequests fresh mutation)
  | refuse id request found unmutated =>
      exact setReplica_extends (Replica.setStage_keepsRequests rfl found _)
  | snapshot id request found stage =>
      exact setReplica_extends (Replica.setStage_keepsRequests rfl found _)
  | mutate id request snapshot found stage =>
      exact setReplica_extends (Replica.setStage_keepsRequests rfl found _)
  | escape id request snapshot found stage =>
      exact setReplica_extends (Replica.setStage_keepsRequests rfl found _)
  | reject id request snapshot outcome found stage =>
      exact setReplica_extends (Replica.setStage_keepsRequests rfl found _)
  | commit id request snapshot found stage matching => exact commit_extends found
  | markApplied id request found stage =>
      exact setReplica_extends
        (Replica.setStage_keepsRequests Replica.markAppliedRevision_requests found _)
  | restore id request snapshot found stage =>
      exact setReplica_extends (Replica.setStage_keepsRequests rfl found _)
  | load outcome =>
      cases outcome with
      | loads => exact setReplica_extends Replica.keepsRequests_refl
      | unreadable => exact setReplica_extends Replica.keepsRequests_refl
      | secretsInvalid => exact setReplica_extends Replica.keepsRequests_refl
  | swap raises revision config found =>
      simp only [System.swap, found]
      cases raises with
      | true => exact setReplica_extends Replica.keepsRequests_refl
      | false => exact setReplica_extends Replica.keepsRequests_refl

/-! ## Provenance is true -/

/-- The replica's revision exists, its runtime and every snapshot are what their
provenance says, and what a pending reload holds was committed. -/
structure TruthfulAt (system : System Config Rollout ι) (site : ι)
    (replica : Replica Config Rollout) : Prop where
  current_le : replica.currentRevision ≤ system.revision
  runtime : Sourced system site replica.runtime
  snapshot : ∀ id request snapshot, replica.requests id = some request →
    request.stage.heldSnapshot = some snapshot → Sourced system site snapshot
  loaded : ∀ revision config, replica.loaded = some (revision, config) →
    revision ≤ replica.currentRevision ∧ config = (system.committed revision).config ∧
      (replica.currentRevision = revision →
        replica.routingRollouts = (system.committed revision).routingRollouts)

omit [DecidableEq ι] in
/-- A mutation in place, recorded or not. -/
theorem Sourced.mutate {site : ι} {replica : Replica Config Rollout} {id : ℕ}
    {request : AdminRequest Config Rollout} (sourced : Sourced system site replica.runtime)
    (found : ∃ later, (system.replicas site).requests id = some later ∧
      later.mutation = request.mutation) :
    Sourced system site (replica.mutateRuntime id request.mutation).runtime := by
  unfold Sourced at sourced
  unfold Sourced Replica.mutateRuntime Provenance.patch
  cases source : replica.runtime.provenance with
  | committed revision =>
      obtain ⟨later, stays, same⟩ := found
      rw [source] at sourced
      exact ⟨sourced.1, later, stays, by rw [sourced.2, same]⟩
  | patched revision other => trivial
  | unknown => trivial

/-- Every provenance in the system is true. -/
def Truthful (system : System Config Rollout ι) : Prop :=
  ∀ site, TruthfulAt system site (system.replicas site)

namespace TruthfulAt

variable {next : System Config Rollout ι} {site : ι} {replica : Replica Config Rollout}

omit [DecidableEq ι] in
theorem extend (grows : Extends system next) (truthful : TruthfulAt system site replica) :
    TruthfulAt next site replica where
  current_le := Nat.le_trans truthful.current_le grows.revision_le
  runtime := truthful.runtime.extend grows
  snapshot id request snapshot found held := (truthful.snapshot id request snapshot found held).extend
    grows
  loaded revision config found := by
    obtain ⟨le, same, cached⟩ := truthful.loaded revision config found
    rw [grows.committed_eq revision (Nat.le_trans le truthful.current_le)]
    exact ⟨le, same, cached⟩

omit [DecidableEq ι] in
/-- A request's new stage holds no snapshot, or a true one. -/
theorem setStage (truthful : TruthfulAt next site replica) {id : ℕ}
    {request : AdminRequest Config Rollout} {stage : Stage Config Rollout}
    (held : ∀ snapshot, stage.heldSnapshot = some snapshot → Sourced next site snapshot) :
    TruthfulAt next site (replica.setStage id request stage) where
  current_le := truthful.current_le
  runtime := truthful.runtime
  loaded := truthful.loaded
  snapshot other otherRequest snapshot found holds := by
    by_cases here : other = id
    · subst here
      rw [Replica.setStage_self] at found
      cases found
      exact held snapshot holds
    · rw [Replica.setStage_of_ne here] at found
      exact truthful.snapshot other otherRequest snapshot found holds

omit [DecidableEq ι] in
/-- Another true runtime. -/
theorem withRuntime (truthful : TruthfulAt next site replica) {runtime : Runtime Config Rollout}
    (sourced : Sourced next site runtime) :
    TruthfulAt next site { replica with runtime := runtime } where
  current_le := truthful.current_le
  runtime := sourced
  snapshot := truthful.snapshot
  loaded := truthful.loaded

/-- The committer's runtime is the committed state, unless rollouts leaked into it. -/
theorem afterCommit {id : ℕ} {request : AdminRequest Config Rollout}
    (current : (system.replicas site).currentRevision ≤ system.revision)
    (truthful : TruthfulAt (system.commit site id request) site (system.replicas site)) :
    TruthfulAt (system.commit site id request) site
      ((system.replicas site).afterCommit (system.revision + 1)) where
  current_le := Nat.le_refl _
  runtime := by
    unfold Sourced Replica.afterCommit
    by_cases keeps : (system.replicas site).KeepsRollouts
    · simp only [keeps, if_true]
      exact ⟨Nat.le_refl _, by rw [System.commit_committed, Replica.savedState_eq keeps]⟩
    · simp only [keeps, if_false]
  snapshot := truthful.snapshot
  loaded revision config found := by
    obtain ⟨le, same, -⟩ := truthful.loaded revision config found
    have older : revision < system.revision + 1 := Nat.lt_succ_of_le (Nat.le_trans le current)
    exact ⟨Nat.le_of_lt older, same, fun reached => absurd reached (Nat.ne_of_gt older)⟩

omit [DecidableEq ι] in
theorem markApplied (truthful : TruthfulAt next site replica) :
    TruthfulAt next site replica.markAppliedRevision := by
  unfold Replica.markAppliedRevision
  split_ifs
  · exact truthful
  · exact truthful.withRuntime truthful.runtime

end TruthfulAt

/-- A step that changes one replica keeps the others truthful. -/
theorem Truthful.setReplica (truthful : Truthful system) {site : ι}
    {replica : Replica Config Rollout} (grows : Extends system (system.setReplica site replica))
    (here : TruthfulAt (system.setReplica site replica) site replica) :
    Truthful (system.setReplica site replica) := by
  intro other
  by_cases same : other = site
  · subst same
    rw [System.setReplica_self]
    exact here
  · rw [System.setReplica_of_ne same]
    exact (truthful other).extend grows

/-- **Provenance stays true**, whatever the step. -/
theorem Truthful.step (truthful : Truthful system) {site : ι}
    {action : ReplicaAction Config Rollout} {next : System Config Rollout ι}
    (moves : Transition system site action next) : Truthful next := by
  have grows := transition_extends moves
  have before : TruthfulAt next site (system.replicas site) := (truthful site).extend grows
  cases moves with
  | idle => exact truthful
  | start id mutation ifMatch fresh =>
      exact truthful.setReplica grows (before.setStage (by rintro _ ⟨⟩))
  | refuse id request found unmutated =>
      exact truthful.setReplica grows (before.setStage (by rintro _ ⟨⟩))
  | snapshot id request found stage =>
      refine truthful.setReplica grows (before.setStage ?_)
      rintro _ ⟨⟩
      exact before.runtime
  | mutate id request snapshot found stage =>
      refine truthful.setReplica grows ((before.withRuntime ?_).setStage ?_)
      · exact before.runtime.mutate (grows.requests site id request found)
      · rintro _ ⟨⟩
        exact before.snapshot id request snapshot found (by rw [stage]; rfl)
  | escape id request snapshot found stage =>
      exact truthful.setReplica grows (before.setStage (by rintro _ ⟨⟩))
  | reject id request snapshot outcome found stage =>
      refine truthful.setReplica grows (before.setStage ?_)
      rintro _ ⟨⟩
      exact before.snapshot id request snapshot found (by rw [stage]; rfl)
  | commit id request snapshot found stage matching =>
      intro other
      by_cases same : other = site
      · subst same
        rw [System.commit_self]
        refine TruthfulAt.setStage ?_ (by rintro _ ⟨⟩)
        exact before.afterCommit (truthful other).current_le
      · rw [System.commit_of_ne same]
        exact (truthful other).extend grows
  | markApplied id request found stage =>
      exact truthful.setReplica grows (before.markApplied.setStage (by rintro _ ⟨⟩))
  | restore id request snapshot found stage =>
      refine truthful.setReplica grows ((before.withRuntime ?_).setStage (by rintro _ ⟨⟩))
      exact before.snapshot id request snapshot found (by rw [stage]; rfl)
  | load outcome =>
      cases outcome with
      | unreadable =>
          exact truthful.setReplica grows { before with loaded := by rintro _ _ ⟨⟩ }
      | secretsInvalid =>
          exact truthful.setReplica grows
            { before with current_le := Nat.le_refl _, loaded := by rintro _ _ ⟨⟩ }
      | loads =>
          refine truthful.setReplica grows { before with current_le := Nat.le_refl _, loaded := ?_ }
          rintro _ _ ⟨⟩
          exact ⟨Nat.le_refl _, rfl, fun _ => rfl⟩
  | swap raises revision config found =>
      obtain ⟨-, same, cached⟩ := before.loaded revision config found
      simp only [System.swap, found] at grows before same cached ⊢
      cases raises with
      | true => exact truthful.setReplica grows { before with loaded := by rintro _ _ ⟨⟩ }
      | false =>
          refine truthful.setReplica grows
            { before with runtime := ?_, loaded := by rintro _ _ ⟨⟩ }
          unfold Sourced
          by_cases current : revision = (system.replicas site).currentRevision
          · simp only [current, if_true]
            refine ⟨before.current_le, ?_⟩
            rw [← current, same, cached current.symm]
            rfl
          · simp only [current, if_false]

/-! ## Clean commits -/

/-- A save that passes the compare-and-set serialises the state committed at the
revision it replaces, with its own mutation as the only change, and the cached
rollouts do not leak into it. -/
def CleanCommit (system : System Config Rollout ι) (action : Action Config Rollout ι) : Prop :=
  ∀ id request snapshot, action.action = .request id (.save .reaches) →
    (system.replicas action.replica).requests id = some request →
      request.stage = .mutated snapshot → request.expectedRevision = system.revision →
        (system.replicas action.replica).runtime.provenance = .patched system.revision id ∧
          (system.replicas action.replica).KeepsRollouts

/-- Each revision committed on one of `sites` is the one before it with exactly its
committer's mutation applied. -/
structure Faithful (sites : ι → Prop) (system : System Config Rollout ι) : Prop where
  truthful : Truthful system
  committer_le : ∀ revision committer, system.committers revision = some committer →
    revision ≤ system.revision
  applied : ∀ revision committer, system.committers (revision + 1) = some committer →
    sites committer.replica →
      system.committed (revision + 1) = committer.mutation (system.committed revision)

variable {sites : ι → Prop}

/-- Only a commit adds to the history. -/
theorem transition_history {site : ι} {action : ReplicaAction Config Rollout}
    {next : System Config Rollout ι} (moves : Transition system site action next) :
    (next.revision = system.revision ∧ next.committed = system.committed ∧
        next.committers = system.committers) ∨
      ∃ id request snapshot, action = .request id (.save .reaches) ∧
        (system.replicas site).requests id = some request ∧ request.stage = .mutated snapshot ∧
        request.expectedRevision = system.revision ∧ next = system.commit site id request := by
  cases moves with
  | commit id request snapshot found stage matching =>
      exact Or.inr ⟨id, request, snapshot, rfl, found, stage, matching, rfl⟩
  | load outcome => cases outcome <;> exact Or.inl ⟨rfl, rfl, rfl⟩
  | swap raises revision config found =>
      left
      simp only [System.swap, found]
      cases raises <;> exact ⟨rfl, rfl, rfl⟩
  | _ => exact Or.inl ⟨rfl, rfl, rfl⟩

/-- **A clean commit applies exactly its mutation.** -/
theorem Faithful.step (faithful : Faithful sites system) {action : Action Config Rollout ι}
    (clean : sites action.replica → CleanCommit system action) :
    Faithful sites (controlPlaneStep system action) := by
  have moves := controlPlaneStep_transition system action
  have truthful := faithful.truthful.step moves
  rcases transition_history moves with ⟨revision, committed, committers⟩ |
    ⟨id, request, snapshot, saves, found, stage, matching, next⟩
  · refine ⟨truthful, ?_, ?_⟩
    · rw [revision, committers]
      exact faithful.committer_le
    · rw [committed, committers]
      exact faithful.applied
  · refine ⟨truthful, ?_, ?_⟩
    · rw [next]
      intro revision committer isCommitter
      by_cases new : revision = system.revision + 1
      · exact Nat.le_of_eq new
      · have old : system.committers revision = some committer := by
          rwa [System.commit_committers_of_ne new] at isCommitter
        exact Nat.le_succ_of_le (faithful.committer_le revision committer old)
    · rw [next]
      intro revision committer isCommitter onSite
      by_cases new : revision = system.revision
      · subst new
        have here : some (Committer.mk action.replica id request.mutation) = some committer := by
          rwa [System.commit_committers] at isCommitter
        cases here
        obtain ⟨source, keeps⟩ := clean onSite id request snapshot saves found stage matching
        have sourced := (faithful.truthful action.replica).runtime
        rw [Sourced, source] at sourced
        obtain ⟨-, _, again, state⟩ := sourced
        rw [found] at again
        cases again
        rw [System.commit_committed, System.commit_committed_of_le (Nat.le_refl _),
          Replica.savedState_eq keeps, state]
      · have old : system.committers (revision + 1) = some committer := by
          rwa [System.commit_committers_of_ne (by omega)] at isCommitter
        have le := faithful.committer_le _ committer old
        rw [System.commit_committed_of_le le, System.commit_committed_of_le (by omega)]
        exact faithful.applied revision committer old onSite

section FailedReload

private abbrev Notes := ControlPlaneState (List String) String

private def note (text : String) (state : Notes) : Notes :=
  { state with config := state.config ++ [text] }

private def startedAt (ι : Type) : System (List String) String ι where
  revision := 1
  committed := fun _ => ⟨[], []⟩
  committers := fun _ => none
  replicas := fun _ =>
    { currentRevision := 1
      routingRollouts := []
      runtime := ⟨1, ⟨[], []⟩, .committed 1⟩
      requests := fun _ => none
      loaded := none }

end FailedReload

end ImposbroSearch.ControlPlane
